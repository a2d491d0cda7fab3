import PeerWatch.Text.Blank

/-!
# Pieces of a text

What trimming and cutting leave of a text: the pieces between separators hold no separator and give
the text back, and a text that is not blank at its ends is trimmed already.
-/

namespace PeerWatch.Text

/-! ## Blank ends -/

def StartsBare (cs : List Char) : Prop := ∀ c ∈ cs.head?, isBlank c = false

def EndsBare (cs : List Char) : Prop := ∀ c ∈ cs.getLast?, isBlank c = false

variable {cs : List Char}

theorem startsBare_cons {c : Char} : StartsBare (c :: cs) ↔ isBlank c = false := by
  simp [StartsBare]

theorem startsBare_reverse : StartsBare cs.reverse ↔ EndsBare cs := by
  rw [StartsBare, List.head?_reverse, EndsBare]

theorem endsBare_append {rest : List Char} (h : rest ≠ []) :
    EndsBare (cs ++ rest) ↔ EndsBare rest := by
  simp [EndsBare, List.getLast?_append, h]

theorem StartsBare.of_append {rest : List Char} (h : StartsBare (cs ++ rest)) : StartsBare cs := by
  cases cs with
  | nil => simp [StartsBare]
  | cons c cs => exact startsBare_cons.2 (startsBare_cons.1 h)

theorem EndsBare.of_append {rest : List Char} (h : EndsBare (cs ++ rest)) : EndsBare rest := by
  cases rest with
  | nil => simp [EndsBare]
  | cons c rest => exact (endsBare_append (by simp)).1 h

theorem trimStart_of_startsBare (h : StartsBare cs) : trimStart cs = cs := by
  cases cs with
  | nil => rfl
  | cons c cs => exact List.dropWhile_cons_of_neg (by simp [startsBare_cons.1 h])

theorem trimEnd_of_endsBare (h : EndsBare cs) : trimEnd cs = cs := by
  have hreverse : trimStart cs.reverse = cs.reverse :=
    trimStart_of_startsBare (startsBare_reverse.2 h)
  rw [trimEnd, ← trimStart, hreverse, List.reverse_reverse]

theorem trim_of_bare (hstart : StartsBare cs) (hend : EndsBare cs) : trim cs = cs := by
  rw [trim, trimStart_of_startsBare hstart, trimEnd_of_endsBare hend]

theorem trim_cons_of_isBlank {c : Char} (h : isBlank c = true) : trim (c :: cs) = trim cs := by
  rw [trim, trimStart, List.dropWhile_cons_of_pos h, trim, trimStart]

theorem startsBare_trimStart (cs : List Char) : StartsBare (trimStart cs) := by
  intro c hc
  have hfirst := List.head?_dropWhile_not isBlank cs
  rw [trimStart] at hc
  rw [hc] at hfirst
  simpa using hfirst

theorem trimEnd_initial (cs : List Char) : trimEnd cs <+: cs := by
  rw [trimEnd, ← List.reverse_suffix, List.reverse_reverse]
  exact List.dropWhile_suffix isBlank

theorem endsBare_trimEnd (cs : List Char) : EndsBare (trimEnd cs) := by
  rw [← startsBare_reverse, trimEnd, List.reverse_reverse]
  exact startsBare_trimStart cs.reverse

theorem startsBare_trim (cs : List Char) : StartsBare (trim cs) := by
  obtain ⟨blanks, hblanks⟩ := trimEnd_initial (trimStart cs)
  have hstart := startsBare_trimStart cs
  rw [← hblanks] at hstart
  exact hstart.of_append

theorem endsBare_trim (cs : List Char) : EndsBare (trim cs) := endsBare_trimEnd _

theorem mem_of_mem_trim {c : Char} (h : c ∈ trim cs) : c ∈ cs :=
  (List.dropWhile_suffix isBlank).subset ((trimEnd_initial (trimStart cs)).subset h)

/-- Blanks around a text that is bare at its ends are trimmed away, and nothing else is. -/
theorem trim_padded {left right : List Char} (hleft : ∀ c ∈ left, isBlank c = true)
    (hright : ∀ c ∈ right, isBlank c = true) (hne : cs ≠ []) (hstart : StartsBare cs)
    (hend : EndsBare cs) : trim (left ++ (cs ++ right)) = cs := by
  have hfront : StartsBare (cs ++ right) := by
    cases cs with
    | nil => exact absurd rfl hne
    | cons c cs => exact startsBare_cons.2 (startsBare_cons.1 hstart)
  have hback : ∀ c ∈ right.reverse, isBlank c = true := fun c hc => hright c (List.mem_reverse.1 hc)
  have hleading : trimStart (left ++ (cs ++ right)) = cs ++ right := by
    rw [trimStart, List.dropWhile_append_of_pos hleft]
    exact trimStart_of_startsBare hfront
  rw [trim, hleading, trimEnd, List.reverse_append, List.dropWhile_append_of_pos hback]
  exact trimEnd_of_endsBare hend

/-! ## Cutting at a separator -/

variable {sep : Char}

theorem cut_eq_splitOn (sep : Char) (cs : List Char) : cut sep cs = cs.splitOn sep := by
  induction cs with
  | nil => rfl
  | cons c cs ih =>
      rw [cut, ih, List.splitOn_cons_eq_if_modifyHead]
      by_cases hc : c = sep
      · simp [hc]
      · rw [if_neg hc, if_neg (by simpa using hc)]
        split
        next h => exact absurd h (List.splitOn_ne_nil sep cs)
        next h => rw [h, List.modifyHead_cons]

theorem cut_of_not_mem (h : sep ∉ cs) : cut sep cs = [cs] := by
  rw [cut_eq_splitOn, List.splitOn_eq_singleton h]

/-- A separator ends the pieces before it. -/
theorem cut_append (cs rest : List Char) :
    cut sep (cs ++ sep :: rest) = cut sep cs ++ cut sep rest := by
  rw [cut_eq_splitOn, List.splitOn_append_cons_self, cut_eq_splitOn, cut_eq_splitOn]

theorem cut_append_cons (h : sep ∉ cs) (rest : List Char) :
    cut sep (cs ++ sep :: rest) = cs :: cut sep rest := by
  rw [cut_eq_splitOn, List.splitOn_append_cons_self_of_not_mem h, cut_eq_splitOn]

theorem cut_cons_of_ne {c : Char} (h : c ≠ sep) :
    cut sep (c :: cs) = (cut sep cs).modifyHead (c :: ·) := by
  rw [cut_eq_splitOn, List.splitOn_cons_eq_if_modifyHead, if_neg (by simpa using h), cut_eq_splitOn]

theorem not_mem_of_mem_cut {piece : List Char} (h : piece ∈ cut sep cs) : sep ∉ piece := by
  induction cs generalizing piece with
  | nil => simp_all [cut]
  | cons c cs ih =>
      by_cases hc : c = sep
      · rw [cut, if_pos hc, List.mem_cons] at h
        obtain rfl | h := h
        · simp
        · exact ih h
      · rw [cut_cons_of_ne hc] at h
        cases hcut : cut sep cs with
        | nil => simp [hcut] at h
        | cons first pieces =>
            rw [hcut, List.modifyHead_cons, List.mem_cons] at h
            obtain rfl | h := h
            · have hfirst : sep ∉ first := ih (by simp [hcut])
              simp [hfirst, Ne.symm hc]
            · exact ih (by simp [hcut, h])

theorem length_cut (cs : List Char) : (cut sep cs).length = cs.count sep + 1 := by
  induction cs with
  | nil => rfl
  | cons c cs ih =>
      by_cases hc : c = sep
      · rw [cut, if_pos hc, List.length_cons, ih, hc, List.count_cons_self]
      · rw [cut_cons_of_ne hc, List.length_modifyHead, ih, List.count_cons_of_ne hc]

/-- Closing each piece with the separator gives the text back, with one more separator at its
end. -/
theorem flatMap_cut (cs : List Char) : (cut sep cs).flatMap (· ++ [sep]) = cs ++ [sep] := by
  induction cs with
  | nil => rfl
  | cons c cs ih =>
      by_cases hc : c = sep
      · rw [cut, if_pos hc, List.flatMap_cons, ih, hc, List.nil_append, List.singleton_append,
          List.cons_append]
      · obtain ⟨piece, pieces, hcut⟩ := List.exists_cons_of_length_eq_add_one (length_cut cs)
        rw [hcut, List.flatMap_cons] at ih
        rw [cut_cons_of_ne hc, hcut, List.modifyHead_cons, List.flatMap_cons, List.cons_append,
          List.cons_append, ih, List.cons_append]

/-- Cutting undoes joining, but for what stands behind each separator. -/
theorem cut_join {gap : Char} (hgap : gap ≠ sep) {piece : List Char} {pieces : List (List Char)}
    (h : ∀ p ∈ piece :: pieces, sep ∉ p) :
    cut sep (join [sep, gap] (piece :: pieces)) = piece :: pieces.map (gap :: ·) := by
  have hpiece : sep ∉ piece := h piece (by simp)
  induction pieces generalizing piece with
  | nil => exact cut_of_not_mem hpiece
  | cons next pieces ih =>
      have hrest : ∀ p ∈ next :: pieces, sep ∉ p := fun p hp => h p (List.mem_cons_of_mem _ hp)
      have htext : join [sep, gap] (piece :: next :: pieces) =
          piece ++ sep :: gap :: join [sep, gap] (next :: pieces) := by
        simp [join]
      rw [htext, cut_append_cons hpiece, cut_cons_of_ne hgap, ih hrest (hrest next (by simp)),
        List.modifyHead_cons, List.map_cons]

theorem cutOnce_append_cons {before : List Char} (h : sep ∉ before) (after : List Char) :
    cutOnce sep (before ++ sep :: after) = some (before, after) := by
  induction before with
  | nil => simp [cutOnce]
  | cons c before ih =>
      rw [List.mem_cons, not_or] at h
      rw [List.cons_append, cutOnce, if_neg (Ne.symm h.1), ih h.2]
      rfl

theorem eq_of_cutOnce {before after : List Char} (h : cutOnce sep cs = some (before, after)) :
    cs = before ++ sep :: after ∧ sep ∉ before := by
  induction cs generalizing before with
  | nil => cases h
  | cons c cs ih =>
      by_cases hc : c = sep
      · rw [cutOnce, if_pos hc] at h
        cases h
        simp [hc]
      · rw [cutOnce, if_neg hc, Option.map_eq_some_iff] at h
        obtain ⟨⟨rest, after'⟩, hcut, heq⟩ := h
        cases heq
        obtain ⟨rfl, hrest⟩ := ih hcut
        simp [hrest, Ne.symm hc]

theorem cutOnce_eq_none_iff : cutOnce sep cs = none ↔ sep ∉ cs := by
  induction cs with
  | nil => simp [cutOnce]
  | cons c cs ih =>
      by_cases hc : c = sep
      · simp [cutOnce, hc]
      · simp [cutOnce, hc, ih, Ne.symm hc]

theorem dropStart?_eq_some_iff {start rest : List Char} :
    dropStart? start cs = some rest ↔ cs = start ++ rest := by
  induction start generalizing cs with
  | nil => simp [dropStart?]
  | cons s start ih =>
      cases cs with
      | nil => simp [dropStart?]
      | cons c cs =>
          by_cases hc : s = c
          · simp [dropStart?, hc, ih]
          · simp [dropStart?, hc, Ne.symm hc]

end PeerWatch.Text
