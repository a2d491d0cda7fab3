import Mathlib.Data.List.SplitBy
import Mathlib.Data.List.TakeWhile
import PeerWatch.Proofs.Text.Matching
import PeerWatch.Text.Capitalize

/-!
# Words and runs

A text is capitalised by rewriting the matches of a pattern, from the left and without overlap. A
match ends where a run of solid characters does, so that no match reaches over a blank. Hence every
run can be rewritten for itself, and blanks stay where they are.
-/

namespace PeerWatch.Text

/-! ## Rewriting matches -/

namespace Pattern

/-- The text from a place on, with every match of a pattern rewritten, from the left and without
overlap. The number bounds the places that are looked at. -/
def rewriteFrom (p : Pattern) (f : List Char → List Char) : Nat → Cursor → List Char
  | 0, c => c.ahead
  | n + 1, c =>
    match p.match? c Option.some with
    | .some last => f (c.ahead.take (c.ahead.length - last.ahead.length)) ++ p.rewriteFrom f n last
    | .none =>
      match c.ahead with
      | [] => []
      | x :: xs => x :: p.rewriteFrom f n ⟨Option.some x, xs⟩

/-- A text with every match of a pattern rewritten. -/
def rewrite (p : Pattern) (f : List Char → List Char) (cs : List Char) : List Char :=
  p.rewriteFrom f (cs.length + 1) ⟨none, cs⟩

end Pattern

/-- An ASCII letter, digit or underscore with the solid characters behind it. -/
def wordPattern : Pattern := .seq (.one startsWord) (.run isSolid .longestFirst)

def capitalizeWord : List Char → List Char
  | [] => []
  | first :: rest => first.toUpper :: lower rest

theorem matchRun_longest (set : Char → Bool) (before : Option Char) (cs : List Char) :
    matchRun set .longestFirst some before cs =
      some ((⟨before, cs⟩ : Cursor).skip (cs.takeWhile set)) := by
  induction cs generalizing before with
  | nil => rfl
  | cons c cs ih =>
      rw [matchRun]
      by_cases hc : set c = true
      · have hskip := Cursor.skip_append ⟨before, c :: cs⟩ [c] (cs.takeWhile set)
        simp only [if_pos hc, ih, List.takeWhile_cons_of_pos hc]
        exact congrArg some hskip
      · simp only [if_neg hc, List.takeWhile_cons_of_neg hc]
        rfl

theorem match?_wordPattern (before : Option Char) (c : Char) (cs : List Char) :
    wordPattern.match? ⟨before, c :: cs⟩ some =
      if startsWord c then some ((⟨before, c :: cs⟩ : Cursor).skip (c :: cs.takeWhile isSolid))
      else none := by
  have hskip := Cursor.skip_append ⟨before, c :: cs⟩ [c] (cs.takeWhile isSolid)
  show (if startsWord c then matchRun isSolid .longestFirst some (some c) cs else none) = _
  rw [matchRun_longest]
  split
  · exact congrArg some hskip
  · rfl

/-- Capitalising rewrites the words that the pattern finds. -/
theorem rewriteFrom_wordPattern {n : Nat} {c : Cursor} (h : c.ahead.length < n) :
    wordPattern.rewriteFrom capitalizeWord n c = capitalizeChars c.ahead := by
  induction n generalizing c with
  | zero => exact absurd h (Nat.not_lt_zero _)
  | succ n ih =>
      obtain ⟨before, ahead⟩ := c
      cases ahead with
      | nil =>
          rw [Pattern.rewriteFrom, capitalizeChars]
          rfl
      | cons x xs =>
          have hlength : xs.length < n := Nat.lt_of_succ_lt_succ h
          rw [Pattern.rewriteFrom, match?_wordPattern, capitalizeChars]
          by_cases hx : startsWord x = true
          · have hsplit : x :: xs = (x :: xs.takeWhile isSolid) ++ xs.dropWhile isSolid := by
              rw [List.cons_append, List.takeWhile_append_dropWhile]
            have hahead : ((⟨before, x :: xs⟩ : Cursor).skip (x :: xs.takeWhile isSolid)).ahead =
                xs.dropWhile isSolid := Cursor.ahead_skip hsplit
            have htaken : (x :: xs).take ((x :: xs).length - (xs.dropWhile isSolid).length) =
                x :: xs.takeWhile isSolid := by
              rw [hsplit, List.length_append, Nat.add_sub_cancel, List.take_left]
            have hshorter := (List.dropWhile_suffix (l := xs) isSolid).length_le
            simp only [if_pos hx, hahead, htaken]
            rw [ih (by rw [hahead]; omega), hahead]
            rfl
          · simp only [if_neg hx]
            exact congrArg (x :: ·) (ih hlength)

theorem rewrite_wordPattern (cs : List Char) :
    wordPattern.rewrite capitalizeWord cs = capitalizeChars cs :=
  rewriteFrom_wordPattern (Nat.lt_succ_self _)

/-! ## Borders of words -/

theorem code_of_startsWord {c : Char} (h : startsWord c = true) : 48 ≤ c.toNat ∧ c.toNat ≤ 122 := by
  change ((decide (c.val ≥ 'A'.val ∧ c.val ≤ 'Z'.val) ||
    decide (c.val ≥ 'a'.val) && decide (c.val ≤ 'z'.val)) ||
    decide (c.val ≥ '0'.val) && decide (c.val ≤ '9'.val) || c == '_') = true at h
  simp only [Bool.or_eq_true, Bool.and_eq_true, decide_eq_true_eq, beq_iff_eq, ge_iff_le,
    UInt32.le_iff_toNat_le] at h
  change (((65 ≤ c.toNat ∧ c.toNat ≤ 90) ∨ (97 ≤ c.toNat ∧ c.toNat ≤ 122)) ∨
    (48 ≤ c.toNat ∧ c.toNat ≤ 57)) ∨ c = '_' at h
  rcases h with hcode | rfl
  · omega
  · decide

theorem isSolid_of_startsWord {c : Char} (h : startsWord c = true) : isSolid c = true := by
  have hcode := code_of_startsWord h
  simp [isSolid, isBlank]
  omega

theorem not_startsWord_of_isBlank {c : Char} (h : isBlank c = true) : ¬ startsWord c = true := by
  intro hstarts
  have hsolid := isSolid_of_startsWord hstarts
  rw [isSolid, h] at hsolid
  cases hsolid

/-- Two pieces of a text that no word reaches across: a blank stands on one side of the border. -/
def Border (a b : List Char) : Prop :=
  ∀ x ∈ a.getLast?, ∀ y ∈ b.head?, isSolid x = true → ¬ isSolid y = true

theorem border_nil (b : List Char) : Border [] b :=
  fun _ hx => by cases hx

/-- A word that starts in the left piece ends there, as if the right piece were not there. -/
theorem Border.word_ends {c : Char} {cs b : List Char} (h : Border (c :: cs) b)
    (hc : isSolid c = true) :
    (cs ++ b).takeWhile isSolid = cs.takeWhile isSolid ∧
      (cs ++ b).dropWhile isSolid = cs.dropWhile isSolid ++ b ∧
      Border (cs.dropWhile isSolid) b := by
  induction cs generalizing c with
  | nil =>
      cases b with
      | nil => exact ⟨rfl, rfl, border_nil _⟩
      | cons y b =>
          have hy : ¬ isSolid y = true := h c rfl y rfl hc
          rw [List.nil_append, List.takeWhile_cons_of_neg hy, List.dropWhile_cons_of_neg hy]
          exact ⟨rfl, rfl, border_nil _⟩
  | cons x cs ih =>
      have htail : Border (x :: cs) b := by
        intro y hy
        exact h y (by rwa [List.getLast?_cons_cons])
      by_cases hx : isSolid x = true
      · obtain ⟨htake, hdrop, hborder⟩ := ih htail hx
        rw [List.cons_append, List.takeWhile_cons_of_pos hx, List.takeWhile_cons_of_pos hx,
          List.dropWhile_cons_of_pos hx, List.dropWhile_cons_of_pos hx, htake]
        exact ⟨rfl, hdrop, hborder⟩
      · rw [List.cons_append, List.takeWhile_cons_of_neg hx, List.takeWhile_cons_of_neg hx,
          List.dropWhile_cons_of_neg hx, List.dropWhile_cons_of_neg hx]
        exact ⟨rfl, rfl, htail⟩

/-- Pieces with a border between them are capitalised apart. -/
theorem capitalizeChars_append {a b : List Char} (h : Border a b) :
    capitalizeChars (a ++ b) = capitalizeChars a ++ capitalizeChars b := by
  induction a using capitalizeChars.induct with
  | case1 => rw [List.nil_append, capitalizeChars, List.nil_append]
  | case2 c cs hc ih =>
      obtain ⟨htake, hdrop, hborder⟩ := h.word_ends (isSolid_of_startsWord hc)
      rw [List.cons_append, capitalizeChars, if_pos hc, htake, hdrop, ih hborder,
        capitalizeChars, if_pos hc, List.append_assoc]
  | case3 c cs hc ih =>
      have htail : Border cs b := by
        intro x hx
        exact h x (by rw [List.getLast?_cons, hx]; rfl)
      rw [List.cons_append, capitalizeChars, if_neg hc, ih htail, capitalizeChars, if_neg hc,
        List.cons_append]

/-! ## Runs -/

def sameBlankness (a b : Char) : Bool := isBlank a == isBlank b

/-- The maximal runs of blank and of solid characters of a text. -/
def runs (cs : List Char) : List (List Char) := cs.splitBy sameBlankness

/-- A run capitalised for itself: a blank run is kept, and in a solid one the word begins at the
first character that can start one. -/
def capitalizeRun (run : List Char) : List Char :=
  if run.all isBlank then run
  else
    run.takeWhile (fun c => !startsWord c) ++
      capitalizeWord (run.dropWhile fun c => !startsWord c)

theorem capitalizeChars_of_blank {run : List Char} (h : ∀ c ∈ run, isBlank c = true) :
    capitalizeChars run = run := by
  induction run with
  | nil => rw [capitalizeChars]
  | cons c cs ih =>
      have hc := not_startsWord_of_isBlank (h c List.mem_cons_self)
      rw [capitalizeChars, if_neg hc, ih fun x hx => h x (List.mem_cons_of_mem c hx)]

theorem capitalizeChars_of_solid {run : List Char} (h : ∀ c ∈ run, isSolid c = true) :
    capitalizeChars run =
      run.takeWhile (fun c => !startsWord c) ++
        capitalizeWord (run.dropWhile fun c => !startsWord c) := by
  induction run with
  | nil => rw [capitalizeChars]; rfl
  | cons c cs ih =>
      have hcs : ∀ x ∈ cs, isSolid x = true := fun x hx => h x (List.mem_cons_of_mem c hx)
      by_cases hc : startsWord c = true
      · have hend : cs.dropWhile isSolid = [] := List.dropWhile_eq_nil_iff.2 hcs
        have hword : cs.takeWhile isSolid = cs := List.takeWhile_eq_self_iff.2 hcs
        rw [capitalizeChars, if_pos hc, hword, hend, capitalizeChars, List.append_nil,
          List.takeWhile_cons_of_neg (by simp [hc]), List.dropWhile_cons_of_neg (by simp [hc])]
        rfl
      · rw [capitalizeChars, if_neg hc, ih hcs, List.takeWhile_cons_of_pos (by simp [hc]),
          List.dropWhile_cons_of_pos (by simp [hc])]
        rfl

/-- The characters of a run are as blank as its first. -/
theorem isBlank_of_mem_run {c x : Char} {cs : List Char}
    (h : (c :: cs).IsChain fun a b => sameBlankness a b) (hx : x ∈ cs) : isBlank x = isBlank c := by
  induction cs generalizing c with
  | nil => cases hx
  | cons y cs ih =>
      obtain ⟨hcy, hchain⟩ := List.isChain_cons_cons.1 h
      have hy : isBlank y = isBlank c := (eq_of_beq hcy).symm
      rcases List.mem_cons.1 hx with rfl | hx
      · exact hy
      · exact (ih hchain hx).trans hy

theorem capitalizeChars_run {run : List Char} (h : run.IsChain fun a b => sameBlankness a b) :
    capitalizeChars run = capitalizeRun run := by
  unfold capitalizeRun
  cases run with
  | nil => rw [capitalizeChars]; rfl
  | cons c cs =>
      by_cases hc : isBlank c = true
      · have hblank : ∀ x ∈ c :: cs, isBlank x = true := by
          intro x hx
          rcases List.mem_cons.1 hx with rfl | hx
          · exact hc
          · rw [isBlank_of_mem_run h hx, hc]
        rw [if_pos (List.all_eq_true.2 hblank)]
        exact capitalizeChars_of_blank hblank
      · have hsolid : ∀ x ∈ c :: cs, isSolid x = true := by
          intro x hx
          rw [Bool.not_eq_true] at hc
          rcases List.mem_cons.1 hx with rfl | hx
          · rw [isSolid, hc]; rfl
          · rw [isSolid, isBlank_of_mem_run h hx, hc]; rfl
        have hmixed : ¬ (c :: cs).all isBlank = true :=
          fun hall => hc (List.all_eq_true.1 hall c List.mem_cons_self)
        rw [if_neg hmixed]
        exact capitalizeChars_of_solid hsolid

/-- Where one maximal run ends and the next begins there is a border. -/
theorem border_of_runs {run next : List Char} {later : List (List Char)}
    (h : ∃ ha hb, sameBlankness (run.getLast ha) (next.head hb) = false) :
    Border run (next :: later).flatten := by
  obtain ⟨hrun, hnext, hdiffer⟩ := h
  intro x hx y hy hxsolid hysolid
  have hlast : run.getLast hrun = x := List.getLast_of_mem_getLast? hx
  have hhead : next.head hnext = y := by
    rw [List.flatten_cons, List.head?_append_of_ne_nil _ hnext] at hy
    exact List.head_of_mem_head? hy
  rw [hlast, hhead] at hdiffer
  have hx : isBlank x = false := by simpa [isSolid] using hxsolid
  have hy : isBlank y = false := by simpa [isSolid] using hysolid
  rw [sameBlankness, hx, hy] at hdiffer
  cases hdiffer

theorem capitalizeChars_flatten {rs : List (List Char)}
    (hruns : ∀ run ∈ rs, run.IsChain fun a b => sameBlankness a b)
    (hborders : rs.IsChain fun a b => ∃ ha hb, sameBlankness (a.getLast ha) (b.head hb) = false) :
    capitalizeChars rs.flatten = rs.flatMap capitalizeRun := by
  induction rs with
  | nil => rw [List.flatten_nil, capitalizeChars, List.flatMap_nil]
  | cons run rs ih =>
      have hborder : Border run rs.flatten := by
        cases rs with
        | nil => intro _ _ _ hy; cases hy
        | cons next later => exact border_of_runs (List.isChain_cons_cons.1 hborders).1
      rw [List.flatten_cons, capitalizeChars_append hborder,
        capitalizeChars_run (hruns run List.mem_cons_self),
        ih (fun r hr => hruns r (List.mem_cons_of_mem run hr)) hborders.tail, List.flatMap_cons]

theorem capitalizeChars_eq_flatMap_runs (cs : List Char) :
    capitalizeChars cs = (runs cs).flatMap capitalizeRun := by
  have hflatten : (runs cs).flatten = cs := List.flatten_splitBy sameBlankness cs
  calc capitalizeChars cs = capitalizeChars (runs cs).flatten := by rw [hflatten]
    _ = (runs cs).flatMap capitalizeRun :=
      capitalizeChars_flatten (fun _ hrun => List.isChain_of_mem_splitBy hrun)
        (List.isChain_getLast_head_splitBy sameBlankness cs)

/-- No word reaches over a blank. -/
theorem capitalizeChars_append_blank {w : Char} (hw : isBlank w = true) (a b : List Char) :
    capitalizeChars (a ++ [w] ++ b) = capitalizeChars a ++ [w] ++ capitalizeChars b := by
  have hnot : ¬ isSolid w = true := by simp [isSolid, hw]
  have hbefore : Border a [w] := by
    intro x _ y hy _
    cases hy
    exact hnot
  have hafter : Border (a ++ [w]) b := by
    intro x hx _ _ hsolid
    rw [List.getLast?_concat] at hx
    cases hx
    exact absurd hsolid hnot
  have hblank : capitalizeChars [w] = [w] :=
    capitalizeChars_of_blank fun c hc => by rwa [List.mem_singleton.1 hc]
  rw [capitalizeChars_append hafter, capitalizeChars_append hbefore, hblank]

/-- Capitalising a text is rewriting the matches of the pattern of a word in it, and that is to
capitalise its maximal runs, each for itself. A blank divides a text into parts that are
capitalised apart. -/
theorem capitalize_run_by_run :
    (∀ s : String, (capitalize s).toList = wordPattern.rewrite capitalizeWord s.toList) ∧
    (∀ s : String, (capitalize s).toList = (runs s.toList).flatMap capitalizeRun) ∧
    ∀ (a b : String) (w : Char), isBlank w = true →
      capitalize (a ++ w.toString ++ b) = capitalize a ++ w.toString ++ capitalize b := by
  refine ⟨fun s => ?_, fun s => ?_, fun a b w hw => ?_⟩
  · rw [capitalize, String.toList_ofList, rewrite_wordPattern]
  · rw [capitalize, String.toList_ofList, capitalizeChars_eq_flatMap_runs]
  · rw [← String.toList_inj]
    simp only [capitalize, String.toList_append, String.toList_ofList, Char.toString,
      String.toList_singleton, capitalizeChars_append_blank hw]

theorem capitalize_of_two_words :
    isBlank '\u2003' = true ∧
      capitalize ("(IN" ++ '\u2003'.toString ++ "éLAN") =
        capitalize "(IN" ++ '\u2003'.toString ++ capitalize "éLAN" :=
  have hblank : isBlank '\u2003' = true := by decide
  ⟨hblank, capitalize_run_by_run.2.2 "(IN" "éLAN" '\u2003' hblank⟩

end PeerWatch.Text
