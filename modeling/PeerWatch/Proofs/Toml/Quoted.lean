import PeerWatch.Toml.Quote

/-!
# Strings written and read

In whichever form a string is written, the reader finds its end and gets the string back. The forms
with double quotes can hold every text; those with single quotes only where they are chosen.
-/

namespace PeerWatch.Toml

variable {cs rest : List Char} {c : Char}

/-! ## Characters within double quotes -/

/-- The ways in which a character can stand within double quotes, on one line or on many. -/
inductive StandsFor (c : Char) : List Char → Prop
  | itself : isPlain c = true → c ≠ '"' → c ≠ '\\' → StandsFor c [c]
  | letter (e : Char) : escaped? e = some c → StandsFor c ['\\', e]
  | code (a b x d : Char) : charOfHex? [a, b, x, d] = some c → StandsFor c ['\\', 'u', a, b, x, d]

theorem toNat_lt_of_not_isPlain (h : isPlain c = false) : c.toNat < 128 := by
  simp only [isPlain, Bool.or_eq_false_iff, Bool.and_eq_false_iff, bne_eq_false_iff_eq,
    decide_eq_false_iff_not] at h
  omega

theorem charOfHex?_digits :
    ∀ n < 128, charOfHex? ['0', '0', hexDigit (n / 16), hexDigit (n % 16)] =
      some (Char.ofNat n) := by
  decide

theorem standsFor_codeEscape (h : isPlain c = false) : StandsFor c (codeEscape c) := by
  refine .code _ _ _ _ ?_
  rw [charOfHex?_digits c.toNat (toNat_lt_of_not_isPlain h), Char.ofNat_toNat]

theorem standsFor_escapeChar {manyLines : Bool} (hquote : c ≠ '"')
    (hline : manyLines = true → c ≠ '\n') : StandsFor c (escapeChar manyLines c) := by
  unfold escapeChar
  split
  · exact .letter 'b' rfl
  · exact .letter 't' rfl
  · cases manyLines with
    | false => exact .letter 'n' rfl
    | true => exact absurd rfl (hline rfl)
  · exact .letter 'f' rfl
  · exact .letter 'r' rfl
  · exact .letter '\\' rfl
  · by_cases hplain : isPlain c = true
    · rw [if_pos hplain]
      refine .itself hplain hquote ?_
      assumption
    · rw [if_neg hplain]
      exact standsFor_codeEscape (by simpa using hplain)

theorem StandsFor.head (text : List Char) (h : StandsFor c text) :
    ∃ x rest, text = x :: rest ∧ x ≠ '"' ∧ x ≠ '\n' ∧ x ≠ '\r' := by
  cases h with
  | itself hplain hquote _ =>
      have hline : c ≠ '\n' := by rintro rfl; cases hplain
      have hreturn : c ≠ '\r' := by rintro rfl; cases hplain
      exact ⟨c, [], rfl, hquote, hline, hreturn⟩
  | letter e _ => exact ⟨'\\', [e], rfl, by decide, by decide, by decide⟩
  | code a b x d _ => exact ⟨'\\', ['u', a, b, x, d], rfl, by decide, by decide, by decide⟩

theorem readBasic_of_standsFor {text : List Char} (h : StandsFor c text) (rest : List Char) :
    readBasic (text ++ rest) = (readBasic rest).map (prepend c) := by
  cases h with
  | itself hplain hquote hslash =>
      rw [List.singleton_append, readBasic]
      · exact if_pos ⟨hplain, hslash⟩
      all_goals grind
  | letter e he =>
      have hshort : e ≠ 'u' := by rintro rfl; cases he
      have hlong : e ≠ 'U' := by rintro rfl; cases he
      show readBasic ('\\' :: e :: rest) = _
      rw [readBasic, he]
      · cases readBasic rest <;> rfl
      all_goals grind
  | code a b x d hx =>
      show readBasic ('\\' :: 'u' :: a :: b :: x :: d :: rest) = _
      rw [readBasic, hx]
      cases readBasic rest <;> rfl

theorem readBasicLines_of_standsFor {text : List Char} (h : StandsFor c text) (rest : List Char) :
    readBasicLines .off (text ++ rest) = (readBasicLines .off rest).map (prepend c) := by
  cases h with
  | itself hplain hquote hslash =>
      have hline : c ≠ '\n' := by rintro rfl; cases hplain
      have hreturn : c ≠ '\r' := by rintro rfl; cases hplain
      rw [List.singleton_append, readBasicLines]
      · rw [if_neg (by simp), if_pos ⟨hplain, hslash⟩]
      all_goals grind
  | letter e he =>
      have hshort : e ≠ 'u' := by rintro rfl; cases he
      have hlong : e ≠ 'U' := by rintro rfl; cases he
      have hline : e ≠ '\n' := by rintro rfl; cases he
      have hreturn : e ≠ '\r' := by rintro rfl; cases he
      have hspace : e ≠ ' ' := by rintro rfl; cases he
      have htab : e ≠ '\t' := by rintro rfl; cases he
      show readBasicLines .off ('\\' :: e :: rest) = _
      rw [readBasicLines, he]
      · rw [if_neg (by simp [isBlank, hspace, htab])]
        cases readBasicLines .off rest <;> rfl
      all_goals grind
  | code a b x d hx =>
      show readBasicLines .off ('\\' :: 'u' :: a :: b :: x :: d :: rest) = _
      rw [readBasicLines, hx]
      · cases readBasicLines .off rest <;> rfl
      all_goals grind

/-! ## On one line -/

theorem standsFor_escape (c : Char) :
    StandsFor c (if c = '"' then ['\\', '"'] else escapeChar false c) := by
  by_cases hc : c = '"'
  · rw [if_pos hc, hc]
    exact .letter '"' rfl
  · rw [if_neg hc]
    exact standsFor_escapeChar hc (by simp)

theorem readBasic_escape (cs rest : List Char) :
    readBasic (escape cs ++ '"' :: rest) = some (cs, rest) := by
  induction cs with
  | nil => rw [escape, List.flatMap_nil, List.nil_append, readBasic]
  | cons c cs ih =>
      rw [escape, List.flatMap_cons, List.append_assoc,
        readBasic_of_standsFor (standsFor_escape c), ← escape, ih]
      rfl

theorem readLiteral_append (hplain : ∀ c ∈ cs, isPlain c = true) (hquote : '\'' ∉ cs)
    (rest : List Char) : readLiteral (cs ++ '\'' :: rest) = some (cs, rest) := by
  induction cs with
  | nil => rfl
  | cons c cs ih =>
      rw [List.mem_cons, not_or] at hquote
      rw [List.cons_append, readLiteral, if_pos (hplain c (by simp)),
        ih (fun c hc => hplain c (List.mem_cons_of_mem _ hc)) hquote.2]
      · rfl
      · exact fun h => hquote.1 h.symm

/-! ## On many lines -/

/-- The quotes before the closing ones are found again after them. -/
theorem closeLines_replicate {quote : Char} (hquote : quote ≠ '\n') {k : Nat} (hk : k ≤ 2)
    (rest : List Char) :
    closeLines quote (List.replicate k quote ++ '\n' :: rest) =
      (List.replicate k quote, '\n' :: rest) := by
  have hline : '\n' ≠ quote := hquote.symm
  obtain rfl | rfl | rfl : k = 0 ∨ k = 1 ∨ k = 2 := by omega
  · cases rest <;> simp [closeLines, hline]
  · simp [closeLines, hline]
  · simp [closeLines]

theorem readBasicLines_quotes {k : Nat} (hk : k ≤ 2) (hc : c ≠ '"') (rest : List Char) :
    readBasicLines .off (List.replicate k '"' ++ c :: rest) =
      (readBasicLines .off (c :: rest)).map fun r => (List.replicate k '"' ++ r.1, r.2) := by
  have hone : ∀ tail : List Char, (∀ rest, tail ≠ '"' :: '"' :: rest) →
      readBasicLines .off ('"' :: tail) = (readBasicLines .off tail).map (prepend '"') := by
    intro tail htail
    rw [readBasicLines]
    · rw [if_neg (by simp), if_pos (by decide)]
    all_goals grind
  obtain rfl | rfl | rfl : k = 0 ∨ k = 1 ∨ k = 2 := by omega
  · simp
  · show readBasicLines .off ('"' :: c :: rest) = _
    rw [hone _ (by simp [hc])]
    rfl
  · show readBasicLines .off ('"' :: '"' :: c :: rest) = _
    rw [hone _ (by simp [hc]), hone _ (by simp [hc]), Option.map_map]
    rfl

theorem readBasicLines_escapeChar (hc : c ≠ '"') (rest : List Char) :
    readBasicLines .off (escapeChar true c ++ rest) =
      (readBasicLines .off rest).map (prepend c) := by
  by_cases hline : c = '\n'
  · subst hline
    show readBasicLines .off ('\n' :: rest) = _
    rw [readBasicLines]
  · exact readBasicLines_of_standsFor (standsFor_escapeChar hc fun _ => hline) rest

theorem escapeChar_head (hc : c ≠ '"') :
    ∃ x rest, escapeChar true c = x :: rest ∧ x ≠ '"' := by
  by_cases hline : c = '\n'
  · subst hline
    exact ⟨'\n', [], rfl, by decide⟩
  · obtain ⟨x, rest, htext, hx, -⟩ := (standsFor_escapeChar hc fun _ => hline).head
    exact ⟨x, rest, htext, hx⟩

/-- Quotes that are pending do not end the text where something else follows them. -/
theorem readBasicLines_chunk {k : Nat} (hk : k ≤ 2) {chunk : List Char}
    (hhead : ∃ x rest, chunk = x :: rest ∧ x ≠ '"')
    (hchunk : ∀ rest, readBasicLines .off (chunk ++ rest) =
      (readBasicLines .off rest).map (prepend c))
    {text : List Char} (htext : readBasicLines .off text = some (cs, rest)) :
    readBasicLines .off (List.replicate k '"' ++ (chunk ++ text)) =
      some (List.replicate k '"' ++ c :: cs, rest) := by
  obtain ⟨x, tail, rfl, hx⟩ := hhead
  rw [List.cons_append, readBasicLines_quotes hk hx, ← List.cons_append, hchunk, htext]
  rfl

theorem readBasicLines_escapeLines (seen : Nat) (hseen : seen ≤ 2) (cs rest : List Char) :
    readBasicLines .off
        (List.replicate seen '"' ++ (escapeLines seen cs ++ '"' :: '"' :: '"' :: '\n' :: rest)) =
      some (List.replicate seen '"' ++ cs, '\n' :: rest) := by
  induction cs generalizing seen with
  | nil =>
      have hmove : List.replicate seen '"' ++
            (escapeLines seen [] ++ '"' :: '"' :: '"' :: '\n' :: rest) =
          '"' :: '"' :: '"' :: (List.replicate seen '"' ++ '\n' :: rest) := by
        obtain rfl | rfl | rfl : seen = 0 ∨ seen = 1 ∨ seen = 2 := by omega
        all_goals rfl
      rw [hmove, readBasicLines, closeLines_replicate (by decide) hseen, List.append_nil]
      all_goals grind
  | cons c cs ih =>
      have hrest := ih 0 (by omega)
      by_cases hc : c = '"'
      · subst hc
        by_cases hfew : seen < 2
        · have hmore := ih (seen + 1) (by omega)
          rw [List.replicate_succ', List.append_assoc, List.append_assoc] at hmore
          rw [escapeLines, if_pos rfl, if_pos hfew]
          exact hmore
        · rw [escapeLines, if_pos rfl, if_neg hfew]
          exact readBasicLines_chunk hseen ⟨'\\', ['"'], rfl, by decide⟩
            (readBasicLines_of_standsFor (.letter '"' rfl)) hrest
      · rw [escapeLines, if_neg hc, List.append_assoc]
        exact readBasicLines_chunk hseen (escapeChar_head hc) (readBasicLines_escapeChar hc) hrest

theorem readLiteralLines_quotes {k : Nat} (hk : k ≤ 2) (hc : c ≠ '\'') (rest : List Char) :
    readLiteralLines (List.replicate k '\'' ++ c :: rest) =
      (readLiteralLines (c :: rest)).map fun r => (List.replicate k '\'' ++ r.1, r.2) := by
  have hone : ∀ tail : List Char, (∀ rest, tail ≠ '\'' :: '\'' :: rest) →
      readLiteralLines ('\'' :: tail) = (readLiteralLines tail).map (prepend '\'') := by
    intro tail htail
    rw [readLiteralLines]
    · rw [if_pos (by decide)]
    all_goals grind
  obtain rfl | rfl | rfl : k = 0 ∨ k = 1 ∨ k = 2 := by omega
  · simp
  · show readLiteralLines ('\'' :: c :: rest) = _
    rw [hone _ (by simp [hc])]
    rfl
  · show readLiteralLines ('\'' :: '\'' :: c :: rest) = _
    rw [hone _ (by simp [hc]), hone _ (by simp [hc]), Option.map_map]
    rfl

theorem hasRun_of_le {quote : Char} {n seen : Nat} (h : n ≤ seen) (cs : List Char) :
    hasRun quote n seen cs = true := by
  cases cs <;> simp [hasRun, h]

theorem readLiteralLines_char (hc : isPlain c = true ∨ c = '\n') (hquote : c ≠ '\'')
    (rest : List Char) :
    readLiteralLines (c :: rest) = (readLiteralLines rest).map (prepend c) := by
  obtain hplain | rfl := hc
  · have hline : c ≠ '\n' := by rintro rfl; cases hplain
    have hreturn : c ≠ '\r' := by rintro rfl; cases hplain
    rw [readLiteralLines, if_pos hplain]
    all_goals grind
  · rw [readLiteralLines]

theorem readLiteralLines_append (seen : Nat) (hseen : seen ≤ 2)
    (hchars : ∀ c ∈ cs, isPlain c = true ∨ c = '\n') (hrun : hasRun '\'' 3 seen cs = false)
    (rest : List Char) :
    readLiteralLines
        (List.replicate seen '\'' ++ (cs ++ '\'' :: '\'' :: '\'' :: '\n' :: rest)) =
      some (List.replicate seen '\'' ++ cs, '\n' :: rest) := by
  induction cs generalizing seen with
  | nil =>
      have hmove : List.replicate seen '\'' ++ '\'' :: '\'' :: '\'' :: '\n' :: rest =
          '\'' :: '\'' :: '\'' :: (List.replicate seen '\'' ++ '\n' :: rest) := by
        obtain rfl | rfl | rfl : seen = 0 ∨ seen = 1 ∨ seen = 2 := by omega
        all_goals rfl
      rw [List.nil_append, hmove, readLiteralLines, closeLines_replicate (by decide) hseen,
        List.append_nil]
  | cons c cs ih =>
      rw [hasRun, Bool.or_eq_false_iff] at hrun
      have hafter := fun c hc => hchars c (List.mem_cons_of_mem _ hc)
      by_cases hc : c = '\''
      · subst hc
        rw [if_pos rfl] at hrun
        have hfew : seen + 1 ≤ 2 := by
          apply Decidable.byContradiction
          intro hmany
          rw [hasRun_of_le (by omega)] at hrun
          cases hrun.2
        have hmore := ih (seen + 1) hfew hafter hrun.2
        rwa [List.replicate_succ', List.append_assoc, List.append_assoc] at hmore
      · rw [if_neg hc] at hrun
        have hrest := ih 0 (by omega) hafter hrun.2
        rw [List.cons_append, readLiteralLines_quotes hseen hc,
          readLiteralLines_char (hchars c (by simp)) hc]
        rw [List.replicate_zero, List.nil_append, List.nil_append] at hrest
        rw [hrest]
        rfl

/-! ## Every form -/

theorem not_mem_of_hasRun {quote : Char} (h : hasRun quote 1 0 cs = false) : quote ∉ cs := by
  induction cs with
  | nil => simp
  | cons c cs ih =>
      rw [hasRun, Bool.or_eq_false_iff] at h
      by_cases hc : c = quote
      · rw [if_pos hc, hasRun_of_le (by omega)] at h
        cases h.2
      · rw [if_neg hc] at h
        simp [Ne.symm hc, ih h.2]

theorem chars_of_hasControl (h : hasControl cs = false) :
    ∀ c ∈ cs, isPlain c = true ∨ c = '\n' := by
  intro c hc
  have hone := List.any_eq_false.1 h c hc
  simp only [Bool.and_eq_true, Bool.not_eq_true', bne_iff_ne, not_and, ne_eq,
    Decidable.not_not] at hone
  cases hplain : isPlain c with
  | true => exact Or.inl rfl
  | false => exact Or.inr (hone hplain)

theorem readString_basic (cs rest : List Char) :
    readString (Form.write cs .basic ++ '\n' :: rest) = some (cs, '\n' :: rest) := by
  have hnot : ∀ tail, escape cs ++ '"' :: '\n' :: rest ≠ '"' :: '"' :: tail := by
    intro tail
    cases cs with
    | nil => simp [escape]
    | cons c cs =>
        obtain ⟨x, text, htext, hx, -⟩ := (standsFor_escape c).head
        rw [escape, List.flatMap_cons, htext]
        simp [hx]
  have hwrite : Form.write cs .basic ++ '\n' :: rest =
      '"' :: (escape cs ++ '"' :: '\n' :: rest) := by
    simp [Form.write]
  rw [hwrite, readString, readBasic_escape]
  exact fun tail h => hnot tail h

theorem readString_literal (hplain : ∀ c ∈ cs, isPlain c = true) (hquote : '\'' ∉ cs)
    (rest : List Char) :
    readString (Form.write cs .literal ++ '\n' :: rest) = some (cs, '\n' :: rest) := by
  have hnot : ∀ tail, cs ++ '\'' :: '\n' :: rest ≠ '\'' :: '\'' :: tail := by
    intro tail
    cases cs with
    | nil => simp
    | cons c cs =>
        rw [List.mem_cons, not_or] at hquote
        simp [Ne.symm hquote.1]
  have hwrite : Form.write cs .literal ++ '\n' :: rest = '\'' :: (cs ++ '\'' :: '\n' :: rest) := by
    simp [Form.write]
  rw [hwrite, readString, readLiteral_append hplain hquote]
  exact fun tail h => hnot tail h

/-- The end of a line is put before a text on many lines only for the reader to skip it, and a text
of one line does not start with one. -/
theorem skipFirstLine_firstLine {text : List Char}
    (htext : '\n' ∉ cs → ∃ x tail, text = x :: tail ∧ x ≠ '\n' ∧ x ≠ '\r') :
    skipFirstLine (firstLine cs ++ text) = text := by
  by_cases hline : '\n' ∈ cs
  · rw [firstLine, if_pos (by simpa using hline)]
    rfl
  · obtain ⟨x, tail, rfl, hnewline, hreturn⟩ := htext hline
    rw [firstLine, if_neg (by simpa using hline), List.nil_append, skipFirstLine]
    all_goals grind

theorem readString_basicLines (cs rest : List Char) :
    readString (Form.write cs .basicLines ++ '\n' :: rest) = some (cs, '\n' :: rest) := by
  have hhead : '\n' ∉ cs → ∃ x tail, escapeLines 0 cs ++ '"' :: '"' :: '"' :: '\n' :: rest =
      x :: tail ∧ x ≠ '\n' ∧ x ≠ '\r' := by
    intro hline
    cases cs with
    | nil => exact ⟨_, _, rfl, by decide, by decide⟩
    | cons c cs =>
        rw [List.mem_cons, not_or] at hline
        by_cases hc : c = '"'
        · rw [escapeLines, if_pos hc, if_pos (by omega), hc]
          exact ⟨_, _, rfl, by decide, by decide⟩
        · have hstands : StandsFor c (escapeChar true c) :=
            standsFor_escapeChar hc fun _ => Ne.symm hline.1
          obtain ⟨x, text, htext, -, hnewline, hreturn⟩ := hstands.head
          rw [escapeLines, if_neg hc, htext]
          exact ⟨_, _, rfl, hnewline, hreturn⟩
  have hwrite : Form.write cs .basicLines ++ '\n' :: rest = '"' :: '"' :: '"' ::
      (firstLine cs ++ (escapeLines 0 cs ++ '"' :: '"' :: '"' :: '\n' :: rest)) := by
    simp [Form.write]
  rw [hwrite, readString, skipFirstLine_firstLine hhead]
  exact readBasicLines_escapeLines 0 (by omega) cs rest

theorem readString_literalLines (hchars : ∀ c ∈ cs, isPlain c = true ∨ c = '\n')
    (hrun : hasRun '\'' 3 0 cs = false) (rest : List Char) :
    readString (Form.write cs .literalLines ++ '\n' :: rest) = some (cs, '\n' :: rest) := by
  have hhead : '\n' ∉ cs → ∃ x tail, cs ++ '\'' :: '\'' :: '\'' :: '\n' :: rest =
      x :: tail ∧ x ≠ '\n' ∧ x ≠ '\r' := by
    intro hline
    cases cs with
    | nil => exact ⟨_, _, rfl, by decide, by decide⟩
    | cons c cs =>
        have hnewline : c ≠ '\n' := by rintro rfl; simp at hline
        have hreturn : c ≠ '\r' := by
          rintro rfl
          exact absurd (hchars '\r' (by simp)) (by decide)
        exact ⟨_, _, rfl, hnewline, hreturn⟩
  have hwrite : Form.write cs .literalLines ++ '\n' :: rest = '\'' :: '\'' :: '\'' ::
      (firstLine cs ++ (cs ++ '\'' :: '\'' :: '\'' :: '\n' :: rest)) := by
    simp [Form.write]
  rw [hwrite, readString, skipFirstLine_firstLine hhead]
  exact readLiteralLines_append 0 (by omega) hchars hrun rest

theorem choose_literal (h : Form.choose cs = .literal) :
    hasControl cs = false ∧ '\n' ∉ cs ∧ hasRun '\'' 1 0 cs = false := by
  unfold Form.choose at h
  grind

theorem choose_literalLines (h : Form.choose cs = .literalLines) :
    hasControl cs = false ∧ hasRun '\'' 3 0 cs = false := by
  unfold Form.choose at h
  grind

/-- A string that ends a line is read as it was written. -/
theorem readString_choose (cs rest : List Char) :
    readString ((Form.choose cs).write cs ++ '\n' :: rest) = some (cs, '\n' :: rest) := by
  cases hform : Form.choose cs with
  | basic => exact readString_basic cs rest
  | literal =>
      obtain ⟨hcontrol, hline, hrun⟩ := choose_literal hform
      have hplain : ∀ c ∈ cs, isPlain c = true := fun c hc =>
        (chars_of_hasControl hcontrol c hc).resolve_right fun h => hline (h ▸ hc)
      exact readString_literal hplain (not_mem_of_hasRun hrun) rest
  | basicLines => exact readString_basicLines cs rest
  | literalLines =>
      obtain ⟨hcontrol, hrun⟩ := choose_literalLines hform
      exact readString_literalLines (chars_of_hasControl hcontrol) hrun rest

end PeerWatch.Toml
