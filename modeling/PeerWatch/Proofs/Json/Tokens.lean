import Mathlib.Data.List.TakeWhile
import PeerWatch.Json.Raw

/-!
# Tokens of JSON texts

What a string or a number may be written as, said without a reader: a string has its quotes, its
slashes and its control characters escaped, and a number has no leading zeros. The readers of tokens
take exactly these texts and leave what stands behind them.
-/

namespace PeerWatch.Json

/-! ## Texts of tokens -/

def Blank (cs : List Char) : Prop := ∀ c ∈ cs, isSpace c = true

def Digits (ds : List Char) : Prop := ds ≠ [] ∧ ∀ c ∈ ds, c.isDigit = true

/-- What may stand between the quotes of a string for one of its units. -/
inductive UnitText : Unit16 → List Char → Prop
  | plain {c : Char} (hcontrol : 0x20 ≤ c.toNat) (hquote : c ≠ '"') (hslash : c ≠ '\\') :
    UnitText (.char c) [c]
  | letter {e c : Char} (h : escapedChar? e = some c) : UnitText (.char c) ['\\', e]
  | code {a b c d : Char} {unit : Unit16} (h : escapedUnit? a b c d = some unit) :
    UnitText unit ['\\', 'u', a, b, c, d]

/-- What may stand between the quotes of a string. -/
inductive UnitsText : List Unit16 → List Char → Prop
  | nil : UnitsText [] []
  | cons {unit : Unit16} {units : List Unit16} {text rest : List Char} (hunit : UnitText unit text)
    (hunits : UnitsText units rest) : UnitsText (unit :: units) (text ++ rest)

/-- The digits before the point: zero alone, or digits that do not begin with zero. -/
def WholeText (ds : List Char) : Prop := ds = ['0'] ∨ Digits ds ∧ ds.head? ≠ some '0'

inductive FractionText : Option (List Char) → List Char → Prop
  | none : FractionText none []
  | some {ds : List Char} (h : Digits ds) : FractionText (some ds) ('.' :: ds)

/-- The sign of an exponent, by whether it is negative. -/
inductive SignText : Bool → List Char → Prop
  | bare : SignText false []
  | plus : SignText false ['+']
  | minus : SignText true ['-']

inductive ExponentText : Option (Bool × List Char) → List Char → Prop
  | none : ExponentText none []
  | some {e : Char} {down : Bool} {sign ds : List Char} (he : e = 'e' ∨ e = 'E')
    (hsign : SignText down sign) (hds : Digits ds) :
    ExponentText (some (down, ds)) (e :: (sign ++ ds))

/-- What a number may be written as. -/
inductive NumberText.Form : NumberText → List Char → Prop
  | mk {negative : Bool} {whole : List Char} {fraction : Option (List Char)}
    {exponent : Option (Bool × List Char)} {point power : List Char} (hwhole : WholeText whole)
    (hfraction : FractionText fraction point) (hexponent : ExponentText exponent power) :
    Form ⟨negative, whole, fraction, exponent⟩
      ((if negative then ['-'] else []) ++ (whole ++ (point ++ power)))

/-! ## Blanks and strings -/

theorem exists_gap (cs : List Char) : ∃ gap, Blank gap ∧ cs = gap ++ skipSpace cs :=
  ⟨cs.takeWhile isSpace, fun _ hc => List.mem_takeWhile_imp hc,
    List.takeWhile_append_dropWhile.symm⟩

theorem skipSpace_append {gap : List Char} (h : Blank gap) (rest : List Char) :
    skipSpace (gap ++ rest) = skipSpace rest := List.dropWhile_append_of_pos h

theorem unitsText_of_readUnits {cs rest : List Char} {units : List Unit16}
    (h : readUnits cs = some (units, rest)) :
    ∃ text, UnitsText units text ∧ cs = text ++ '"' :: rest := by
  fun_induction readUnits cs generalizing units rest with
  | case1 => cases h
  | case2 rest' =>
    cases h
    exact ⟨[], .nil, rfl⟩
  | case3 a b c d rest' ih =>
    simp only [Option.bind_eq_bind, Option.bind_eq_some_iff, Prod.exists] at h
    obtain ⟨unit, hunit, others, behind, hread, heq⟩ := h
    obtain ⟨rfl, rfl⟩ : unit :: others = units ∧ behind = rest := by simpa using heq
    obtain ⟨text, htext, rfl⟩ := ih hread
    exact ⟨_, .cons (.code hunit) htext, rfl⟩
  | case4 e rest' _ ih =>
    simp only [Option.bind_eq_bind, Option.bind_eq_some_iff, Prod.exists] at h
    obtain ⟨c, hc, others, behind, hread, heq⟩ := h
    obtain ⟨rfl, rfl⟩ : .char c :: others = units ∧ behind = rest := by simpa using heq
    obtain ⟨text, htext, rfl⟩ := ih hread
    exact ⟨_, .cons (.letter hc) htext, rfl⟩
  | case5 => cases h
  | case6 c rest' hquote _ _ hplain ih =>
    simp only [Option.bind_eq_bind, Option.bind_eq_some_iff, Prod.exists] at h
    obtain ⟨others, behind, hread, heq⟩ := h
    obtain ⟨rfl, rfl⟩ : .char c :: others = units ∧ behind = rest := by simpa using heq
    obtain ⟨text, htext, rfl⟩ := ih hread
    rw [not_or, Nat.not_lt] at hplain
    exact ⟨_, .cons (.plain hplain.1 hquote hplain.2) htext, rfl⟩

/-- A reading that goes on with one more unit before. -/
def withUnit (unit : Unit16) (r : Option (List Unit16 × List Char)) :
    Option (List Unit16 × List Char) := r.map fun r => (unit :: r.1, r.2)

theorem readUnits_letter {e c : Char} (h : escapedChar? e = some c) (rest : List Char) :
    readUnits ('\\' :: e :: rest) = withUnit (.char c) (readUnits rest) := by
  have hu : e ≠ 'u' := by
    rintro rfl
    cases h
  rw [readUnits]
  · rw [h]
    cases readUnits rest <;> rfl
  · intro a b c d rest' heq
    exact fun _ => hu heq

theorem readUnits_code {a b x d : Char} {unit : Unit16} (h : escapedUnit? a b x d = some unit)
    (rest : List Char) :
    readUnits ('\\' :: 'u' :: a :: b :: x :: d :: rest) = withUnit unit (readUnits rest) := by
  rw [readUnits, h]
  cases readUnits rest <;> rfl

theorem readUnits_plain {c : Char} (hquote : c ≠ '"') (hslash : c ≠ '\\')
    (hcontrol : ¬c.toNat < 0x20) (rest : List Char) :
    readUnits (c :: rest) = withUnit (.char c) (readUnits rest) := by
  rw [readUnits]
  · rw [if_neg (by simp [hslash, hcontrol])]
    cases readUnits rest <;> rfl
  · exact hquote
  · intro a b x d rest' heq
    exact fun _ => hslash heq
  · intro x rest' heq
    exact fun _ => hslash heq

theorem readUnits_of_unitsText {units : List Unit16} {text : List Char} (h : UnitsText units text)
    (rest : List Char) : readUnits (text ++ '"' :: rest) = some (units, rest) := by
  induction h with
  | nil => rfl
  | cons hunit _ ih =>
      rw [List.append_assoc]
      cases hunit with
      | plain hcontrol hquote hslash =>
          rw [List.singleton_append, readUnits_plain hquote hslash (Nat.not_lt.2 hcontrol), ih]
          rfl
      | letter hc =>
          rw [List.cons_append, List.singleton_append, readUnits_letter hc, ih]
          rfl
      | code hcode =>
          have hread := readUnits_code hcode
          simp only [List.cons_append, List.nil_append]
          rw [hread, ih]
          rfl

/-! ## Numbers -/

/-- What stands behind a number that has ended: nothing that could be a part of it. -/
def EndsNumber (rest : List Char) : Prop :=
  ∀ c ∈ rest.head?, c.isDigit = false ∧ c ≠ '.' ∧ c ≠ 'e' ∧ c ≠ 'E'

/-- No digit comes next. -/
def NoDigit (rest : List Char) : Prop := ∀ c ∈ rest.head?, c.isDigit = false

theorem EndsNumber.noDigit {rest : List Char} (h : EndsNumber rest) : NoDigit rest :=
  fun c hc => (h c hc).1

theorem digits_of_readDigits {cs ds rest : List Char} (h : readDigits cs = some (ds, rest)) :
    Digits ds ∧ cs = ds ++ rest := by
  rw [readDigits] at h
  split at h
  · cases h
  · next _ hne =>
    obtain ⟨rfl, rfl⟩ : cs.takeWhile Char.isDigit = ds ∧ cs.dropWhile Char.isDigit = rest := by
      simpa using h
    exact ⟨⟨hne, fun c hc => List.mem_takeWhile_imp hc⟩, List.takeWhile_append_dropWhile.symm⟩

theorem readDigits_append {ds rest : List Char} (h : Digits ds) (hrest : NoDigit rest) :
    readDigits (ds ++ rest) = some (ds, rest) := by
  obtain ⟨hne, hds⟩ := h
  have hstop : rest.takeWhile Char.isDigit = [] ∧ rest.dropWhile Char.isDigit = rest := by
    cases rest with
    | nil => exact ⟨rfl, rfl⟩
    | cons c rest =>
        have hc : c.isDigit = false := hrest c rfl
        simp [hc]
  rw [readDigits, List.takeWhile_append_of_pos hds, List.dropWhile_append_of_pos hds, hstop.1,
    hstop.2, List.append_nil]
  cases ds with
  | nil => exact absurd rfl hne
  | cons d ds => rfl

theorem wholeText_of_readWhole {cs ds rest : List Char} (h : readWhole cs = some (ds, rest)) :
    WholeText ds ∧ cs = ds ++ rest := by
  unfold readWhole at h
  split at h
  · split at h
    · split at h
      · cases h
      · cases h
        exact ⟨.inl rfl, rfl⟩
    · cases h
      exact ⟨.inl rfl, rfl⟩
  · next hzero =>
    obtain ⟨hds, rfl⟩ := digits_of_readDigits h
    refine ⟨.inr ⟨hds, ?_⟩, rfl⟩
    cases ds with
    | nil => simp
    | cons d ds =>
        intro hd
        rw [List.head?_cons, Option.some.injEq] at hd
        subst hd
        exact hzero _ rfl

theorem fractionText_of_readFraction {cs rest : List Char} {fraction : Option (List Char)}
    (h : readFraction cs = some (fraction, rest)) :
    ∃ text, FractionText fraction text ∧ cs = text ++ rest := by
  unfold readFraction at h
  split at h
  · next behind =>
    obtain ⟨⟨ds, after⟩, hread, heq⟩ := Option.map_eq_some_iff.1 h
    obtain ⟨rfl, rfl⟩ : some ds = fraction ∧ after = rest := by simpa using heq
    obtain ⟨hds, rfl⟩ := digits_of_readDigits hread
    exact ⟨_, .some hds, rfl⟩
  · cases h
    exact ⟨[], .none, rfl⟩

theorem signText_readSign (cs : List Char) :
    ∃ text, SignText (readSign cs).1 text ∧ cs = text ++ (readSign cs).2 := by
  unfold readSign
  split
  · exact ⟨_, .plus, rfl⟩
  · exact ⟨_, .minus, rfl⟩
  · exact ⟨_, .bare, rfl⟩

theorem exponentText_of_readExponent {cs rest : List Char} {exponent : Option (Bool × List Char)}
    (h : readExponent cs = some (exponent, rest)) :
    ∃ text, ExponentText exponent text ∧ cs = text ++ rest := by
  unfold readExponent at h
  split at h
  · cases h
    exact ⟨[], .none, rfl⟩
  · next e behind =>
    split at h
    · next he =>
      obtain ⟨sign, hsign, hbehind⟩ := signText_readSign behind
      generalize readSign behind = signed at h hsign hbehind
      obtain ⟨⟨ds, after⟩, hread, heq⟩ := Option.map_eq_some_iff.1 h
      obtain ⟨rfl, rfl⟩ : some (signed.1, ds) = exponent ∧ after = rest := by simpa using heq
      obtain ⟨hds, hdigits⟩ := digits_of_readDigits hread
      refine ⟨_, .some he hsign hds, ?_⟩
      rw [hbehind, hdigits, List.cons_append, List.append_assoc]
    · cases h
      exact ⟨[], .none, rfl⟩

/-- The number behind a sign. -/
def readUnsigned (negative : Bool) (cs : List Char) : Option (NumberText × List Char) := do
  let (whole, cs) ← readWhole cs
  let (fraction, cs) ← readFraction cs
  let (exponent, cs) ← readExponent cs
  return (⟨negative, whole, fraction, exponent⟩, cs)

theorem readNumber_minus (cs : List Char) : readNumber ('-' :: cs) = readUnsigned true cs := rfl

theorem readNumber_unsigned {cs : List Char} (h : cs.head? ≠ some '-') :
    readNumber cs = readUnsigned false cs := by
  cases cs with
  | nil => rfl
  | cons c cs =>
      have hc : c ≠ '-' := fun heq => h (congrArg some heq)
      rw [readNumber]
      · rfl
      · intro rest heq
        exact hc (List.cons.inj heq).1

theorem form_of_readUnsigned {negative : Bool} {cs rest : List Char} {t : NumberText}
    (h : readUnsigned negative cs = some (t, rest)) :
    ∃ text, t.Form ((if negative then ['-'] else []) ++ text) ∧ cs = text ++ rest := by
  simp only [readUnsigned, Option.bind_eq_bind, Option.bind_eq_some_iff, Prod.exists] at h
  obtain ⟨whole, _, hwhole, fraction, _, hfraction, exponent, behind, hexponent, heq⟩ := h
  obtain ⟨rfl, rfl⟩ : NumberText.mk negative whole fraction exponent = t ∧ behind = rest := by
    simpa using heq
  obtain ⟨hwholeText, rfl⟩ := wholeText_of_readWhole hwhole
  obtain ⟨point, hpoint, rfl⟩ := fractionText_of_readFraction hfraction
  obtain ⟨power, hpower, rfl⟩ := exponentText_of_readExponent hexponent
  refine ⟨_, .mk hwholeText hpoint hpower, ?_⟩
  simp only [List.append_assoc]

theorem form_of_readNumber {cs rest : List Char} {t : NumberText}
    (h : readNumber cs = some (t, rest)) : ∃ text, t.Form text ∧ cs = text ++ rest := by
  by_cases hminus : cs.head? = some '-'
  · obtain ⟨unsigned, rfl⟩ := List.head?_eq_some_iff.1 hminus
    rw [readNumber_minus] at h
    obtain ⟨text, htext, rfl⟩ := form_of_readUnsigned h
    exact ⟨_, htext, rfl⟩
  · rw [readNumber_unsigned hminus] at h
    exact form_of_readUnsigned h

theorem WholeText.digits {ds : List Char} (h : WholeText ds) : Digits ds := by
  rcases h with rfl | ⟨hds, -⟩
  · exact ⟨List.cons_ne_nil _ _, List.forall_mem_singleton.2 rfl⟩
  · exact hds

theorem Digits.exists_cons {ds : List Char} (h : Digits ds) :
    ∃ d tail, ds = d :: tail ∧ d.isDigit = true := by
  obtain ⟨d, tail, rfl⟩ := List.exists_cons_of_ne_nil h.1
  exact ⟨d, tail, rfl, h.2 d List.mem_cons_self⟩

theorem ne_of_isDigit {c d : Char} (hc : c.isDigit = true) (hd : d.isDigit = false) : c ≠ d := by
  rintro rfl
  exact absurd (hc.symm.trans hd) (by decide)

theorem readWhole_of_wholeText {ds rest : List Char} (h : WholeText ds) (hrest : NoDigit rest) :
    readWhole (ds ++ rest) = some (ds, rest) := by
  rcases h with rfl | ⟨hds, hzero⟩
  · cases rest with
    | nil => rfl
    | cons c rest =>
        have hc : c.isDigit = false := hrest c rfl
        simp [readWhole, hc]
  · obtain ⟨d, tail, rfl, -⟩ := hds.exists_cons
    have hd : d ≠ '0' := fun heq => hzero (congrArg some heq)
    rw [List.cons_append, readWhole]
    · exact readDigits_append hds hrest
    · intro rest' heq
      exact hd (List.cons.inj heq).1

theorem readFraction_of_fractionText {fraction : Option (List Char)} {text rest : List Char}
    (h : FractionText fraction text) (hrest : NoDigit rest) (hpoint : ∀ c ∈ rest.head?, c ≠ '.') :
    readFraction (text ++ rest) = some (fraction, rest) := by
  cases h with
  | none =>
      cases rest with
      | nil => rfl
      | cons c rest =>
          rw [List.nil_append, readFraction]
          intro rest' heq
          exact hpoint c rfl (List.cons.inj heq).1
  | some hds =>
      rw [List.cons_append, readFraction, readDigits_append hds hrest]
      rfl

theorem readSign_of_signText {down : Bool} {sign ds : List Char} (h : SignText down sign)
    (hds : Digits ds) (rest : List Char) :
    readSign (sign ++ (ds ++ rest)) = (down, ds ++ rest) := by
  cases h with
  | bare =>
      obtain ⟨d, tail, rfl, hd⟩ := hds.exists_cons
      rw [List.nil_append, List.cons_append, readSign]
      · exact fun _ heq => ne_of_isDigit hd (by decide) (List.cons.inj heq).1
      · exact fun _ heq => ne_of_isDigit hd (by decide) (List.cons.inj heq).1
  | plus => rfl
  | minus => rfl

theorem readExponent_of_exponentText {exponent : Option (Bool × List Char)} {text rest : List Char}
    (h : ExponentText exponent text) (hrest : EndsNumber rest) :
    readExponent (text ++ rest) = some (exponent, rest) := by
  cases h with
  | none =>
      cases rest with
      | nil => rfl
      | cons c rest =>
          obtain ⟨-, -, hlower, hupper⟩ := hrest c rfl
          rw [List.nil_append, readExponent, if_neg (by simp [hlower, hupper])]
  | some he hsign hds =>
      rw [List.cons_append, List.append_assoc, readExponent, if_pos he,
        readSign_of_signText hsign hds rest]
      simp only [readDigits_append hds hrest.noDigit, Option.map_some]

/-- What stands behind the digits before the point does not go on with them. -/
theorem ExponentText.ends {exponent : Option (Bool × List Char)} {power rest : List Char}
    (h : ExponentText exponent power) (hrest : EndsNumber rest) :
    ∀ c ∈ (power ++ rest).head?, c.isDigit = false ∧ c ≠ '.' := by
  intro c hc
  cases h with
  | none => exact ⟨(hrest c hc).1, (hrest c hc).2.1⟩
  | some he hsign hds =>
      obtain rfl := Option.some.inj hc
      rcases he with rfl | rfl <;> decide

theorem FractionText.noDigit {fraction : Option (List Char)} {point rest : List Char}
    (h : FractionText fraction point) (hrest : NoDigit rest) : NoDigit (point ++ rest) := by
  cases h with
  | none => exact hrest
  | some hds =>
      intro c hc
      obtain rfl := Option.some.inj hc
      decide

theorem NumberText.Form.begins {t : NumberText} {text : List Char} (h : t.Form text) :
    ∃ c tail, text = c :: tail ∧ (c = '-' ∨ c.isDigit = true) := by
  cases h with
  | @mk negative whole fraction exponent point power hwhole hfraction hexponent =>
      cases negative with
      | true => exact ⟨'-', _, rfl, .inl rfl⟩
      | false =>
          obtain ⟨d, tail, rfl, hd⟩ := hwhole.digits.exists_cons
          exact ⟨d, _, rfl, .inr hd⟩

theorem readNumber_of_form {t : NumberText} {text rest : List Char} (h : t.Form text)
    (hrest : EndsNumber rest) : readNumber (text ++ rest) = some (t, rest) := by
  cases h with
  | @mk negative whole fraction exponent point power hwhole hfraction hexponent =>
      have hpower := hexponent.ends hrest
      have hpoint := hfraction.noDigit fun c hc => (hpower c hc).1
      have hread : readUnsigned negative (whole ++ (point ++ (power ++ rest))) =
          some (⟨negative, whole, fraction, exponent⟩, rest) := by
        rw [readUnsigned, readWhole_of_wholeText hwhole hpoint]
        simp only [Option.bind_eq_bind, Option.bind_some,
          readFraction_of_fractionText hfraction (fun c hc => (hpower c hc).1)
            (fun c hc => (hpower c hc).2), readExponent_of_exponentText hexponent hrest]
        rfl
      cases negative with
      | true =>
          rw [if_pos rfl, List.singleton_append, List.cons_append, readNumber_minus]
          simpa only [List.append_assoc] using hread
      | false =>
          obtain ⟨d, tail, rfl, hd⟩ := hwhole.digits.exists_cons
          rw [if_neg (by decide), List.nil_append, readNumber_unsigned]
          · simpa only [List.append_assoc] using hread
          · exact fun hc => ne_of_isDigit hd (by decide) (Option.some.inj hc)

end PeerWatch.Json
