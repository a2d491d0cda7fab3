import PeerWatch.Uri.Component

/-!
# Unescaped texts

What reading escapes does to a text as a whole: a text without percent signs stays as it is, and
only the empty text becomes empty. A character that can be no part of an escape comes out of a text
exactly if it stands there, as itself or as an escape.
-/

namespace PeerWatch.Uri

open PeerWatch.Text (hexValue?)

theorem unescapeChars_cons_of_ne {c : Char} (h : c ≠ '%') (cs : List Char) :
    unescapeChars (c :: cs) = c :: unescapeChars cs := by
  rw [unescapeChars, if_neg h]

theorem unescapeChars_of_no_percent {cs : List Char} (h : '%' ∉ cs) : unescapeChars cs = cs := by
  induction cs with
  | nil => rw [unescapeChars]
  | cons c cs ih =>
      rw [List.mem_cons, not_or] at h
      rw [unescapeChars_cons_of_ne (Ne.symm h.1), ih h.2]

theorem unescapeChars_ne_nil {cs : List Char} (h : cs ≠ []) : unescapeChars cs ≠ [] := by
  cases cs with
  | nil => exact absurd rfl h
  | cons c cs =>
      rw [unescapeChars]
      split
      · split <;> simp
      · simp

theorem unescape_of_no_percent {s : String} (h : '%' ∉ s.toList) : unescape s = s := by
  rw [unescape, unescapeChars_of_no_percent h, String.ofList_toList]

theorem unescape_eq_empty_iff {s : String} : unescape s = "" ↔ s = "" := by
  constructor
  · intro h
    rw [unescape, String.ofList_eq_empty_iff] at h
    rw [← String.toList_eq_nil_iff]
    exact Decidable.byContradiction fun hs => unescapeChars_ne_nil hs h
  · rintro rfl
    exact unescape_of_no_percent (by simp)

/-! ## Escapes -/

theorem eq_of_hexValue? {c : Char} {v : Nat} (h : hexValue? c = some v) :
    (v < 10 ∧ c = Char.ofNat (48 + v)) ∨
      (10 ≤ v ∧ v < 16 ∧ (c = Char.ofNat (55 + v) ∨ c = Char.ofNat (87 + v))) := by
  have hcode {n : Nat} (hn : c.toNat = n) : c = Char.ofNat n := by
    rw [← hn, Char.ofNat_toNat]
  unfold hexValue? at h
  simp only [Char.le_def, UInt32.le_iff_toNat_le, Char.toNat_val,
    show '0'.toNat = 48 from rfl, show '9'.toNat = 57 from rfl,
    show 'a'.toNat = 97 from rfl, show 'f'.toNat = 102 from rfl,
    show 'A'.toNat = 65 from rfl, show 'F'.toNat = 70 from rfl] at h
  split at h
  · obtain rfl := Option.some.inj h
    exact .inl ⟨by omega, hcode (by omega)⟩
  · split at h
    · obtain rfl := Option.some.inj h
      exact .inr ⟨by omega, by omega, .inr (hcode (by omega))⟩
    · split at h
      · obtain rfl := Option.some.inj h
        exact .inr ⟨by omega, by omega, .inl (hcode (by omega))⟩
      · cases h

/-- What follows the percent sign of an escape of a code point. -/
inductive Escape : List Char → Nat → Prop
  | short {a b : Char} {v w : Nat} (ha : hexValue? a = some v) (hb : hexValue? b = some w) :
    Escape [a, b] (16 * v + w)
  | long {a b c d : Char} {t u v w : Nat} (ha : hexValue? a = some t) (hb : hexValue? b = some u)
    (hc : hexValue? c = some v) (hd : hexValue? d = some w) :
    Escape ['u', a, b, c, d] (16 * (16 * (16 * t + u) + v) + w)

theorem exists_digit_of_hexFold {k n : Nat} {c : Char} {cs : List Char}
    (h : (c :: cs).foldlM (fun n c => (hexValue? c).map (16 * n + ·)) k = some n) :
    ∃ v, hexValue? c = some v ∧
      cs.foldlM (fun n c => (hexValue? c).map (16 * n + ·)) (16 * k + v) = some n := by
  rw [List.foldlM_cons, Option.bind_eq_bind, Option.bind_eq_some_iff] at h
  obtain ⟨_, hvalue, hrest⟩ := h
  rw [Option.map_eq_some_iff] at hvalue
  obtain ⟨v, hv, rfl⟩ := hvalue
  exact ⟨v, hv, hrest⟩

theorem escape_of_two {a b : Char} {code : Nat} (h : hexNumber? [a, b] = some code) :
    Escape [a, b] code := by
  obtain ⟨v, ha, h⟩ := exists_digit_of_hexFold h
  obtain ⟨w, hb, h⟩ := exists_digit_of_hexFold h
  have hcode : 16 * v + w = code := by
    simpa only [Nat.mul_zero, Nat.zero_add] using Option.some.inj h
  rw [← hcode]
  exact .short ha hb

theorem escape_of_four {a b c d : Char} {code : Nat} (h : hexNumber? [a, b, c, d] = some code) :
    Escape ['u', a, b, c, d] code := by
  obtain ⟨t, ha, h⟩ := exists_digit_of_hexFold h
  obtain ⟨u, hb, h⟩ := exists_digit_of_hexFold h
  obtain ⟨v, hc, h⟩ := exists_digit_of_hexFold h
  obtain ⟨w, hd, h⟩ := exists_digit_of_hexFold h
  have hcode : 16 * (16 * (16 * t + u) + v) + w = code := by
    simpa only [Nat.mul_zero, Nat.zero_add] using Option.some.inj h
  rw [← hcode]
  exact .long ha hb hc hd

theorem exists_escape {cs : List Char} {ch : Char} {n : Nat}
    (h : escapeAhead? cs = some (ch, n)) :
    ∃ escape rest code, Escape escape code ∧ cs = escape ++ rest ∧ cs.drop n = rest ∧
      ch = Char.ofNat code := by
  unfold escapeAhead? at h
  split at h
  · next a b c d rest =>
    simp only [bind_pure_comp, Option.bind_eq_bind, Option.bind_eq_some_iff,
      Option.map_eq_map, Option.map_eq_some_iff, Prod.mk.injEq] at h
    obtain ⟨code, hcode, _, hvalid, rfl, rfl⟩ := h
    unfold charOfCode? at hvalid
    split at hvalid
    · exact ⟨_, rest, code, escape_of_four hcode, rfl, rfl, (Option.some.inj hvalid).symm⟩
    · cases hvalid
  · next a b rest _ =>
    simp only [Option.map_eq_map, bind_pure_comp, Option.map_eq_some_iff, Prod.mk.injEq] at h
    obtain ⟨code, hcode, rfl, rfl⟩ := h
    exact ⟨_, rest, code, escape_of_two hcode, rfl, rfl, rfl⟩
  · cases h

theorem Escape.chars {escape : List Char} {code : Nat} (h : Escape escape code) :
    ∀ c ∈ escape, c = 'u' ∨ (hexValue? c).isSome := by
  cases h with
  | short ha hb => simp [ha, hb]
  | long ha hb hc hd => simp [ha, hb, hc, hd]

/-! ## Characters apart from escapes -/

/-- A character stands in a text, as itself or as an escape. -/
def IsWrittenIn (ch : Char) (cs : List Char) : Prop :=
  ch ∈ cs ∨ ∃ rest n, '%' :: rest <:+ cs ∧ escapeAhead? rest = some (ch, n)

/-- A character that is no part of any escape. -/
def IsApart (ch : Char) : Prop := ch ≠ '%' ∧ ch ≠ 'u' ∧ hexValue? ch = none

section

variable {ch : Char}

theorem isWrittenIn_cons_of_ne {c : Char} (hc : c ≠ '%') {cs : List Char} :
    IsWrittenIn ch (c :: cs) ↔ ch = c ∨ IsWrittenIn ch cs := by
  unfold IsWrittenIn
  simp only [List.mem_cons, List.suffix_cons_iff, List.cons.injEq, Ne.symm hc, false_and,
    false_or, or_assoc]

theorem isWrittenIn_percent (hch : IsApart ch) {cs : List Char} :
    IsWrittenIn ch ('%' :: cs) ↔ (∃ n, escapeAhead? cs = some (ch, n)) ∨ IsWrittenIn ch cs := by
  unfold IsWrittenIn
  simp only [List.mem_cons, hch.1, false_or, List.suffix_cons_iff, List.cons.injEq, true_and]
  constructor
  · rintro (hmem | ⟨rest, n, rfl | hrest, h⟩)
    · exact .inr (.inl hmem)
    · exact .inl ⟨n, h⟩
    · exact .inr (.inr ⟨rest, n, hrest, h⟩)
  · rintro (⟨n, h⟩ | hmem | ⟨rest, n, hrest, h⟩)
    · exact .inr ⟨cs, n, .inl rfl, h⟩
    · exact .inl hmem
    · exact .inr ⟨rest, n, .inr hrest, h⟩

theorem isWrittenIn_append (hch : IsApart ch) {escape rest : List Char}
    (h : ∀ c ∈ escape, c = 'u' ∨ (hexValue? c).isSome) :
    IsWrittenIn ch (escape ++ rest) ↔ IsWrittenIn ch rest := by
  induction escape with
  | nil => rfl
  | cons c escape ih =>
      have hc := h c List.mem_cons_self
      have hpercent : c ≠ '%' := by
        rintro rfl
        revert hc
        decide
      have hne : ch ≠ c := by
        rintro rfl
        rcases hc with hu | hhex
        · exact hch.2.1 hu
        · rw [hch.2.2] at hhex
          cases hhex
      rw [List.cons_append, isWrittenIn_cons_of_ne hpercent, or_iff_right hne]
      exact ih fun d hd => h d (List.mem_cons_of_mem _ hd)

theorem isWrittenIn_drop (hch : IsApart ch) {cs : List Char} {c : Char} {n : Nat}
    (h : escapeAhead? cs = some (c, n)) : IsWrittenIn ch cs ↔ IsWrittenIn ch (cs.drop n) := by
  obtain ⟨escape, rest, code, hescape, rfl, hdrop, -⟩ := exists_escape h
  rw [hdrop]
  exact isWrittenIn_append hch hescape.chars

theorem mem_unescapeChars_iff (hch : IsApart ch) (cs : List Char) :
    ch ∈ unescapeChars cs ↔ IsWrittenIn ch cs := by
  induction cs using unescapeChars.induct with
  | case1 => simp [unescapeChars, IsWrittenIn]
  | case2 cs c n h ih =>
      have hhere : (∃ m, escapeAhead? cs = some (ch, m)) ↔ ch = c := by
        simp [h, eq_comm]
      rw [unescapeChars, if_pos rfl, h, isWrittenIn_percent hch, hhere, isWrittenIn_drop hch h,
        ← ih, List.mem_cons]
  | case3 cs h ih =>
      have hnone : ¬ ∃ m, escapeAhead? cs = some (ch, m) := by
        simp [h]
      rw [unescapeChars, if_pos rfl, h, isWrittenIn_percent hch, or_iff_right hnone, ← ih,
        List.mem_cons, or_iff_right hch.1]
  | case4 c cs hc ih =>
      rw [unescapeChars_cons_of_ne hc, isWrittenIn_cons_of_ne hc, ← ih, List.mem_cons]

end

/-! ## Slashes -/

/-- How a slash is written. -/
def slashForms : List String := ["/", "%2F", "%2f", "%u002F", "%u002f"]

theorem Escape.slash {escape : List Char} (h : Escape escape 47) :
    ∃ form ∈ ["2F", "2f", "u002F", "u002f"], escape = form.toList := by
  have hzero {c : Char} (hc : hexValue? c = some 0) : c = '0' := by
    rcases eq_of_hexValue? hc with ⟨-, rfl⟩ | ⟨hten, -⟩
    · rfl
    · omega
  have htwo {c : Char} (hc : hexValue? c = some 2) : c = '2' := by
    rcases eq_of_hexValue? hc with ⟨-, rfl⟩ | ⟨hten, -⟩
    · rfl
    · omega
  have hfifteen {c : Char} (hc : hexValue? c = some 15) : c = 'F' ∨ c = 'f' := by
    rcases eq_of_hexValue? hc with ⟨hten, -⟩ | ⟨-, -, h⟩
    · omega
    · exact h
  generalize hcode : 47 = code at h
  cases h with
  | @short a b v w ha hb =>
      have hw : w < 16 := by
        rcases eq_of_hexValue? hb with h | h <;> omega
      obtain rfl : v = 2 := by omega
      obtain rfl : w = 15 := by omega
      obtain rfl := htwo ha
      rcases hfifteen hb with rfl | rfl
      · exact ⟨"2F", by decide, rfl⟩
      · exact ⟨"2f", by decide, rfl⟩
  | @long a b c d t u v w ha hb hc hd =>
      have hw : w < 16 := by
        rcases eq_of_hexValue? hd with h | h <;> omega
      obtain rfl : t = 0 := by omega
      obtain rfl : u = 0 := by omega
      obtain rfl : v = 2 := by omega
      obtain rfl : w = 15 := by omega
      obtain rfl := hzero ha
      obtain rfl := hzero hb
      obtain rfl := htwo hc
      rcases hfifteen hd with rfl | rfl
      · exact ⟨"u002F", by decide, rfl⟩
      · exact ⟨"u002f", by decide, rfl⟩

theorem eq_slash_of_ofNat {n : Nat} (h : Char.ofNat n = '/') : n = 47 := by
  by_cases hvalid : n.isValidChar
  · rw [Char.ofNat, dif_pos hvalid] at h
    exact congrArg Char.toNat h
  · rw [Char.ofNat, dif_neg hvalid] at h
    exact absurd h (by decide)

theorem escapeAhead?_slash_iff {cs : List Char} :
    (∃ n, escapeAhead? cs = some ('/', n)) ↔
      ∃ form ∈ ["2F", "2f", "u002F", "u002f"], form.toList <+: cs := by
  constructor
  · rintro ⟨n, h⟩
    obtain ⟨escape, rest, code, hescape, hcs, -, hslash⟩ := exists_escape h
    obtain rfl := eq_slash_of_ofNat hslash.symm
    obtain ⟨form, hform, rfl⟩ := hescape.slash
    exact ⟨form, hform, rest, hcs.symm⟩
  · simp only [List.mem_cons, List.not_mem_nil, or_false]
    rintro ⟨form, (rfl | rfl | rfl | rfl), rest, rfl⟩
    · exact ⟨2, rfl⟩
    · exact ⟨2, rfl⟩
    · exact ⟨5, rfl⟩
    · exact ⟨5, rfl⟩

/-- A slash comes out of a text exactly if it stands there, as itself or as an escape. -/
theorem slash_mem_unescapeChars_iff {cs : List Char} :
    '/' ∈ unescapeChars cs ↔ ∃ form ∈ slashForms, form.toList <:+: cs := by
  have hitself : '/' ∈ cs ↔ "/".toList <:+: cs := by
    constructor
    · intro hmem
      obtain ⟨before, after, rfl⟩ := List.append_of_mem hmem
      exact ⟨before, after, by simp⟩
    · intro h
      exact h.subset (by decide)
  have hescape : (∃ rest n, '%' :: rest <:+ cs ∧ escapeAhead? rest = some ('/', n)) ↔
      ∃ form ∈ ["2F", "2f", "u002F", "u002f"], '%' :: form.toList <:+: cs := by
    constructor
    · rintro ⟨rest, n, hrest, h⟩
      obtain ⟨form, hform, hstart⟩ := escapeAhead?_slash_iff.1 ⟨n, h⟩
      refine ⟨form, hform, ?_⟩
      rw [List.infix_iff_prefix_suffix]
      exact ⟨'%' :: rest, (List.prefix_cons_inj '%').2 hstart, hrest⟩
    · rintro ⟨form, hform, hinfix⟩
      obtain ⟨_, ⟨tail, rfl⟩, hsuffix⟩ := List.infix_iff_prefix_suffix.1 hinfix
      obtain ⟨n, h⟩ := escapeAhead?_slash_iff.2 ⟨form, hform, List.prefix_append _ tail⟩
      exact ⟨_, n, hsuffix, h⟩
  rw [mem_unescapeChars_iff ⟨by decide, by decide, by decide⟩, IsWrittenIn, hitself, hescape]
  simp only [slashForms, List.mem_cons, List.not_mem_nil, or_false, exists_eq_or_imp,
    exists_eq_left]
  rfl

end PeerWatch.Uri
