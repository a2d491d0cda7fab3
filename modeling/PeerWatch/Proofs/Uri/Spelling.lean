import Mathlib.Data.List.Forall2
import PeerWatch.Proofs.Uri.Unescape

/-!
# Spellings of texts

The ways to write a text with escapes: each of its characters as itself, by two digits or by four,
in either case. However a text is written, reading its escapes gives the text back, and what comes
out of an escape is not read again.
-/

namespace PeerWatch.Uri

open PeerWatch.Text (hexValue?)

/-- A hexadecimal digit, in either case. -/
inductive HexDigit : Nat → Char → Prop
  | lower {v : Nat} (h : v < 16) : HexDigit v v.digitChar
  | upper {v : Nat} (h : v < 16) : HexDigit v v.digitChar.toUpper

/-- The ways to write a character: as itself, unless it is a percent sign, by two digits of its code
point, or by four. -/
inductive Spells (ch : Char) : List Char → Prop
  | itself (h : ch ≠ '%') : Spells ch [ch]
  | short {a b : Char} {v w : Nat} (ha : HexDigit v a) (hb : HexDigit w b)
    (hcode : 16 * v + w = ch.toNat) : Spells ch ['%', a, b]
  | long {a b c d : Char} {t u v w : Nat} (ha : HexDigit t a) (hb : HexDigit u b)
    (hc : HexDigit v c) (hd : HexDigit w d) (hcode : 16 * (16 * (16 * t + u) + v) + w = ch.toNat) :
    Spells ch ['%', 'u', a, b, c, d]

/-! ## One character -/

theorem HexDigit.value {v : Nat} {c : Char} (h : HexDigit v c) : hexValue? c = some v := by
  have hdigits : ∀ v < 16, hexValue? v.digitChar = some v ∧
      hexValue? v.digitChar.toUpper = some v := by
    decide
  cases h with
  | lower hlt => exact (hdigits v hlt).1
  | upper hlt => exact (hdigits v hlt).2

theorem hexNumber?_two {a b : Char} {v w : Nat} (ha : hexValue? a = some v)
    (hb : hexValue? b = some w) : hexNumber? [a, b] = some (16 * v + w) := by
  simp [hexNumber?, ha, hb]

theorem hexNumber?_four {a b c d : Char} {t u v w : Nat} (ha : hexValue? a = some t)
    (hb : hexValue? b = some u) (hc : hexValue? c = some v) (hd : hexValue? d = some w) :
    hexNumber? [a, b, c, d] = some (16 * (16 * (16 * t + u) + v) + w) := by
  simp [hexNumber?, ha, hb, hc, hd]

/-- An escape is found whatever follows it. -/
theorem escapeAhead?_append {escape : List Char} {ch : Char} (h : Escape escape ch.toNat)
    (rest : List Char) : escapeAhead? (escape ++ rest) = some (ch, escape.length) := by
  generalize hcode : ch.toNat = code at h
  cases h with
  | @short a b v w ha hb =>
      -- A `u` is no digit: what the percent sign is followed by tells the two lengths apart.
      have hu : a ≠ 'u' := by
        rintro rfl
        cases ha
      rw [List.cons_append, List.cons_append, escapeAhead?]
      · rw [hexNumber?_two ha hb, ← hcode]
        simp
      · intro _ _ _ _ heq
        exact fun _ => hu heq
  | @long a b c d t u v w ha hb hc hd =>
      have hvalid : ch.toNat.isValidChar := ch.valid
      have hchar : charOfCode? ch.toNat = some ch := by
        rw [charOfCode?, if_pos hvalid, Char.ofNat_toNat]
      simp only [List.cons_append, List.nil_append, escapeAhead?]
      rw [hexNumber?_four ha hb hc hd, ← hcode]
      simp [hchar]

theorem unescapeChars_escape {escape : List Char} {ch : Char} (h : Escape escape ch.toNat)
    (rest : List Char) : unescapeChars ('%' :: (escape ++ rest)) = ch :: unescapeChars rest := by
  rw [unescapeChars, if_pos rfl, escapeAhead?_append h]
  simp only [List.drop_left]

theorem Spells.unescapeChars_append {ch : Char} {form : List Char} (h : Spells ch form)
    (rest : List Char) : unescapeChars (form ++ rest) = ch :: unescapeChars rest := by
  cases h with
  | itself hne => exact unescapeChars_cons_of_ne hne rest
  | short ha hb hcode =>
      have hescape := Escape.short ha.value hb.value
      rw [hcode] at hescape
      exact unescapeChars_escape hescape rest
  | long ha hb hc hd hcode =>
      have hescape := Escape.long ha.value hb.value hc.value hd.value
      rw [hcode] at hescape
      exact unescapeChars_escape hescape rest

/-! ## Whole texts -/

theorem unescapeChars_spelled {cs : List Char} {forms : List (List Char)}
    (h : List.Forall₂ Spells cs forms) (rest : List Char) :
    unescapeChars (forms.flatten ++ rest) = cs ++ unescapeChars rest := by
  induction h with
  | nil => rfl
  | cons hform _ ih =>
      rw [List.flatten_cons, List.append_assoc, hform.unescapeChars_append, ih, List.cons_append]

/-- However each character of a text is written, the text comes back. What follows is read for
itself: a percent sign that comes out of an escape starts no escape. -/
theorem unescape_undoes_spelling {s : String} {forms : List (List Char)}
    (h : List.Forall₂ Spells s.toList forms) :
    unescape (String.ofList forms.flatten) = s ∧
      ∀ rest : String, unescape (String.ofList forms.flatten ++ rest) = s ++ unescape rest := by
  have hrest (rest : String) :
      unescape (String.ofList forms.flatten ++ rest) = s ++ unescape rest := by
    rw [unescape, String.toList_append, String.toList_ofList, unescapeChars_spelled h,
      String.ofList_append, String.ofList_toList, ← unescape]
  have hnone : unescape "" = "" := unescape_of_no_percent (by simp)
  refine ⟨?_, hrest⟩
  have hwhole := hrest ""
  rwa [hnone, String.append_empty, String.append_empty] at hwhole

/-- An escaped percent sign in front of digits, and escapes of either length in either case. -/
theorem unescape_undoes_spelling_of_percent :
    List.Forall₂ Spells "%41é☺".toList
        ["%25".toList, "4".toList, "1".toList, "%e9".toList, "%u263A".toList] ∧
      unescape "%2541%e9%u263A" = "%41é☺" ∧
      unescape ("%2541%e9%u263A" ++ "%zz") = "%41é☺" ++ unescape "%zz" := by
  have hpercent : Spells '%' "%25".toList :=
    .short (v := 2) (w := 5) (.lower (by decide)) (.upper (by decide)) rfl
  have hletter : Spells 'é' "%e9".toList :=
    .short (v := 14) (w := 9) (.lower (by decide)) (.lower (by decide)) rfl
  have hface : Spells '☺' "%u263A".toList :=
    .long (t := 2) (u := 6) (v := 3) (w := 10) (.lower (by decide)) (.lower (by decide))
      (.lower (by decide)) (.upper (by decide)) rfl
  have hforms : List.Forall₂ Spells "%41é☺".toList
      ["%25".toList, "4".toList, "1".toList, "%e9".toList, "%u263A".toList] :=
    .cons hpercent (.cons (.itself (by decide)) (.cons (.itself (by decide))
      (.cons hletter (.cons hface .nil))))
  exact ⟨hforms, (unescape_undoes_spelling hforms).1, (unescape_undoes_spelling hforms).2 "%zz"⟩

end PeerWatch.Uri
