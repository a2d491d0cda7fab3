import PeerWatch.Proofs.Presence.Leniency
import PeerWatch.Proofs.Json.Written
import PeerWatch.Proofs.Text.Pieces

/-!
# Counts as numbers and as texts

A count may be reported as a number or as a text of its digits. The two are read alike as long as
the count fits into 32 bits. A larger number is read as the largest of them, a larger text as zero.
-/

namespace PeerWatch.Presence

open PeerWatch.Json (AtMostOnce NumberText Raw Unit16 Value WholeKeys digitsOf givenOr? maxDepth
  textOfUnits valuesOf)
open PeerWatch.Number (isDigit_of_mem_toDigits)

/-! ## Digits -/

theorem foldlM_decimal {ds : List Char} (h : ∀ c ∈ ds, c.isDigit = true) (n : Nat) :
    ds.foldlM (fun n c => if c.isDigit then some (n * 10 + Json.digitValue c) else none) n =
      some (Nat.ofDigitChars 10 ds n) := by
  induction ds generalizing n with
  | nil => rfl
  | cons c ds ih =>
      have hc : c.isDigit = true := h c List.mem_cons_self
      have hnext : n * 10 + Json.digitValue c = 10 * n + (c.toNat - '0'.toNat) := by
        rw [Json.digitValue, Nat.mul_comm]
      rw [List.foldlM_cons, if_pos hc, Nat.ofDigitChars_cons, hnext]
      exact ih (fun c hc => h c (List.mem_cons_of_mem _ hc)) _

theorem decimal?_toDigits (n : Nat) : decimal? (Nat.toDigits 10 n) = some n := by
  have hne : (Nat.toDigits 10 n).isEmpty = false := by
    simp
  rw [decimal?, hne]
  have hfold := foldlM_decimal (fun _ hc => isDigit_of_mem_toDigits (n := n) hc) 0
  rw [Nat.ofDigitChars_ten_toDigits] at hfold
  exact hfold

theorem unsigned?_toDigits (n : Nat) : unsigned? (Nat.toDigits 10 n) = some n := by
  rw [unsigned?]
  · exact decimal?_toDigits n
  · intro cs hcs
    have hdigit : '+'.isDigit = true :=
      isDigit_of_mem_toDigits (n := n) (hcs ▸ List.mem_cons_self)
    exact absurd hdigit (by decide)

theorem isBlank_of_isDigit {c : Char} (h : c.isDigit = true) : Text.isBlank c = false := by
  have hrange : 48 ≤ c.toNat ∧ c.toNat ≤ 57 := by
    simpa [Char.isDigit, UInt32.le_iff_toNat_le, ← Char.toNat_val] using h
  simp [Text.isBlank]
  omega

theorem trim_toDigits {left right : List Char} (hleft : ∀ c ∈ left, Text.isBlank c = true)
    (hright : ∀ c ∈ right, Text.isBlank c = true) (n : Nat) :
    Text.trim (left ++ (Nat.toDigits 10 n ++ right)) = Nat.toDigits 10 n := by
  have hbare : ∀ c ∈ Nat.toDigits 10 n, Text.isBlank c = false :=
    fun c hc => isBlank_of_isDigit (isDigit_of_mem_toDigits hc)
  exact Text.trim_padded hleft hright Nat.toDigits_ne_nil
    (fun c hc => hbare c (List.mem_of_mem_head? hc))
    (fun c hc => hbare c (List.mem_of_mem_getLast? hc))

/-! ## Counts -/

/-- A number that is written by the digits of a count is the count, up to the largest of 32 bits. -/
theorem count_of_number {n : Nat} (hn : n < 2 ^ 64) {t : NumberText}
    (ht : t.Form (Nat.toDigits 10 n)) (depth : Nat) :
    ∃ v, (Raw.number t).value? depth = some v ∧ countOf v = min n (2 ^ 32 - 1) := by
  have hone : t = digitsOf n := by
    have hends : Json.EndsNumber [] := fun _ h => by simp at h
    have hread := Json.readNumber_of_form ht hends
    rw [Json.readNumber_of_form (Json.form_digitsOf n) hends] at hread
    exact (congrArg Prod.fst (Option.some.inj hread)).symm
  have hle : n ≤ Json.maxWord := Nat.le_of_lt_succ hn
  refine ⟨.number (.natural n), ?_, rfl⟩
  rw [hone, Raw.value?, Json.value?_digitsOf hle, Option.map_some]

/-- A string that holds the digits of a number between blanks. -/
def HoldsDigits (n : Nat) (units : List Unit16) : Prop :=
  ∃ left right, (∀ c ∈ left, Text.isBlank c = true) ∧ (∀ c ∈ right, Text.isBlank c = true) ∧
    textOfUnits units = some (String.ofList (left ++ (Nat.toDigits 10 n ++ right)))

/-- A text that holds the digits of a count is the count, or zero beyond 32 bits. -/
theorem count_of_text {n : Nat} {units : List Unit16} (h : HoldsDigits n units) (depth : Nat) :
    ∃ v, (Raw.string units).value? depth = some v ∧
      countOf v = if n < 2 ^ 32 then n else 0 := by
  obtain ⟨left, right, hleft, hright, htext⟩ := h
  refine ⟨_, by rw [Raw.value?, htext, Option.map_some], ?_⟩
  have hle : n ≤ Json.maxHalfWord ↔ n < 2 ^ 32 := Nat.lt_succ_iff.symm
  simp only [countOf, String.toList_ofList, trim_toDigits hleft hright, unsigned?_toDigits, hle]

/-! ## Records with a count -/

theorem Contact.ofGiven?_messages {depth : Nat} {given rest : String → Option Raw} {raw : Raw}
    {v : Value} (hraw : given "messages" = some raw) (hv : raw.value? depth = some v)
    (hnone : rest "messages" = none)
    (hsame : ∀ field ∈ contactFields, field ≠ "messages" → given field = rest field) :
    ofGiven? depth given =
      (ofGiven? depth rest).map fun c => { c with messages := countOf v } := by
  simp only [ofGiven?]
  rw [hraw, hnone, hsame "name" (by decide) (by decide), hsame "tracker" (by decide) (by decide),
    hsame "status" (by decide) (by decide), hsame "prefix" (by decide) (by decide),
    hsame "newmessages" (by decide) (by decide)]
  have hcount : givenOr? (fun r => (r.value? depth).map countOf) 0 (some raw) =
      some (countOf v) := by
    rw [givenOr?, hv, Option.map_some]
  have habsent : givenOr? (fun r => (r.value? depth).map countOf) 0 none = some 0 := rfl
  rw [hcount, habsent]
  cases givenOr? Raw.optionalText? none (rest "name") <;>
    cases givenOr? Raw.optionalText? none (rest "tracker") <;>
    cases givenOr? (fun r => (r.value? depth).map textOf) "" (rest "status") <;>
    cases givenOr? (fun r => (r.value? depth).map textOf) "" (rest "prefix") <;>
    cases givenOr? (fun r => (r.value? depth).map flagOf) false (rest "newmessages") <;> rfl

variable {key : List Unit16} {raw : Raw} {before after : List (List Unit16 × Raw)}

theorem valuesOf_insert_self (hkey : textOfUnits key = some "messages")
    (hothers : valuesOf "messages" (before ++ after) = []) :
    valuesOf "messages" (before ++ (key, raw) :: after) = [raw] := by
  rw [Json.valuesOf_append, List.append_eq_nil_iff] at hothers
  rw [Json.valuesOf_append, hothers.1, Json.valuesOf_cons_self hkey, hothers.2, List.nil_append]

theorem valuesOf_insert_of_ne {field : String} (hkey : textOfUnits key = some "messages")
    (hne : field ≠ "messages") :
    valuesOf field (before ++ (key, raw) :: after) = valuesOf field (before ++ after) := by
  have hother : textOfUnits key ≠ some field := by
    rw [hkey]
    exact fun h => hne (Option.some.inj h).symm
  rw [Json.valuesOf_append, Json.valuesOf_cons_of_ne hother, Json.valuesOf_append]

/-- A record that gives a count is the contact that it would be without it, but for the count. -/
theorem Contact.ofRaw?_messages (hkey : textOfUnits key = some "messages")
    (hothers : valuesOf "messages" (before ++ after) = []) {depth : Nat} {v : Value}
    (hv : raw.value? (depth - 1) = some v) :
    ofRaw? depth (.object (before ++ (key, raw) :: after)) =
      (ofRaw? depth (.object (before ++ after))).map fun c => { c with messages := countOf v } := by
  have hwhole : WholeKeys (before ++ (key, raw) :: after) ↔ WholeKeys (before ++ after) := by
    simp [WholeKeys, or_imp, forall_and, hkey]
  have honce : AtMostOnce contactFields (before ++ (key, raw) :: after) ↔
      AtMostOnce contactFields (before ++ after) := by
    refine forall₂_congr fun field _ => ?_
    by_cases hfield : field = "messages"
    · rw [hfield, valuesOf_insert_self hkey hothers, hothers]
      exact iff_of_true (Nat.le_refl 1) (Nat.zero_le 1)
    · rw [valuesOf_insert_of_ne hkey hfield]
  by_cases hgood : depth ≠ 0 ∧ WholeKeys (before ++ after) ∧
      AtMostOnce contactFields (before ++ after)
  · obtain ⟨hdepth, hkeys, hfields⟩ := hgood
    rw [ofRaw?_object hdepth (hwhole.2 hkeys) (honce.2 hfields), ofRaw?_object hdepth hkeys hfields]
    have hgiven : givenIn (before ++ (key, raw) :: after) "messages" = some raw := by
      rw [givenIn, valuesOf_insert_self hkey hothers, List.head?_cons]
    refine ofGiven?_messages hgiven hv ?_ fun field _ hfield => ?_
    · rw [givenIn, hothers, List.head?_nil]
    · rw [givenIn, valuesOf_insert_of_ne hkey hfield, givenIn]
  · have hbad := hgood
    rw [← hwhole, ← honce] at hbad
    rw [ofRaw?_object_eq_none hbad, ofRaw?_object_eq_none hgood, Option.map_none]

/-- A count below `2 ^ 64` that a record gives as a number is kept up to the largest of 32 bits, and
one that it gives as a text of its digits, with blanks around them or not, is kept if it fits into
32 bits and is zero otherwise; nothing else of the contact depends on how it is given. So the two
records are the same contact if and only if the count fits into 32 bits. -/
theorem count_read_alike_iff {n : Nat} (hn : n < 2 ^ 64) (hkey : textOfUnits key = some "messages")
    (hothers : valuesOf "messages" (before ++ after) = []) {t : NumberText}
    (ht : t.Form (Nat.toDigits 10 n)) {units : List Unit16} (hunits : HoldsDigits n units)
    (depth : Nat) :
    let rest := Contact.ofRaw? depth (.object (before ++ after))
    let asNumber := Contact.ofRaw? depth (.object (before ++ (key, .number t) :: after))
    let asText := Contact.ofRaw? depth (.object (before ++ (key, .string units) :: after))
    asNumber = rest.map (fun c => { c with messages := min n (2 ^ 32 - 1) }) ∧
      asText = rest.map (fun c => { c with messages := if n < 2 ^ 32 then n else 0 }) ∧
      (rest.isSome = true → (asNumber = asText ↔ n < 2 ^ 32)) := by
  intro rest asNumber asText
  obtain ⟨number, hnumber, hcount⟩ := count_of_number hn ht (depth - 1)
  obtain ⟨text, htext, hcountText⟩ := count_of_text hunits (depth - 1)
  have hasNumber := Contact.ofRaw?_messages hkey hothers hnumber
  have hasText := Contact.ofRaw?_messages hkey hothers htext
  rw [hcount] at hasNumber
  rw [hcountText] at hasText
  refine ⟨hasNumber, hasText, fun hrest => ?_⟩
  obtain ⟨c, hc⟩ : ∃ c, Contact.ofRaw? depth (.object (before ++ after)) = some c :=
    Option.isSome_iff_exists.1 hrest
  have hboth : asNumber = asText ↔ min n (2 ^ 32 - 1) = if n < 2 ^ 32 then n else 0 := by
    simp only [asNumber, asText, hasNumber, hasText, hc, Option.map_some, Option.some.injEq,
      Contact.mk.injEq, true_and, and_true]
  rw [hboth]
  split <;> omega

theorem count_read_alike_iff_of_padded_seven :
    let status := [(Json.unitsOf "status", Raw.string (Json.unitsOf "found"))]
    let asNumber := status ++ [(Json.unitsOf "messages", .number (digitsOf 7))]
    let asText := status ++ [(Json.unitsOf "messages", .string (Json.unitsOf " 7\t"))]
    (7 < 2 ^ 64 ∧ textOfUnits (Json.unitsOf "messages") = some "messages" ∧
      valuesOf "messages" (status ++ []) = [] ∧ (digitsOf 7).Form (Nat.toDigits 10 7) ∧
      HoldsDigits 7 (Json.unitsOf " 7\t")) ∧
    Contact.ofRaw? maxDepth (.object asNumber) = some ⟨none, none, "found", 7, "", false⟩ ∧
      Contact.ofRaw? maxDepth (.object asText) = Contact.ofRaw? maxDepth (.object asNumber) := by
  intro status asNumber asText
  have hkey := Json.textOfUnits_unitsOf "messages"
  have hothers : valuesOf "messages" (status ++ []) = [] := by
    decide +kernel
  have hunits : HoldsDigits 7 (Json.unitsOf " 7\t") :=
    ⟨[' '], ['\t'], by simp [Text.isBlank], by simp [Text.isBlank],
      Json.textOfUnits_unitsOf " 7\t"⟩
  have hrest : Contact.ofRaw? maxDepth (.object (status ++ [])) =
      some ⟨none, none, "found", 0, "", false⟩ := by
    decide +kernel
  obtain ⟨hnumber, -, halike⟩ := count_read_alike_iff (n := 7) (by decide) hkey hothers
    (Json.form_digitsOf 7) hunits maxDepth
  rw [hrest] at hnumber halike
  exact ⟨⟨by decide, hkey, hothers, Json.form_digitsOf 7, hunits⟩, hnumber,
    ((halike rfl).2 (by decide)).symm⟩

/-- The least count that does not fit into 32 bits is lost if it is given as a text. -/
theorem count_beyond_half_word_lost_in_text :
    let list (count : Nat) : ContactList := ⟨[("bob", ⟨none, none, "found", count, "", false⟩)]⟩
    ContactList.decode? ("\x7b\"contacts\":\x7b\"bob\":\x7b\"status\":\"found\"," ++
      "\"messages\":4294967296\x7d\x7d\x7d") = some (some (list (2 ^ 32 - 1))) ∧
    ContactList.decode? ("\x7b\"contacts\":\x7b\"bob\":\x7b\"status\":\"found\"," ++
      "\"messages\":\"4294967296\"\x7d\x7d\x7d") = some (some (list 0)) := by
  decide +kernel

end PeerWatch.Presence
