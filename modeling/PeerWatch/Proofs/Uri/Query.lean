import PeerWatch.Proofs.Text.Pieces
import PeerWatch.Proofs.Uri.Encoding

/-!
# Parameters of an address

What appending parameters does to the query of an address: those it has stay, and each pair becomes
one more, from which its key and its value can be decoded, whatever characters they hold.
-/

namespace PeerWatch.Uri

open PeerWatch.Text (hexValue? cut cutOnce)

/-- The bytes that a percent-encoded text stands for. It consists of ASCII characters, and each of
its percent signs is followed by two digits. -/
def percentDecode? : List Char → Option (List UInt8)
  | [] => some []
  | '%' :: a :: b :: cs => do
    let v ← hexValue? a
    let w ← hexValue? b
    let bytes ← percentDecode? cs
    return UInt8.ofNat (16 * v + w) :: bytes
  | c :: cs =>
    if c = '%' ∨ 0x80 ≤ c.toNat then none
    else (percentDecode? cs).map (UInt8.ofNat c.toNat :: ·)

/-- The parameters of an address: what stands between the ampersands of its query, which begins
behind the first question mark. -/
def paramsOf (url : String) : List (List Char) :=
  match cutOnce '?' url.toList with
  | none => []
  | some (_, query) => cut '&' query

/-- The address with all these pairs appended, one after the other. -/
def appendParams (url : String) (pairs : List (String × String)) : String :=
  pairs.foldl (fun url pair => appendParam url pair.1 pair.2) url

/-- A parameter has one equals sign, and its sides stand for a key and a value. -/
def Carries (pair : String × String) (param : List Char) : Prop :=
  ∃ key value, param = key ++ '=' :: value ∧ '=' ∉ key ∧ '=' ∉ value ∧
    percentDecode? key = some (bytesOf pair.1) ∧ percentDecode? value = some (bytesOf pair.2)

/-! ## Encoded bytes -/

theorem percentDecode?_escape {a b : Char} {v w : Nat} (ha : hexValue? a = some v)
    (hb : hexValue? b = some w) (rest : List Char) :
    percentDecode? ('%' :: a :: b :: rest) =
      (percentDecode? rest).map (UInt8.ofNat (16 * v + w) :: ·) := by
  rw [percentDecode?, ha, hb]
  cases percentDecode? rest <;> rfl

theorem percentDecode?_itself {c : Char} (hpercent : c ≠ '%') (hascii : c.toNat < 0x80)
    (rest : List Char) :
    percentDecode? (c :: rest) = (percentDecode? rest).map (UInt8.ofNat c.toNat :: ·) := by
  rw [percentDecode?]
  · rw [if_neg (by simp [hpercent, hascii])]
  · intro _ _ _ heq
    exact fun _ => hpercent heq

theorem percentDecode?_encodeByte (b : UInt8) (rest : List Char) :
    percentDecode? (encodeByte b ++ rest) = (percentDecode? rest).map (b :: ·) := by
  unfold encodeByte
  split
  next hunreserved =>
    have hpercent := ne_percent_of_isUnreserved hunreserved
    rw [List.singleton_append, percentDecode?_itself hpercent (isUnreserved_lt hunreserved),
      toNat_charOfByte, UInt8.ofNat_toNat]
  next =>
    have hlt : b.toNat < 256 := b.toNat_lt
    have hfirst := (hexDigit_hexUpper (v := b.toNat / 16) (by omega)).value
    have hsecond := (hexDigit_hexUpper (v := b.toNat % 16) (by omega)).value
    have hcode : 16 * (b.toNat / 16) + b.toNat % 16 = b.toNat := Nat.div_add_mod b.toNat 16
    rw [escapeByte, List.cons_append, List.cons_append, List.cons_append, List.nil_append,
      percentDecode?_escape hfirst hsecond, hcode, UInt8.ofNat_toNat]

theorem percentDecode?_encode (s : String) :
    percentDecode? (encode s).toList = some (bytesOf s) := by
  rw [toList_encode]
  induction bytesOf s with
  | nil => rfl
  | cons b bytes ih =>
      rw [List.flatMap_cons, percentDecode?_encodeByte, ih, Option.map_some]

theorem mem_encodeByte {b : UInt8} {c : Char} (h : c ∈ encodeByte b) :
    c = '%' ∨ isUnreserved c = true := by
  have hdigits : ∀ v < 16, isUnreserved (hexUpper v) = true := by
    decide
  have hlt : b.toNat < 256 := b.toNat_lt
  unfold encodeByte at h
  split at h
  next hunreserved =>
    rw [List.mem_singleton.1 h]
    exact .inr hunreserved
  next =>
    simp only [escapeByte, List.mem_cons, List.not_mem_nil, or_false] at h
    rcases h with rfl | rfl | rfl
    · exact .inl rfl
    · exact .inr (hdigits _ (by omega))
    · exact .inr (hdigits _ (by omega))

theorem not_mem_encode {c : Char} (hpercent : c ≠ '%') (hreserved : isUnreserved c = false)
    (s : String) : c ∉ (encode s).toList := by
  rw [toList_encode]
  intro h
  obtain ⟨b, _, hb⟩ := List.mem_flatMap.1 h
  rcases mem_encodeByte hb with rfl | hunreserved
  · exact hpercent rfl
  · rw [hreserved] at hunreserved
    cases hunreserved

/-! ## One parameter -/

/-- The text of a parameter. -/
def paramText (pair : String × String) : List Char :=
  (encode pair.1).toList ++ '=' :: (encode pair.2).toList

theorem carries_paramText (pair : String × String) : Carries pair (paramText pair) := by
  have hequals (s : String) : '=' ∉ (encode s).toList := not_mem_encode (by decide) (by decide) s
  exact ⟨_, _, rfl, hequals pair.1, hequals pair.2, percentDecode?_encode pair.1,
    percentDecode?_encode pair.2⟩

theorem ampersand_not_mem_paramText (pair : String × String) : '&' ∉ paramText pair := by
  have hampersand (s : String) : '&' ∉ (encode s).toList :=
    not_mem_encode (by decide) (by decide) s
  simp [paramText, hampersand]

theorem toList_appendParam (url : String) (pair : String × String) :
    (appendParam url pair.1 pair.2).toList =
      url.toList ++ (if '?' ∈ url.toList then '&' else '?') :: paramText pair := by
  by_cases hquery : '?' ∈ url.toList <;> simp [appendParam, paramText, hquery]

theorem paramsOf_appendParam (url : String) (pair : String × String) :
    paramsOf (appendParam url pair.1 pair.2) = paramsOf url ++ [paramText pair] := by
  have hone : cut '&' (paramText pair) = [paramText pair] :=
    Text.cut_of_not_mem (ampersand_not_mem_paramText pair)
  rw [paramsOf, toList_appendParam, paramsOf]
  cases hcut : cutOnce '?' url.toList with
  | none =>
      -- The query is started here, and the parameter is all of it.
      have hquery : '?' ∉ url.toList := Text.cutOnce_eq_none_iff.1 hcut
      rw [if_neg hquery, Text.cutOnce_append_cons hquery]
      exact hone
  | some parts =>
      obtain ⟨hurl, hbefore⟩ := Text.eq_of_cutOnce hcut
      have hquery : '?' ∈ url.toList := by
        rw [hurl]
        simp
      rw [if_pos hquery, hurl, List.append_assoc, List.cons_append,
        Text.cutOnce_append_cons hbefore]
      show cut '&' (parts.2 ++ '&' :: paramText pair) = cut '&' parts.2 ++ [paramText pair]
      rw [Text.cut_append, hone]

/-! ## Many parameters -/

theorem appendParams_cons (url : String) (pair : String × String) (pairs : List (String × String)) :
    appendParams url (pair :: pairs) = appendParams (appendParam url pair.1 pair.2) pairs := rfl

theorem start_of_appendParams (url : String) (pairs : List (String × String)) :
    url.toList <+: (appendParams url pairs).toList := by
  induction pairs generalizing url with
  | nil => exact List.prefix_rfl
  | cons pair pairs ih =>
      rw [appendParams_cons]
      refine List.IsPrefix.trans ?_ (ih _)
      rw [toList_appendParam]
      exact List.prefix_append _ _

theorem paramsOf_appendParams (url : String) (pairs : List (String × String)) :
    paramsOf (appendParams url pairs) = paramsOf url ++ pairs.map paramText := by
  induction pairs generalizing url with
  | nil => rw [List.map_nil, List.append_nil, appendParams, List.foldl_nil]
  | cons pair pairs ih =>
      rw [appendParams_cons, ih, paramsOf_appendParam, List.append_assoc, List.map_cons,
        List.singleton_append]

/-- Appended parameters leave the address and its own parameters as they are, and each pair, in
order, becomes one parameter that carries it. -/
theorem appended_params_carry_pairs (url : String) (pairs : List (String × String)) :
    url.toList <+: (appendParams url pairs).toList ∧
      ∃ params, paramsOf (appendParams url pairs) = paramsOf url ++ params ∧
        List.Forall₂ Carries pairs params := by
  refine ⟨start_of_appendParams url pairs, pairs.map paramText, paramsOf_appendParams url pairs, ?_⟩
  rw [List.forall₂_map_right_iff, List.forall₂_same]
  exact fun pair _ => carries_paramText pair

end PeerWatch.Uri
