import PeerWatch.Proofs.Uri.Spelling

/-!
# Encoded texts

An encoded text spells the bytes of the text in UTF-8, each as one character. Reading its escapes
therefore gives those bytes, which are the text itself exactly if it is in ASCII.
-/

namespace PeerWatch.Uri

/-- The bytes of a text in UTF-8. -/
def bytesOf (s : String) : List UInt8 := s.toUTF8.data.toList

/-- The character whose code point is a byte. -/
def charOfByte (b : UInt8) : Char := Char.ofNat b.toNat

/-- What a byte is encoded as. -/
def encodeByte (b : UInt8) : List Char :=
  if isUnreserved (charOfByte b) then [charOfByte b] else escapeByte b

/-! ## Bytes and characters -/

@[simp] theorem toNat_charOfByte (b : UInt8) : (charOfByte b).toNat = b.toNat := by
  have hvalid : b.toNat.isValidChar := by
    have hlt := b.toNat_lt
    unfold Nat.isValidChar
    omega
  rw [charOfByte, Char.ofNat, dif_pos hvalid]
  rfl

theorem charOfByte_injective : Function.Injective charOfByte := by
  intro a b h
  have hcode := congrArg Char.toNat h
  rw [toNat_charOfByte, toNat_charOfByte] at hcode
  exact UInt8.toNat_inj.1 hcode

theorem bytesOf_eq (s : String) : bytesOf s = s.toList.flatMap String.utf8EncodeChar := by
  rw [bytesOf, String.toUTF8_eq_toByteArray, ← String.utf8Encode_toList, List.utf8Encode,
    List.toList_data_toByteArray]

theorem bytesOf_injective : Function.Injective bytesOf := by
  intro s t h
  apply String.toByteArray_inj.1
  apply ByteArray.ext
  exact Array.toList_inj.1 h

theorem utf8EncodeChar_of_ascii {c : Char} (h : c.toNat < 0x80) :
    ∃ b, String.utf8EncodeChar c = [b] ∧ charOfByte b = c := by
  have hsize : c.utf8Size = 1 := by
    rw [Char.utf8Size_eq_one_iff, UInt32.le_iff_toNat_le]
    exact Nat.le_of_lt_succ h
  have hcode : c.val.toUInt8.toNat = c.toNat := by
    rw [UInt32.toNat_toUInt8, Char.toNat_val]
    omega
  refine ⟨c.val.toUInt8, String.utf8EncodeChar_eq_singleton hsize, ?_⟩
  rw [charOfByte, hcode, Char.ofNat_toNat]

/-- Only ASCII characters have bytes of ASCII characters. -/
theorem le_of_mem_utf8EncodeChar {c : Char} (h : 0x80 ≤ c.toNat) {b : UInt8}
    (hb : b ∈ String.utf8EncodeChar c) : 0x80 ≤ b.toNat := by
  have hbyte {n : Nat} (hle : 0x80 ≤ n) (hlt : n < 0x100) : 0x80 ≤ (UInt8.ofNat n).toNat := by
    rw [UInt8.toNat_ofNat_of_lt' hlt]
    exact hle
  unfold String.utf8EncodeChar at hb
  simp only [Char.toNat_val] at hb
  rw [if_neg (by omega)] at hb
  split at hb
  · simp only [List.mem_cons, List.not_mem_nil, or_false] at hb
    rcases hb with rfl | rfl <;> exact hbyte (by omega) (by omega)
  · split at hb
    · simp only [List.mem_cons, List.not_mem_nil, or_false] at hb
      rcases hb with rfl | rfl | rfl <;> exact hbyte (by omega) (by omega)
    · simp only [List.mem_cons, List.not_mem_nil, or_false] at hb
      rcases hb with rfl | rfl | rfl | rfl <;> exact hbyte (by omega) (by omega)

theorem length_le_utf8 (cs : List Char) :
    cs.length ≤ (cs.flatMap String.utf8EncodeChar).length := by
  induction cs with
  | nil => exact Nat.le_refl 0
  | cons c cs ih =>
      have hsize := c.utf8Size_pos
      rw [List.flatMap_cons, List.length_append, String.length_utf8EncodeChar, List.length_cons]
      omega

/-- A text of as many bytes as characters is in ASCII. -/
theorem ascii_of_length_utf8 {cs : List Char}
    (h : (cs.flatMap String.utf8EncodeChar).length = cs.length) : ∀ c ∈ cs, c.toNat < 0x80 := by
  induction cs with
  | nil => simp
  | cons c cs ih =>
      have hsize := c.utf8Size_pos
      have hrest := length_le_utf8 cs
      rw [List.flatMap_cons, List.length_append, String.length_utf8EncodeChar,
        List.length_cons] at h
      have hone : c.utf8Size = 1 := by omega
      rw [Char.utf8Size_eq_one_iff, UInt32.le_iff_toNat_le] at hone
      rw [List.forall_mem_cons]
      exact ⟨Nat.lt_succ_of_le hone, ih (by omega)⟩

theorem map_charOfByte_of_ascii {cs : List Char} (h : ∀ c ∈ cs, c.toNat < 0x80) :
    (cs.flatMap String.utf8EncodeChar).map charOfByte = cs := by
  induction cs with
  | nil => rfl
  | cons c cs ih =>
      rw [List.forall_mem_cons] at h
      obtain ⟨b, hb, rfl⟩ := utf8EncodeChar_of_ascii h.1
      rw [List.flatMap_cons, hb, List.map_append, ih h.2, List.map_singleton, List.singleton_append]

/-- The bytes of a text, each as one character, are the text itself exactly if it is in ASCII. -/
theorem map_charOfByte_eq_iff {s : String} :
    (bytesOf s).map charOfByte = s.toList ↔ ∀ c ∈ s.toList, c.toNat < 0x80 := by
  rw [bytesOf_eq]
  constructor
  · intro h
    -- The first byte of a character may be its code point, as in `Ã`, so the lengths decide.
    apply ascii_of_length_utf8
    have hlength := congrArg List.length h
    rwa [List.length_map] at hlength
  · exact map_charOfByte_of_ascii

/-! ## The encoder, byte by byte -/

theorem isAlpha_lt {c : Char} (h : c.isAlpha = true) : c.toNat < 0x80 := by
  have hlast : c.val ≤ 'Z'.val ∨ c.val ≤ 'z'.val := by
    rcases Bool.or_eq_true_iff.1 h with hupper | hlower
    · exact .inl (of_decide_eq_true hupper).2
    · exact .inr (of_decide_eq_true (Bool.and_eq_true_iff.1 hlower).2)
  rcases hlast with hupper | hlower
  · exact Nat.lt_of_le_of_lt (UInt32.le_iff_toNat_le.1 hupper) (by decide)
  · exact Nat.lt_of_le_of_lt (UInt32.le_iff_toNat_le.1 hlower) (by decide)

theorem isUnreserved_lt {c : Char} (h : isUnreserved c = true) : c.toNat < 0x80 := by
  simp only [isUnreserved, Char.isAlphanum, Bool.or_eq_true, beq_iff_eq, Char.isDigit_iff_toNat,
    ← Char.toNat_inj, Char.reduceToNat] at h
  by_cases hletter : c.isAlpha = true
  · exact isAlpha_lt hletter
  · rw [or_iff_right hletter] at h
    omega

theorem ne_percent_of_isUnreserved {c : Char} (h : isUnreserved c = true) : c ≠ '%' := by
  rintro rfl
  exact absurd h (by decide)

theorem encodeByte_of_le {b : UInt8} (h : 0x80 ≤ b.toNat) : encodeByte b = escapeByte b := by
  have hreserved : ¬ isUnreserved (charOfByte b) = true := by
    intro hunreserved
    have hlt := isUnreserved_lt hunreserved
    rw [toNat_charOfByte] at hlt
    omega
  rw [encodeByte, if_neg hreserved]

theorem encodeChar_eq (c : Char) :
    encodeChar c = (String.utf8EncodeChar c).flatMap encodeByte := by
  by_cases hascii : c.toNat < 0x80
  · obtain ⟨b, hb, rfl⟩ := utf8EncodeChar_of_ascii hascii
    rw [encodeChar, hb, List.flatMap_singleton, List.flatMap_singleton, encodeByte]
  · have hreserved : ¬ isUnreserved c = true := fun h => hascii (isUnreserved_lt h)
    rw [encodeChar, if_neg hreserved]
    apply List.flatMap_congr
    intro b hb
    exact (encodeByte_of_le (le_of_mem_utf8EncodeChar (Nat.le_of_not_lt hascii) hb)).symm

/-- A text is encoded byte by byte. -/
theorem toList_encode (s : String) : (encode s).toList = (bytesOf s).flatMap encodeByte := by
  rw [encode, String.toList_ofList, encodeChars, bytesOf_eq, List.flatMap_assoc]
  apply List.flatMap_congr
  intro c _
  exact encodeChar_eq c

/-! ## Reading back -/

theorem hexDigit_hexUpper {v : Nat} (h : v < 16) : HexDigit v (hexUpper v) := by
  have hupper : ∀ v < 16, hexUpper v = v.digitChar.toUpper := by
    decide
  rw [hupper v h]
  exact .upper h

theorem spells_encodeByte (b : UInt8) : Spells (charOfByte b) (encodeByte b) := by
  unfold encodeByte
  split
  next hunreserved => exact .itself (ne_percent_of_isUnreserved hunreserved)
  next =>
    have hlt : b.toNat < 256 := b.toNat_lt
    refine .short (hexDigit_hexUpper (by omega)) (hexDigit_hexUpper (Nat.mod_lt _ (by decide))) ?_
    rw [toNat_charOfByte]
    exact Nat.div_add_mod b.toNat 16

theorem unescape_encode (s : String) :
    unescape (encode s) = String.ofList ((bytesOf s).map charOfByte) := by
  have hspelled :
      List.Forall₂ Spells ((bytesOf s).map charOfByte) ((bytesOf s).map encodeByte) := by
    rw [List.forall₂_map_left_iff, List.forall₂_map_right_iff, List.forall₂_same]
    exact fun b _ => spells_encodeByte b
  have hread := unescapeChars_spelled hspelled []
  rw [unescape, toList_encode, List.flatMap_def]
  rw [List.append_nil, unescapeChars, List.append_nil] at hread
  rw [hread]

/-- Reading the escapes of an encoded text gives the bytes of the text, each as the character of
that code point. So it gives the text back exactly if the text is in ASCII, and no two texts are
encoded alike. -/
theorem unescape_encode_reads_bytes :
    (∀ s, unescape (encode s) = String.ofList ((bytesOf s).map charOfByte)) ∧
      (∀ s, unescape (encode s) = s ↔ ∀ c ∈ s.toList, c.toNat < 0x80) ∧
      Function.Injective encode := by
  refine ⟨unescape_encode, ?_, ?_⟩
  · intro s
    rw [unescape_encode, ← map_charOfByte_eq_iff, ← String.toList_inj, String.toList_ofList]
  · intro s t h
    have hread := congrArg unescape h
    rw [unescape_encode, unescape_encode, String.ofList_inj] at hread
    exact bytesOf_injective (List.map_injective_iff.2 charOfByte_injective hread)

end PeerWatch.Uri
