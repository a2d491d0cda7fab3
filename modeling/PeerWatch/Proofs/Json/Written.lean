import PeerWatch.Json.Value
import PeerWatch.Proofs.Json.Tokens
import PeerWatch.Proofs.Number.Digits

/-!
# Values written and read

The text of a value leads the reader back to the tree of the value, whatever stands behind it, and
each kind of value has a lemma for it. Objects are read member by member, in the order in which they
are written and with repeated keys.
-/

namespace PeerWatch.Json

open PeerWatch.Number (head?_toDigits_ne_zero isDigit_of_mem_toDigits le_ofDigitChars)

/-! ## Strings -/

/-- The units of a string that is written character by character. -/
def unitsOf (s : String) : List Unit16 := s.toList.map .char

theorem textOfUnits_unitsOf (s : String) : textOfUnits (unitsOf s) = some s := by
  have hchars : ∀ cs : List Char, charsOfUnits (cs.map .char) = some cs := by
    intro cs
    induction cs with
    | nil => rfl
    | cons c cs ih => rw [List.map_cons, charsOfUnits, ih]; rfl
  rw [textOfUnits, unitsOf, hchars, Option.map_some, String.ofList_toList]

theorem escapedUnit?_of_lt : ∀ n < 32,
    escapedUnit? '0' '0' (hexDigit (n / 16)) (hexDigit (n % 16)) = some (.char (Char.ofNat n)) := by
  decide

theorem unitText_writeChar (c : Char) : UnitText (.char c) (writeChar c) := by
  unfold writeChar
  split
  · exact .letter rfl
  · exact .letter rfl
  · exact .letter rfl
  · exact .letter rfl
  · exact .letter rfl
  · exact .letter rfl
  · exact .letter rfl
  · next hquote hslash _ _ _ _ _ =>
      split
      · next hcontrol =>
          have hcode := escapedUnit?_of_lt c.toNat hcontrol
          rw [Char.ofNat_toNat] at hcode
          exact .code hcode
      · next hcontrol => exact .plain (Nat.le_of_not_lt hcontrol) hquote hslash

theorem unitsText_writeChars (cs : List Char) :
    UnitsText (cs.map .char) (cs.flatMap writeChar) := by
  induction cs with
  | nil => exact .nil
  | cons c cs ih => exact .cons (unitText_writeChar c) ih

/-- A string is read up to its closing quote. -/
theorem readUnits_string (cs rest : List Char) :
    readUnits (cs.flatMap writeChar ++ '"' :: rest) = some (cs.map .char, rest) :=
  readUnits_of_unitsText (unitsText_writeChars cs) rest

/-! ## Numbers -/

/-- The number that is written by the digits of `n`. -/
def digitsOf (n : Nat) : NumberText := ⟨false, Nat.toDigits 10 n, none, none⟩

theorem takeWhole_of_le {ds : List Char} {n : Nat} (h : Nat.ofDigitChars 10 ds n ≤ maxWord) :
    takeWhole ⟨n, 0⟩ ds = ⟨Nat.ofDigitChars 10 ds n, 0⟩ := by
  induction ds generalizing n with
  | nil => rfl
  | cons c ds ih =>
      rw [Nat.ofDigitChars_cons] at h ⊢
      have hnext : n * 10 + digitValue c = 10 * n + (c.toNat - '0'.toNat) := by
        rw [digitValue, Nat.mul_comm]
      have hle : n * 10 + digitValue c ≤ maxWord := by
        rw [hnext]
        exact Nat.le_trans (le_ofDigitChars ds _) h
      rw [takeWhole]
      simp only [hle, and_self, if_true]
      rw [hnext, ih h]

theorem value?_digitsOf {n : Nat} (h : n ≤ maxWord) : (digitsOf n).value? = some (.natural n) := by
  have hwhole : takeWhole ⟨0, 0⟩ (Nat.toDigits 10 n) = ⟨n, 0⟩ := by
    rw [takeWhole_of_le] <;> rw [Nat.ofDigitChars_ten_toDigits]
    exact h
  simp [NumberText.value?, digitsOf, hwhole]

theorem wholeText_toDigits (n : Nat) : WholeText (Nat.toDigits 10 n) := by
  rcases Nat.eq_zero_or_pos n with rfl | hpos
  · exact .inl (Nat.toDigits_zero 10)
  · have hdigits : Digits (Nat.toDigits 10 n) :=
      ⟨Nat.toDigits_ne_nil, fun _ hc => isDigit_of_mem_toDigits hc⟩
    exact .inr ⟨hdigits, head?_toDigits_ne_zero hpos⟩

theorem form_digitsOf (n : Nat) : (digitsOf n).Form (Nat.toDigits 10 n) := by
  have hform : (digitsOf n).Form ([] ++ (Nat.toDigits 10 n ++ ([] ++ []))) :=
    .mk (wholeText_toDigits n) .none .none
  rwa [List.nil_append, List.append_nil, List.append_nil] at hform

/-! ## Values -/

/-- A text that the reader takes for a tree, whatever stands behind it. -/
def Reads (text : List Char) (raw : Raw) : Prop :=
  ∀ n rest, text.length ≤ n → EndsNumber rest → readValue n (text ++ rest) = some (raw, rest)

theorem reads_null : Reads Value.null.write .null := by
  intro n rest hn _
  obtain ⟨n, rfl⟩ := Nat.exists_eq_add_of_le' (Nat.le_trans (by decide : 1 ≤ 4) hn)
  rfl

theorem reads_bool (b : Bool) : Reads (Value.bool b).write (.bool b) := by
  intro n rest hn _
  cases b with
  | true =>
      obtain ⟨n, rfl⟩ := Nat.exists_eq_add_of_le' (Nat.le_trans (by decide : 1 ≤ 4) hn)
      rfl
  | false =>
      obtain ⟨n, rfl⟩ := Nat.exists_eq_add_of_le' (Nat.le_trans (by decide : 1 ≤ 5) hn)
      rfl

/-- A digit or a minus sign begins a number and none of the other values. -/
theorem readValue_number {c : Char} (h : c = '-' ∨ c.isDigit = true) (n : Nat) (cs : List Char) :
    readValue (n + 1) (c :: cs) = (readNumber (c :: cs)).map fun r => (.number r.1, r.2) := by
  have hne : ∀ d, d ≠ '-' → d.isDigit = false → c ≠ d := by
    rintro d hminus hd rfl
    rcases h with h | h
    · exact hminus h
    · exact absurd (h.symm.trans hd) (by decide)
  have hspace : isSpace c = false := by
    simp [isSpace, hne ' ' (by decide) rfl, hne '\t' (by decide) rfl, hne '\n' (by decide) rfl,
      hne '\r' (by decide) rfl]
  have hskip : skipSpace (c :: cs) = c :: cs := by
    rw [skipSpace, List.dropWhile_cons_of_neg (by simp [hspace])]
  rw [readValue, hskip]
  split
  · next h => exact absurd (List.cons.inj h).1 (hne 'n' (by decide) rfl)
  · next h => exact absurd (List.cons.inj h).1 (hne 't' (by decide) rfl)
  · next h => exact absurd (List.cons.inj h).1 (hne 'f' (by decide) rfl)
  · next h => exact absurd (List.cons.inj h).1 (hne '"' (by decide) rfl)
  · next h => exact absurd (List.cons.inj h).1 (hne '[' (by decide) rfl)
  · next h => exact absurd (List.cons.inj h).1 (hne '\x7b' (by decide) rfl)
  · rfl

theorem reads_succ {text : List Char} {tree : Raw} (hne : text ≠ [])
    (h : ∀ n rest, text.length ≤ n + 1 → EndsNumber rest →
      readValue (n + 1) (text ++ rest) = some (tree, rest)) : Reads text tree := by
  intro n rest hn hrest
  have hpos : 0 < text.length := List.length_pos_iff.2 hne
  obtain ⟨n, rfl⟩ := Nat.exists_eq_add_of_le' (Nat.le_trans hpos hn)
  exact h n rest hn hrest

theorem reads_number {t : NumberText} {text : List Char} (h : t.Form text) :
    Reads text (.number t) := by
  obtain ⟨c, tail, rfl, hc⟩ := h.begins
  refine reads_succ (List.cons_ne_nil c tail) fun n rest _ hrest => ?_
  have hread := readNumber_of_form h hrest
  rw [List.cons_append] at hread ⊢
  rw [readValue_number hc, hread]
  rfl

theorem reads_units {units : List Unit16} {text : List Char} (h : UnitsText units text) :
    Reads ('"' :: (text ++ ['"'])) (.string units) := by
  refine reads_succ (List.cons_ne_nil _ _) fun n rest _ _ => ?_
  have hread := readUnits_of_unitsText h rest
  rw [readValue]
  simp [skipSpace, isSpace, hread]

theorem reads_natural (m : Nat) :
    Reads (Value.number (.natural m)).write (.number (digitsOf m)) :=
  reads_number (form_digitsOf m)

theorem writeString_append (s : String) (rest : List Char) :
    writeString s ++ rest = '"' :: (s.toList.flatMap writeChar ++ '"' :: rest) := by
  simp [writeString]

theorem reads_string (s : String) : Reads (Value.string s).write (.string (unitsOf s)) :=
  reads_units (unitsText_writeChars s.toList)

/-! ## Objects -/

section Object

variable {ι : Type} {key : ι → String} {value : ι → Value} {tree : ι → Raw}

theorem endsNumber_cons {c : Char} (h : c.isDigit = false ∧ c ≠ '.' ∧ c ≠ 'e' ∧ c ≠ 'E')
    (rest : List Char) : EndsNumber (c :: rest) := by
  intro c' hc'
  obtain rfl : c = c' := Option.some.inj hc'
  exact h

section Member

variable {cs named marked behind ended more : List Char} {key : List Unit16} {raw : Raw} {n : Nat}

/-- The last member of an object, between its blanks. -/
theorem readMembers_last (hquote : skipSpace cs = '"' :: named)
    (hname : readUnits named = some (key, marked)) (hcolon : skipSpace marked = ':' :: behind)
    (hvalue : readValue n behind = some (raw, ended)) (hclose : skipSpace ended = '\x7d' :: more) :
    readMembers (n + 1) cs = some ([(key, raw)], more) := by
  rw [readMembers]
  simp only [hquote, hname, hcolon, hvalue, hclose]

/-- A member of an object that others follow. -/
theorem readMembers_more (hquote : skipSpace cs = '"' :: named)
    (hname : readUnits named = some (key, marked)) (hcolon : skipSpace marked = ':' :: behind)
    (hvalue : readValue n behind = some (raw, ended)) (hcomma : skipSpace ended = ',' :: more) :
    readMembers (n + 1) cs = (readMembers n more).map fun r => ((key, raw) :: r.1, r.2) := by
  rw [readMembers]
  simp only [hquote, hname, hcolon, hvalue, hcomma]

end Member

theorem readMembers_writeLast {k : String} {text rest : List Char} {raw : Raw} {n : Nat}
    (h : readValue n (text ++ '\x7d' :: rest) = some (raw, '\x7d' :: rest)) :
    readMembers (n + 1) (writeString k ++ ':' :: (text ++ '\x7d' :: rest)) =
      some ([(unitsOf k, raw)], rest) := by
  rw [writeString_append]
  exact readMembers_last rfl (readUnits_string _ _) rfl h rfl

theorem readMembers_writeMore {k : String} {text more : List Char} {raw : Raw} {n : Nat}
    (h : readValue n (text ++ ',' :: more) = some (raw, ',' :: more)) :
    readMembers (n + 1) (writeString k ++ ':' :: (text ++ ',' :: more)) =
      (readMembers n more).map fun r => ((unitsOf k, raw) :: r.1, r.2) := by
  rw [writeString_append]
  exact readMembers_more rfl (readUnits_string _ _) rfl h rfl

/-- Members that are written one after the other are read in this order, each as its tree. -/
theorem readMembers_write {item : ι} {items : List ι}
    (h : ∀ i ∈ item :: items, Reads (value i).write (tree i)) {n : Nat} {rest : List Char}
    (hn : (writeMembers ((item :: items).map fun i => (key i, value i))).length ≤ n) :
    readMembers n (writeMembers ((item :: items).map fun i => (key i, value i)) ++ '\x7d' :: rest) =
      some ((item :: items).map fun i => (unitsOf (key i), tree i), rest) := by
  induction items generalizing item n with
  | nil =>
      have hwrite : writeMembers ([item].map fun i => (key i, value i)) =
          writeString (key item) ++ ':' :: (value item).write := rfl
      rw [hwrite] at hn ⊢
      simp only [List.length_cons, List.length_append] at hn
      obtain ⟨n, rfl⟩ := Nat.exists_eq_add_of_le' (Nat.le_trans (by omega : 1 ≤ _) hn)
      have hvalue := h item List.mem_cons_self n ('\x7d' :: rest) (by omega)
        (endsNumber_cons (by decide) rest)
      rw [List.append_assoc, List.cons_append, readMembers_writeLast hvalue]
      rfl
  | cons next items ih =>
      have hwrite : writeMembers ((item :: next :: items).map fun i => (key i, value i)) =
          writeString (key item) ++ ':' :: (value item).write ++
            ',' :: writeMembers ((next :: items).map fun i => (key i, value i)) := rfl
      rw [hwrite] at hn ⊢
      simp only [List.length_cons, List.length_append] at hn
      obtain ⟨n, rfl⟩ := Nat.exists_eq_add_of_le' (Nat.le_trans (by omega : 1 ≤ _) hn)
      have hvalue := h item List.mem_cons_self n
        (',' :: (writeMembers ((next :: items).map fun i => (key i, value i)) ++ '\x7d' :: rest))
        (by omega) (endsNumber_cons (by decide) _)
      have hrest := @ih next (fun i hi => h i (List.mem_cons_of_mem _ hi)) n (by omega)
      have hassoc : writeString (key item) ++ ':' :: (value item).write ++
            ',' :: writeMembers ((next :: items).map fun i => (key i, value i)) ++ '\x7d' :: rest =
          writeString (key item) ++ ':' :: ((value item).write ++
            ',' :: (writeMembers ((next :: items).map fun i => (key i, value i)) ++
              '\x7d' :: rest)) := by
        simp only [List.append_assoc, List.cons_append]
      rw [hassoc, readMembers_writeMore hvalue, hrest]
      rfl

theorem reads_object {items : List ι} (h : ∀ i ∈ items, Reads (value i).write (tree i)) :
    Reads (Value.object (items.map fun i => (key i, value i))).write
      (.object (items.map fun i => (unitsOf (key i), tree i))) := by
  intro n rest hn _
  rw [Value.write] at hn ⊢
  simp only [List.length_cons, List.length_append] at hn
  obtain ⟨n, rfl⟩ := Nat.exists_eq_add_of_le' (Nat.le_trans (by omega : 1 ≤ _) hn)
  cases items with
  | nil => rfl
  | cons item items =>
      have hmembers := @readMembers_write ι key value tree item items h n rest (by omega)
      obtain ⟨text, htext⟩ : ∃ text,
          writeMembers ((item :: items).map fun i => (key i, value i)) = '"' :: text := by
        cases items with
        | nil => exact ⟨_, rfl⟩
        | cons next items => exact ⟨_, rfl⟩
      have happend : '\x7b' :: writeMembers ((item :: items).map fun i => (key i, value i)) ++
          ['\x7d'] ++ rest = '\x7b' :: '"' :: (text ++ '\x7d' :: rest) := by
        rw [htext]
        simp
      have hbrace : ∀ cs, skipSpace ('\x7b' :: cs) = '\x7b' :: cs := fun _ => rfl
      have hquote : ∀ cs, skipSpace ('"' :: cs) = '"' :: cs := fun _ => rfl
      rw [htext, List.cons_append] at hmembers
      rw [happend, readValue]
      simp only [hbrace, hquote, hmembers, Option.map_some]
      rfl

end Object

theorem Reads.read? {text : List Char} {raw : Raw} (h : Reads text raw) :
    Raw.read? text = some raw := by
  have hread := h (text.length + 1) [] (by omega) (by simp [EndsNumber])
  rw [List.append_nil] at hread
  rw [Raw.read?, hread]
  rfl

end PeerWatch.Json
