import PeerWatch.Time.Span
import PeerWatch.Proofs.Number.Digits

/-!
# Spans written and read

A span is written as numbers of ever smaller units. The reader adds up what it finds, number by
number, without coming near an overflow, and so gets the span back.
-/

namespace PeerWatch.Time

open PeerWatch.Number (exists_digits le_ofDigitChars)

/-- A span whose seconds fit into 64 bits, and whose nanoseconds are less than a second. -/
structure Span.Representable (s : Span) : Prop where
  seconds_le : s.seconds ≤ Span.maxSeconds
  nanos_lt : s.nanos < 1000000000

instance (s : Span) : Decidable s.Representable :=
  decidable_of_iff (s.seconds ≤ Span.maxSeconds ∧ s.nanos < 1000000000)
    ⟨fun h => ⟨h.1, h.2⟩, fun h => ⟨h.seconds_le, h.nanos_lt⟩⟩

theorem word_of_lt {n : Nat} (h : n < UInt64.size) : word n = .ok n := if_pos h

/-! ## Reading a number with a unit -/

theorem foldlM_append_of_ok {ε α β : Type} {f : β → α → Except ε β} {xs : List α} {a b : β}
    (h : xs.foldlM f a = .ok b) (ys : List α) : (xs ++ ys).foldlM f a = ys.foldlM f b := by
  rw [List.foldlM_append, h]
  rfl

theorem foldlM_cons_of_ok {ε α β : Type} {f : β → α → Except ε β} {x : α} {a b : β}
    (h : f a x = .ok b) (xs : List α) : (x :: xs).foldlM f a = xs.foldlM f b := by
  rw [List.foldlM_cons, h]
  rfl

/-- A letter of a unit: the reader takes it for neither a digit nor a blank. -/
def IsUnitChar (c : Char) : Prop :=
  Reader.isUnitLetter c = true ∧ c.isDigit = false ∧ Text.isBlank c = false

instance (c : Char) : Decidable (IsUnitChar c) := inferInstanceAs (Decidable (_ ∧ _ ∧ _))

def IsUnitName (name : List Char) : Prop := name ≠ [] ∧ ∀ c ∈ name, IsUnitChar c

-- by `all`, since the instance for all characters there are could be found otherwise
instance (name : List Char) : Decidable (IsUnitName name) :=
  decidable_of_iff (name ≠ [] ∧ name.all (IsUnitChar ·) = true) (by simp [IsUnitName])

namespace Reader

variable {total : Option Span} {byte : Nat} {c : Char}

theorem step_gap_digit (hc : c.isDigit = true) (since : Nat) :
    step ⟨byte, total, .gap since⟩ c = .ok ⟨byte + c.utf8Size, total, .digits (digit c)⟩ := by
  simp only [step, hc, if_true]
  rfl

theorem step_digits_digit (hc : c.isDigit = true) {n : Nat}
    (hfit : n * 10 + digit c < UInt64.size) :
    step ⟨byte, total, .digits n⟩ c =
      .ok ⟨byte + c.utf8Size, total, .digits (n * 10 + digit c)⟩ := by
  simp only [step, hc, if_true, word_of_lt hfit]
  rfl

theorem step_digits_letter (hc : IsUnitChar c) (n : Nat) :
    step ⟨byte, total, .digits n⟩ c = .ok ⟨byte + c.utf8Size, total, .unit ⟨n, none⟩ [c]⟩ := by
  obtain ⟨hletter, hdigit, hblank⟩ := hc
  simp only [step, hletter, hdigit, hblank, if_true, Bool.false_eq_true, if_false]
  rfl

theorem step_unit_letter (hc : IsUnitChar c) (a : Amount) (name : List Char) :
    step ⟨byte, total, .unit a name⟩ c = .ok ⟨byte + c.utf8Size, total, .unit a (c :: name)⟩ := by
  obtain ⟨hletter, hdigit, hblank⟩ := hc
  simp only [step, hletter, hdigit, hblank, if_true, Bool.false_eq_true, if_false]
  rfl

theorem step_unit_space {a : Amount} {name : List Char} {s : Span}
    (hclose : (total.getD .zero).addAmount a name.reverse = .ok s) :
    step ⟨byte, total, .unit a name⟩ ' ' = .ok ⟨byte + 1, some s, .gap (byte + 1)⟩ := by
  have hdigit : ' '.isDigit = false := by decide
  have hblank : Text.isBlank ' ' = true := by decide
  simp only [step, close, hclose, hdigit, hblank, if_true, Bool.false_eq_true, if_false]
  rfl

theorem finish_unit {a : Amount} {name : List Char} {s : Span}
    (hclose : (total.getD .zero).addAmount a name.reverse = .ok s) :
    finish ⟨byte, total, .unit a name⟩ = .ok s := hclose

theorem foldlM_digits {ds : List Char} (hdigits : ∀ c ∈ ds, c.isDigit = true) {n : Nat}
    (hfit : Nat.ofDigitChars 10 ds n < UInt64.size) :
    ∃ byte', ds.foldlM step ⟨byte, total, .digits n⟩ =
      .ok ⟨byte', total, .digits (Nat.ofDigitChars 10 ds n)⟩ := by
  induction ds generalizing byte n with
  | nil => exact ⟨byte, by simp; rfl⟩
  | cons c ds ih =>
      rw [Nat.ofDigitChars_cons] at hfit ⊢
      have hnext : n * 10 + digit c = 10 * n + (c.toNat - '0'.toNat) := by
        rw [digit, Nat.mul_comm]
      have hword : n * 10 + digit c < UInt64.size := by
        rw [hnext]
        exact Nat.lt_of_le_of_lt (le_ofDigitChars ds _) hfit
      rw [foldlM_cons_of_ok (step_digits_digit (hdigits c (by simp)) hword), hnext]
      exact ih (fun c hc => hdigits c (List.mem_cons_of_mem _ hc)) hfit

theorem foldlM_letters {name : List Char} (hname : ∀ c ∈ name, IsUnitChar c) (a : Amount)
    (before : List Char) :
    ∃ byte', name.foldlM step ⟨byte, total, .unit a before⟩ =
      .ok ⟨byte', total, .unit a (name.reverse ++ before)⟩ := by
  induction name generalizing byte before with
  | nil => exact ⟨byte, rfl⟩
  | cons c name ih =>
      rw [foldlM_cons_of_ok (step_unit_letter (hname c (by simp)) a before), List.reverse_cons,
        List.append_assoc]
      exact ih (fun c hc => hname c (List.mem_cons_of_mem _ hc)) (c :: before)

/-- A number with a unit is read as such wherever a number may start. -/
theorem foldlM_amount (total : Option Span) (byte since : Nat) {name : List Char}
    (hname : IsUnitName name) {n : Nat} (hn : n < UInt64.size) :
    ∃ byte', (Nat.toDigits 10 n ++ name).foldlM step ⟨byte, total, .gap since⟩ =
      .ok ⟨byte', total, .unit ⟨n, none⟩ name.reverse⟩ := by
  obtain ⟨d, ds, hds, hdigits⟩ := exists_digits n
  obtain ⟨c, name, rfl⟩ : ∃ c rest, name = c :: rest := List.exists_cons_of_ne_nil hname.1
  have hvalue : Nat.ofDigitChars 10 ds (digit d) = n := by
    have hall := Nat.ofDigitChars_ten_toDigits (n := n)
    rwa [hds, Nat.ofDigitChars_cons, Nat.mul_zero, Nat.zero_add] at hall
  obtain ⟨byte₁, hnumber⟩ : ∃ byte', ds.foldlM step ⟨byte + d.utf8Size, total, .digits (digit d)⟩ =
      .ok ⟨byte', total, .digits (Nat.ofDigitChars 10 ds (digit d))⟩ :=
    foldlM_digits (fun c hc => hdigits c (List.mem_cons_of_mem _ hc)) (hvalue.symm ▸ hn)
  rw [hvalue] at hnumber
  rw [hds, List.cons_append, foldlM_cons_of_ok (step_gap_digit (hdigits d (by simp)) since),
    foldlM_append_of_ok hnumber, foldlM_cons_of_ok (step_digits_letter (hname.2 c (by simp)) n),
    List.reverse_cons]
  exact foldlM_letters (fun c hc => hname.2 c (List.mem_cons_of_mem _ hc)) ⟨n, none⟩ [c]

end Reader

/-! ## Adding up -/

theorem Span.add_eq {total : Span} {seconds nanos : Nat}
    (hseconds : total.seconds + seconds < UInt64.size) (hnanos : total.nanos + nanos < 1000000000) :
    total.add seconds nanos = .ok ⟨total.seconds + seconds, total.nanos + nanos⟩ := by
  have hcarry : (total.nanos + nanos) / 1000000000 = 0 := Nat.div_eq_of_lt hnanos
  have hbillion : 1000000000 < UInt64.size := by decide
  have hword : word (total.nanos + nanos) = .ok (total.nanos + nanos) :=
    word_of_lt (Nat.lt_trans hnanos hbillion)
  have hsum : word (total.seconds + seconds + (total.nanos + nanos) / 1000000000) =
      .ok (total.seconds + seconds) := by
    rw [hcarry, Nat.add_zero]
    exact word_of_lt hseconds
  simp only [Span.add, hword, bind, Except.bind, hsum, Nat.mod_eq_of_lt hnanos]
  rfl

/-- So many of what is measured. -/
def Measure.times (n : Nat) : Measure → Span
  | .seconds k => ⟨n * k, 0⟩
  | .nanos k => ⟨0, n * k⟩

theorem Span.addMeasure_eq {total : Span} {n : Nat} {m : Measure}
    (hseconds : total.seconds + (m.times n).seconds < UInt64.size)
    (hnanos : total.nanos + (m.times n).nanos < 1000000000) :
    total.addMeasure n m =
      .ok ⟨total.seconds + (m.times n).seconds, total.nanos + (m.times n).nanos⟩ := by
  have hadd := Span.add_eq hseconds hnanos
  have hbillion : 1000000000 < UInt64.size := by decide
  cases m with
  | seconds k =>
      have hword : word (n * k) = .ok (n * k) :=
        word_of_lt (Nat.lt_of_le_of_lt (Nat.le_add_left _ _) hseconds)
      rw [addMeasure, hword]
      exact hadd
  | nanos k =>
      have hword : word (n * k) = .ok (n * k) :=
        word_of_lt (Nat.lt_of_le_of_lt (Nat.le_add_left _ _) (Nat.lt_trans hnanos hbillion))
      rw [addMeasure, hword]
      exact hadd

/-- A name that can be read to its end and is that of a unit. -/
def KnownUnit (name : String) : Prop :=
  IsUnitName name.toList ∧ (SpanUnit.ofName? name).isSome

instance (name : String) : Decidable (KnownUnit name) := inferInstanceAs (Decidable (_ ∧ _))

/-- A number with the name of a unit. -/
structure Item where
  number : Nat
  name : String

namespace Item

def chars (i : Item) : List Char := Nat.toDigits 10 i.number ++ i.name.toList

def addTo (total : Span) (i : Item) : Except SpanError Span :=
  total.addAmount ⟨i.number, none⟩ i.name.toList

/-- What an item adds, as far as its unit is known. -/
def worth (i : Item) : Span :=
  match SpanUnit.ofName? i.name with
  | some unit => unit.whole.times i.number
  | none => .zero

theorem worth_of_zero {i : Item} (h : i.number = 0) : i.worth = .zero := by
  unfold worth
  split
  · rw [h]
    unfold Measure.times
    split <;> simp [Span.zero]
  · rfl

theorem addTo_eq {total : Span} {i : Item} (hunit : (SpanUnit.ofName? i.name).isSome)
    (hseconds : total.seconds + i.worth.seconds < UInt64.size)
    (hnanos : total.nanos + i.worth.nanos < 1000000000) :
    addTo total i = .ok ⟨total.seconds + i.worth.seconds, total.nanos + i.worth.nanos⟩ := by
  obtain ⟨unit, hunit⟩ := Option.isSome_iff_exists.1 hunit
  have hworth : i.worth = unit.whole.times i.number := by rw [worth, hunit]
  rw [hworth] at hseconds hnanos ⊢
  rw [addTo, Span.addAmount, String.ofList_toList, hunit]
  simp only [Span.addMeasure_eq hseconds hnanos]
  rfl

/-- The reader knows the unit and can hold the number. -/
structure Readable (i : Item) : Prop where
  unit : KnownUnit i.name
  number : i.number < UInt64.size

end Item

/-- What items are worth together. -/
def worthOf : List Item → Span
  | [] => .zero
  | i :: items =>
    ⟨i.worth.seconds + (worthOf items).seconds, i.worth.nanos + (worthOf items).nanos⟩

theorem foldlM_addTo {items : List Item} (hunits : ∀ i ∈ items, (SpanUnit.ofName? i.name).isSome)
    {total : Span} (hseconds : total.seconds + (worthOf items).seconds < UInt64.size)
    (hnanos : total.nanos + (worthOf items).nanos < 1000000000) :
    items.foldlM Item.addTo total =
      .ok ⟨total.seconds + (worthOf items).seconds, total.nanos + (worthOf items).nanos⟩ := by
  induction items generalizing total with
  | nil => rfl
  | cons i items ih =>
      simp only [worthOf, ← Nat.add_assoc] at hseconds hnanos ⊢
      have hfirst := Item.addTo_eq (hunits i (by simp))
        (Nat.lt_of_le_of_lt (Nat.le_add_right _ _) hseconds)
        (Nat.lt_of_le_of_lt (Nat.le_add_right _ _) hnanos)
      rw [foldlM_cons_of_ok hfirst]
      exact ih (fun i hi => hunits i (List.mem_cons_of_mem _ hi)) hseconds hnanos

theorem worthOf_filter (items : List Item) :
    worthOf (items.filter (·.number ≠ 0)) = worthOf items := by
  induction items with
  | nil => rfl
  | cons i items ih =>
      by_cases hi : i.number = 0
      · rw [List.filter_cons_of_neg (by simpa using hi), worthOf, ih]
        simp [Item.worth_of_zero hi, Span.zero]
      · rw [List.filter_cons_of_pos (by simpa using hi)]
        rw [worthOf, worthOf, ih]

namespace Reader

/-- Items with blanks between them are read as their sum. -/
theorem read_items {items : List Item} (hne : items ≠ []) (hread : ∀ i ∈ items, i.Readable)
    (total : Option Span) {s : Span} (hsum : items.foldlM Item.addTo (total.getD .zero) = .ok s)
    (byte since : Nat) :
    ([' '].intercalate (items.map Item.chars)).foldlM step ⟨byte, total, .gap since⟩ >>= finish =
      .ok s := by
  induction items generalizing total byte since with
  | nil => exact absurd rfl hne
  | cons i items ih =>
      have hi : i.Readable := hread i (by simp)
      obtain ⟨sum, hfirst, hrest⟩ : ∃ sum, Item.addTo (total.getD .zero) i = .ok sum ∧
          items.foldlM Item.addTo sum = .ok s := by
        rw [List.foldlM_cons] at hsum
        cases hfirst : Item.addTo (total.getD .zero) i with
        | ok sum => exact ⟨sum, rfl, by rwa [hfirst] at hsum⟩
        | error e =>
            rw [hfirst] at hsum
            cases hsum
      have hclose : (total.getD .zero).addAmount ⟨i.number, none⟩ i.name.toList.reverse.reverse =
          .ok sum := by
        rw [List.reverse_reverse]
        exact hfirst
      obtain ⟨byte', hamount⟩ := foldlM_amount total byte since hi.unit.1 hi.number
      cases items with
      | nil =>
          cases hrest
          rw [List.map_cons, List.map_nil, List.intercalate_singleton, Item.chars, hamount]
          exact finish_unit hclose
      | cons next items =>
          rw [List.map_cons, List.map_cons, List.intercalate_cons_cons, Item.chars,
            List.append_assoc, foldlM_append_of_ok hamount, List.singleton_append,
            foldlM_cons_of_ok (step_unit_space hclose)]
          have hnext := ih (by simp) (fun j hj => hread j (List.mem_cons_of_mem _ hj)) (some sum)
            hrest (byte' + 1) (byte' + 1)
          rwa [List.map_cons] at hnext

end Reader

/-! ## Spans in items -/

/-- The name of a unit, in plural for more than one. -/
def plural (n : Nat) (name : String) : String := if n > 1 then name ++ "s" else name

/-- The numbers of all units in a span, those included that are not written. -/
def Span.itemsOf (s : Span) : List Item :=
  let inYear := s.seconds % SpanUnit.yearSeconds
  let inMonth := inYear % SpanUnit.monthSeconds
  let inDay := inMonth % SpanUnit.daySeconds
  let years := s.seconds / SpanUnit.yearSeconds
  let months := inYear / SpanUnit.monthSeconds
  let days := inMonth / SpanUnit.daySeconds
  [⟨years, plural years "year"⟩, ⟨months, plural months "month"⟩, ⟨days, plural days "day"⟩,
    ⟨inDay / 3600, "h"⟩, ⟨inDay % 3600 / 60, "m"⟩, ⟨inDay % 60, "s"⟩,
    ⟨s.nanos / 1000000, "ms"⟩, ⟨s.nanos / 1000 % 1000, "us"⟩, ⟨s.nanos % 1000, "ns"⟩]

def Item.text (i : Item) : String := toString i.number ++ i.name

theorem Item.toList_text (i : Item) : i.text.toList = i.chars := by
  rw [text, String.toList_append, Nat.toString_eq_repr, Nat.toList_repr, chars]

theorem item_eq (n : Nat) (name : String) :
    item n name = ([(⟨n, name⟩ : Item)].filter (·.number ≠ 0)).map Item.text := by
  by_cases hn : n = 0
  · simp [item, hn]
  · simp [item, hn, Item.text]

theorem Span.items_eq (s : Span) : s.items = (s.itemsOf.filter (·.number ≠ 0)).map Item.text := by
  simp only [items, itemPlural, item_eq, ← List.map_append, ← List.filter_append]
  rfl

theorem of_plural {p : String → Prop} (name : String) (hone : p name) (hmany : p (name ++ "s"))
    (n : Nat) : p (plural n name) := by
  unfold plural
  split
  · exact hmany
  · exact hone

theorem Item.worth_eq (name : String) (unit : SpanUnit) (hunit : SpanUnit.ofName? name = some unit)
    (n : Nat) : (⟨n, name⟩ : Item).worth = unit.whole.times n := by
  simp only [worth, hunit]

theorem Item.worth_plural (name : String) (unit : SpanUnit)
    (hone : SpanUnit.ofName? name = some unit) (hmany : SpanUnit.ofName? (name ++ "s") = some unit)
    (n : Nat) : (⟨n, plural n name⟩ : Item).worth = unit.whole.times n :=
  worth_eq _ unit (of_plural (p := (SpanUnit.ofName? · = some unit)) name hone hmany n) n

theorem Span.worthOf_itemsOf (s : Span) : worthOf s.itemsOf = s := by
  have hyears := Item.worth_plural "year" .year rfl rfl
  have hmonths := Item.worth_plural "month" .month rfl rfl
  have hdays := Item.worth_plural "day" .day rfl rfl
  have hhours := Item.worth_eq "h" .hour rfl
  have hminutes := Item.worth_eq "m" .minute rfl
  have hseconds := Item.worth_eq "s" .second rfl
  have hmillis := Item.worth_eq "ms" .millisecond rfl
  have hmicros := Item.worth_eq "us" .microsecond rfl
  have hnanos := Item.worth_eq "ns" .nanosecond rfl
  obtain ⟨seconds, nanos⟩ := s
  -- no steps by definition here: checking them would count the seconds of a year down one by one
  simp -implicitDefEqProofs only [worthOf, itemsOf, hyears, hmonths, hdays, hhours, hminutes,
    hseconds, hmillis, hmicros, hnanos, SpanUnit.whole, Measure.times, Span.zero,
    SpanUnit.yearSeconds, SpanUnit.monthSeconds, SpanUnit.daySeconds, Span.mk.injEq]
  omega

theorem knownUnit_written : ∀ name ∈ ["year", "years", "month", "months", "day", "days", "h", "m",
    "s", "ms", "us", "ns"], KnownUnit name := by
  decide

theorem Span.readable_itemsOf {s : Span} (h : s.Representable) : ∀ i ∈ s.itemsOf, i.Readable := by
  have hseconds : s.seconds < UInt64.size := by
    have hmax := h.seconds_le
    have hpos : 0 < UInt64.size := by decide
    rw [maxSeconds] at hmax
    omega
  have hnanos : s.nanos < UInt64.size := Nat.lt_trans h.nanos_lt (by decide)
  simp only [itemsOf, List.forall_mem_cons, SpanUnit.yearSeconds, SpanUnit.monthSeconds,
    SpanUnit.daySeconds]
  have hplural := fun name hone hmany =>
    of_plural (p := KnownUnit) name (knownUnit_written _ hone) (knownUnit_written _ hmany)
  have hknown := knownUnit_written
  refine ⟨⟨hplural "year" (by simp) (by simp) _, ?_⟩, ⟨hplural "month" (by simp) (by simp) _, ?_⟩,
    ⟨hplural "day" (by simp) (by simp) _, ?_⟩, ⟨hknown _ (by simp), ?_⟩, ⟨hknown _ (by simp), ?_⟩,
    ⟨hknown _ (by simp), ?_⟩, ⟨hknown _ (by simp), ?_⟩, ⟨hknown _ (by simp), ?_⟩,
    ⟨hknown _ (by simp), ?_⟩, by simp⟩
  all_goals
    dsimp only
    omega

/-! ## The way back -/

/-- What the reader makes of a text that is not a lone zero. -/
theorem Span.read_eq {text : String} {s : Span}
    (h : text.toList.foldlM Reader.step Reader.start >>= Reader.finish = .ok s) :
    Span.read text = .ok s := by
  have hnot : text ≠ "0" := by
    rintro rfl
    cases h
  rw [Span.read, if_neg hnot, h]

/-- A span that was written is read as the same span. -/
theorem Span.read_text {s : Span} (h : s.Representable) : Span.read s.text = .ok s := by
  by_cases hzero : s.isZero = true
  · obtain ⟨seconds, nanos⟩ := s
    simp only [isZero, Bool.and_eq_true, beq_iff_eq] at hzero
    obtain ⟨rfl, rfl⟩ := hzero
    rfl
  · have hwritten : s.itemsOf.filter (·.number ≠ 0) ≠ [] := by
      intro hnone
      have hworth := worthOf_filter s.itemsOf
      rw [hnone, s.worthOf_itemsOf] at hworth
      rw [← hworth] at hzero
      exact hzero rfl
    have hreadable : ∀ i ∈ s.itemsOf.filter (·.number ≠ 0), i.Readable :=
      fun i hi => s.readable_itemsOf h i ((List.mem_filter.1 hi).1)
    have hsum : (s.itemsOf.filter (·.number ≠ 0)).foldlM Item.addTo .zero = .ok s := by
      have hworth : worthOf (s.itemsOf.filter (·.number ≠ 0)) = s := by
        rw [worthOf_filter, s.worthOf_itemsOf]
      have hseconds := h.seconds_le
      have hpos : 0 < UInt64.size := by decide
      rw [foldlM_addTo (fun i hi => (hreadable i hi).unit.2), hworth]
      · simp [zero]
      · rw [hworth, zero, Nat.zero_add]
        rw [maxSeconds] at hseconds
        omega
      · rw [hworth, zero, Nat.zero_add]
        exact h.nanos_lt
    have htext : s.text.toList =
        [' '].intercalate ((s.itemsOf.filter (·.number ≠ 0)).map Item.chars) := by
      rw [text, if_neg hzero, String.toList_intercalate, s.items_eq, List.map_map]
      congr 1
      exact List.map_congr_left fun i _ => i.toList_text
    apply Span.read_eq
    rw [htext]
    exact Reader.read_items hwritten hreadable none hsum 0 0

end PeerWatch.Time
