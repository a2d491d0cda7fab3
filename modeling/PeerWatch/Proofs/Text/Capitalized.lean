import PeerWatch.Proofs.Text.SmallLetters
import PeerWatch.Proofs.Text.Words

/-!
# Capitalised texts

The texts that capitalising leaves alone: no word starts with a small letter of ASCII, and behind
its first character a word is small. Every capitalised text is one of them, since capitalising
moves no border between words, so that capitalising again changes nothing.
-/

namespace PeerWatch.Text

/-- A text whose words are capitalised. -/
inductive Capitalized : List Char → Prop
  | nil : Capitalized []
  /-- A character outside words. -/
  | outside {c : Char} {cs : List Char} (hc : ¬ startsWord c = true) (hcs : Capitalized cs) :
    Capitalized (c :: cs)
  /-- A word, which ends at a blank or with the text. -/
  | word {c : Char} {tail cs : List Char} (hc : startsWord c = true) (hupper : c.toUpper = c)
    (hsolid : ∀ x ∈ tail, isSolid x = true) (hsmall : ∀ x ∈ tail, isSmall x = true)
    (hend : ∀ x ∈ cs.head?, ¬ isSolid x = true) (hcs : Capitalized cs) :
    Capitalized (c :: (tail ++ cs))

theorem toUpper_ascii : ∀ n < 0x80, startsWord (Char.ofNat n) = true →
    startsWord (Char.ofNat n).toUpper = true ∧
      (Char.ofNat n).toUpper.toUpper = (Char.ofNat n).toUpper := by
  decide +kernel

theorem toUpper_of_startsWord {c : Char} (h : startsWord c = true) :
    startsWord c.toUpper = true ∧ c.toUpper.toUpper = c.toUpper := by
  have hascii : c.toNat < 0x80 := Nat.lt_of_le_of_lt (code_of_startsWord h).2 (by decide)
  have hupper := toUpper_ascii c.toNat hascii
  rw [Char.ofNat_toNat] at hupper
  exact hupper h

/-- A word that starts a text and ends at a blank is found whole. -/
theorem span_word {tail cs : List Char} (hsolid : ∀ x ∈ tail, isSolid x = true)
    (hend : ∀ x ∈ cs.head?, ¬ isSolid x = true) :
    (tail ++ cs).takeWhile isSolid = tail ∧ (tail ++ cs).dropWhile isSolid = cs := by
  have hrest : cs.takeWhile isSolid = [] ∧ cs.dropWhile isSolid = cs := by
    cases cs with
    | nil => exact ⟨rfl, rfl⟩
    | cons x cs =>
        have hx : ¬ isSolid x = true := hend x rfl
        exact ⟨List.takeWhile_cons_of_neg hx, List.dropWhile_cons_of_neg hx⟩
  rw [List.takeWhile_append_of_pos hsolid, List.dropWhile_append_of_pos hsolid, hrest.1, hrest.2,
    List.append_nil]
  exact ⟨rfl, rfl⟩

theorem head?_dropWhile_solid (cs : List Char) :
    ∀ x ∈ (cs.dropWhile isSolid).head?, ¬ isSolid x = true := by
  intro x hx
  have hstop := List.head?_dropWhile_not isSolid cs
  rw [hx] at hstop
  simpa using hstop

/-- Capitalising keeps the first character of a text as blank as it was. -/
theorem head?_capitalizeChars {cs : List Char} (h : ∀ x ∈ cs.head?, ¬ isSolid x = true) :
    ∀ x ∈ (capitalizeChars cs).head?, ¬ isSolid x = true := by
  cases cs with
  | nil => rwa [capitalizeChars]
  | cons c cs =>
      have hc : ¬ startsWord c = true := fun hstarts => h c rfl (isSolid_of_startsWord hstarts)
      rw [capitalizeChars, if_neg hc]
      exact h

theorem capitalized_capitalizeChars (cs : List Char) : Capitalized (capitalizeChars cs) := by
  induction cs using capitalizeChars.induct with
  | case1 =>
      rw [capitalizeChars]
      exact .nil
  | case2 c cs hc ih =>
      obtain ⟨hstarts, hupper⟩ := toUpper_of_startsWord hc
      have hsmall : ∀ x ∈ lower (cs.takeWhile isSolid), isSmall x = true ∧ isSolid x = true := by
        intro x hx
        have hform := small_of_mem_lowerAfter hx
        exact ⟨hform.1, hform.2 fun y hy => List.mem_takeWhile_imp hy⟩
      rw [capitalizeChars, if_pos hc]
      exact .word hstarts hupper (fun x hx => (hsmall x hx).2) (fun x hx => (hsmall x hx).1)
        (head?_capitalizeChars (head?_dropWhile_solid cs)) ih
  | case3 c cs hc ih =>
      rw [capitalizeChars, if_neg hc]
      exact .outside hc ih

theorem capitalizeChars_of_capitalized {cs : List Char} (h : Capitalized cs) :
    capitalizeChars cs = cs := by
  induction h with
  | nil => rw [capitalizeChars]
  | outside hc _ ih => rw [capitalizeChars, if_neg hc, ih]
  | word hc hupper hsolid hsmall hend _ ih =>
      obtain ⟨htail, hrest⟩ := span_word hsolid hend
      rw [capitalizeChars, if_pos hc, htail, hrest, hupper, ih, lower_eq_self_iff.2 hsmall,
        List.cons_append]

/-- The texts that are left alone are exactly those whose words are capitalised. -/
theorem capitalize_eq_self_iff (s : String) : capitalize s = s ↔ Capitalized s.toList := by
  have hchars : (capitalize s).toList = capitalizeChars s.toList := String.toList_ofList
  rw [← String.toList_inj, hchars]
  exact ⟨fun h => h ▸ capitalized_capitalizeChars s.toList, capitalizeChars_of_capitalized⟩

/-- Capitalising a capitalised text changes nothing, and a text is left alone only if its words are
capitalised. -/
theorem capitalize_idempotent (s : String) :
    capitalize (capitalize s) = capitalize s ∧
      (capitalize s = s ↔ Capitalized s.toList) := by
  have hwords : Capitalized (capitalize s).toList := by
    rw [capitalize, String.toList_ofList]
    exact capitalized_capitalizeChars s.toList
  exact ⟨(capitalize_eq_self_iff _).2 hwords, capitalize_eq_self_iff s⟩

/-- A letter that lower-casing takes apart, and a sigma that ends its word. -/
example : capitalize "xİ éaΑΣ" = "Xi\u0307 éAας" ∧
    capitalize "Xi\u0307 éAας" = "Xi\u0307 éAας" := by decide +kernel

end PeerWatch.Text
