import Mathlib.Data.List.Basic
import PeerWatch.Proofs.Markup.Address

/-!
# Marked up text as it is read

Message text with links and emphasis is well formed if it reads, from left to right, as plain
characters and complete elements. A text can be read in one way only: an element begins with `<`,
its first tag ends with the next `>`, and what the tag says tells which element it is.
-/

namespace PeerWatch.Markup

open PeerWatch.Text (isBlank)

/-! ## Elements -/

/-- The elements that hold an address in an attribute. -/
inductive LinkKind
  | frame
  | page
  | host
  | mail
  deriving DecidableEq, Repr

namespace LinkKind

def opening : LinkKind → String
  | .frame => "<iframe width=\"427\" height=\"240\" src=\"http://www.youtube.com/embed/"
  | .page => "<a target=\"_blank\" href=\""
  | .host => "<a target=\"_blank\" href=\"http://"
  | .mail => "<a href=\"mailto:"

/-- What follows the address in the first tag. -/
def ending : LinkKind → String
  | .frame => "\" frameborder=\"0\" allowfullscreen>"
  | _ => "\">"

/-- What stands between the tags. -/
def content (address : List Char) : LinkKind → List Char
  | .frame => []
  | _ => address

def closing : LinkKind → String
  | .frame => "</iframe>"
  | _ => "</a>"

end LinkKind

inductive Face
  | bold
  | italic
  deriving DecidableEq, Repr

def Face.mark : Face → Char
  | .bold => '*'
  | .italic => '_'

def Face.tag : Face → String
  | .bold => "b"
  | .italic => "i"

/-- A plain character, or an element with the text that is put into it. -/
inductive Item
  | plain (c : Char)
  | link (kind : LinkKind) (address : List Char)
  | emphasis (face : Face) (body : List Char)
  deriving DecidableEq, Repr

namespace Item

def text : Item → List Char
  | .plain c => [c]
  | .link kind address =>
    kind.opening.toList ++ address ++ kind.ending.toList ++ kind.content address
      ++ kind.closing.toList
  | .emphasis face body =>
    ("<" ++ face.tag ++ ">").toList ++ body ++ ("</" ++ face.tag ++ ">").toList

/-- A plain character begins and ends no tag, an address stays within its attribute, and there are
no tags in what is emphasized. -/
def Sound : Item → Prop
  | .plain c => c ≠ '<' ∧ c ≠ '>'
  | .link _ address => '"' ∉ address ∧ '<' ∉ address ∧ '>' ∉ address
  | .emphasis _ body => '<' ∉ body ∧ '>' ∉ body

end Item

/-- The text reads as plain characters and complete elements, one after the other. -/
def WellFormed (cs : List Char) : Prop :=
  ∃ items : List Item, cs = items.flatMap Item.text ∧ ∀ item ∈ items, item.Sound

/-! ## Cutting a text -/

/-- A text can be cut in one way only behind the characters of a class at its beginning. -/
theorem eq_of_spans {p : Char → Bool} {xs ys s t : List Char} (hxs : ∀ c ∈ xs, p c)
    (hys : ∀ c ∈ ys, p c) (hs : s.head?.all (!p ·)) (ht : t.head?.all (!p ·))
    (h : xs ++ s = ys ++ t) : xs = ys ∧ s = t := by
  have hstop : ∀ rest : List Char, rest.head?.all (!p ·) → rest.takeWhile p = [] := by
    intro rest hrest
    cases rest with
    | nil => rfl
    | cons c cs =>
        apply List.takeWhile_cons_of_neg
        simpa using hrest
  have hfront : xs = ys :=
    calc
      xs = (xs ++ s).takeWhile p := by
        rw [List.takeWhile_append_of_pos hxs, hstop s hs, List.append_nil]
      _ = (ys ++ t).takeWhile p := by rw [h]
      _ = ys := by rw [List.takeWhile_append_of_pos hys, hstop t ht, List.append_nil]
  subst hfront
  exact ⟨rfl, List.append_cancel_left h⟩

theorem eq_of_append_cons_eq {c : Char} {xs ys : List Char} (hxs : c ∉ xs) (hys : c ∉ ys)
    {rest otherRest : List Char} (h : xs ++ c :: rest = ys ++ c :: otherRest) :
    xs = ys ∧ rest = otherRest := by
  have hother : ∀ {cs : List Char}, c ∉ cs → ∀ x ∈ cs, x != c := by
    intro cs hcs x hx
    rw [bne_iff_ne]
    rintro rfl
    exact hcs hx
  have hstop : ∀ cs : List Char, (c :: cs).head?.all (fun x => !(x != c)) := by
    intro cs
    simp
  obtain ⟨rfl, htail⟩ := eq_of_spans (hother hxs) (hother hys) (hstop rest) (hstop otherRest) h
  exact ⟨rfl, (List.cons.inj htail).2⟩

/-! ## What an element is read from -/

namespace Item

/-- The first tag of an element, without its brackets. -/
def tag : Item → List Char
  | .plain _ => []
  | .link kind address => kind.opening.toList.tail ++ address ++ kind.ending.toList.dropLast
  | .emphasis face _ => face.tag.toList

def address : Item → List Char
  | .link _ address => address
  | _ => []

/-- What stands between the tags of an element. -/
def content : Item → List Char
  | .plain _ => []
  | .link kind address => kind.content address
  | .emphasis _ body => body

/-- The last tag of an element, without its brackets. -/
def lastTag : Item → List Char
  | .plain _ => []
  | .link kind _ => kind.closing.toList.tail.dropLast
  | .emphasis face _ => '/' :: face.tag.toList

/-- The number of quotes in the fixed part of a tag, told by its first three characters. -/
def fixedQuotes (tag : List Char) : Nat :=
  if tag.take 3 = ['i', 'f', 'r'] then 8
  else if tag.take 3 = ['a', ' ', 't'] then 4
  else if tag.take 3 = ['a', ' ', 'h'] then 2
  else 0

theorem text_eq {item : Item} (h : ∀ c, item ≠ .plain c) (rest : List Char) :
    item.text ++ rest = '<' :: (item.tag ++ '>' ::
      (item.content ++ '<' :: (item.lastTag ++ '>' :: rest))) := by
  cases item with
  | plain c => exact absurd rfl (h c)
  | link kind address =>
      have hopening : kind.opening.toList = '<' :: kind.opening.toList.tail := by
        cases kind <;> decide
      have hending : kind.ending.toList = kind.ending.toList.dropLast ++ ['>'] := by
        cases kind <;> decide
      have hclosing : kind.closing.toList =
          '<' :: (kind.closing.toList.tail.dropLast ++ ['>']) := by
        cases kind <;> decide
      rw [text, tag, content, lastTag, hopening, hending, hclosing]
      simp
  | emphasis face body =>
      have hopening : ("<" ++ face.tag ++ ">").toList = '<' :: (face.tag.toList ++ ['>']) := by
        cases face <;> decide
      have hclosing : ("</" ++ face.tag ++ ">").toList =
          '<' :: '/' :: (face.tag.toList ++ ['>']) := by
        cases face <;> decide
      rw [text, tag, content, lastTag, hopening, hclosing]
      simp

theorem mem_tag {item : Item} {c : Char} (hc : c = '<' ∨ c = '>') :
    c ∈ item.tag ↔ c ∈ item.address := by
  cases item with
  | plain _ => rfl
  | link kind address =>
      have hfixed : c ∉ kind.opening.toList.tail ∧ c ∉ kind.ending.toList.dropLast := by
        rcases hc with rfl | rfl <;> cases kind <;> decide
      simp [tag, Item.address, hfixed]
  | emphasis face _ =>
      have hfixed : c ∉ face.tag.toList := by
        rcases hc with rfl | rfl <;> cases face <;> decide
      simp [tag, Item.address, hfixed]

theorem count_tag (item : Item) :
    item.tag.count '"' = fixedQuotes item.tag + item.address.count '"' := by
  cases item with
  | plain _ => rfl
  | link kind address =>
      have htake : (kind.opening.toList.tail ++ (address ++ kind.ending.toList.dropLast)).take 3 =
          kind.opening.toList.tail.take 3 :=
        List.take_append_of_le_length (by cases kind <;> decide)
      have hfixed : kind.opening.toList.tail.count '"' + kind.ending.toList.dropLast.count '"' =
          fixedQuotes kind.opening.toList.tail := by
        cases kind <;> decide
      rw [tag, fixedQuotes, List.append_assoc, htake, ← fixedQuotes, ← hfixed, Item.address,
        List.count_append, List.count_append]
      omega
  | emphasis face _ =>
      change face.tag.toList.count '"' = fixedQuotes face.tag.toList + 0
      cases face <;> decide

theorem not_mem_lastTag (item : Item) : '>' ∉ item.lastTag := by
  cases item with
  | plain _ => exact List.not_mem_nil
  | link kind _ =>
      change '>' ∉ kind.closing.toList.tail.dropLast
      cases kind <;> decide
  | emphasis face _ =>
      change '>' ∉ '/' :: face.tag.toList
      cases face <;> decide

theorem Sound.address {item : Item} (h : item.Sound) :
    '"' ∉ item.address ∧ '<' ∉ item.address ∧ '>' ∉ item.address := by
  cases item with
  | plain _ => exact ⟨List.not_mem_nil, List.not_mem_nil, List.not_mem_nil⟩
  | link _ _ => exact h
  | emphasis _ _ => exact ⟨List.not_mem_nil, List.not_mem_nil, List.not_mem_nil⟩

/-- Whether an address stays within its attribute is seen from the tag. -/
theorem address_of_tag_eq {item other : Item} (htag : item.tag = other.tag) (h : other.Sound) :
    '"' ∉ item.address ∧ '<' ∉ item.address ∧ '>' ∉ item.address := by
  obtain ⟨hquote, hopen, hclose⟩ := h.address
  refine ⟨?_, ?_, ?_⟩
  · have hcount := item.count_tag
    have hother := other.count_tag
    rw [List.count_eq_zero.2 hquote] at hother
    rw [htag] at hcount
    exact List.count_eq_zero.1 (by omega)
  · rwa [← mem_tag (.inl rfl), htag, mem_tag (.inl rfl)]
  · rwa [← mem_tag (.inr rfl), htag, mem_tag (.inr rfl)]

/-- What is known of an item whatever the text is that it comes from: an address may hold quotes,
and the beginning of another element. -/
def Loose : Item → Prop
  | .plain c => c ≠ '<' ∧ c ≠ '>'
  | .link _ address => ∀ c ∈ address, isBlank c = false ∧ c ≠ '>'
  | .emphasis _ body => ∀ c ∈ body, inEmphasis c

theorem Loose.body {face : Face} {body : List Char} (h : (emphasis face body).Loose) {c : Char}
    (hc : inEmphasis c = false) : c ∉ body := by
  intro hmem
  exact absurd (hc ▸ h c hmem) Bool.false_ne_true

theorem Loose.sound_iff {item : Item} (h : item.Loose) :
    item.Sound ↔ '"' ∉ item.address ∧ '<' ∉ item.address := by
  cases item with
  | plain c => exact ⟨fun _ => ⟨List.not_mem_nil, List.not_mem_nil⟩, fun _ => h⟩
  | link kind address =>
      have hclose : '>' ∉ address := fun hmem => (h '>' hmem).2 rfl
      exact ⟨fun hs => ⟨hs.1, hs.2.1⟩, fun hs => ⟨hs.1, hs.2, hclose⟩⟩
  | emphasis face body =>
      exact ⟨fun _ => ⟨List.not_mem_nil, List.not_mem_nil⟩,
        fun _ => ⟨h.body (by decide), h.body (by decide)⟩⟩

theorem Loose.not_mem_tag {item : Item} (h : item.Loose) : '>' ∉ item.tag := by
  rw [mem_tag (.inr rfl)]
  cases item with
  | plain _ => exact List.not_mem_nil
  | link kind address => exact fun hmem => (h '>' hmem).2 rfl
  | emphasis _ _ => exact List.not_mem_nil

theorem Sound.not_mem_content {item : Item} (h : item.Sound) : '<' ∉ item.content := by
  cases item with
  | plain _ => exact List.not_mem_nil
  | link kind address =>
      change '<' ∉ kind.content address
      cases kind with
      | frame => exact List.not_mem_nil
      | page => exact h.2.1
      | host => exact h.2.1
      | mail => exact h.2.1
  | emphasis _ _ => exact h.1

theorem sound_of_element_eq {item other : Item} (hitem : ∀ c, item ≠ .plain c)
    (hother : ∀ c, other ≠ .plain c) (hloose : item.Loose) (hsound : other.Sound)
    {rest otherRest : List Char} (h : item.text ++ rest = other.text ++ otherRest) :
    item.Sound ∧ rest = otherRest := by
  rw [text_eq hitem, text_eq hother] at h
  have htag : '>' ∉ other.tag := by
    rw [mem_tag (.inr rfl)]
    exact hsound.address.2.2
  obtain ⟨htags, hcontent⟩ := eq_of_append_cons_eq hloose.not_mem_tag htag (List.cons.inj h).2
  have haddress := address_of_tag_eq htags hsound
  have hitemSound : item.Sound := hloose.sound_iff.2 ⟨haddress.1, haddress.2.1⟩
  obtain ⟨-, hlast⟩ :=
    eq_of_append_cons_eq hitemSound.not_mem_content hsound.not_mem_content hcontent
  obtain ⟨-, hrest⟩ := eq_of_append_cons_eq item.not_mem_lastTag other.not_mem_lastTag hlast
  exact ⟨hitemSound, hrest⟩

/-- Where a sound item can be read there is no other item, and what follows is the same. -/
theorem sound_of_append_eq {item other : Item} (hloose : item.Loose) (hsound : other.Sound)
    {rest otherRest : List Char} (h : item.text ++ rest = other.text ++ otherRest) :
    item.Sound ∧ rest = otherRest := by
  by_cases hitem : ∃ c, item = .plain c
  · obtain ⟨c, rfl⟩ := hitem
    by_cases hother : ∃ d, other = .plain d
    · obtain ⟨d, rfl⟩ := hother
      exact ⟨hloose, (List.cons.inj h).2⟩
    · rw [text_eq (not_exists.1 hother)] at h
      exact absurd (List.cons.inj h).1 hloose.1
  · by_cases hother : ∃ d, other = .plain d
    · obtain ⟨d, rfl⟩ := hother
      rw [text_eq (not_exists.1 hitem)] at h
      exact absurd (List.cons.inj h).1.symm hsound.1
    · exact sound_of_element_eq (not_exists.1 hitem) (not_exists.1 hother) hloose hsound h

theorem text_ne_nil (item : Item) : item.text ≠ [] := by
  by_cases hitem : ∃ c, item = .plain c
  · obtain ⟨c, rfl⟩ := hitem
    exact List.cons_ne_nil c []
  · rw [← List.append_nil item.text, text_eq (not_exists.1 hitem)]
    exact List.cons_ne_nil _ _

end Item

end PeerWatch.Markup
