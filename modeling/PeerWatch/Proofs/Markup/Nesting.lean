import PeerWatch.Proofs.Markup.Parts

/-!
# Tags of the contact list

A page is read as tags, each from a `<` to the next `>`. A text that is put in escaped brings no
bracket of its own, so it is passed over between tags, and within a tag it stays behind the name.
That is why the tags of a contact list, and how they are nested, depend on its structure alone.
-/

namespace PeerWatch.Markup

/-! ## Reading tags -/

inductive Tag
  | opening (name : String)
  | closing (name : String)
  /-- A tag that closes itself. -/
  | empty (name : String)
  deriving DecidableEq, Repr

/-- Where a reader stands: between tags, in the name of a tag, or behind the name, with the last
character that was read there. -/
inductive Place
  | between
  | name (soFar : List Char)
  | behind (name : List Char) (last : Char)
  deriving DecidableEq, Repr

structure Reader where
  place : Place
  tags : List Tag
  deriving DecidableEq, Repr

namespace Tag

def ofName : List Char → Tag
  | '/' :: name => .closing (String.ofList name)
  | name => .opening (String.ofList name)

/-- The tag with this name whose text goes on behind the name, up to some last character. -/
def ofAttributes (name : List Char) (last : Char) : Tag :=
  if last = '/' then .empty (String.ofList name) else .opening (String.ofList name)

end Tag

namespace Reader

/-- Reads one character. There is no reading of a `>` between tags or of a `<` within one. -/
def step (r : Reader) (c : Char) : Option Reader :=
  match r.place with
  | .between =>
    if c = '<' then some ⟨.name [], r.tags⟩
    else if c = '>' then none
    else some r
  | .name soFar =>
    if c = '>' then some ⟨.between, r.tags ++ [Tag.ofName soFar]⟩
    else if c = '<' then none
    else if c = ' ' then some ⟨.behind soFar c, r.tags⟩
    else some ⟨.name (soFar ++ [c]), r.tags⟩
  | .behind name last =>
    if c = '>' then some ⟨.between, r.tags ++ [Tag.ofAttributes name last]⟩
    else if c = '<' then none
    else some ⟨.behind name c, r.tags⟩

def read (r : Reader) (cs : List Char) : Option Reader := cs.foldlM step r

end Reader

/-- The tags of a page, if every bracket in it is one of a tag. -/
def tags? (page : String) : Option (List Tag) :=
  match Reader.read ⟨.between, []⟩ page.toList with
  | some ⟨.between, tags⟩ => some tags
  | _ => none

/-! ## Nesting -/

/-- The elements that are opened and closed. -/
def containers : List String := ["p", "div", "a", "span"]

/-- The open elements after a tag, innermost first. A closing tag closes the innermost one, and
only an image closes itself. -/
def Tag.nest (opened : List String) : Tag → Option (List String)
  | .opening name => if containers.contains name then some (name :: opened) else none
  | .closing name => if opened.head? = some name then some opened.tail else none
  | .empty name => if name = "img" then some opened else none

def Nested (tags : List Tag) : Prop := tags.foldlM Tag.nest [] = some []

/-- Tags that leave open what is open before them. -/
def Balanced (tags : List Tag) : Prop := ∀ opened, tags.foldlM Tag.nest opened = some opened

theorem Balanced.nested {tags : List Tag} (h : Balanced tags) : Nested tags := h []

theorem balanced_nil : Balanced [] := fun _ => rfl

theorem Balanced.append {first rest : List Tag} (hf : Balanced first) (hr : Balanced rest) :
    Balanced (first ++ rest) := by
  intro opened
  rw [List.foldlM_append, hf opened]
  exact hr opened

theorem Balanced.within {tags : List Tag} (h : Balanced tags) (name : String)
    (hname : containers.contains name = true) :
    Balanced (.opening name :: tags ++ [.closing name]) := by
  intro opened
  have hopen : Tag.nest opened (.opening name) = some (name :: opened) := by
    rw [Tag.nest, if_pos hname]
  have hclose : Tag.nest (name :: opened) (.closing name) = some opened := by
    rw [Tag.nest, List.head?_cons, if_pos rfl, List.tail_cons]
  rw [List.cons_append, List.foldlM_cons, hopen, Option.bind_eq_bind, Option.bind_some,
    List.foldlM_append, h, Option.bind_eq_bind, Option.bind_some, List.foldlM_cons, hclose]
  rfl

theorem balanced_flatMap {β : Type} {f : β → List Tag} {items : List β}
    (h : ∀ item ∈ items, Balanced (f item)) : Balanced (items.flatMap f) := by
  induction items with
  | nil => exact balanced_nil
  | cons item items ih =>
      rw [List.flatMap_cons]
      apply Balanced.append
      · exact h item List.mem_cons_self
      · exact ih fun other hother => h other (List.mem_cons_of_mem _ hother)

/-! ## Reading parts of a page -/

namespace Reader

theorem read_append (r : Reader) (first rest : List Char) :
    r.read (first ++ rest) = (r.read first).bind fun r => r.read rest := by
  rw [read, List.foldlM_append]
  rfl

/-- What was read before does not matter for what is read now. -/
theorem step_earlier (place : Place) (earlier tags : List Tag) (c : Char) :
    step ⟨place, earlier ++ tags⟩ c =
      (step ⟨place, tags⟩ c).map fun r => ⟨r.place, earlier ++ r.tags⟩ := by
  cases place with
  | between =>
      simp only [step]
      split
      · rfl
      · split <;> rfl
  | name soFar =>
      simp only [step, List.append_assoc]
      split
      · rfl
      · split
        · rfl
        · split <;> rfl
  | behind name last =>
      simp only [step, List.append_assoc]
      split
      · rfl
      · split <;> rfl

theorem read_earlier (place : Place) (earlier tags : List Tag) (cs : List Char) :
    read ⟨place, earlier ++ tags⟩ cs =
      (read ⟨place, tags⟩ cs).map fun r => ⟨r.place, earlier ++ r.tags⟩ := by
  induction cs generalizing place tags with
  | nil => rfl
  | cons c cs ih =>
      rw [read, List.foldlM_cons, step_earlier, read, List.foldlM_cons]
      cases hstep : step ⟨place, tags⟩ c with
      | none => rfl
      | some r => exact ih r.place r.tags

end Reader

/-- Reading some parts leads from one place to another, over some tags. -/
def Leads (parts : List Part) (start : Place) (tags : List Tag) (stop : Place) : Prop :=
  Reader.read ⟨start, []⟩ (pageOf parts).toList = some ⟨stop, tags⟩

namespace Leads

variable {start middle stop : Place} {first rest : List Part} {tags others : List Tag}

theorem append (hf : Leads first start tags middle) (hr : Leads rest middle others stop) :
    Leads (first ++ rest) start (tags ++ others) stop := by
  unfold Leads at hf hr ⊢
  rw [pageOf_append, String.toList_append, Reader.read_append, hf, Option.bind_some,
    ← List.append_nil tags, Reader.read_earlier, hr]
  simp

theorem nil : Leads [] start [] start := by
  unfold Leads
  rw [pageOf_nil]
  rfl

theorem cons {p : Part} (hp : Leads [p] start tags middle) (hr : Leads rest middle others stop) :
    Leads (p :: rest) start (tags ++ others) stop := append hp hr

theorem tags?_eq (h : Leads rest .between tags .between) : tags? (pageOf rest) = some tags := by
  unfold Leads at h
  rw [tags?, h]

end Leads

theorem bracket_not_mem_escape (s : String) : '<' ∉ (escape s).toList ∧ '>' ∉ (escape s).toList := by
  have hchar : ∀ c, '<' ∉ escapeChar c ∧ '>' ∉ escapeChar c := by
    intro c
    unfold escapeChar
    split
    · decide
    split
    · decide
    split
    · decide
    · next hlt hgt => simp [Ne.symm hlt, Ne.symm hgt]
  rw [escape, String.toList_ofList, escapeChars]
  simp only [List.mem_flatMap, not_exists, not_and]
  exact ⟨fun c _ => (hchar c).1, fun c _ => (hchar c).2⟩

theorem read_between {cs : List Char} (hlt : '<' ∉ cs) (hgt : '>' ∉ cs) :
    Reader.read ⟨.between, []⟩ cs = some ⟨.between, []⟩ := by
  induction cs with
  | nil => rfl
  | cons c cs ih =>
      simp only [List.mem_cons, not_or] at hlt hgt
      have hstep : Reader.step ⟨.between, []⟩ c = some ⟨.between, []⟩ := by
        simp only [Reader.step, if_neg (Ne.symm hlt.1), if_neg (Ne.symm hgt.1)]
      rw [Reader.read, List.foldlM_cons, hstep]
      exact ih hlt.2 hgt.2

theorem exists_read_behind {cs : List Char} (hlt : '<' ∉ cs) (hgt : '>' ∉ cs) (name : List Char)
    (last : Char) :
    ∃ after, Reader.read ⟨.behind name last, []⟩ cs = some ⟨.behind name after, []⟩ := by
  induction cs generalizing last with
  | nil => exact ⟨last, rfl⟩
  | cons c cs ih =>
      simp only [List.mem_cons, not_or] at hlt hgt
      have hstep : Reader.step ⟨.behind name last, []⟩ c = some ⟨.behind name c, []⟩ := by
        simp only [Reader.step, if_neg (Ne.symm hlt.1), if_neg (Ne.symm hgt.1)]
      rw [Reader.read, List.foldlM_cons, hstep]
      exact ih hlt.2 hgt.2 c

theorem leads_text (s : String) : Leads [.text s] .between [] .between := by
  obtain ⟨hlt, hgt⟩ := bracket_not_mem_escape s
  unfold Leads
  rw [pageOf_cons, pageOf_nil, String.append_empty]
  exact read_between hlt hgt

/-- A text within a tag does not matter if the markup behind it reads the same after any
character. -/
theorem leads_value {name : List Char} {rest : List Part} {tags : List Tag} {stop : Place}
    (h : ∀ last, Leads rest (.behind name last) tags stop) (s : String) (last : Char) :
    Leads (.text s :: rest) (.behind name last) tags stop := by
  obtain ⟨hlt, hgt⟩ := bracket_not_mem_escape s
  obtain ⟨after, hafter⟩ := exists_read_behind hlt hgt name last
  have htext : Leads [.text s] (.behind name last) [] (.behind name after) := by
    unfold Leads
    rw [pageOf_cons, pageOf_nil, String.append_empty]
    exact hafter
  exact htext.cons (h after)

end PeerWatch.Markup

namespace PeerWatch.Presence

open PeerWatch.Markup

namespace Entry

/-- What the tags of an entry depend on. -/
structure Shape where
  links : Nat
  badge : Bool
  deriving DecidableEq, Repr

def shape (e : Entry) : Shape := ⟨e.links.length, e.badge ≠ ""⟩

def badgeTags (shown : Bool) : List Tag := if shown then [.opening "a", .closing "a"] else []

def linkTags : List Tag :=
  [.opening "span", .opening "a", .empty "img", .closing "a", .closing "span"]

def Shape.tags (s : Shape) : List Tag :=
  [.opening "div", .opening "div", .opening "a", .closing "a", .opening "span"]
    ++ badgeTags s.badge
    ++ [.closing "span", .opening "span", .closing "span", .closing "div", .opening "div"]
    ++ (List.replicate s.links linkTags).flatten ++ [.closing "div", .closing "div"]

theorem leads_linkParts (link : Link) : Leads (linkParts link) .between linkTags .between := by
  obtain ⟨kind, href⟩ := link
  have hopen : Leads [.markup "<span class=\"", .markup kind.styleClass, .markup "\"><a href=\""]
      .between [.opening "span"] (.behind ['a'] '"') := by
    cases kind <;> rfl
  have hrest : ∀ last, Leads [.markup "\"><img src=\"", .markup kind.icon, .markup "\" alt=\"",
      .markup kind.caption, .markup "\"/></a></span>"] (.behind ['a'] last)
      [.opening "a", .empty "img", .closing "a", .closing "span"] .between := by
    intro last
    cases kind <;> rfl
  exact hopen.append (leads_value hrest href '"')

theorem leads_links (links : List Link) :
    Leads (links.flatMap linkParts) .between (List.replicate links.length linkTags).flatten
      .between := by
  induction links with
  | nil => exact Leads.nil
  | cons link links ih => exact (leads_linkParts link).append ih

theorem badge_eq_empty_iff (e : Entry) : e.badge = "" ↔ e.isSelf ∨ e.unread = 0 := by
  rw [badge]
  split
  · next h => simp [h]
  · next h => simp [h, String.append_eq_empty_iff]

theorem leads_badgeParts (e : Entry) :
    Leads e.badgeParts .between (badgeTags e.shape.badge) .between := by
  have hshown : e.shape.badge = !decide (e.isSelf ∨ e.unread = 0) := by
    simp [shape, badge_eq_empty_iff]
  rw [badgeParts, hshown]
  split
  · next h => rw [decide_eq_true h]; exact Leads.nil
  · next h =>
    have hopen : Leads [.markup " <a href=\""] .between [] (.behind ['a'] '"') := rfl
    have hclose : ∀ last, Leads [.markup "\">("] (.behind ['a'] last) [.opening "a"] .between :=
      fun _ => rfl
    have hend : Leads [.markup ")</a>"] .between [.closing "a"] .between := rfl
    have hcount : ∀ last, Leads [.markup "\">(", .text (toString e.unread), .markup ")</a>"]
        (.behind ['a'] last) [.opening "a", .closing "a"] .between :=
      fun last => (hclose last).cons ((leads_text _).cons hend)
    rw [decide_eq_false h]
    exact hopen.cons (leads_value hcount e.chatUrl '"')

/-- The name of an entry, which links to its pages. -/
theorem leads_name (e : Entry) :
    Leads [.markup "<div class=\"contactstr\"><div id=\"contact_", .text e.id,
        .markup "\" class=\"", .text e.status, .markup "\"><a href=\"", .text e.path,
        .markup "\">", .text e.displayName, .markup "</a><span class=\"messagescount\">"]
      .between
      [.opening "div", .opening "div", .opening "a", .closing "a", .opening "span"]
      .between := by
  have hopen : Leads [.markup "<div class=\"contactstr\"><div id=\"contact_"] .between
      [.opening "div"] (.behind "div".toList '_') := rfl
  have hid : ∀ last, Leads [.markup "\" class=\""] (.behind "div".toList last) []
      (.behind "div".toList '"') := fun _ => rfl
  have hstatus : ∀ last, Leads [.markup "\"><a href=\""] (.behind "div".toList last)
      [.opening "div"] (.behind ['a'] '"') := fun _ => rfl
  have hpath : ∀ last, Leads [.markup "\">"] (.behind ['a'] last) [.opening "a"] .between :=
    fun _ => rfl
  have hend : Leads [.markup "</a><span class=\"messagescount\">"] .between
      [.closing "a", .opening "span"] .between := rfl
  apply hopen.cons
  apply leads_value
  intro last
  apply (hid last).cons
  apply leads_value
  intro last
  apply (hstatus last).cons
  apply leads_value
  intro last
  apply (hpath last).cons
  exact (leads_text e.displayName).cons hend

/-- The status of an entry, and what comes before its links. -/
theorem leads_status (e : Entry) :
    Leads [.markup "</span><span class=\"status\">", .text e.statusLabel,
        .markup "</span></div><div id=\"contactinfo_", .text e.id,
        .markup "\" class=\"contactinfo\">"]
      .between
      [.closing "span", .opening "span", .closing "span", .closing "div", .opening "div"]
      .between := by
  have hopen : Leads [.markup "</span><span class=\"status\">"] .between
      [.closing "span", .opening "span"] .between := rfl
  have hlabel : Leads [.markup "</span></div><div id=\"contactinfo_"] .between
      [.closing "span", .closing "div"] (.behind "div".toList '_') := rfl
  have hend : ∀ last, Leads [.markup "\" class=\"contactinfo\">"] (.behind "div".toList last)
      [.opening "div"] .between := fun _ => rfl
  apply hopen.cons
  apply (leads_text e.statusLabel).cons
  apply hlabel.cons
  exact leads_value hend e.id '_'

theorem leads_parts (e : Entry) : Leads e.parts .between e.shape.tags .between := by
  have hend : Leads [.markup "</div></div>"] .between [.closing "div", .closing "div"] .between :=
    rfl
  exact (((e.leads_name.append e.leads_badgeParts).append e.leads_status).append
    (leads_links e.links)).append hend

/-! ## The tags of an entry are nested -/

theorem balanced_badgeTags (shown : Bool) : Balanced (badgeTags shown) := by
  cases shown with
  | false => exact balanced_nil
  | true => exact balanced_nil.within "a" rfl

theorem balanced_linkTags : Balanced linkTags := by
  have himage : Balanced [.empty "img"] := fun _ => rfl
  exact (himage.within "a" rfl).within "span" rfl

theorem balanced_tags (s : Shape) : Balanced s.tags := by
  have hlinks : Balanced (List.replicate s.links linkTags).flatten := by
    rw [← List.flatMap_id]
    apply balanced_flatMap
    intro tags htags
    rw [List.eq_of_mem_replicate htags]
    exact balanced_linkTags
  have hname : Balanced [.opening "a", .closing "a"] := balanced_nil.within "a" rfl
  have hcount := (balanced_badgeTags s.badge).within "span" rfl
  have hstatus : Balanced [.opening "span", .closing "span"] := balanced_nil.within "span" rfl
  have hline := ((hname.append hcount).append hstatus).within "div" rfl
  have hentry := (hline.append (hlinks.within "div" rfl)).within "div" rfl
  simpa [Shape.tags] using hentry

end Entry

namespace Roster

/-- What the tags of a contact list depend on. -/
structure Shape where
  placeholder : Bool
  entries : List Entry.Shape
  deriving DecidableEq, Repr

def shape (r : Roster) : Shape := ⟨r.placeholder.isSome, r.entries.map Entry.shape⟩

def placeholderTags (shown : Bool) : List Tag := if shown then [.opening "p", .closing "p"] else []

def Shape.tags (s : Shape) : List Tag :=
  placeholderTags s.placeholder ++ s.entries.flatMap Entry.Shape.tags

theorem leads_placeholderParts (placeholder : Option String) :
    Leads (placeholderParts placeholder) .between (placeholderTags placeholder.isSome)
      .between := by
  cases placeholder with
  | none => exact Leads.nil
  | some text =>
      have hopen : Leads [.markup "<p>"] .between [.opening "p"] .between := rfl
      have hclose : Leads [.markup "</p>"] .between [.closing "p"] .between := rfl
      exact hopen.cons ((leads_text text).cons hclose)

theorem leads_parts (r : Roster) : Leads r.parts .between r.shape.tags .between := by
  have hentries (entries : List Entry) : Leads (entries.flatMap Entry.parts) .between
      ((entries.map Entry.shape).flatMap Entry.Shape.tags) .between := by
    induction entries with
    | nil => exact Leads.nil
    | cons e entries ih => exact e.leads_parts.append ih
  exact (leads_placeholderParts r.placeholder).append (hentries r.entries)

theorem nested_tags (s : Shape) : Nested s.tags := by
  have hplaceholder : Balanced (placeholderTags s.placeholder) := by
    cases s.placeholder with
    | false => exact balanced_nil
    | true => exact balanced_nil.within "p" rfl
  apply Balanced.nested
  apply hplaceholder.append
  exact balanced_flatMap fun e _ => Entry.balanced_tags e

/-- Whatever texts a contact list shows, every bracket of its markup belongs to a tag, the tags are
nested, and they are those that its shape determines: whether there is a placeholder, and for each
entry how many links it has and whether it shows a number of unread messages. -/
theorem tags_depend_on_shape (r : Roster) :
    tags? r.render = some r.shape.tags ∧ Nested r.shape.tags ∧
      ∀ other : Roster, other.shape = r.shape → tags? other.render = tags? r.render := by
  have htags (r : Roster) : tags? r.render = some r.shape.tags := by
    rw [r.render_eq]
    exact r.leads_parts.tags?_eq
  refine ⟨htags r, nested_tags r.shape, ?_⟩
  intro other hshape
  rw [htags, htags, hshape]

/- A placeholder that tries to end its paragraph and to open another element. -/
example : tags? (Roster.render ⟨some "</p><b>", []⟩) = some [.opening "p", .closing "p"] := by
  decide +kernel

end Roster
end PeerWatch.Presence
