import PeerWatch.Directory.Listing
import PeerWatch.Presence.Roster
import PeerWatch.Proofs.Number.Digits

/-!
# Pages as markup and texts

The contact list and a directory listing are fixed markup with texts put in between. The parts of
each page are told here, so that what is said of a page can tell the characters of the one from
those of the other.
-/

namespace PeerWatch.Markup

/-- A part of a page: fixed markup, or a text that is put in escaped. -/
inductive Part
  | markup (s : String)
  | text (s : String)
  deriving DecidableEq, Repr

namespace Part

def page : Part → String
  | .markup s => s
  | .text s => escape s

def text? : Part → Option String
  | .markup _ => none
  | .text s => some s

end Part

/-- The page that has these parts. -/
def pageOf (parts : List Part) : String := String.join (parts.map Part.page)

/-- The texts that are put into a page. -/
def textsOf (parts : List Part) : List String := parts.filterMap Part.text?

@[simp] theorem pageOf_nil : pageOf [] = "" := String.join_nil

@[simp] theorem pageOf_cons (p : Part) (parts : List Part) :
    pageOf (p :: parts) = p.page ++ pageOf parts := String.join_cons

theorem pageOf_append (first rest : List Part) :
    pageOf (first ++ rest) = pageOf first ++ pageOf rest := by
  rw [pageOf, List.map_append, String.join_append, pageOf, pageOf]

theorem pageOf_flatMap {α : Type} (f : α → List Part) (items : List α) :
    pageOf (items.flatMap f) = String.join (items.map fun item => pageOf (f item)) := by
  induction items with
  | nil => rfl
  | cons item items ih => rw [List.flatMap_cons, pageOf_append, ih, List.map_cons, String.join_cons]

theorem escapeChars_of_no_special {cs : List Char} (h : ∀ c ∈ cs, c ≠ '&' ∧ c ≠ '<' ∧ c ≠ '>') :
    escapeChars cs = cs := by
  induction cs with
  | nil => rfl
  | cons c cs ih =>
      obtain ⟨hamp, hlt, hgt⟩ := h c List.mem_cons_self
      have hchar : escapeChar c = [c] := by
        rw [escapeChar, if_neg hamp, if_neg hlt, if_neg hgt]
      have hrest := ih fun c hc => h c (List.mem_cons_of_mem _ hc)
      rw [escapeChars] at hrest ⊢
      rw [List.flatMap_cons, hchar, hrest]
      rfl

theorem escape_toString (n : Nat) : escape (toString n) = toString n := by
  have hdigits : (toString n).toList = Nat.toDigits 10 n := String.toList_ofList
  rw [escape, escapeChars_of_no_special, String.ofList_toList]
  intro c hc
  rw [hdigits] at hc
  have hdigit : c.isDigit = true := Number.isDigit_of_mem_toDigits hc
  refine ⟨?_, ?_, ?_⟩ <;> rintro rfl <;> exact absurd hdigit (by decide)

end PeerWatch.Markup

namespace PeerWatch.Presence

open PeerWatch.Markup (Part pageOf pageOf_cons pageOf_nil pageOf_append pageOf_flatMap)

namespace Entry

def badgeParts (e : Entry) : List Part :=
  if e.isSelf ∨ e.unread = 0 then []
  else [.markup " <a href=\"", .text e.chatUrl, .markup "\">(", .text (toString e.unread),
    .markup ")</a>"]

def linkParts (link : Link) : List Part :=
  [.markup "<span class=\"", .markup link.kind.styleClass, .markup "\"><a href=\"", .text link.href,
    .markup "\"><img src=\"", .markup link.kind.icon, .markup "\" alt=\"",
    .markup link.kind.caption, .markup "\"/></a></span>"]

def parts (e : Entry) : List Part :=
  [.markup "<div class=\"contactstr\"><div id=\"contact_", .text e.id, .markup "\" class=\"",
      .text e.status, .markup "\"><a href=\"", .text e.path, .markup "\">", .text e.displayName,
      .markup "</a><span class=\"messagescount\">"]
    ++ e.badgeParts
    ++ [.markup "</span><span class=\"status\">", .text e.statusLabel,
      .markup "</span></div><div id=\"contactinfo_", .text e.id,
      .markup "\" class=\"contactinfo\">"]
    ++ e.links.flatMap linkParts ++ [.markup "</div></div>"]

theorem badge_eq (e : Entry) : e.badge = pageOf e.badgeParts := by
  rw [badge, badgeParts]
  split
  · rfl
  · simp only [pageOf_cons, pageOf_nil, Part.page, Markup.escape_toString, String.append_assoc,
      String.append_empty]

theorem linkMarkup_eq (link : Link) : linkMarkup link = pageOf (linkParts link) := by
  unfold linkMarkup linkParts
  simp only [pageOf_cons, pageOf_nil, Part.page, String.append_assoc, String.append_empty]

theorem render_eq (e : Entry) : e.render = pageOf e.parts := by
  have hlinks : String.join (e.links.map linkMarkup) = pageOf (e.links.flatMap linkParts) := by
    rw [pageOf_flatMap]
    exact congrArg _ (List.map_congr_left fun link _ => linkMarkup_eq link)
  unfold render parts
  simp only [hlinks, badge_eq, pageOf_append, pageOf_cons, pageOf_nil, Part.page,
    String.append_assoc, String.append_empty]

end Entry

namespace Roster

def placeholderParts : Option String → List Part
  | some text => [.markup "<p>", .text text, .markup "</p>"]
  | none => []

def parts (r : Roster) : List Part :=
  placeholderParts r.placeholder ++ r.entries.flatMap Entry.parts

theorem render_eq (r : Roster) : r.render = pageOf r.parts := by
  have hentries : String.join (r.entries.map Entry.render) =
      pageOf (r.entries.flatMap Entry.parts) := by
    rw [pageOf_flatMap]
    exact congrArg _ (List.map_congr_left fun e _ => e.render_eq)
  rw [render, parts, pageOf_append, hentries]
  cases r.placeholder with
  | none => rfl
  | some text =>
      simp only [placeholderParts, pageOf_cons, pageOf_nil, Part.page, String.append_assoc,
        String.append_empty]

end Roster
end PeerWatch.Presence

namespace PeerWatch.Directory

open PeerWatch.Markup (Part pageOf pageOf_cons pageOf_nil pageOf_append pageOf_flatMap)

namespace Listing

def rowParts (row : Row) : List Part :=
  [.markup "<tr><td><a href=\"", .text row.link, .markup "\">", .text row.name,
    .markup "</a></td></tr>"]

def parts : Listing → List Part
  | .entries rows =>
    .markup "<table class=\"files\">" :: rows.flatMap rowParts ++ [.markup "</table>"]
  | .empty => [.markup emptyRemark]
  | .failed => [.markup failedRemark]

theorem rowMarkup_eq (row : Row) : rowMarkup row = pageOf (rowParts row) := by
  unfold rowMarkup rowParts
  simp only [pageOf_cons, pageOf_nil, Part.page, String.append_assoc, String.append_empty]

theorem render_eq (l : Listing) : l.render = pageOf l.parts := by
  unfold render parts
  cases l with
  | entries rows =>
      have hrows : String.join (rows.map rowMarkup) = pageOf (rows.flatMap rowParts) := by
        rw [pageOf_flatMap]
        exact congrArg _ (List.map_congr_left fun row _ => rowMarkup_eq row)
      simp only [hrows, pageOf_append, pageOf_cons, pageOf_nil, Part.page, String.append_assoc,
        String.append_empty, List.cons_append]
  | empty => exact (String.append_empty).symm
  | failed => exact (String.append_empty).symm

end Listing
end PeerWatch.Directory
