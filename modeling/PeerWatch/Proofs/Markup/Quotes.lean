import Mathlib.Data.List.Basic
import PeerWatch.Proofs.Markup.Parts

/-!
# Double quotes in pages

Escaping leaves double quotes as they are. So a page holds those of its markup and those of its
texts, and the attributes of its markup hold the values they are meant to hold exactly if no text
brings a quote of its own.
-/

namespace PeerWatch.Markup

/-! ## Counting quotes -/

def quotes (s : String) : Nat := s.toList.count '"'

def Part.markupQuotes : Part → Nat
  | .markup s => quotes s
  | .text _ => 0

/-- The quotes of the markup alone. -/
def markupQuotes (parts : List Part) : Nat := (parts.map Part.markupQuotes).sum

theorem quotes_append (s t : String) : quotes (s ++ t) = quotes s + quotes t := by
  rw [quotes, String.toList_append, List.count_append, quotes, quotes]

theorem quotes_eq_zero {s : String} : quotes s = 0 ↔ '"' ∉ s.toList := List.count_eq_zero

theorem quotes_escape (s : String) : quotes (escape s) = quotes s := by
  have hchar : ∀ c, (escapeChar c).count '"' = [c].count '"' := by
    intro c
    rw [escapeChar]
    split
    · next h => rw [h]; decide
    split
    · next h => rw [h]; decide
    split
    · next h => rw [h]; decide
    · rfl
  rw [quotes, escape, String.toList_ofList, escapeChars, quotes]
  induction s.toList with
  | nil => rfl
  | cons c cs ih => rw [List.flatMap_cons, List.count_append, ih, hchar, ← List.count_append,
      List.singleton_append]

theorem markupQuotes_append (first rest : List Part) :
    markupQuotes (first ++ rest) = markupQuotes first + markupQuotes rest := by
  rw [markupQuotes, List.map_append, List.sum_append, markupQuotes, markupQuotes]

theorem markupQuotes_flatMap {α : Type} {f : α → List Part} {n : Nat} {items : List α}
    (h : ∀ item ∈ items, markupQuotes (f item) = n) :
    markupQuotes (items.flatMap f) = n * items.length := by
  induction items with
  | nil => rfl
  | cons item items ih =>
      have hrest := ih fun other hother => h other (List.mem_cons_of_mem _ hother)
      rw [List.flatMap_cons, markupQuotes_append, h item List.mem_cons_self, hrest,
        List.length_cons, Nat.mul_add]
      omega

theorem quotes_pageOf (parts : List Part) :
    quotes (pageOf parts) = markupQuotes parts + ((textsOf parts).map quotes).sum := by
  induction parts with
  | nil => rfl
  | cons p parts ih =>
      have hmarkup : markupQuotes (p :: parts) = p.markupQuotes + markupQuotes parts := by
        rw [markupQuotes, List.map_cons, List.sum_cons, markupQuotes]
      rw [pageOf_cons, quotes_append, ih, hmarkup]
      cases p with
      | markup s =>
          have htexts : textsOf (.markup s :: parts) = textsOf parts := rfl
          rw [htexts, Part.page, Part.markupQuotes]
          omega
      | text s =>
          have htexts : textsOf (.text s :: parts) = s :: textsOf parts := rfl
          rw [htexts, List.map_cons, List.sum_cons, Part.page, quotes_escape, Part.markupQuotes]
          omega

theorem quotes_pageOf_iff (parts : List Part) :
    quotes (pageOf parts) = markupQuotes parts ↔ ∀ text ∈ textsOf parts, '"' ∉ text.toList := by
  have hsum : ((textsOf parts).map quotes).sum = 0 ↔ ∀ text ∈ textsOf parts, quotes text = 0 := by
    rw [List.sum_eq_zero_iff_forall_eq_nat]
    simp
  simp only [← quotes_eq_zero, ← hsum, quotes_pageOf]
  omega

/-! ## Reading attributes -/

/-- The values between quotes, read from left to right: each quote begins a value or ends the one
that was begun, which `value` holds. -/
def valuesBetween {β : Type} (isQuote : β → Bool) (value : Option (List β)) : List β → List (List β)
  | [] => value.toList
  | c :: cs =>
    match value with
    | none =>
      if isQuote c then valuesBetween isQuote (some []) cs else valuesBetween isQuote none cs
    | some v =>
      if isQuote c then v :: valuesBetween isQuote none cs
      else valuesBetween isQuote (some (v ++ [c])) cs

/-- The values that a reader of a page finds between quotes. -/
def quotedValues (page : String) : List (List Char) :=
  valuesBetween (· == '"') none page.toList

/-- The characters of a part, each with the information whether it is markup. -/
def Part.traced (p : Part) : List (Bool × Char) :=
  p.page.toList.map fun c => (p.text?.isNone, c)

/-- The values between the quotes of the markup, whatever characters the texts consist of. -/
def meantValues (parts : List Part) : List (List Char) :=
  (valuesBetween (fun c => c.1 && c.2 == '"') none (parts.flatMap Part.traced)).map
    (·.map Prod.snd)

theorem valuesBetween_map {β γ : Type} (f : β → γ) (p : β → Bool) (q : γ → Bool) {cs : List β}
    (h : ∀ c ∈ cs, p c = q (f c)) (value : Option (List β)) :
    (valuesBetween p value cs).map (·.map f) =
      valuesBetween q (value.map (·.map f)) (cs.map f) := by
  induction cs generalizing value with
  | nil => cases value <;> rfl
  | cons c cs ih =>
      have hc := h c List.mem_cons_self
      have hrest := ih fun other hother => h other (List.mem_cons_of_mem _ hother)
      cases value with
      | none => cases hq : q (f c) <;> simp [valuesBetween, hc, hq, hrest]
      | some v => cases hq : q (f c) <;> simp [valuesBetween, hc, hq, hrest]

theorem toList_pageOf (parts : List Part) :
    (pageOf parts).toList = (parts.flatMap Part.traced).map Prod.snd := by
  rw [pageOf, String.toList_join, List.map_flatMap, List.flatMap_map]
  refine List.flatMap_congr fun p _ => ?_
  rw [Part.traced, List.map_map]
  exact (List.map_id _).symm

theorem quotedValues_pageOf {parts : List Part} (h : ∀ text ∈ textsOf parts, '"' ∉ text.toList) :
    quotedValues (pageOf parts) = meantValues parts := by
  have hquote : ∀ c ∈ parts.flatMap Part.traced, (c.1 && c.2 == '"') = (c.2 == '"') := by
    intro c hc
    obtain ⟨p, hp, hc⟩ := List.mem_flatMap.1 hc
    obtain ⟨x, hx, rfl⟩ := List.mem_map.1 hc
    cases p with
    | markup s => rfl
    | text s =>
        have htext : '"' ∉ s.toList := h s (List.mem_filterMap.2 ⟨_, hp, rfl⟩)
        have hpage : '"' ∉ (escape s).toList := by
          rwa [← quotes_eq_zero, quotes_escape, quotes_eq_zero]
        have hne : x ≠ '"' := fun heq => hpage (heq ▸ hx)
        simp [hne]
  rw [quotedValues, toList_pageOf, meantValues]
  exact (valuesBetween_map Prod.snd _ _ hquote none).symm

/-! ## The structure of the pages -/

end PeerWatch.Markup

namespace PeerWatch.Presence

open PeerWatch.Markup (markupQuotes quotes)

/-- The quotes in the markup of an entry: those of its lines, of its links and of its badge. -/
def Entry.fixedQuotes (e : Entry) : Nat :=
  16 + 8 * e.links.length + if e.isSelf ∨ e.unread = 0 then 0 else 2

/-- The quotes in the markup of a contact list. -/
def Roster.fixedQuotes (r : Roster) : Nat := (r.entries.map Entry.fixedQuotes).sum

theorem Entry.markupQuotes_linkParts (link : Link) : markupQuotes (linkParts link) = 8 := by
  obtain ⟨kind, href⟩ := link
  change _ + (quotes kind.styleClass + (_ + (0 + (_ + (quotes kind.icon + (_ +
    (quotes kind.caption + (_ + 0)))))))) = 8
  cases kind <;> decide

theorem Entry.markupQuotes_badgeParts (e : Entry) :
    markupQuotes e.badgeParts = if e.isSelf ∨ e.unread = 0 then 0 else 2 := by
  rw [badgeParts]
  split
  · rfl
  · change _ + (0 + (_ + (0 + (_ + 0)))) = 2
    decide

theorem Entry.markupQuotes_parts (e : Entry) : markupQuotes e.parts = e.fixedQuotes := by
  have hlinks : markupQuotes (e.links.flatMap linkParts) = 8 * e.links.length :=
    Markup.markupQuotes_flatMap fun link _ => markupQuotes_linkParts link
  have hopen : markupQuotes [.markup "<div class=\"contactstr\"><div id=\"contact_", .text e.id,
      .markup "\" class=\"", .text e.status, .markup "\"><a href=\"", .text e.path,
      .markup "\">", .text e.displayName, .markup "</a><span class=\"messagescount\">"] = 10 := by
    change _ + (0 + (_ + (0 + (_ + (0 + (_ + (0 + (_ + 0)))))))) = 10
    decide
  have hmiddle : markupQuotes [.markup "</span><span class=\"status\">", .text e.statusLabel,
      .markup "</span></div><div id=\"contactinfo_", .text e.id,
      .markup "\" class=\"contactinfo\">"] = 6 := by
    change _ + (0 + (_ + (0 + (_ + 0)))) = 6
    decide
  have hclose : markupQuotes [.markup "</div></div>"] = 0 := by decide
  unfold parts
  rw [Markup.markupQuotes_append, Markup.markupQuotes_append, Markup.markupQuotes_append,
    Markup.markupQuotes_append, hlinks, e.markupQuotes_badgeParts, hopen, hmiddle, hclose,
    fixedQuotes]
  omega

theorem Roster.markupQuotes_parts (r : Roster) : markupQuotes r.parts = r.fixedQuotes := by
  have hplaceholder : markupQuotes (placeholderParts r.placeholder) = 0 := by
    cases r.placeholder with
    | none => rfl
    | some text =>
        change _ + (0 + (_ + 0)) = 0
        decide
  rw [parts, Markup.markupQuotes_append, hplaceholder, fixedQuotes, Nat.zero_add]
  induction r.entries with
  | nil => rfl
  | cons e entries ih =>
      rw [List.flatMap_cons, Markup.markupQuotes_append, ih, e.markupQuotes_parts, List.map_cons,
        List.sum_cons]

end PeerWatch.Presence

namespace PeerWatch.Directory

open PeerWatch.Markup (markupQuotes)

/-- The quotes in the markup of a listing: those of the table and of its rows. -/
def Listing.fixedQuotes : Listing → Nat
  | .entries rows => 2 + 2 * rows.length
  | .empty => 0
  | .failed => 0

theorem Listing.markupQuotes_rowParts (row : Row) : markupQuotes (rowParts row) = 2 := by
  change _ + (0 + (_ + (0 + (_ + 0)))) = 2
  decide

theorem Listing.markupQuotes_parts (l : Listing) : markupQuotes l.parts = l.fixedQuotes := by
  cases l with
  | entries rows =>
      have hrows : markupQuotes (rows.flatMap rowParts) = 2 * rows.length :=
        Markup.markupQuotes_flatMap fun row _ => markupQuotes_rowParts row
      have hopen : markupQuotes [.markup "<table class=\"files\">"] = 2 := by decide
      have hclose : markupQuotes [.markup "</table>"] = 0 := by decide
      rw [parts, ← List.singleton_append, List.append_assoc, Markup.markupQuotes_append,
        Markup.markupQuotes_append, hrows, hopen, hclose, fixedQuotes]
      omega
  | empty => decide
  | failed => decide

end PeerWatch.Directory

/-! ## What the quotes of a page depend on -/

namespace PeerWatch.Markup

open PeerWatch.Presence (Roster)
open PeerWatch.Directory (Listing)

/-- A page of these parts, whose markup alone has `fixed` quotes: it has the quotes of its texts
besides, so the number of its quotes is that of its markup exactly if no text holds a quote, and
then each attribute holds the value it is meant to hold. -/
structure Quoted (page : String) (parts : List Part) (fixed : Nat) : Prop where
  page_eq : page = pageOf parts
  count : quotes page = fixed + ((textsOf parts).map quotes).sum
  count_iff : quotes page = fixed ↔ ∀ text ∈ textsOf parts, '"' ∉ text.toList
  values : (∀ text ∈ textsOf parts, '"' ∉ text.toList) → quotedValues page = meantValues parts

theorem quoted_pageOf {page : String} {parts : List Part} {fixed : Nat}
    (hpage : page = pageOf parts) (hfixed : markupQuotes parts = fixed) :
    Quoted page parts fixed := by
  subst hpage hfixed
  exact ⟨rfl, quotes_pageOf parts, quotes_pageOf_iff parts, quotedValues_pageOf⟩

/-- The double quotes of a contact list and of a listing are those of the markup, whose number
depends on the structure alone, and those of the texts that are put in. Exactly if no text brings
one, the structure determines their number; and then every attribute ends where it is meant to end. -/
theorem page_quotes_fixed_iff (r : Roster) (l : Listing) :
    Quoted r.render r.parts r.fixedQuotes ∧ Quoted l.render l.parts l.fixedQuotes :=
  ⟨quoted_pageOf r.render_eq r.markupQuotes_parts, quoted_pageOf l.render_eq l.markupQuotes_parts⟩

/-- A link with a quote ends the attribute it is put into: the page has one quote more than a page
of the same structure. -/
theorem quote_in_link_ends_value :
    (Listing.entries [⟨"x", "/a\"b"⟩]).fixedQuotes = (Listing.entries [⟨"x", "/ab"⟩]).fixedQuotes ∧
      quotes (Listing.entries [⟨"x", "/a\"b"⟩]).render ≠
        quotes (Listing.entries [⟨"x", "/ab"⟩]).render ∧
      quotedValues (Listing.entries [⟨"x", "/a\"b"⟩]).render =
        ["files".toList, "/a".toList, ">x</a></td></tr></table>".toList] := by
  decide

end PeerWatch.Markup
