import PeerWatch.Proofs.Markup.Nesting
import PeerWatch.Proofs.Text.Pieces

/-!
# Listings recovered from their markup

The markup of a listing tells the listing: names and links may hold any characters, those of the
markup included, since the first bracket behind an escaped text is always one of the markup. A
reader of such pages is given here, which accepts the markup of listings and nothing else.
-/

namespace PeerWatch.Markup

/-! ## Escaped texts -/

/-- The text whose escaped form this is. A special character stands in it as an entity only. -/
def unescape? : List Char → Option (List Char)
  | [] => some []
  | '&' :: 'a' :: 'm' :: 'p' :: ';' :: rest => (unescape? rest).map ('&' :: ·)
  | '&' :: 'l' :: 't' :: ';' :: rest => (unescape? rest).map ('<' :: ·)
  | '&' :: 'g' :: 't' :: ';' :: rest => (unescape? rest).map ('>' :: ·)
  | c :: rest =>
    if c = '&' ∨ c = '<' ∨ c = '>' then none else (unescape? rest).map (c :: ·)

theorem escapeChars_cons (c : Char) (cs : List Char) :
    escapeChars (c :: cs) = escapeChar c ++ escapeChars cs := List.flatMap_cons

theorem unescape?_plain {c : Char} (h : ¬(c = '&' ∨ c = '<' ∨ c = '>')) (rest : List Char) :
    unescape? (c :: rest) = (unescape? rest).map (c :: ·) := by
  have hamp : c ≠ '&' := fun heq => h (.inl heq)
  rw [unescape?, if_neg h]
  all_goals
    intro _ heq
    exact fun _ => hamp heq

theorem unescape?_escapeChars (cs : List Char) : unescape? (escapeChars cs) = some cs := by
  induction cs with
  | nil => rfl
  | cons c cs ih =>
      rw [escapeChars_cons, escapeChar]
      split
      · next h => subst h; simp [unescape?, ih]
      split
      · next h => subst h; simp [unescape?, ih]
      split
      · next h => subst h; simp [unescape?, ih]
      · next hamp hlt hgt =>
        rw [List.singleton_append, unescape?_plain (by simp [hamp, hlt, hgt]), ih, Option.map_some]

theorem eq_escapeChars_of_unescape? {text cs : List Char} (h : unescape? text = some cs) :
    text = escapeChars cs := by
  fun_induction unescape? text generalizing cs with
  | case1 => simp_all [escapeChars]
  | case2 rest ih =>
    obtain ⟨cs, hcs, rfl⟩ := Option.map_eq_some_iff.1 h
    rw [ih hcs]
    rfl
  | case3 rest ih =>
    obtain ⟨cs, hcs, rfl⟩ := Option.map_eq_some_iff.1 h
    rw [ih hcs]
    rfl
  | case4 rest ih =>
    obtain ⟨cs, hcs, rfl⟩ := Option.map_eq_some_iff.1 h
    rw [ih hcs]
    rfl
  | case5 => cases h
  | case6 c rest _ _ _ hplain ih =>
    obtain ⟨cs, hcs, rfl⟩ := Option.map_eq_some_iff.1 h
    rw [ih hcs, escapeChars_cons]
    simp only [not_or] at hplain
    simp [escapeChar, hplain]

theorem unescape?_eq_some_iff {text cs : List Char} :
    unescape? text = some cs ↔ text = escapeChars cs :=
  ⟨eq_escapeChars_of_unescape?, fun h => h ▸ unescape?_escapeChars cs⟩

end PeerWatch.Markup

namespace PeerWatch.Directory

open PeerWatch.Markup (escapeChars unescape? unescape?_eq_some_iff)
open PeerWatch.Text (cutOnce dropStart?)

namespace Listing

/-! ## Rows -/

def rowStart : List Char := "<tr><td><a href=\"".toList

/-- What follows the bracket behind the name of a row. -/
def rowEnd : List Char := "/a></td></tr>".toList

def tableStart : List Char := "<table class=\"files\">".toList

def tableEnd : List Char := "</table>".toList

/-- The text of an attribute that ends with the tag. -/
def lastValue? (cs : List Char) : Option (List Char) :=
  if cs.getLast? = some '"' then unescape? cs.dropLast else none

/-- The row at the start of some markup, and what follows it. -/
def readRow? (cs : List Char) : Option (Row × List Char) := do
  let cs ← dropStart? rowStart cs
  let (value, cs) ← cutOnce '>' cs
  let link ← lastValue? value
  let (text, cs) ← cutOnce '<' cs
  let name ← unescape? text
  let cs ← dropStart? rowEnd cs
  return (⟨String.ofList name, String.ofList link⟩, cs)

/-- The rows up to the end of the table, which must be the end of the text. The number bounds how
many rows are read. -/
def readRows? : Nat → List Char → Option (List Row)
  | 0, _ => none
  | n + 1, cs =>
    if cs = tableEnd then some []
    else do
      let (row, rest) ← readRow? cs
      let rows ← readRows? n rest
      return row :: rows

/-- The rows of a table. -/
def readTable? (page : String) : Option (List Row) := do
  let cs ← dropStart? tableStart page.toList
  readRows? (cs.length + 1) cs

/-- The listing that has this markup. -/
def ofMarkup? (page : String) : Option Listing :=
  if page = emptyRemark then some .empty
  else if page = failedRemark then some .failed
  else (readTable? page).map .entries

theorem lastValue?_eq_some_iff {cs text : List Char} :
    lastValue? cs = some text ↔ cs = escapeChars text ++ ['"'] := by
  rw [lastValue?]
  split
  · next hlast =>
    obtain ⟨value, rfl⟩ := List.getLast?_eq_some_iff.1 hlast
    rw [List.dropLast_concat, unescape?_eq_some_iff, List.append_left_inj]
  · next hlast =>
    constructor
    · intro h
      cases h
    · rintro rfl
      exact absurd List.getLast?_concat hlast

theorem toList_rowMarkup_append (row : Row) (rest : List Char) :
    (rowMarkup row).toList ++ rest = rowStart ++ (escapeChars row.link.toList ++ ['"'] ++
      '>' :: (escapeChars row.name.toList ++ '<' :: (rowEnd ++ rest))) := by
  have hstart : "<tr><td><a href=\"".toList = rowStart := rfl
  have hvalueEnd : "\">".toList = ['"', '>'] := by decide
  have hrowEnd : "</a></td></tr>".toList = '<' :: rowEnd := by decide
  have hescape (s : String) : (Markup.escape s).toList = escapeChars s.toList :=
    String.toList_ofList
  unfold rowMarkup
  rw [String.toList_append, String.toList_append, String.toList_append, String.toList_append,
    hescape, hescape, hstart, hvalueEnd, hrowEnd]
  simp only [List.append_assoc, List.cons_append, List.nil_append]

/-- A row is read exactly where the markup of that row stands. -/
theorem readRow?_eq_some_iff {cs rest : List Char} {row : Row} :
    readRow? cs = some (row, rest) ↔ cs = (rowMarkup row).toList ++ rest := by
  obtain ⟨name, link⟩ := row
  rw [toList_rowMarkup_append]
  constructor
  · intro h
    simp only [readRow?, Option.bind_eq_bind, Option.bind_eq_some_iff, Prod.exists] at h
    obtain ⟨inner, hstart, value, behind, hvalue, linkText, hlink, text, last, htext, nameText,
      hname, after, hend, hrow⟩ := h
    rw [Text.dropStart?_eq_some_iff] at hstart hend
    rw [lastValue?_eq_some_iff] at hlink
    rw [unescape?_eq_some_iff] at hname
    obtain ⟨⟨rfl, rfl⟩, rfl⟩ : (String.ofList nameText = name ∧ String.ofList linkText = link) ∧
      after = rest := by simpa using hrow
    rw [hstart, (Text.eq_of_cutOnce hvalue).1, (Text.eq_of_cutOnce htext).1, hlink, hname, hend]
    simp only [String.toList_ofList]
  · rintro rfl
    have hlinkBare : '>' ∉ escapeChars link.toList ++ ['"'] := by
      have hbare := (Markup.bracket_not_mem_escape link).2
      rw [Markup.escape, String.toList_ofList] at hbare
      simp [hbare]
    have hnameBare : '<' ∉ escapeChars name.toList := by
      have hbare := (Markup.bracket_not_mem_escape name).1
      rwa [Markup.escape, String.toList_ofList] at hbare
    have hstart (cs : List Char) : dropStart? rowStart (rowStart ++ cs) = some cs :=
      Text.dropStart?_eq_some_iff.2 rfl
    have hend : dropStart? rowEnd (rowEnd ++ rest) = some rest := Text.dropStart?_eq_some_iff.2 rfl
    have hlink : lastValue? (escapeChars link.toList ++ ['"']) = some link.toList :=
      lastValue?_eq_some_iff.2 rfl
    have hname : unescape? (escapeChars name.toList) = some name.toList :=
      unescape?_eq_some_iff.2 rfl
    rw [readRow?, hstart]
    simp only [Option.bind_eq_bind, Option.bind_some, Text.cutOnce_append_cons hlinkBare, hlink,
      Text.cutOnce_append_cons hnameBare, hname, hend, String.ofList_toList]
    rfl

/-! ## Tables -/

theorem rowMarkup_ne_tableEnd (row : Row) (rest : List Char) :
    (rowMarkup row).toList ++ rest ≠ tableEnd := by
  have hrow : rowStart = '<' :: 't' :: rowStart.drop 2 := by decide
  have htable : tableEnd = '<' :: '/' :: tableEnd.drop 2 := by decide
  rw [toList_rowMarkup_append, hrow, htable]
  intro h
  exact absurd (List.cons.inj (List.cons.inj h).2).1 (by decide)

/-- The markup of some rows and of the end of their table. -/
def rowsMarkup (rows : List Row) : List Char :=
  (rows.flatMap fun row => (rowMarkup row).toList) ++ tableEnd

theorem rowsMarkup_cons (row : Row) (rows : List Row) :
    rowsMarkup (row :: rows) = (rowMarkup row).toList ++ rowsMarkup rows := by
  rw [rowsMarkup, List.flatMap_cons, List.append_assoc, rowsMarkup]

/-- Rows are read exactly where their markup stands, followed by the end of the table. -/
theorem readRows?_eq_some_iff {n : Nat} {cs : List Char} {rows : List Row} (hn : cs.length < n) :
    readRows? n cs = some rows ↔ cs = rowsMarkup rows := by
  induction n generalizing cs rows with
  | zero => omega
  | succ n ih =>
      have hshorter {row : Row} {rest : List Char} (hcs : cs = (rowMarkup row).toList ++ rest) :
          rest.length < n := by
        rw [toList_rowMarkup_append] at hcs
        have hlength := congrArg List.length hcs
        simp only [List.length_append, List.length_cons] at hlength
        omega
      rw [readRows?]
      by_cases hend : cs = tableEnd
      · rw [if_pos hend, hend]
        cases rows with
        | nil => simp [rowsMarkup]
        | cons row rows =>
            rw [rowsMarkup_cons]
            have hne := rowMarkup_ne_tableEnd row (rowsMarkup rows)
            simp [hne.symm]
      · rw [if_neg hend]
        simp only [Option.bind_eq_bind, Option.bind_eq_some_iff, Prod.exists]
        constructor
        · rintro ⟨row, rest, hrow, others, hothers, heq⟩
          rw [readRow?_eq_some_iff] at hrow
          rw [ih (hshorter hrow)] at hothers
          obtain rfl : row :: others = rows := by simpa using heq
          rw [rowsMarkup_cons, hrow, hothers]
        · intro hcs
          cases rows with
          | nil => exact absurd hcs hend
          | cons row rows =>
              rw [rowsMarkup_cons] at hcs
              exact ⟨row, rowsMarkup rows, readRow?_eq_some_iff.2 hcs, rows,
                (ih (hshorter hcs)).2 rfl, rfl⟩

/-! ## Listings -/

theorem toList_render_entries (rows : List Row) :
    (entries rows).render.toList = tableStart ++ rowsMarkup rows := by
  have hstart : "<table class=\"files\">".toList = tableStart := rfl
  have hend : "</table>".toList = tableEnd := rfl
  have hrows : (String.join (rows.map rowMarkup)).toList =
      rows.flatMap fun row => (rowMarkup row).toList := by
    rw [String.toList_join, List.flatMap_map]
  change ("<table class=\"files\">" ++ String.join (rows.map rowMarkup) ++ "</table>").toList = _
  rw [String.toList_append, String.toList_append, hrows, hstart, hend, List.append_assoc,
    ← rowsMarkup]

theorem readTable?_eq_some_iff {page : String} {rows : List Row} :
    readTable? page = some rows ↔ page = (entries rows).render := by
  rw [← String.toList_inj, toList_render_entries, ← Text.dropStart?_eq_some_iff, readTable?,
    Option.bind_eq_bind, Option.bind_eq_some_iff]
  constructor
  · rintro ⟨cs, hcs, hrows⟩
    rw [hcs, (readRows?_eq_some_iff (Nat.lt_succ_self _)).1 hrows]
  · intro hcs
    exact ⟨_, hcs, (readRows?_eq_some_iff (Nat.lt_succ_self _)).2 rfl⟩

theorem render_entries_ne (rows : List Row) :
    (entries rows).render ≠ emptyRemark ∧ (entries rows).render ≠ failedRemark := by
  have hfirst : (entries rows).render.toList.head? = some '<' := by
    rw [toList_render_entries]
    rfl
  constructor <;> intro h <;> rw [h] at hfirst <;> exact absurd hfirst (by decide)

/-- The reader accepts the markup of a listing, and gives that listing, and nothing else. -/
theorem ofMarkup?_eq_some_iff {page : String} {l : Listing} :
    ofMarkup? page = some l ↔ page = l.render := by
  have hempty : empty.render = emptyRemark := rfl
  have hfailed : failed.render = failedRemark := rfl
  have hremarks : emptyRemark ≠ failedRemark := by decide
  rw [ofMarkup?]
  split
  · next h =>
    subst h
    cases l with
    | entries rows => simp [(render_entries_ne rows).1.symm]
    | empty => simp [hempty]
    | failed => simp [hfailed, hremarks]
  split
  · next h =>
    subst h
    cases l with
    | entries rows => simp [(render_entries_ne rows).2.symm]
    | empty => simp [hempty, hremarks.symm]
    | failed => simp [hfailed]
  · next hnotEmpty hnotFailed =>
    cases l with
    | entries rows => simp [readTable?_eq_some_iff]
    | empty => simp [hempty, hnotEmpty]
    | failed => simp [hfailed, hnotFailed]

/-- Markup loses nothing of a listing: two listings of the same markup are the same, the rows of a
table are read back from it in order and whatever characters their names and links consist of, and
no table reads like one of the remarks. -/
theorem listing_recovered_from_markup :
    Function.Injective render ∧
      (∀ page l, ofMarkup? page = some l ↔ page = l.render) ∧
      ∀ rows, (entries rows).render ≠ empty.render ∧ (entries rows).render ≠ failed.render := by
  refine ⟨fun l other h => ?_, fun page l => ofMarkup?_eq_some_iff, render_entries_ne⟩
  have hread : ofMarkup? l.render = some l := ofMarkup?_eq_some_iff.2 rfl
  have hother : ofMarkup? l.render = some other := ofMarkup?_eq_some_iff.2 h
  exact Option.some.inj (hread.symm.trans hother)

/- A name that imitates the end of its row, and a link that imitates the end of its attribute. -/
example :
    let l := entries [⟨"</a>&lt;", "\">"⟩, ⟨"", ""⟩]
    ofMarkup? l.render = some l := by
  decide +kernel

end Listing
end PeerWatch.Directory
