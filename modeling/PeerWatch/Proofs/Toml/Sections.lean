import PeerWatch.Proofs.Toml.Quoted
import PeerWatch.Toml.Document

/-!
# Documents in sections

A document of sections, each with its header and a line for each of its keys, is read as the tables
of these sections. Names and keys are bare, and none occurs twice.
-/

namespace PeerWatch.Toml

/-! ## Sections -/

/-- A value that is written on one line with its key, or is a string that ends the line. -/
inductive Scalar
  | text (s : String)
  | truth (b : Bool)

namespace Scalar

def value : Scalar → Value
  | text s => .string s
  | truth b => .bool b

def chars : Scalar → List Char
  | text s => (quote s).toList
  | truth b => (if b then "true" else "false").toList

end Scalar

structure Section where
  name : String
  fields : List (String × Scalar)

def fieldChars (field : String × Scalar) : List Char :=
  field.1.toList ++ ' ' :: '=' :: ' ' :: (field.2.chars ++ ['\n'])

def fieldMember (field : String × Scalar) : String × Value := (field.1, field.2.value)

namespace Section

def chars (s : Section) : List Char :=
  '[' :: (s.name.toList ++ ']' :: '\n' :: s.fields.flatMap fieldChars)

def member (s : Section) : String × Value :=
  (s.name, .table .header (s.fields.map fieldMember))

end Section

/-- A name that needs no quotes. -/
def IsBareName (name : String) : Prop :=
  name.toList ≠ [] ∧ ∀ c ∈ name.toList, isBare c = true

-- by `all`, since the instance for all characters there are could be found otherwise
instance (name : String) : Decidable (IsBareName name) :=
  decidable_of_iff (name.toList ≠ [] ∧ name.toList.all isBare = true) (by simp [IsBareName])

theorem IsBareName.head {name : String} (h : IsBareName name) :
    ∃ first more, name.toList = first :: more ∧ isBare first = true := by
  obtain ⟨first, more, hfirst⟩ := List.exists_cons_of_ne_nil h.1
  exact ⟨first, more, hfirst, h.2 first (by simp [hfirst])⟩

/-! ## Words of a line -/

variable {rest : List Char} {c : Char}

theorem not_isBlank_of_isBare (h : isBare c = true) : isBlank c = false := by
  simp only [isBlank, Bool.or_eq_false_iff, beq_eq_false_iff_ne]
  constructor <;> (rintro rfl; cases h)

theorem skipBlanks_of_not_isBlank (h : isBlank c = false) : skipBlanks (c :: rest) = c :: rest :=
  List.dropWhile_cons_of_neg (by simp [h])

theorem skipBlanks_space (rest : List Char) : skipBlanks (' ' :: rest) = skipBlanks rest :=
  List.dropWhile_cons_of_pos (by decide)

theorem readKeyPart_bare {key : List Char} (hne : key ≠ []) (hkey : ∀ c ∈ key, isBare c = true)
    (hc : isBare c = false) (rest : List Char) :
    readKeyPart (key ++ c :: rest) = some (key, c :: rest) := by
  obtain ⟨first, more, rfl⟩ := List.exists_cons_of_ne_nil hne
  have hfirst : isBare first = true := hkey first (by simp)
  have htake : (first :: more ++ c :: rest).takeWhile isBare = first :: more := by
    rw [List.takeWhile_append_of_pos hkey, List.takeWhile_cons_of_neg (by simp [hc]),
      List.append_nil]
  have hdrop : (first :: more ++ c :: rest).dropWhile isBare = c :: rest := by
    rw [List.dropWhile_append_of_pos hkey, List.dropWhile_cons_of_neg (by simp [hc])]
  rw [List.cons_append] at htake hdrop ⊢
  rw [readKeyPart, htake, hdrop]
  · intro tail h
    rw [(List.cons.inj h).1] at hfirst
    cases hfirst
  · intro tail h
    rw [(List.cons.inj h).1] at hfirst
    cases hfirst

/-- A bare key ends at a character that is not bare, and nothing follows it but blanks. -/
theorem readKey_bare {key : String} (hkey : IsBareName key) (hc : isBare c = false)
    {rest after : List Char} (hafter : skipBlanks (c :: rest) = after)
    (hdot : ∀ tail, after ≠ '.' :: tail) :
    readKey (key.toList ++ c :: rest) = some ([key], after) := by
  obtain ⟨first, more, hfirst, hbare⟩ := hkey.head
  have hskip : skipBlanks (key.toList ++ c :: rest) = key.toList ++ c :: rest := by
    rw [hfirst]
    exact skipBlanks_of_not_isBlank (not_isBlank_of_isBare hbare)
  have hsteps : levelLimit - 1 = 78 + 1 := rfl
  rw [readKey, hsteps, readKeyParts, hskip, readKeyPart_bare hkey.1 hkey.2 hc]
  simp only [Option.bind_eq_bind, Option.bind_some, hafter, String.ofList_toList]
  rfl

theorem finishLine_newline (rest : List Char) : finishLine ('\n' :: rest) = some rest := rfl

theorem finishLine_bare (h : isBare c = true) (rest : List Char) :
    finishLine (c :: rest) = none := by
  have hcomment : c ≠ '#' := by rintro rfl; cases h
  have hline : c ≠ '\n' := by rintro rfl; cases h
  have hreturn : c ≠ '\r' := by rintro rfl; cases h
  rw [finishLine, skipBlanks_of_not_isBlank (not_isBlank_of_isBare h)]
  rw [skipComment, endLine]
  all_goals grind

theorem quote_head (s : String) :
    ∃ c rest, (quote s).toList = c :: rest ∧ (c = '"' ∨ c = '\'') := by
  rw [quote, String.toList_ofList]
  cases Form.choose s.toList with
  | basic => exact ⟨'"', _, rfl, Or.inl rfl⟩
  | literal => exact ⟨'\'', _, rfl, Or.inr rfl⟩
  | basicLines => exact ⟨'"', _, rfl, Or.inl rfl⟩
  | literalLines => exact ⟨'\'', _, rfl, Or.inr rfl⟩

theorem skipBlanks_scalar (x : Scalar) (rest : List Char) :
    skipBlanks (x.chars ++ rest) = x.chars ++ rest := by
  cases x with
  | text s =>
      obtain ⟨c, tail, htext, hc⟩ := quote_head s
      rw [Scalar.chars, htext]
      obtain rfl | rfl := hc <;> exact skipBlanks_of_not_isBlank (by decide)
  | truth b => cases b <;> rfl

theorem readValue_scalar (n levels : Nat) (x : Scalar) (rest : List Char) :
    readValue (n + 1) levels (x.chars ++ '\n' :: rest) = some (x.value, '\n' :: rest) := by
  cases x with
  | text s =>
      have hread := readString_choose s.toList rest
      obtain ⟨c, tail, htext, hc⟩ := quote_head s
      rw [quote, String.toList_ofList] at htext
      rw [htext, List.cons_append] at hread
      rw [Scalar.chars, quote, String.toList_ofList, htext, List.cons_append, readValue]
      · rw [if_pos hc, hread]
        simp [Scalar.value]
      all_goals grind
  | truth b => cases b <;> rfl

/-! ## Lines -/

theorem readLine_blank (d : Draft) (rest : List Char) :
    readLine d ('\n' :: rest) = some (d, rest) := rfl

theorem readLine_header {d e : Draft} {name : String} (hname : IsBareName name)
    (hopen : d.openTable [name] = some e) (rest : List Char) :
    readLine d ('[' :: (name.toList ++ ']' :: '\n' :: rest)) = some (e, rest) := by
  have hkey : readKey (name.toList ++ ']' :: '\n' :: rest) = some ([name], ']' :: '\n' :: rest) :=
    readKey_bare hname (by decide) rfl (by simp)
  obtain ⟨first, more, hfirst, hbare⟩ := hname.head
  have hsingle : first ≠ '[' := by rintro rfl; cases hbare
  rw [hfirst, List.cons_append] at hkey ⊢
  rw [readLine, skipBlanks_of_not_isBlank (by decide)]
  split
  next h => exact absurd (List.cons.inj (List.cons.inj h).2).1 hsingle
  next h =>
    obtain rfl := (List.cons.inj h).2
    simp [hkey, hopen, expect, finishLine_newline]
  next h => exact absurd rfl (h _)

theorem readLine_field {d e : Draft} {field : String × Scalar} (hkey : IsBareName field.1)
    (hassign : d.assign [field.1] field.2.value = some e) (rest : List Char) :
    readLine d (fieldChars field ++ rest) = some (e, rest) := by
  obtain ⟨key, x⟩ := field
  obtain ⟨first, more, hfirst, hbare⟩ := hkey.head
  have hopening : first ≠ '[' := by rintro rfl; cases hbare
  have hread : readKey (key.toList ++ ' ' :: '=' :: ' ' :: (x.chars ++ '\n' :: rest)) =
      some ([key], '=' :: ' ' :: (x.chars ++ '\n' :: rest)) :=
    readKey_bare hkey (by decide) rfl (by simp)
  have hchars : fieldChars (key, x) ++ rest =
      key.toList ++ ' ' :: '=' :: ' ' :: (x.chars ++ '\n' :: rest) := by
    simp [fieldChars]
  rw [hchars]
  rw [hfirst, List.cons_append] at hread ⊢
  rw [readLine, skipBlanks_of_not_isBlank (not_isBlank_of_isBare hbare)]
  split
  next h => exact absurd (List.cons.inj h).1 hopening
  next h => exact absurd (List.cons.inj h).1 hopening
  next =>
    simp [finishLine_bare hbare, hread, hassign, expect, skipBlanks_space, skipBlanks_scalar,
      readValue_scalar, finishLine_newline]

/-! ## Members -/

namespace Members

def keys (members : Members) : List String := members.map (·.1)

theorem alter_of_not_mem {key : String} {before : Members} (h : key ∉ before.keys)
    (f : Option Value → Option Value) (after : Members) :
    alter key f (before ++ after) = (alter key f after).map (before ++ ·) := by
  induction before with
  | nil => simp
  | cons member before ih =>
      rw [keys, List.map_cons, List.mem_cons, not_or] at h
      rw [List.cons_append, alter, if_neg (Ne.symm h.1), ih h.2, Option.map_map]
      rfl

theorem alter_new {key : String} {members : Members} (h : key ∉ members.keys)
    (f : Option Value → Option Value) :
    members.alter key f = (f none).map fun v => members ++ [(key, v)] := by
  have halter := alter_of_not_mem h f []
  rw [List.append_nil] at halter
  rw [halter, alter, Option.map_map]
  rfl

theorem alter_last {key : String} {before : Members} (h : key ∉ before.keys)
    (f : Option Value → Option Value) (v : Value) :
    alter key f (before ++ [(key, v)]) = (f (some v)).map fun v => before ++ [(key, v)] := by
  rw [alter_of_not_mem h, alter, if_pos rfl, Option.map_map]
  rfl

end Members

namespace Draft

/-- A draft within a section, the last one so far. -/
def within (before : Members) (name : String) (fields : Members) : Draft :=
  ⟨before ++ [(name, .table .header fields)], [name]⟩

theorem openTable_new {before : Members} {name : String} (h : name ∉ before.keys)
    (current : List String) :
    (Draft.mk before current).openTable [name] = some (within before name []) := by
  show (before.alter name _).bind _ = _
  rw [Members.alter_new h]
  rfl

theorem assign_new {before fields : Members} {name key : String} (hname : name ∉ before.keys)
    (hkey : key ∉ fields.keys) (v : Value) :
    (within before name fields).assign [key] v =
      some (within before name (fields ++ [(key, v)])) := by
  show (Members.alter name _ (before ++ [(name, .table .header fields)])).bind _ = _
  rw [Members.alter_last hname]
  simp only [Members.within, Members.assign, Members.alter_new hkey]
  rfl

/-! ## Lines in a row -/

/-- The lines of a text lead from one draft to another, whatever follows the text. -/
inductive Reads : Draft → List Char → Draft → Prop
  | nil (d : Draft) : Reads d [] d
  | cons {d e f : Draft} {line text : List Char} (hne : line ≠ [])
      (hline : ∀ rest, readLine d (line ++ rest) = some (e, rest)) (htext : Reads e text f) :
      Reads d (line ++ text) f

theorem Reads.append {d e f : Draft} {text more : List Char} (htext : Reads d text e)
    (hmore : Reads e more f) : Reads d (text ++ more) f := by
  induction htext with
  | nil => exact hmore
  | cons hne hline _ ih =>
      rw [List.append_assoc]
      exact .cons hne hline (ih hmore)

theorem Reads.readLines {d e : Draft} {text : List Char} (h : Reads d text e) {n : Nat}
    (hn : text.length ≤ n) : readLines n d text = some e.root := by
  induction h generalizing n with
  | nil => cases n <;> rfl
  | @cons d e f line text hne hline _ ih =>
      have hpos : 0 < line.length := List.length_pos_iff.2 hne
      rw [List.length_append] at hn
      obtain ⟨m, rfl⟩ : ∃ m, n = m + 1 := ⟨n - 1, by omega⟩
      rw [Toml.readLines, hline]
      · exact ih (by omega)
      · simp [hne]

end Draft

/-! ## Sections in a row -/

structure Section.WellFormed (s : Section) : Prop where
  name : IsBareName s.name
  keys : ∀ key ∈ s.fields.map (·.1), IsBareName key
  nodup : (s.fields.map (·.1)).Nodup

theorem keys_fieldMember (fields : List (String × Scalar)) :
    Members.keys (fields.map fieldMember) = fields.map (·.1) := by
  rw [Members.keys, List.map_map]
  rfl

theorem reads_fields {before : Members} {name : String} (hname : name ∉ before.keys)
    (done : List (String × Scalar)) {fields : List (String × Scalar)}
    (hkeys : ∀ key ∈ fields.map (·.1), IsBareName key)
    (hnodup : ((done ++ fields).map (·.1)).Nodup) :
    (Draft.within before name (done.map fieldMember)).Reads (fields.flatMap fieldChars)
      (.within before name ((done ++ fields).map fieldMember)) := by
  induction fields generalizing done with
  | nil =>
      rw [List.append_nil]
      exact .nil _
  | cons field fields ih =>
      have hnew : field.1 ∉ Members.keys (done.map fieldMember) := by
        rw [keys_fieldMember]
        rw [List.map_append, List.nodup_append] at hnodup
        intro hmem
        exact hnodup.2.2 _ hmem _ (by simp) rfl
      have hassign := Draft.assign_new hname hnew field.2.value
      have hmove : done ++ field :: fields = done ++ [field] ++ fields := by simp
      have hrest := ih (done ++ [field])
        (fun key h => hkeys key (List.mem_cons_of_mem _ h)) (by rwa [← hmove])
      rw [List.map_append] at hrest
      rw [hmove, List.flatMap_cons]
      exact .cons (by simp [fieldChars]) (readLine_field (hkeys field.1 (by simp)) hassign) hrest

theorem reads_section {d : Draft} {s : Section} (hs : s.WellFormed)
    (hname : s.name ∉ d.root.keys) :
    ∃ current, d.Reads s.chars ⟨d.root ++ [s.member], current⟩ := by
  have hopen := Draft.openTable_new hname d.current
  have hfields := reads_fields hname [] hs.keys hs.nodup
  have hchars : s.chars = '[' :: (s.name.toList ++ [']', '\n']) ++ s.fields.flatMap fieldChars := by
    simp [Section.chars]
  refine ⟨[s.name], ?_⟩
  rw [hchars]
  refine .cons (by simp) (fun rest => ?_) hfields
  rw [List.cons_append, List.append_assoc]
  exact readLine_header hs.name hopen rest

theorem reads_sections {d : Draft} {sections : List Section}
    (hsections : ∀ s ∈ sections, s.WellFormed)
    (hnodup : (d.root.keys ++ sections.map (·.name)).Nodup) :
    ∃ current, d.Reads (sections.flatMap fun s => '\n' :: s.chars)
      ⟨d.root ++ sections.map Section.member, current⟩ := by
  induction sections generalizing d with
  | nil => exact ⟨d.current, by simpa using .nil d⟩
  | cons s sections ih =>
      have hname : s.name ∉ d.root.keys := by
        intro hmem
        exact (List.nodup_append.1 hnodup).2.2 _ hmem _ (by simp) rfl
      obtain ⟨opened, hfirst⟩ := reads_section (hsections s (by simp)) hname
      obtain ⟨current, hrest⟩ := ih (d := ⟨d.root ++ [s.member], opened⟩)
        (fun other h => hsections other (List.mem_cons_of_mem _ h))
        (by simpa [Members.keys, Section.member] using hnodup)
      have hblank : d.Reads (['\n'] ++ s.chars) _ :=
        .cons (List.cons_ne_nil _ _) (readLine_blank d) hfirst
      exact ⟨current, by simpa using hblank.append hrest⟩

/-- Sections with an empty line between them. -/
def documentChars : List Section → List Char
  | [] => []
  | s :: sections => s.chars ++ sections.flatMap fun s => '\n' :: s.chars

theorem reads_document {sections : List Section} (hsections : ∀ s ∈ sections, s.WellFormed)
    (hnodup : (sections.map (·.name)).Nodup) :
    ∃ current, Draft.start.Reads (documentChars sections)
      ⟨sections.map Section.member, current⟩ := by
  cases sections with
  | nil => exact ⟨[], .nil _⟩
  | cons s sections =>
      obtain ⟨opened, hfirst⟩ := reads_section (d := Draft.start) (hsections s (by simp))
        List.not_mem_nil
      obtain ⟨current, hrest⟩ := reads_sections (d := ⟨[s.member], opened⟩)
        (fun other h => hsections other (List.mem_cons_of_mem _ h)) hnodup
      exact ⟨current, hfirst.append hrest⟩

theorem skipMark_document (sections : List Section) :
    skipMark (documentChars sections) = documentChars sections := by
  cases sections with
  | nil => rfl
  | cons s sections => rfl

/-- A document of well-formed sections with distinct names is read as their tables. -/
theorem read?_document {sections : List Section} (hsections : ∀ s ∈ sections, s.WellFormed)
    (hnodup : (sections.map (·.name)).Nodup) :
    read? (String.ofList (documentChars sections)) = some (sections.map Section.member) := by
  obtain ⟨current, hreads⟩ := reads_document hsections hnodup
  rw [read?, String.toList_ofList, skipMark_document]
  exact hreads.readLines (by omega)

end PeerWatch.Toml
