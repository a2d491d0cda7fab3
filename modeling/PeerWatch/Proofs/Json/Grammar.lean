import PeerWatch.Proofs.Json.Written

/-!
# The grammar of JSON texts

What a tree may be written as, said without a reader: the tokens of its numbers and strings, the
marks of its arrays and objects, and blanks around the values and keys between those marks. The
reader of JSON texts takes exactly the texts of this grammar, each for its tree, however deep they
are nested.
-/

namespace PeerWatch.Json

/-- A part of a JSON text. -/
inductive Phrase
  | value (tree : Raw)
  /-- A value with blanks around it. -/
  | padded (tree : Raw)
  /-- The items of an array, at least one. -/
  | items (trees : List Raw)
  /-- The members of an object, at least one. -/
  | members (trees : List (List Unit16 × Raw))

/-- What a phrase may be written as. -/
inductive Phrase.Form : Phrase → List Char → Prop
  | nullWord : Form (.value .null) ['n', 'u', 'l', 'l']
  | trueWord : Form (.value (.bool true)) ['t', 'r', 'u', 'e']
  | falseWord : Form (.value (.bool false)) ['f', 'a', 'l', 's', 'e']
  | number {t : NumberText} {text : List Char} (h : t.Form text) : Form (.value (.number t)) text
  | string {units : List Unit16} {text : List Char} (h : UnitsText units text) :
    Form (.value (.string units)) ('"' :: (text ++ ['"']))
  | emptyArray {gap : List Char} (h : Blank gap) : Form (.value (.array [])) ('[' :: (gap ++ [']']))
  | array {trees : List Raw} {text : List Char} (h : Form (.items trees) text) :
    Form (.value (.array trees)) ('[' :: (text ++ [']']))
  | emptyObject {gap : List Char} (h : Blank gap) :
    Form (.value (.object [])) ('\x7b' :: (gap ++ ['\x7d']))
  | object {trees : List (List Unit16 × Raw)} {text : List Char} (h : Form (.members trees) text) :
    Form (.value (.object trees)) ('\x7b' :: (text ++ ['\x7d']))
  | padded {tree : Raw} {before text after : List Char} (hbefore : Blank before)
    (hafter : Blank after) (h : Form (.value tree) text) :
    Form (.padded tree) (before ++ (text ++ after))
  | lastItem {tree : Raw} {text : List Char} (h : Form (.padded tree) text) :
    Form (.items [tree]) text
  | item {tree : Raw} {trees : List Raw} {text rest : List Char} (h : Form (.padded tree) text)
    (hrest : Form (.items trees) rest) : Form (.items (tree :: trees)) (text ++ ',' :: rest)
  | lastMember {key : List Unit16} {tree : Raw} {before name after text : List Char}
    (hbefore : Blank before) (hname : UnitsText key name) (hafter : Blank after)
    (h : Form (.padded tree) text) :
    Form (.members [(key, tree)]) (before ++ '"' :: (name ++ '"' :: (after ++ ':' :: text)))
  | member {key : List Unit16} {tree : Raw} {trees : List (List Unit16 × Raw)}
    {before name after text rest : List Char} (hbefore : Blank before) (hname : UnitsText key name)
    (hafter : Blank after) (h : Form (.padded tree) text) (hrest : Form (.members trees) rest) :
    Form (.members ((key, tree) :: trees))
      (before ++ '"' :: (name ++ '"' :: (after ++ ':' :: (text ++ ',' :: rest))))

/-- A JSON text that holds a tree. -/
def Document (tree : Raw) (text : List Char) : Prop := (Phrase.padded tree).Form text

/-! ## What is read has the form -/

/-- What is taken for a value within `n` levels is written as one, behind blanks. -/
def ValueSound (n : Nat) : Prop :=
  ∀ ⦃cs rest : List Char⦄ ⦃tree : Raw⦄, readValue n cs = some (tree, rest) →
    ∃ gap text, Blank gap ∧ (Phrase.value tree).Form text ∧ cs = gap ++ (text ++ rest)

def ItemsSound (n : Nat) : Prop :=
  ∀ ⦃cs rest : List Char⦄ ⦃trees : List Raw⦄, readItems n cs = some (trees, rest) →
    ∃ text, (Phrase.items trees).Form text ∧ cs = text ++ ']' :: rest

def MembersSound (n : Nat) : Prop :=
  ∀ ⦃cs rest : List Char⦄ ⦃trees : List (List Unit16 × Raw)⦄,
    readMembers n cs = some (trees, rest) →
      ∃ text, (Phrase.members trees).Form text ∧ cs = text ++ '\x7d' :: rest

variable {n : Nat}

theorem exists_gap_of_skipSpace {cs rest : List Char} (h : skipSpace cs = rest) :
    ∃ gap, Blank gap ∧ cs = gap ++ rest := by
  obtain ⟨gap, hgap, hcs⟩ := exists_gap cs
  exact ⟨gap, hgap, h ▸ hcs⟩

theorem valueSound_succ (hitems : ItemsSound n) (hmembers : MembersSound n) :
    ValueSound (n + 1) := by
  intro cs rest tree h
  suffices hform : ∃ text, (Phrase.value tree).Form text ∧ skipSpace cs = text ++ rest by
    obtain ⟨text, htext, hskip⟩ := hform
    obtain ⟨gap, hgap, hcs⟩ := exists_gap_of_skipSpace hskip
    exact ⟨gap, text, hgap, htext, hcs⟩
  rw [readValue] at h
  split at h
  · next hskip =>
    cases h
    exact ⟨_, .nullWord, hskip⟩
  · next hskip =>
    cases h
    exact ⟨_, .trueWord, hskip⟩
  · next hskip =>
    cases h
    exact ⟨_, .falseWord, hskip⟩
  · next behind hskip =>
    obtain ⟨⟨units, after⟩, hread, heq⟩ := Option.map_eq_some_iff.1 h
    cases heq
    obtain ⟨text, htext, rfl⟩ := unitsText_of_readUnits hread
    exact ⟨_, .string htext, by simp [hskip]⟩
  · next behind hskip =>
    split at h
    · next after hclose =>
      cases h
      obtain ⟨gap, hgap, rfl⟩ := exists_gap_of_skipSpace hclose
      exact ⟨_, .emptyArray hgap, by simp [hskip]⟩
    · obtain ⟨⟨trees, after⟩, hread, heq⟩ := Option.map_eq_some_iff.1 h
      cases heq
      obtain ⟨text, htext, rfl⟩ := hitems hread
      exact ⟨_, .array htext, by simp [hskip]⟩
  · next behind hskip =>
    split at h
    · next after hclose =>
      cases h
      obtain ⟨gap, hgap, rfl⟩ := exists_gap_of_skipSpace hclose
      exact ⟨_, .emptyObject hgap, by simp [hskip]⟩
    · obtain ⟨⟨trees, after⟩, hread, heq⟩ := Option.map_eq_some_iff.1 h
      cases heq
      obtain ⟨text, htext, rfl⟩ := hmembers hread
      exact ⟨_, .object htext, by simp [hskip]⟩
  · obtain ⟨⟨t, after⟩, hread, heq⟩ := Option.map_eq_some_iff.1 h
    cases heq
    obtain ⟨text, htext, hskip⟩ := form_of_readNumber hread
    exact ⟨_, .number htext, hskip⟩

theorem itemsSound_succ (hvalue : ValueSound n) (hitems : ItemsSound n) : ItemsSound (n + 1) := by
  intro cs rest trees h
  rw [readItems] at h
  split at h
  · cases h
  · next tree behind hread =>
    obtain ⟨before, text, hbefore, htext, rfl⟩ := hvalue hread
    split at h
    · next more hskip =>
      obtain ⟨⟨others, last⟩, hmore, heq⟩ := Option.map_eq_some_iff.1 h
      cases heq
      obtain ⟨after, hafter, rfl⟩ := exists_gap_of_skipSpace hskip
      obtain ⟨others, hothers, rfl⟩ := hitems hmore
      exact ⟨_, .item (.padded hbefore hafter htext) hothers, by simp⟩
    · next hskip =>
      cases h
      obtain ⟨after, hafter, rfl⟩ := exists_gap_of_skipSpace hskip
      exact ⟨_, .lastItem (.padded hbefore hafter htext), by simp⟩
    · cases h

theorem membersSound_succ (hvalue : ValueSound n) (hmembers : MembersSound n) :
    MembersSound (n + 1) := by
  intro cs rest trees h
  rw [readMembers] at h
  split at h
  · next named hquote =>
    obtain ⟨before, hbefore, rfl⟩ := exists_gap_of_skipSpace hquote
    split at h
    · cases h
    · next key marked hname =>
      obtain ⟨name, hnameText, rfl⟩ := unitsText_of_readUnits hname
      split at h
      · next behind hcolon =>
        obtain ⟨gap, hgap, rfl⟩ := exists_gap_of_skipSpace hcolon
        split at h
        · cases h
        · next tree ended hread =>
          obtain ⟨front, text, hfront, htext, rfl⟩ := hvalue hread
          split at h
          · next more hskip =>
            obtain ⟨⟨others, last⟩, hmore, heq⟩ := Option.map_eq_some_iff.1 h
            cases heq
            obtain ⟨after, hafter, rfl⟩ := exists_gap_of_skipSpace hskip
            obtain ⟨others, hothers, rfl⟩ := hmembers hmore
            have hpadded := Phrase.Form.padded hfront hafter htext
            exact ⟨_, .member hbefore hnameText hgap hpadded hothers, by simp⟩
          · next hskip =>
            cases h
            obtain ⟨after, hafter, rfl⟩ := exists_gap_of_skipSpace hskip
            have hpadded := Phrase.Form.padded hfront hafter htext
            exact ⟨_, .lastMember hbefore hnameText hgap hpadded, by simp⟩
          · cases h
      · cases h
  · cases h

theorem reading_sound (n : Nat) : ValueSound n ∧ ItemsSound n ∧ MembersSound n := by
  -- the three readings call one another, each with one level less
  induction n with
  | zero =>
      refine ⟨fun cs rest tree h => ?_, fun cs rest trees h => ?_, fun cs rest trees h => ?_⟩
      · cases h
      · cases h
      · cases h
  | succ n ih =>
      obtain ⟨hvalue, hitems, hmembers⟩ := ih
      exact ⟨valueSound_succ hitems hmembers, itemsSound_succ hvalue hitems,
        membersSound_succ hvalue hmembers⟩

/-! ## What has the form is read -/

theorem readValue_append_of_blank {gap : List Char} (h : Blank gap) (n : Nat) (cs : List Char) :
    readValue n (gap ++ cs) = readValue n cs := by
  cases n with
  | zero => rfl
  | succ n => rw [readValue, readValue, skipSpace_append h]

theorem endsNumber_append_of_blank {gap rest : List Char} (h : Blank gap)
    (hrest : EndsNumber rest) : EndsNumber (gap ++ rest) := by
  cases gap with
  | nil => exact hrest
  | cons c gap =>
      have hspace : ((c = ' ' ∨ c = '\t') ∨ c = '\n') ∨ c = '\r' := by
        simpa [isSpace] using h c List.mem_cons_self
      refine endsNumber_cons ?_ _
      rcases hspace with ((rfl | rfl) | rfl) | rfl <;> decide

theorem Phrase.Form.value_begins {tree : Raw} {text : List Char}
    (h : (Phrase.value tree).Form text) :
    ∃ c tail, text = c :: tail ∧ isSpace c = false ∧ c ≠ ']' := by
  cases h with
  | nullWord => exact ⟨_, _, rfl, by decide⟩
  | trueWord => exact ⟨_, _, rfl, by decide⟩
  | falseWord => exact ⟨_, _, rfl, by decide⟩
  | number h =>
      obtain ⟨c, tail, rfl, hc⟩ := h.begins
      refine ⟨c, tail, rfl, ?_⟩
      rcases hc with rfl | hc
      · decide
      · have hne : ∀ d, d.isDigit = false → c ≠ d := fun d hd => ne_of_isDigit hc hd
        exact ⟨by simp [isSpace, hne ' ' rfl, hne '\t' rfl, hne '\n' rfl, hne '\r' rfl],
          hne ']' rfl⟩
  | string h => exact ⟨_, _, rfl, by decide⟩
  | emptyArray h => exact ⟨_, _, rfl, by decide⟩
  | array h => exact ⟨_, _, rfl, by decide⟩
  | emptyObject h => exact ⟨_, _, rfl, by decide⟩
  | object h => exact ⟨_, _, rfl, by decide⟩

/-- Behind its blanks a text does not begin with a mark, whatever stands behind it. -/
def OpensWithout (mark : Char) (text : List Char) : Prop :=
  ∀ rest tail, skipSpace (text ++ rest) ≠ mark :: tail

theorem OpensWithout.append {mark : Char} {text : List Char} (h : OpensWithout mark text)
    (more : List Char) : OpensWithout mark (text ++ more) := by
  intro rest tail
  rw [List.append_assoc]
  exact h (more ++ rest) tail

theorem opensWithout_of_begins {mark c : Char} {before tail : List Char} (hbefore : Blank before)
    (hspace : isSpace c = false) (hc : c ≠ mark) : OpensWithout mark (before ++ c :: tail) := by
  intro rest tail' h
  rw [List.append_assoc, skipSpace_append hbefore, List.cons_append, skipSpace,
    List.dropWhile_cons_of_neg (by simp [hspace])] at h
  exact hc (List.cons.inj h).1

theorem Phrase.Form.padded_opens {tree : Raw} {text : List Char}
    (h : (Phrase.padded tree).Form text) : OpensWithout ']' text := by
  cases h with
  | padded hbefore hafter h =>
      obtain ⟨c, tail, rfl, hspace, hc⟩ := h.value_begins
      exact opensWithout_of_begins hbefore hspace hc

theorem Phrase.Form.items_open {trees : List Raw} {text : List Char}
    (h : (Phrase.items trees).Form text) : OpensWithout ']' text := by
  cases h with
  | lastItem h => exact h.padded_opens
  | item h hrest => exact h.padded_opens.append _

theorem Phrase.Form.members_open {trees : List (List Unit16 × Raw)} {text : List Char}
    (h : (Phrase.members trees).Form text) : OpensWithout '\x7d' text := by
  cases h with
  | lastMember hbefore => exact opensWithout_of_begins hbefore rfl (by decide)
  | member hbefore => exact opensWithout_of_begins hbefore rfl (by decide)

/-- How the reader takes a phrase, whatever stands behind it. What is read as a value leaves the
blanks behind it to the next mark. -/
def Phrase.Read : Phrase → List Char → Prop
  | .value tree, text => Reads text tree
  | .padded tree, text => ∀ n rest, text.length ≤ n → EndsNumber rest →
      ∃ after, Blank after ∧ readValue n (text ++ rest) = some (tree, after ++ rest)
  | .items trees, text => ∀ n rest, text.length < n →
      readItems n (text ++ ']' :: rest) = some (trees, rest)
  | .members trees, text => ∀ n rest, text.length < n →
      readMembers n (text ++ '\x7d' :: rest) = some (trees, rest)

theorem readValue_emptyArray {cs rest : List Char} (h : skipSpace cs = ']' :: rest) (n : Nat) :
    readValue (n + 1) ('[' :: cs) = some (.array [], rest) := by
  have hmark : skipSpace ('[' :: cs) = '[' :: cs := rfl
  rw [readValue, hmark]
  simp only [h]

theorem readValue_array {cs : List Char} (h : ∀ rest, skipSpace cs ≠ ']' :: rest) (n : Nat) :
    readValue (n + 1) ('[' :: cs) = (readItems n cs).map fun r => (.array r.1, r.2) := by
  have hmark : skipSpace ('[' :: cs) = '[' :: cs := rfl
  rw [readValue, hmark]
  -- by `h` the array is not empty
  simp only

theorem readValue_emptyObject {cs rest : List Char} (h : skipSpace cs = '\x7d' :: rest) (n : Nat) :
    readValue (n + 1) ('\x7b' :: cs) = some (.object [], rest) := by
  have hmark : skipSpace ('\x7b' :: cs) = '\x7b' :: cs := rfl
  rw [readValue, hmark]
  simp only [h]

theorem readValue_object {cs : List Char} (h : ∀ rest, skipSpace cs ≠ '\x7d' :: rest) (n : Nat) :
    readValue (n + 1) ('\x7b' :: cs) = (readMembers n cs).map fun r => (.object r.1, r.2) := by
  have hmark : skipSpace ('\x7b' :: cs) = '\x7b' :: cs := rfl
  rw [readValue, hmark]
  -- by `h` the object is not empty
  simp only

theorem reads_emptyArray {gap : List Char} (h : Blank gap) :
    Reads ('[' :: (gap ++ [']'])) (.array []) := by
  refine reads_succ (List.cons_ne_nil _ _) fun n rest _ _ => ?_
  rw [List.cons_append, List.append_assoc]
  exact readValue_emptyArray (skipSpace_append h _) n

theorem reads_array {trees : List Raw} {text : List Char} (hopens : OpensWithout ']' text)
    (h : (Phrase.items trees).Read text) : Reads ('[' :: (text ++ [']'])) (.array trees) := by
  refine reads_succ (List.cons_ne_nil _ _) fun n rest hn _ => ?_
  simp only [List.length_cons, List.length_append] at hn
  have hread := h n rest (by omega)
  rw [List.cons_append, List.append_assoc, List.singleton_append, readValue_array (hopens _), hread]
  rfl

theorem reads_emptyObject {gap : List Char} (h : Blank gap) :
    Reads ('\x7b' :: (gap ++ ['\x7d'])) (.object []) := by
  refine reads_succ (List.cons_ne_nil _ _) fun n rest _ _ => ?_
  rw [List.cons_append, List.append_assoc]
  exact readValue_emptyObject (skipSpace_append h _) n

theorem reads_members {trees : List (List Unit16 × Raw)} {text : List Char}
    (hopens : OpensWithout '\x7d' text) (h : (Phrase.members trees).Read text) :
    Reads ('\x7b' :: (text ++ ['\x7d'])) (.object trees) := by
  refine reads_succ (List.cons_ne_nil _ _) fun n rest hn _ => ?_
  simp only [List.length_cons, List.length_append] at hn
  have hread := h n rest (by omega)
  rw [List.cons_append, List.append_assoc, List.singleton_append, readValue_object (hopens _),
    hread]
  rfl

theorem read_padded {tree : Raw} {before text after : List Char} (hbefore : Blank before)
    (hafter : Blank after) (h : Reads text tree) :
    (Phrase.padded tree).Read (before ++ (text ++ after)) := by
  intro n rest hn hrest
  simp only [List.length_append] at hn
  refine ⟨after, hafter, ?_⟩
  rw [List.append_assoc, readValue_append_of_blank hbefore, List.append_assoc]
  exact h n _ (by omega) (endsNumber_append_of_blank hafter hrest)

theorem read_lastItem {tree : Raw} {text : List Char} (h : (Phrase.padded tree).Read text) :
    (Phrase.items [tree]).Read text := by
  intro n rest hn
  obtain ⟨n, rfl⟩ := Nat.exists_eq_add_of_le' (Nat.lt_of_le_of_lt (Nat.zero_le _) hn)
  obtain ⟨after, hafter, hread⟩ := h n (']' :: rest) (by omega) (endsNumber_cons (by decide) rest)
  have hskip : skipSpace (after ++ ']' :: rest) = ']' :: rest := skipSpace_append hafter _
  rw [readItems, hread]
  simp only [hskip]

theorem read_item {tree : Raw} {trees : List Raw} {text rest : List Char}
    (h : (Phrase.padded tree).Read text) (hrest : (Phrase.items trees).Read rest) :
    (Phrase.items (tree :: trees)).Read (text ++ ',' :: rest) := by
  intro n behind hn
  obtain ⟨n, rfl⟩ := Nat.exists_eq_add_of_le' (Nat.lt_of_le_of_lt (Nat.zero_le _) hn)
  simp only [List.length_append, List.length_cons] at hn
  obtain ⟨after, hafter, hread⟩ := h n (',' :: (rest ++ ']' :: behind)) (by omega)
    (endsNumber_cons (by decide) _)
  have hskip : skipSpace (after ++ ',' :: (rest ++ ']' :: behind)) =
      ',' :: (rest ++ ']' :: behind) := skipSpace_append hafter _
  have hmore := hrest n behind (by omega)
  rw [List.append_assoc, List.cons_append, readItems, hread]
  simp only [hskip, hmore, Option.map_some]

section Member

variable {key : List Unit16} {tree : Raw} {before name after text : List Char}

theorem read_lastMember (hbefore : Blank before) (hname : UnitsText key name) (hafter : Blank after)
    (h : (Phrase.padded tree).Read text) :
    (Phrase.members [(key, tree)]).Read
      (before ++ '"' :: (name ++ '"' :: (after ++ ':' :: text))) := by
  intro n rest hn
  obtain ⟨n, rfl⟩ := Nat.exists_eq_add_of_le' (Nat.lt_of_le_of_lt (Nat.zero_le _) hn)
  simp only [List.length_append, List.length_cons] at hn
  obtain ⟨gap, hgap, hread⟩ := h n ('\x7d' :: rest) (by omega) (endsNumber_cons (by decide) rest)
  simp only [List.append_assoc, List.cons_append]
  exact readMembers_last (skipSpace_append hbefore _) (readUnits_of_unitsText hname _)
    (skipSpace_append hafter _) hread (skipSpace_append hgap _)

theorem read_member {trees : List (List Unit16 × Raw)} {rest : List Char} (hbefore : Blank before)
    (hname : UnitsText key name) (hafter : Blank after) (h : (Phrase.padded tree).Read text)
    (hrest : (Phrase.members trees).Read rest) :
    (Phrase.members ((key, tree) :: trees)).Read
      (before ++ '"' :: (name ++ '"' :: (after ++ ':' :: (text ++ ',' :: rest)))) := by
  intro n behind hn
  obtain ⟨n, rfl⟩ := Nat.exists_eq_add_of_le' (Nat.lt_of_le_of_lt (Nat.zero_le _) hn)
  simp only [List.length_append, List.length_cons] at hn
  obtain ⟨gap, hgap, hread⟩ := h n (',' :: (rest ++ '\x7d' :: behind)) (by omega)
    (endsNumber_cons (by decide) _)
  have hmore := hrest n behind (by omega)
  simp only [List.append_assoc, List.cons_append]
  rw [readMembers_more (skipSpace_append hbefore _) (readUnits_of_unitsText hname _)
    (skipSpace_append hafter _) hread (skipSpace_append hgap _), hmore]
  rfl

end Member

/-- The reader takes every text of the grammar for its tree. The induction is on how the text is
formed. -/
theorem Phrase.Form.read {phrase : Phrase} {text : List Char} (h : phrase.Form text) :
    phrase.Read text := by
  induction h with
  | nullWord => exact reads_null
  | trueWord => exact reads_bool true
  | falseWord => exact reads_bool false
  | number h => exact reads_number h
  | string h => exact reads_units h
  | emptyArray h => exact reads_emptyArray h
  | array h ih => exact reads_array h.items_open ih
  | emptyObject h => exact reads_emptyObject h
  | object h ih => exact reads_members h.members_open ih
  | padded hbefore hafter _ ih => exact read_padded hbefore hafter ih
  | lastItem _ ih => exact read_lastItem ih
  | item _ _ ih ihrest => exact read_item ih ihrest
  | lastMember hbefore hname hafter _ ih => exact read_lastMember hbefore hname hafter ih
  | member hbefore hname hafter _ _ ih ihrest =>
      exact read_member hbefore hname hafter ih ihrest

/-! ## Whole texts -/

/-- The reader accepts exactly the JSON texts, each as the tree that it holds. -/
theorem read?_eq_some_iff {text : List Char} {tree : Raw} :
    Raw.read? text = some tree ↔ Document tree text := by
  constructor
  · intro h
    unfold Raw.read? at h
    split at h
    · next raw rest hread =>
      split at h
      · next hend =>
        cases h
        obtain ⟨hvalue, -, -⟩ := reading_sound (text.length + 1)
        obtain ⟨before, value, hbefore, hform, htext⟩ := hvalue hread
        obtain ⟨after, hafter, hrest⟩ := exists_gap rest
        rw [List.isEmpty_iff.1 hend, List.append_nil] at hrest
        rw [htext, hrest]
        exact .padded hbefore hafter hform
      · cases h
    · cases h
  · intro h
    obtain ⟨after, hafter, hread⟩ := h.read (text.length + 1) [] (by omega) (by simp [EndsNumber])
    have hend : skipSpace (after ++ []) = [] := skipSpace_append hafter []
    rw [List.append_nil] at hread
    rw [Raw.read?, hread]
    simp only [hend, List.isEmpty_nil, if_true]

/-- A JSON text holds one tree. -/
theorem Document.unique {text : List Char} {tree other : Raw} (h : Document tree text)
    (hother : Document other text) : tree = other :=
  Option.some.inj ((read?_eq_some_iff.2 h).symm.trans (read?_eq_some_iff.2 hother))

theorem isJson_iff {s : String} : isJson s = true ↔ ∃ tree, Document tree s.toList := by
  rw [isJson, Option.isSome_iff_exists]
  exact exists_congr fun _ => read?_eq_some_iff

end PeerWatch.Json
