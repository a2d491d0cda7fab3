import PeerWatch.Presence.Contact
import PeerWatch.Proofs.Json.Written

/-!
# Contact lists written and read

A contact list that is written as JSON, one member for each contact, is read back as it was: in its
order, with contacts of the same identifier as often as they occur, and with every field unchanged.
-/

namespace PeerWatch.Presence

open PeerWatch.Json (Raw Value Reads unitsOf digitsOf)

/-! ## The tree of a written list -/

def optionalTree : Option String → Raw
  | some s => .string (unitsOf s)
  | none => .null

theorem reads_optionalValue (s : Option String) :
    Reads (optionalValue s).write (optionalTree s) := by
  cases s with
  | none => exact Json.reads_null
  | some s => exact Json.reads_string s

namespace Contact

/-- The fields of a contact by their names, with the value that each is written as and its tree. -/
def fields (c : Contact) : List (String × Value × Raw) :=
  [("name", optionalValue c.name, optionalTree c.name),
    ("tracker", optionalValue c.tracker, optionalTree c.tracker),
    ("status", .string c.status, .string (unitsOf c.status)),
    ("messages", .number (.natural c.messages), .number (digitsOf c.messages)),
    ("prefix", .string c.path, .string (unitsOf c.path)),
    ("newmessages", .bool c.hasNew, .bool c.hasNew)]

def tree (c : Contact) : Raw := .object (c.fields.map fun f => (unitsOf f.1, f.2.2))

theorem reads_toValue (c : Contact) : Reads c.toValue.write c.tree := by
  have hfields : ∀ f ∈ c.fields, Reads f.2.1.write f.2.2 := by
    intro f hf
    simp only [fields, List.mem_cons, List.not_mem_nil, or_false] at hf
    rcases hf with rfl | rfl | rfl | rfl | rfl | rfl
    · exact reads_optionalValue c.name
    · exact reads_optionalValue c.tracker
    · exact Json.reads_string c.status
    · exact Json.reads_natural c.messages
    · exact Json.reads_string c.path
    · exact Json.reads_bool c.hasNew
  exact @Json.reads_object _ Prod.fst _ _ _ hfields

end Contact

/-- The trees of contacts by their identifiers. -/
def ContactList.members (list : ContactList) : List (List Json.Unit16 × Raw) :=
  list.contacts.map fun entry => (unitsOf entry.1, entry.2.tree)

theorem ContactList.reads_toValue (list : ContactList) :
    Reads list.toValue.write (.object [(unitsOf "contacts", .object list.members)]) := by
  have hcontacts : Reads (Value.object (list.contacts.map fun entry =>
      (entry.1, entry.2.toValue))).write (.object list.members) :=
    Json.reads_object fun entry _ => entry.2.reads_toValue
  exact @Json.reads_object Unit (fun _ => "contacts") _ _ [()] fun _ _ => hcontacts

/-! ## Reading the tree -/

theorem optionalText?_optionalTree (s : Option String) :
    (optionalTree s).optionalText? = some s := by
  cases s with
  | none => rfl
  | some s => rw [optionalTree, Raw.optionalText?, Json.textOfUnits_unitsOf, Option.map_some]

/-- Members whose keys are distinct fields of a record are all found. -/
theorem knownMembers?_of_known {names : List String} {found : List (String × Raw)}
    (hnames : ∀ f ∈ found, f.1 ∈ names) (hdistinct : (found.map Prod.fst).Nodup) :
    Json.knownMembers? names (found.map fun f => (unitsOf f.1, f.2)) = some found := by
  induction found with
  | nil => rfl
  | cons f found ih =>
      rw [List.map_cons, List.nodup_cons] at hdistinct
      have hrest := ih (fun g hg => hnames g (List.mem_cons_of_mem _ hg)) hdistinct.2
      have hnew : found.any (·.1 = f.1) = false := by
        rw [List.any_eq_false]
        intro g hg heq
        exact hdistinct.1 (List.mem_map.2 ⟨g, hg, by simpa using heq⟩)
      have hknown : f.1 ∈ names := hnames f List.mem_cons_self
      rw [List.map_cons, Json.knownMembers?, Json.textOfUnits_unitsOf, hrest]
      simp [hknown, hnew]

theorem Contact.ofRaw?_tree {c : Contact} (h : c.messages ≤ Json.maxHalfWord) {depth : Nat}
    (hdepth : depth ≠ 0) : Contact.ofRaw? depth c.tree = some c := by
  have hfound : c.tree.record? contactFields depth =
      some (c.fields.map fun f => (f.1, f.2.2)) := by
    have hknown := @knownMembers?_of_known contactFields (c.fields.map fun f => (f.1, f.2.2))
      (by simp [fields, contactFields]) (by simp [fields])
    rw [List.map_map] at hknown
    rw [tree, Raw.record?, if_neg hdepth]
    exact hknown
  have hmessages : (digitsOf c.messages).value? = some (.natural c.messages) :=
    Json.value?_digitsOf (Nat.le_trans h (by decide))
  have hcount : countOf (.number (.natural c.messages)) = c.messages := Nat.min_eq_left h
  rw [Contact.ofRaw?, hfound]
  simp only [fields, List.map_cons, List.map_nil, Json.fieldOr?]
  simp [List.find?, optionalText?_optionalTree, Raw.value?, Json.textOfUnits_unitsOf, hmessages,
    hcount, textOf, flagOf]

theorem contactsOfMembers?_members {list : ContactList} {depth : Nat} (hdepth : depth ≠ 0)
    (h : ∀ entry ∈ list.contacts, entry.2.messages ≤ Json.maxHalfWord) :
    contactsOfMembers? depth list.members = some list.contacts := by
  obtain ⟨contacts⟩ := list
  simp only [ContactList.members] at h ⊢
  induction contacts with
  | nil => rfl
  | cons entry contacts ih =>
      have hrest := ih fun other hother => h other (List.mem_cons_of_mem _ hother)
      have hcontact := Contact.ofRaw?_tree (h entry List.mem_cons_self) hdepth
      rw [List.map_cons, contactsOfMembers?, Json.textOfUnits_unitsOf, hcontact, hrest]
      rfl

/-! ## Round trip -/

/-- A contact list whose counts fit into 32 bits is read back from its text: the same contacts in
the same order, with repeated identifiers and whatever characters the texts consist of. -/
theorem report_reads_back (list : ContactList)
    (h : ∀ entry ∈ list.contacts, entry.2.messages ≤ Json.maxHalfWord) :
    ContactList.decode? list.encode = some (some list) := by
  have hread : Raw.read? list.encode.toList =
      some (.object [(unitsOf "contacts", .object list.members)]) := by
    rw [ContactList.encode, Value.compact, String.toList_ofList]
    exact list.reads_toValue.read?
  have hmembers : contactsOfRaw? (Json.maxDepth - 1) (.object list.members) =
      some list.contacts := by
    rw [contactsOfRaw?, if_neg (by decide)]
    exact contactsOfMembers?_members (by decide) h
  have hfound : (Raw.object [(unitsOf "contacts", .object list.members)]).record? ["contacts"]
      Json.maxDepth = some [("contacts", .object list.members)] := by
    rw [Raw.record?, if_neg (by decide)]
    exact @knownMembers?_of_known _ [("contacts", _)] (by simp) (by simp)
  rw [ContactList.decode?, Json.payload?, hread]
  simp only [ContactList.ofRaw?, hfound, Option.bind_eq_bind, Option.bind_some, Json.fieldOr?]
  simp [List.find?, hmembers]

/-- Two contacts of one identifier, with quotes, a control character and the largest count. -/
theorem report_reads_back_twins :
    let twins : ContactList := ⟨[
      ("z\"\x01", ⟨some "", none, "a\\\n", 4294967295, "/é/myself", true⟩),
      ("z\"\x01", ⟨none, some "\u2028", "", 0, "", false⟩)]⟩
    (∀ entry ∈ twins.contacts, entry.2.messages ≤ Json.maxHalfWord) ∧
      ContactList.decode? twins.encode = some (some twins) := by
  intro twins
  have hcounts : ∀ entry ∈ twins.contacts, entry.2.messages ≤ Json.maxHalfWord := by decide
  exact ⟨hcounts, report_reads_back twins hcounts⟩

end PeerWatch.Presence
