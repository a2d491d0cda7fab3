import PeerWatch.Directory.Listing

/-!
# Rows of a listing

Which values describe a resource is said field by field, without the order in which the fields are
read. A listing has one row for each element that describes a resource with a place, in the order of
the elements, and the others leave no trace: no element decides on the row of another.
-/

namespace PeerWatch.Directory

open PeerWatch.Json (Value member?)

/-! ## Resources field by field -/

/-- What a text field holds: a text, or nothing where it is missing. -/
def HoldsText (given : Option Value) (s : String) : Prop :=
  given = none ∧ s = "" ∨ given = some (.string s)

/-- What an optional text field holds: a text, or none where it is missing or `null`. -/
def HoldsOptional (given : Option Value) (s : Option String) : Prop :=
  (given = none ∨ given = some .null) ∧ s = none ∨ ∃ t, given = some (.string t) ∧ s = some t

namespace Resource

/-- What a value gives for a field of a resource: the member of an object by its name, the item of
an array by its place. -/
def given? : Value → String → Option Value
  | .object members, field => member? field members
  | .array items, field => items[fieldNames.idxOf field]?
  | _, _ => none

/-- What may be read as a resource at all: an object, or an array with no more items than there are
fields. -/
def IsShaped : Value → Prop
  | .object _ => True
  | .array items => items.length ≤ fieldNames.length
  | _ => False

/-- The resource has what is given for its fields. -/
structure HasFields (given : String → Option Value) (r : Resource) : Prop where
  name : HoldsText (given "name") r.name
  hash : HoldsOptional (given "hash") r.hash
  contact : HoldsOptional (given "contact") r.contact
  kind : ∃ tag, HoldsText (given "type") tag ∧ r.kind = ResourceKind.ofTag tag
  url : HoldsOptional (given "url") r.url

/-- The value describes the resource. -/
def Describes (v : Value) (r : Resource) : Prop := IsShaped v ∧ HasFields (given? v) r

/-! ## Reading what is described -/

def readText : Option Value → Except ResourceError String
  | none => .ok ""
  | some v => textOf v

def readOptional : Option Value → Except ResourceError (Option String)
  | none => .ok none
  | some v => optionalTextOf v

theorem textOf_eq_ok_iff {v : Value} {s : String} : textOf v = .ok s ↔ v = .string s := by
  cases v <;> simp [textOf]

theorem readText_eq_ok_iff {given : Option Value} {s : String} :
    readText given = .ok s ↔ HoldsText given s := by
  cases given with
  | none => simp [readText, HoldsText, eq_comm]
  | some v => simp [readText, HoldsText, textOf_eq_ok_iff]

theorem readOptional_eq_ok_iff {given : Option Value} {s : Option String} :
    readOptional given = .ok s ↔ HoldsOptional given s := by
  cases given with
  | none => simp [readOptional, HoldsOptional, eq_comm]
  | some v =>
      cases v <;>
        simp [readOptional, HoldsOptional, optionalTextOf, textOf, Except.map, eq_comm]

/-- Reads a field into a resource, if it is there. -/
def setGiven (given : String → Option Value) (r : Resource) (field : String) :
    Except ResourceError Resource :=
  match given field with
  | none => pure r
  | some v => r.setField field v

/-! A field that was not read yet takes what is read for it. -/

section SetGiven

variable (given : String → Option Value) (name : String) (hash contact url : Option String)
  (kind : ResourceKind)

theorem setGiven_name : setGiven given ⟨"", hash, contact, kind, url⟩ "name" =
    (readText (given "name")).map fun s => ⟨s, hash, contact, kind, url⟩ := by
  unfold setGiven
  cases given "name" <;> rfl

theorem setGiven_hash : setGiven given ⟨name, none, contact, kind, url⟩ "hash" =
    (readOptional (given "hash")).map fun s => ⟨name, s, contact, kind, url⟩ := by
  unfold setGiven
  cases given "hash" <;> rfl

theorem setGiven_contact : setGiven given ⟨name, hash, none, kind, url⟩ "contact" =
    (readOptional (given "contact")).map fun s => ⟨name, hash, s, kind, url⟩ := by
  unfold setGiven
  cases given "contact" <;> rfl

theorem setGiven_type : setGiven given ⟨name, hash, contact, .unknown, url⟩ "type" =
    (readText (given "type")).map fun s => ⟨name, hash, contact, .ofTag s, url⟩ := by
  unfold setGiven
  cases given "type" <;> rfl

theorem setGiven_url : setGiven given ⟨name, hash, contact, kind, none⟩ "url" =
    (readOptional (given "url")).map fun s => ⟨name, hash, contact, kind, s⟩ := by
  unfold setGiven
  cases given "url" <;> rfl

end SetGiven

theorem setFields_fieldsOf (members : List (String × Value)) :
    blank.setFields (fieldsOf members) =
      ["contact", "hash", "name", "type", "url"].foldlM (setGiven (member? · members)) blank := by
  rw [setFields, fieldsOf, List.foldlM_filterMap]
  refine congrArg (fun f => List.foldlM f blank _) ?_
  funext r field
  dsimp only [setGiven]
  cases member? field members <;> rfl

theorem setFields_zip (items : List Value) :
    blank.setFields (fieldNames.zip items) =
      fieldNames.foldlM (setGiven (given? (.array items))) blank := by
  have hname : given? (.array items) "name" = items[0]? := rfl
  have hhash : given? (.array items) "hash" = items[1]? := rfl
  have hcontact : given? (.array items) "contact" = items[2]? := rfl
  have htype : given? (.array items) "type" = items[3]? := rfl
  have hurl : given? (.array items) "url" = items[4]? := rfl
  rcases items with _ | ⟨a, _ | ⟨b, _ | ⟨c, _ | ⟨d, _ | ⟨e, rest⟩⟩⟩⟩⟩ <;>
    simp [setFields, fieldNames, setGiven, hname, hhash, hcontact, htype, hurl]

theorem bind_map_eq_ok_iff {α β γ : Type} {x : Except ResourceError α} {f : α → β}
    {g : β → Except ResourceError γ} {c : γ} :
    (x.map f >>= g) = .ok c ↔ ∃ a, x = .ok a ∧ g (f a) = .ok c := by
  cases x with
  | error e => simp [Except.map, bind, Except.bind]
  | ok a => simp [Except.map, bind, Except.bind]

/-- In whichever of the two orders the fields are read, what is read has what is given for them. -/
theorem readAll_eq_ok_iff {given : String → Option Value} {order : List String} {r : Resource}
    (h : order = ["contact", "hash", "name", "type", "url"] ∨ order = fieldNames) :
    order.foldlM (setGiven given) blank = .ok r ↔ HasFields given r := by
  rcases h with rfl | rfl <;>
    simp only [fieldNames, List.foldlM_cons, List.foldlM_nil, blank, setGiven_contact,
      setGiven_hash, setGiven_name, setGiven_type, setGiven_url, bind_map_eq_ok_iff,
      readText_eq_ok_iff, readOptional_eq_ok_iff]
  · constructor
    · rintro ⟨contact, hcontact, hash, hhash, name, hname, tag, htag, url, hurl, hr⟩
      cases hr
      exact ⟨hname, hhash, hcontact, ⟨tag, htag, rfl⟩, hurl⟩
    · rintro ⟨hname, hhash, hcontact, ⟨tag, htag, hkind⟩, hurl⟩
      exact ⟨_, hcontact, _, hhash, _, hname, _, htag, _, hurl, hkind ▸ rfl⟩
  · constructor
    · rintro ⟨name, hname, hash, hhash, contact, hcontact, tag, htag, url, hurl, hr⟩
      cases hr
      exact ⟨hname, hhash, hcontact, ⟨tag, htag, rfl⟩, hurl⟩
    · rintro ⟨hname, hhash, hcontact, ⟨tag, htag, hkind⟩, hurl⟩
      exact ⟨_, hname, _, hhash, _, hcontact, _, htag, _, hurl, hkind ▸ rfl⟩

/-- A value is read as a resource just where it describes it. -/
theorem ofValue?_eq_ok_iff {v : Value} {r : Resource} : ofValue? v = .ok r ↔ Describes v r := by
  unfold Describes
  cases v with
  | object members =>
      rw [ofValue?, setFields_fieldsOf, readAll_eq_ok_iff (.inl rfl)]
      exact (and_iff_right trivial).symm
  | array items =>
      rw [ofValue?, setFields_zip, ← readAll_eq_ok_iff (.inr rfl)]
      cases fieldNames.foldlM (setGiven (given? (.array items))) blank with
      | error e => simp [bind, Except.bind]
      | ok read =>
          by_cases hlength : items.length ≤ fieldNames.length
          · simp [bind, Except.bind, IsShaped, hlength, Nat.not_lt.2 hlength]
          · simp [bind, Except.bind, IsShaped, hlength, Nat.lt_of_not_le hlength]
  | _ => simp [ofValue?, IsShaped]

end Resource

namespace Listing

/-! ## Rows element by element -/

/-- The element describes the resource, which lies somewhere. -/
def Lists (v : Value) (r : Resource) : Prop :=
  Resource.Describes v r ∧ ∃ url, url ≠ "" ∧ r.url = some url

/-- The rows of elements: one for each that lists a resource, with the resource's name and its link
for the user. -/
inductive RowsOf (user : Option String) : List Value → List Row → Prop
  | nil : RowsOf user [] []
  | listed {v : Value} {r : Resource} {items : List Value} {rows : List Row} (h : Lists v r)
    (hrest : RowsOf user items rows) : RowsOf user (v :: items) (⟨r.name, r.link user⟩ :: rows)
  | passed {v : Value} {items : List Value} {rows : List Row} (h : ∀ r, ¬ Lists v r)
    (hrest : RowsOf user items rows) : RowsOf user (v :: items) rows

variable {user : Option String}

theorem location?_isSome_iff {r : Resource} :
    r.location?.isSome = true ↔ ∃ url, url ≠ "" ∧ r.url = some url := by
  rw [Resource.location?, filled, Option.isSome_iff_exists]
  simp only [Option.filter_eq_some_iff]
  constructor
  · rintro ⟨url, hurl, hne⟩
    exact ⟨url, by simpa using hne, hurl⟩
  · rintro ⟨url, hne, hurl⟩
    exact ⟨url, hurl, by simpa using hne⟩

theorem row?_of_lists {v : Value} {r : Resource} (h : Lists v r) :
    row? user v = some ⟨r.name, r.link user⟩ := by
  obtain ⟨hdescribes, hurl⟩ := h
  rw [row?, Resource.ofValue?_eq_ok_iff.2 hdescribes]
  exact if_pos (location?_isSome_iff.2 hurl)

theorem row?_of_not_lists {v : Value} (h : ∀ r, ¬ Lists v r) : row? user v = none := by
  unfold row?
  cases hread : Resource.ofValue? v with
  | error e => rfl
  | ok r =>
      have hdescribes : Resource.Describes v r := Resource.ofValue?_eq_ok_iff.1 hread
      exact if_neg fun hplace => h r ⟨hdescribes, location?_isSome_iff.1 hplace⟩

theorem rowsOf_iff {items : List Value} {rows : List Row} :
    RowsOf user items rows ↔ items.filterMap (row? user) = rows := by
  constructor
  · intro h
    induction h with
    | nil => rfl
    | listed h _ ih => rw [List.filterMap_cons_some (row?_of_lists h), ih]
    | passed h _ ih => rw [List.filterMap_cons_none (row?_of_not_lists h), ih]
  · rintro rfl
    induction items with
    | nil => exact .nil
    | cons v items ih =>
        by_cases h : ∃ r, Lists v r
        · obtain ⟨r, hr⟩ := h
          rw [List.filterMap_cons_some (row?_of_lists hr)]
          exact .listed hr ih
        · rw [not_exists] at h
          rw [List.filterMap_cons_none (row?_of_not_lists h)]
          exact .passed h ih

theorem ofValue_array {items : List Value} (h : items ≠ []) :
    ofValue user (.array items) = .entries (items.filterMap (row? user)) := by
  cases items with
  | nil => exact absurd rfl h
  | cons item items => rfl

/-- A filled array makes a listing with the rows of its elements and no others, whoever looks at it.
So two arrays put together list the rows of the one and then those of the other, and elements that
list nothing, be they malformed or without a place, may stand anywhere in an array without a trace
in its listing. -/
theorem listing_isolates_elements (user : Option String) {items : List Value} (h : items ≠ []) :
    (∃ rows, ofValue user (.array items) = .entries rows ∧
      ∀ others, RowsOf user items others ↔ others = rows) ∧
    (∀ more, more ≠ [] → ∃ rows others, ofValue user (.array items) = .entries rows ∧
      ofValue user (.array more) = .entries others ∧
      ofValue user (.array (items ++ more)) = .entries (rows ++ others)) ∧
    ∀ before after idle, items = before ++ after → (∀ v ∈ idle, ∀ r, ¬ Lists v r) →
      ofValue user (.array (before ++ idle ++ after)) = ofValue user (.array items) := by
  refine ⟨⟨_, ofValue_array h, fun others => ?_⟩, fun more hmore => ?_, ?_⟩
  · rw [rowsOf_iff, eq_comm]
  · have hboth : items ++ more ≠ [] := by simp [h]
    refine ⟨_, _, ofValue_array h, ofValue_array hmore, ?_⟩
    rw [ofValue_array hboth, List.filterMap_append]
  · rintro before after idle rfl hidle
    have hmore : before ++ idle ++ after ≠ [] := by
      intro hnil
      simp only [List.append_eq_nil_iff] at hnil
      exact h (by rw [hnil.1.1, hnil.2]; rfl)
    have hnone : idle.filterMap (row? user) = [] := by
      rw [List.filterMap_eq_nil_iff]
      exact fun v hv => row?_of_not_lists (hidle v hv)
    rw [ofValue_array hmore, ofValue_array h]
    simp only [List.filterMap_append, hnone, List.append_nil]

/-- A resource between a number and one that lies nowhere, seen by its owner. -/
theorem listing_isolates_elements_of_three :
    let gone : Value := .object [("name", .string "gone")]
    let items : List Value := [.number (.natural 42),
      .object [("name", .string "b"), ("url", .string "b"), ("type", .string "directory")], gone]
    let rows : List Row := [⟨"b", "/alice/myself/files/b/"⟩]
    items ≠ [] ∧ ofValue (some "alice") (.array items) = .entries rows ∧
      RowsOf (some "alice") items rows ∧
      ofValue (some "alice") (.array (items ++ [gone])) = .entries (rows ++ []) := by
  intro gone items rows
  have hitems : items ≠ [] := by simp [items]
  have hrows : ofValue (some "alice") (.array items) = .entries rows := by decide +kernel
  have hgone : ofValue (some "alice") (.array [gone]) = .entries [] := by decide +kernel
  obtain ⟨⟨_, hread, hof⟩, happend, -⟩ := listing_isolates_elements (some "alice") hitems
  obtain rfl : rows = _ := Listing.entries.inj (hrows.symm.trans hread)
  obtain ⟨_, _, hfirst, hsecond, hboth⟩ := happend [gone] (by simp)
  obtain rfl : rows = _ := Listing.entries.inj (hrows.symm.trans hfirst)
  obtain rfl : [] = _ := Listing.entries.inj (hgone.symm.trans hsecond)
  exact ⟨hitems, hrows, (hof rows).2 rfl, hboth⟩

end Listing
end PeerWatch.Directory
