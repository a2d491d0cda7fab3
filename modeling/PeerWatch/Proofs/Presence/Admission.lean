import PeerWatch.Proofs.Json.Grammar
import PeerWatch.Proofs.Presence.Leniency
import PeerWatch.Proofs.Presence.Watching

/-!
# Reports that are admitted

A report is admitted or rejected as a whole. What decides is the names and the trackers of its
records, which must be texts or `null`; the other fields of a contact may hold anything, and fields
that no contact has are passed over. A report that is rejected changes nothing on the page.
-/

namespace PeerWatch.Presence

open PeerWatch.Json (AtMostOnce Document Raw Unit16 WholeKeys maxDepth textOfUnits valuesOf)
open PeerWatch.Poll (Cancellation Poller)

variable {depth : Nat} {members others : List (List Unit16 × Raw)}

/-! ## Records -/

/-- An object that gives no field of a contact twice. -/
def IsRecord (record : Raw) : Prop :=
  ∃ fields, record = .object fields ∧ AtMostOnce contactFields fields

/-- The name and the tracker of a record, as far as there are any, can be read. -/
def IsNamed (record : Raw) : Prop :=
  ∀ field ∈ ["name", "tracker"], ∀ v ∈ valuesOf field record.members, IsTextOrNull v

/-- What a record gives for the fields of a contact. -/
def knownFields (record : Raw) : List (List Unit16 × Raw) :=
  record.members.filter fun m => (textOfUnits m.1).any (contactFields.contains ·)

theorem valuesOf_knownFields {record : Raw} {field : String} (h : field ∈ contactFields) :
    valuesOf field (knownFields record) = valuesOf field record.members := by
  rw [valuesOf, knownFields, List.filter_filter, valuesOf]
  refine congrArg (List.map _) (List.filter_congr fun m _ => ?_)
  by_cases hkey : textOfUnits m.1 = some field
  · simp [hkey, h]
  · simp [hkey]

theorem mem_valuesOf_iff {field : String} (h : AtMostOnce contactFields members)
    (hfield : field ∈ contactFields) {v : Raw} :
    v ∈ valuesOf field members ↔ v ∈ Contact.givenIn members field := by
  have hle := h field hfield
  rw [Contact.givenIn]
  match valuesOf field members, hle with
  | [], _ => simp
  | [_], _ => simp [eq_comm]

/-- Where its values can be kept, a record is a contact if its name and tracker can be read. -/
theorem Contact.ofRaw?_isSome_iff {record : Raw} (h : IsRecord record)
    (hkept : (record.value? depth).isSome = true) :
    (Contact.ofRaw? depth record).isSome = true ↔ IsNamed record := by
  obtain ⟨fields, rfl, honce⟩ := h
  obtain ⟨inner, rfl, hwhole, hvalues⟩ := Json.kept_object hkept
  have hgiven : ∀ field, ∀ v ∈ givenIn fields field, (v.value? inner).isSome = true := by
    intro field v hv
    obtain ⟨units, hmem, -⟩ := Json.mem_of_mem_valuesOf (List.mem_of_mem_head? hv)
    exact hvalues _ hmem
  rw [ofRaw?_object inner.succ_ne_zero hwhole honce, Nat.succ_sub_one, ofGiven?_isSome_iff hgiven]
  refine forall₂_congr fun field hfield => forall_congr' fun v => ?_
  have hknown : field ∈ contactFields := by
    simp only [List.mem_cons, List.not_mem_nil, or_false] at hfield
    rcases hfield with rfl | rfl <;> decide
  rw [Raw.members, mem_valuesOf_iff honce hknown]

/-- Two records that give the same for the fields of a contact are the same contact. -/
theorem Contact.ofRaw?_eq_of_knownFields {record other : Raw} (h : IsRecord record)
    (hother : IsRecord other) (hkept : (record.value? depth).isSome = true)
    (hkeptOther : (other.value? depth).isSome = true)
    (hknown : knownFields record = knownFields other) :
    Contact.ofRaw? depth record = Contact.ofRaw? depth other := by
  obtain ⟨fields, rfl, honce⟩ := h
  obtain ⟨fieldsOther, rfl, honceOther⟩ := hother
  obtain ⟨inner, rfl, hwhole, -⟩ := Json.kept_object hkept
  obtain ⟨_, heq, hwholeOther, -⟩ := Json.kept_object hkeptOther
  rw [ofRaw?_object inner.succ_ne_zero hwhole honce,
    ofRaw?_object inner.succ_ne_zero hwholeOther honceOther]
  refine ofGiven?_congr fun field hfield => ?_
  have hvalues : valuesOf field (knownFields (.object fields)) = valuesOf field fields :=
    valuesOf_knownFields hfield
  rw [hknown, valuesOf_knownFields hfield] at hvalues
  exact congrArg List.head? hvalues.symm

/-! ## Lists of records -/

theorem contactsOfMembers?_isSome_iff (hwhole : WholeKeys members) :
    (contactsOfMembers? depth members).isSome = true ↔
      ∀ m ∈ members, (Contact.ofRaw? depth m.2).isSome = true := by
  induction members with
  | nil => simp [contactsOfMembers?]
  | cons m members ih =>
      obtain ⟨units, raw⟩ := m
      obtain ⟨⟨id, hid⟩, hrest⟩ := hwhole.of_cons
      rw [List.forall_mem_cons, ← ih hrest, contactsOfMembers?, hid]
      cases Contact.ofRaw? depth raw <;> cases contactsOfMembers? depth members <;> simp

/-- What a member of the contacts gives for the fields of a contact, with its key. -/
def knownPart (m : List Unit16 × Raw) : List Unit16 × List (List Unit16 × Raw) :=
  (m.1, knownFields m.2)

theorem contactsOfMembers?_eq_of_known
    (h : ∀ m ∈ members, IsRecord m.2 ∧ (m.2.value? depth).isSome = true)
    (hother : ∀ m ∈ others, IsRecord m.2 ∧ (m.2.value? depth).isSome = true)
    (hknown : members.map knownPart = others.map knownPart) :
    contactsOfMembers? depth members = contactsOfMembers? depth others := by
  induction members generalizing others with
  | nil =>
      obtain rfl : others = [] := List.map_eq_nil_iff.1 hknown.symm
      rfl
  | cons m members ih =>
      cases others with
      | nil => cases hknown
      | cons other others =>
          rw [List.map_cons, List.map_cons, List.cons.injEq, knownPart, knownPart,
            Prod.mk.injEq] at hknown
          obtain ⟨⟨hkey, hfields⟩, hrest⟩ := hknown
          obtain ⟨⟨hrecord, hkept⟩, hmembers⟩ := List.forall_mem_cons.1 h
          obtain ⟨⟨hrecordOther, hkeptOther⟩, hothers⟩ := List.forall_mem_cons.1 hother
          have hcontact := Contact.ofRaw?_eq_of_knownFields hrecord hrecordOther hkept hkeptOther
            hfields
          rw [contactsOfMembers?, hkey, hcontact, ih hmembers hothers hrest, contactsOfMembers?]

/-! ## Reports -/

/-- The records of a report, in their order. -/
def recordMembers (members : List (List Unit16 × Raw)) : List (List Unit16 × Raw) :=
  (valuesOf "contacts" members).flatMap Raw.members

/-- The body is the text of a report with these members: its contacts are given at most once, as
`null` or as an object of records, and all of it can be kept. -/
structure IsReport (body : String) (members : List (List Unit16 × Raw)) : Prop where
  text : Document (.object members) body.toList
  kept : ((Raw.object members).value? maxDepth).isSome = true
  once : AtMostOnce ["contacts"] members
  contacts : ∀ contacts ∈ valuesOf "contacts" members, contacts = .null ∨
    ∃ records, contacts = .object records ∧ ∀ record ∈ records, IsRecord record.2

namespace IsReport

variable {body : String}

theorem exists_contacts (h : IsReport body members) :
    valuesOf "contacts" members = [] ∨ valuesOf "contacts" members = [.null] ∨
      ∃ records, valuesOf "contacts" members = [.object records] := by
  have hle := h.once "contacts" (List.mem_singleton.2 rfl)
  cases hvalues : valuesOf "contacts" members with
  | nil => exact .inl rfl
  | cons contacts rest =>
      rw [hvalues, List.length_cons] at hle
      obtain rfl : rest = [] := List.eq_nil_of_length_eq_zero (by omega)
      have hmem : contacts ∈ valuesOf "contacts" members := hvalues ▸ List.mem_singleton.2 rfl
      rcases h.contacts contacts hmem with rfl | ⟨records, rfl, -⟩
      · exact .inr (.inl rfl)
      · exact .inr (.inr ⟨records, rfl⟩)

theorem recordMembers_eq {records : List (List Unit16 × Raw)}
    (h : valuesOf "contacts" members = [.object records]) : recordMembers members = records := by
  rw [recordMembers, h, List.flatMap_singleton]
  rfl

/-- The records of a report stand two levels below it, and can be kept there. -/
theorem kept_records (h : IsReport body members) : WholeKeys (recordMembers members) ∧
    ∀ record ∈ recordMembers members,
      IsRecord record.2 ∧ (record.2.value? (maxDepth - 2)).isSome = true := by
  have hnone : recordMembers members = [] → WholeKeys (recordMembers members) ∧
      ∀ record ∈ recordMembers members,
        IsRecord record.2 ∧ (record.2.value? (maxDepth - 2)).isSome = true := by
    intro hempty
    rw [hempty]
    exact ⟨fun _ h => absurd h List.not_mem_nil, fun _ h => absurd h List.not_mem_nil⟩
  rcases h.exists_contacts with hvalues | hvalues | ⟨records, hvalues⟩
  · exact hnone (by rw [recordMembers, hvalues]; rfl)
  · exact hnone (by rw [recordMembers, hvalues]; rfl)
  · have hmem : Raw.object records ∈ valuesOf "contacts" members :=
      hvalues ▸ List.mem_singleton.2 rfl
    obtain ⟨units, hunits, -⟩ := Json.mem_of_mem_valuesOf hmem
    obtain ⟨_, hfirst, -, hvalue⟩ := Json.kept_object h.kept
    obtain ⟨_, hsecond, hwhole, hrecords⟩ := Json.kept_object (hvalue _ hunits)
    obtain rfl : maxDepth - 2 = _ := by
      rw [hfirst, hsecond]
    rw [recordMembers_eq hvalues]
    rcases h.contacts _ hmem with hnull | ⟨_, heq, hshape⟩
    · cases hnull
    · cases heq
      exact ⟨hwhole, fun record hrecord => ⟨hshape record hrecord, hrecords record hrecord⟩⟩

/-- A report is decoded by its records alone. -/
theorem decode?_eq (h : IsReport body members) : ContactList.decode? body =
    (contactsOfMembers? (maxDepth - 2) (recordMembers members)).map fun contacts =>
      some ⟨contacts⟩ := by
  obtain ⟨_, -, hwhole, -⟩ := Json.kept_object h.kept
  have hread : Raw.read? body.toList = some (.object members) := Json.read?_eq_some_iff.2 h.text
  have hfound : (Raw.object members).record? ["contacts"] maxDepth =
      some (Json.knownOf ["contacts"] members) :=
    Json.record?_object_eq_some_iff.2 ⟨by decide, hwhole, h.once, rfl⟩
  have hcontacts : Json.fieldOr? "contacts" (contactsOfRaw? (maxDepth - 1)) []
      (Json.knownOf ["contacts"] members) =
        contactsOfMembers? (maxDepth - 2) (recordMembers members) := by
    rw [Json.fieldOr?_knownOf hwhole (List.mem_singleton.2 rfl)]
    rcases h.exists_contacts with hvalues | hvalues | ⟨records, hvalues⟩
    · rw [recordMembers, hvalues]
      rfl
    · rw [recordMembers, hvalues]
      rfl
    · rw [recordMembers_eq hvalues, hvalues]
      rfl
  rw [ContactList.decode?, Json.payload?, hread]
  simp only [ContactList.ofRaw?, hfound, Option.bind_eq_bind, Option.bind_some, hcontacts]
  cases contactsOfMembers? (maxDepth - 2) (recordMembers members) <;> rfl

/-- A report is admitted just where all of its records are named. -/
theorem admitted_iff (h : IsReport body members) :
    (ContactList.decode? body).isSome = true ↔
      ∀ record ∈ recordMembers members, IsNamed record.2 := by
  obtain ⟨hwhole, hrecords⟩ := h.kept_records
  rw [h.decode?_eq, Option.isSome_map, contactsOfMembers?_isSome_iff hwhole]
  refine forall₂_congr fun record hrecord => ?_
  obtain ⟨hrecord, hkept⟩ := hrecords record hrecord
  exact Contact.ofRaw?_isSome_iff hrecord hkept

/-- Reports that give the same for the fields of their contacts are decoded alike. -/
theorem decode?_eq_of_known {other : String} (h : IsReport body members)
    (hother : IsReport other others)
    (hknown : (recordMembers members).map knownPart = (recordMembers others).map knownPart) :
    ContactList.decode? body = ContactList.decode? other := by
  rw [h.decode?_eq, hother.decode?_eq,
    contactsOfMembers?_eq_of_known h.kept_records.2 hother.kept_records.2 hknown]

end IsReport

/-! ## Bodies that are rejected -/

section Undecoded

variable {body : String} {p : Poller} {busy : List (Option ContactList) → Nat}
  {cancel : Option Cancellation} {past : List (Option ContactList)} {t delay : Nat}

theorem handed_turn_of_undecoded (h : ContactList.decode? body = none) :
    (p.turn ContactList.decode? busy cancel past t (.after delay (.ok body))).handed = [] := by
  rw [p.handed_turn ContactList.decode? busy cancel past t, Poller.delivered, h]
  simp

/-- During a cycle that brings a body which is no report, the list stays as it was. -/
theorem roster_of_undecoded (h : ContactList.decode? body = none) {s s' : Stage}
    {moves : List Move} {acts : List WatchAct} (hp : s.pending = [])
    (hf : s.follow? moves = some (s', acts))
    (hpolls : pollsOf moves <+: (p.turn ContactList.decode? busy cancel past t
      (.after delay (.ok body))).acts.events) :
    s'.watcher.roster = s.watcher.roster := by
  have hreports : reportsOf moves = [] := by
    have hprefix := hpolls.filterMap Poll.Act.handedOver?
    rw [← Poll.Run.handed, handed_turn_of_undecoded h] at hprefix
    exact List.prefix_nil.1 hprefix
  obtain ⟨rfl, -, -⟩ := Stage.follow?_of_no_report hp hreports hf
  rfl

end Undecoded

/-- A report of records that give no field twice, and all of which can be kept, is admitted if and
only if every record gives for the name and the tracker nothing but texts and `null`, whatever the
other fields hold; and it is decoded by what its records give for the fields of a contact alone.
With a single record that is not so, the whole body is rejected, and on any page, whatever else is
done there during the cycle that brought it, the list stays as it was. -/
theorem report_admitted_iff_named {body : String} {members : List (List Unit16 × Raw)}
    (h : IsReport body members) :
    ((∃ list, ContactList.decode? body = some (some list)) ↔
      ∀ record ∈ recordMembers members, IsNamed record.2) ∧
    (∀ other others, IsReport other others →
      (recordMembers members).map knownPart = (recordMembers others).map knownPart →
      ContactList.decode? other = ContactList.decode? body) ∧
    ((∃ record ∈ recordMembers members, ¬ IsNamed record.2) →
      ContactList.decode? body = none ∧
      ∀ (p : Poller) busy cancel past t delay (s : Stage) moves s' acts,
        s.pending = [] → s.follow? moves = some (s', acts) →
        pollsOf moves <+: (p.turn ContactList.decode? busy cancel past t
          (.after delay (.ok body))).acts.events →
        s'.watcher.roster = s.watcher.roster) := by
  refine ⟨?_, fun other others hother hknown => hother.decode?_eq_of_known h hknown.symm, ?_⟩
  · rw [← h.admitted_iff, h.decode?_eq]
    cases contactsOfMembers? (maxDepth - 2) (recordMembers members) <;> simp
  · rintro ⟨record, hrecord, hnot⟩
    have hnone : ContactList.decode? body = none := by
      rw [← Option.not_isSome_iff_eq_none, h.admitted_iff]
      exact fun hall => hnot (hall record hrecord)
    exact ⟨hnone, fun _ _ _ _ _ _ _ _ _ _ hp hf hpolls => roster_of_undecoded hnone hp hf hpolls⟩

/-- A report with a contact for which everything is odd that may be, and one whose name is no text. -/
def unnamedReport : String := "\x7b\"contacts\":\x7b\"bob\":" ++
  "\x7b\"status\":[],\"messages\":true,\"mood\":null\x7d,\"carol\":\x7b\"name\":false\x7d\x7d\x7d"

def oddFields : List (List Unit16 × Raw) := [(Json.unitsOf "status", .array []),
  (Json.unitsOf "messages", .bool true), (Json.unitsOf "mood", .null)]

def unnamedFields : List (List Unit16 × Raw) := [(Json.unitsOf "name", .bool false)]

def unnamedRecords : List (List Unit16 × Raw) :=
  [(Json.unitsOf "bob", .object oddFields), (Json.unitsOf "carol", .object unnamedFields)]

theorem isReport_unnamedReport :
    IsReport unnamedReport [(Json.unitsOf "contacts", .object unnamedRecords)] where
  text := Json.read?_eq_some_iff.1 (by cbv)
  kept := by decide +kernel
  once := by decide +kernel
  contacts := by
    have honce : AtMostOnce contactFields oddFields ∧ AtMostOnce contactFields unnamedFields := by
      decide +kernel
    rw [Json.valuesOf_cons_self (Json.textOfUnits_unitsOf "contacts")]
    intro contacts hcontacts
    obtain rfl : contacts = .object unnamedRecords := by simpa [valuesOf] using hcontacts
    refine .inr ⟨_, rfl, ?_⟩
    simp only [unnamedRecords, List.mem_cons, List.not_mem_nil, or_false, forall_eq_or_imp,
      forall_eq]
    exact ⟨⟨oddFields, rfl, honce.1⟩, unnamedFields, rfl, honce.2⟩

theorem report_admitted_iff_named_of_false :
    IsReport unnamedReport [(Json.unitsOf "contacts", .object unnamedRecords)] ∧
      ¬ (∀ record ∈ recordMembers [(Json.unitsOf "contacts", .object unnamedRecords)],
        IsNamed record.2) ∧ ContactList.decode? unnamedReport = none := by
  have hnot : ¬ IsNamed (.object unnamedFields) := by
    intro h
    have hname : Raw.bool false ∈ valuesOf "name" unnamedFields := by
      simp [unnamedFields, Json.valuesOf_cons_self (Json.textOfUnits_unitsOf "name")]
    rcases h "name" (by decide) _ hname with h | ⟨_, h⟩ <;> cases h
  have hcarol : ∃ record ∈ recordMembers [(Json.unitsOf "contacts", .object unnamedRecords)],
      ¬ IsNamed record.2 := by
    rw [IsReport.recordMembers_eq (Json.valuesOf_cons_self (Json.textOfUnits_unitsOf "contacts"))]
    exact ⟨(Json.unitsOf "carol", .object unnamedFields), by simp [unnamedRecords], hnot⟩
  obtain ⟨-, -, hrejected⟩ := report_admitted_iff_named isReport_unnamedReport
  obtain ⟨record, hrecord, hunnamed⟩ := hcarol
  exact ⟨isReport_unnamedReport, fun hall => hunnamed (hall record hrecord),
    (hrejected ⟨record, hrecord, hunnamed⟩).1⟩

end PeerWatch.Presence
