import Mathlib.Data.List.Perm.Basic
import PeerWatch.Proofs.Presence.Repetition

/-!
# The order of the records in a report

What a record does to the list and what it tells depend on the entry of its own contact alone. So in
a report that names every contact once the records could come in any order: only the places of new
entries depend on it, and the order in which the changes of different contacts are told.
-/

namespace PeerWatch.Presence

/-- The contact that a change concerns. -/
def Change.contact : Change → String
  | .added id => id
  | .status id _ => id
  | .newMessages m => m.contact

/-! ## What a record tells -/

/-- What the record of a contact tells, given the entry that the contact has. -/
def recordChanges (known : Option Entry) (id : String) (c : Contact) : List Change :=
  let e := known.getD (Entry.start id c)
  (if known.isNone then [.added id] else [])
    ++ (if e.status ≠ c.status then [.status id c.status] else [])
    ++ (if e.isSelf = false ∧ 0 < c.messages ∧ c.hasNew = true then
      [.newMessages ⟨id, c.messages, (e.update c).chatUrl⟩] else [])

theorem contact_of_mem_recordChanges {known : Option Entry} {id : String} {c : Contact}
    {change : Change} (h : change ∈ recordChanges known id c) : change.contact = id := by
  unfold recordChanges at h
  simp only [List.mem_append, List.mem_ite_nil_right, List.mem_singleton] at h
  obtain (⟨-, rfl⟩ | ⟨-, rfl⟩) | ⟨-, rfl⟩ := h
  · rfl
  · rfl
  · rfl

namespace Roster

variable {entries : List Entry} {id : String}

theorem changes_applyRecord (entries : List Entry) (id : String) (c : Contact) :
    (applyRecord entries id c).2 = recordChanges (entries.find? (·.id = id)) id c := by
  show changes id c (!entries.any (·.id = id)) (place id c entries) = _
  rw [changes, find?_place, ← List.isSome_find?, Option.not_isSome]
  unfold recordChanges
  simp only [Bool.not_eq_true, gt_iff_lt]

theorem find?_applyRecord_of_ne {other : String} (h : other ≠ id) (c : Contact) :
    (applyRecord entries id c).1.find? (·.id = other) = entries.find? (·.id = other) := by
  have hother : ∀ e : Entry, e.id = id → decide (e.id = other) = false := by
    intro e he
    rw [he]
    exact decide_eq_false h.symm
  rw [← List.head?_filter, filter_applyRecord hother, List.head?_filter]

/-- Records of different contacts do not see each other. -/
theorem changes_applyRecords {records : List (String × Contact)}
    (hd : (records.map (·.1)).Nodup) (entries : List Entry) :
    (applyRecords entries records).2 =
      records.flatMap fun r => recordChanges (entries.find? (·.id = r.1)) r.1 r.2 := by
  induction records generalizing entries with
  | nil => rfl
  | cons r records ih =>
      obtain ⟨id, c⟩ := r
      rw [List.map_cons, List.nodup_cons] at hd
      obtain ⟨hid, hrest⟩ := hd
      rw [applyRecords_cons, ih hrest, changes_applyRecord, List.flatMap_cons]
      apply congrArg (recordChanges (entries.find? (·.id = id)) id c ++ ·)
      apply List.flatMap_congr
      intro other hother
      have hne : other.1 ≠ id := by
        intro heq
        apply hid
        exact List.mem_map.2 ⟨other, hother, heq⟩
      rw [find?_applyRecord_of_ne hne]

/-- The changes of one contact are those that its records tell. -/
theorem filter_changes_applyRecords {records : List (String × Contact)}
    (hd : (records.map (·.1)).Nodup) (entries : List Entry) (id : String) :
    (applyRecords entries records).2.filter (·.contact = id) =
      (records.filter (·.1 = id)).flatMap fun r =>
        recordChanges (entries.find? (·.id = r.1)) r.1 r.2 := by
  rw [changes_applyRecords hd]
  clear hd
  induction records with
  | nil => rfl
  | cons r records ih =>
      have hcontact : ∀ change ∈ recordChanges (entries.find? (·.id = r.1)) r.1 r.2,
          change.contact = r.1 := fun _ => contact_of_mem_recordChanges
      rw [List.flatMap_cons, List.filter_append, ih]
      by_cases hr : r.1 = id
      · rw [List.filter_cons_of_pos (by simpa using hr), List.flatMap_cons]
        congr 1
        rw [List.filter_eq_self]
        intro change hchange
        rw [hcontact change hchange]
        exact decide_eq_true hr
      · rw [List.filter_cons_of_neg (by simpa using hr)]
        apply List.append_left_eq_self.2
        rw [List.filter_eq_nil_iff]
        intro change hchange
        rw [hcontact change hchange]
        simpa using hr

end Roster

/-! ## Records in another order -/

section Permuted

variable {report other : List (String × Contact)}

/-- The records of one contact do not change their order, since there is at most one. -/
theorem filter_eq_of_perm (hperm : other.Perm report) (hd : (report.map (·.1)).Nodup)
    (id : String) : other.filter (·.1 = id) = report.filter (·.1 = id) := by
  have hfilter := hperm.filter (·.1 = id)
  have hsame : (report.filter (·.1 = id)).map (·.1) =
      List.replicate (report.filter (·.1 = id)).length id := by
    rw [List.eq_replicate_iff, List.length_map]
    refine ⟨rfl, ?_⟩
    intro key hkey
    obtain ⟨r, hr, rfl⟩ := List.mem_map.1 hkey
    simpa using (List.mem_filter.1 hr).2
  have honce : ((report.filter (·.1 = id)).map (·.1)).Nodup :=
    hd.sublist (List.filter_sublist.map _)
  rw [hsame, List.nodup_replicate] at honce
  cases hfound : report.filter (·.1 = id) with
  | nil =>
      rw [hfound] at hfilter
      exact hfilter.eq_nil
  | cons r rest =>
      rw [hfound, List.length_cons] at honce
      have hrest : rest = [] := List.eq_nil_of_length_eq_zero (by omega)
      rw [hfound, hrest] at hfilter
      rw [hrest]
      exact hfilter.eq_singleton

variable {records : List (String × Contact)}

theorem firstAsSelf_append_of_not_mem_right {id : String} (h : id ∉ report.map (·.1)) :
    firstAsSelf (records ++ report) id = firstAsSelf records id := by
  rw [firstAsSelf, List.lookup_append, lookup_eq_none h, Option.or_none, firstAsSelf]

theorem lastRecord?_append_of_not_mem {id : String} (h : id ∉ report.map (·.1)) :
    lastRecord? (records ++ report) id = lastRecord? records id := by
  have hnone : lastRecord? report id = none := lookup_eq_none (by simpa using h)
  rw [lastRecord?_append, hnone, Option.none_or]

/-- The order of a report matters neither for what is last known of a contact nor for the role in
which it was first seen. -/
theorem known_append_of_perm (records : List (String × Contact)) (hperm : other.Perm report)
    (hd : (report.map (·.1)).Nodup) (id : String) :
    lastRecord? (records ++ other) id = lastRecord? (records ++ report) id ∧
      firstAsSelf (records ++ other) id = firstAsSelf (records ++ report) id := by
  have hkeys : (other.map (·.1)).Perm (report.map (·.1)) := hperm.map _
  have hd' : (other.map (·.1)).Nodup := hkeys.nodup_iff.2 hd
  by_cases hid : id ∈ report.map (·.1)
  · obtain ⟨⟨key, c⟩, hr, rfl⟩ := List.mem_map.1 hid
    have hr' : (key, c) ∈ other := hperm.mem_iff.2 hr
    constructor
    · rw [lastRecord?_append_of_mem hd' hr', lastRecord?_append_of_mem hd hr]
    · rw [firstAsSelf_append_of_nodup hd' hr', firstAsSelf_append_of_nodup hd hr]
  · have hid' : id ∉ other.map (·.1) := fun hmem => hid (hkeys.mem_iff.1 hmem)
    constructor
    · rw [lastRecord?_append_of_not_mem hid', lastRecord?_append_of_not_mem hid]
    · rw [firstAsSelf_append_of_not_mem_right hid', firstAsSelf_append_of_not_mem_right hid]

end Permuted

/-- If a report names every contact once, the order of its records does not matter for the entry of
any contact. The same changes are told, those of each contact in the same order. If all contacts of
the report were known before, the whole list is the same. -/
theorem record_order_places_new_entries_only (placeholder : Option String)
    (history : List (Option ContactList)) (report other : Option ContactList)
    (hd : ((recordsOf [report]).map (·.1)).Nodup)
    (hperm : (recordsOf [other]).Perm (recordsOf [report])) :
    let old := ((Roster.start placeholder).applyAll history).1
    let one := old.apply report
    let two := old.apply other
    (∀ id, Roster.entry? two.1 id = Roster.entry? one.1 id) ∧
      two.2.Perm one.2 ∧
      (∀ id, two.2.filter (·.contact = id) = one.2.filter (·.contact = id)) ∧
      ((∀ r ∈ recordsOf [report], r.1 ∈ old.entries.map Entry.id) → two.1 = one.1) := by
  intro old one two
  have hold : Shows (recordsOf history) old.entries := shows_applyAll placeholder history
  have hone : Shows (recordsOf history ++ recordsOf [report]) one.1.entries := hold.apply report
  have htwo : Shows (recordsOf history ++ recordsOf [other]) two.1.entries := hold.apply other
  have hknown := known_append_of_perm (recordsOf history) hperm hd
  have hd' : ((recordsOf [other]).map (·.1)).Nodup := (hperm.map _).nodup_iff.2 hd
  have hone_changes : one.2 = (Roster.applyRecords old.entries (recordsOf [report])).2 := by
    show (old.apply report).2 = _
    rw [Roster.apply_eq]
  have htwo_changes : two.2 = (Roster.applyRecords old.entries (recordsOf [other])).2 := by
    show (old.apply other).2 = _
    rw [Roster.apply_eq]
  refine ⟨?_, ?_, ?_, ?_⟩
  · intro id
    rw [htwo.lookup_eq, hone.lookup_eq, (hknown id).1, (hknown id).2]
  · rw [hone_changes, htwo_changes, Roster.changes_applyRecords hd, Roster.changes_applyRecords hd']
    exact hperm.flatMap_right _
  · intro id
    rw [hone_changes, htwo_changes, Roster.filter_changes_applyRecords hd,
      Roster.filter_changes_applyRecords hd', filter_eq_of_perm hperm hd]
  · intro hseen
    have hmem : ∀ r ∈ recordsOf [report], r.1 ∈ (recordsOf history).map (·.1) := by
      intro r hr
      rw [← mem_displayOrder, ← hold.ids]
      exact hseen r hr
    have hmem' : ∀ r ∈ recordsOf [other], r.1 ∈ (recordsOf history).map (·.1) :=
      fun r hr => hmem r (hperm.mem_iff.1 hr)
    have hentries : two.1.entries = one.1.entries := by
      rw [htwo.entries_eq, hone.entries_eq, displayOrder_append_of_known hmem,
        displayOrder_append_of_known hmem']
      apply List.filterMap_congr
      intro id _
      rw [(hknown id).1, (hknown id).2]
    have htwo_eq : two.1 = ⟨none, two.1.entries⟩ := by
      show (old.apply other).1 = ⟨none, (old.apply other).1.entries⟩
      rw [Roster.apply_eq]
    rw [htwo_eq, hentries]
    show ⟨none, (old.apply report).1.entries⟩ = (old.apply report).1
    rw [Roster.apply_eq]

/-- Two new contacts, an own identity and a known contact with new messages, in two orders: the new
contacts change places, and nothing else does. -/
theorem record_order_places_carol_and_dave :
    let history := [some ⟨[("bob", ⟨none, none, "found", 0, "/b", false⟩)]⟩]
    let alice : String × Contact := ("alice", ⟨none, none, "", 4, "/alice/myself", true⟩)
    let bob : String × Contact := ("bob", ⟨none, none, "away", 3, "/bob", true⟩)
    let carol : String × Contact := ("carol", ⟨none, none, "found", 0, "/carol", false⟩)
    let dave : String × Contact := ("dave", ⟨none, none, "found", 1, "/dave", true⟩)
    let report : Option ContactList := some ⟨[alice, bob, carol, dave]⟩
    let other : Option ContactList := some ⟨[dave, alice, carol, bob]⟩
    let old := ((Roster.start none).applyAll history).1
    ((recordsOf [report]).map (·.1)).Nodup ∧ (recordsOf [other]).Perm (recordsOf [report]) ∧
      (∀ id, Roster.entry? (old.apply other).1 id = Roster.entry? (old.apply report).1 id) ∧
      (old.apply other).2.filter (·.contact = "bob") =
        [.status "bob" "away", .newMessages ⟨"bob", 3, "/bob/chat/"⟩] ∧
      (old.apply other).1.entries.map Entry.id = ["alice", "bob", "dave", "carol"] ∧
      (old.apply report).1.entries.map Entry.id = ["alice", "bob", "carol", "dave"] := by
  intro history alice bob carol dave report other old
  have hd : ((recordsOf [report]).map (·.1)).Nodup := by decide
  have hperm : (recordsOf [other]).Perm (recordsOf [report]) := by decide
  have hsame := record_order_places_new_entries_only none history report other hd hperm
  refine ⟨hd, hperm, hsame.1, ?_, by decide +kernel, by decide +kernel⟩
  rw [hsame.2.2.1 "bob"]
  decide +kernel

end PeerWatch.Presence
