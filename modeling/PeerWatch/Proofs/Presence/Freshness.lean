import PeerWatch.Proofs.Presence.History

/-!
# Old entries and fresh ones

How the entry of a contact after a report compares with the entry in a list that got this report
alone. Everything but the role of the contact is taken from the report. The role stays as it was
when the contact was first seen, so the two agree exactly if the report gives the contact the role
that its entry already has.
-/

namespace PeerWatch.Presence

variable {records : List (String × Contact)} {id : String}

theorem Shows.lookup_eq {r : Roster} (h : Shows records r.entries) (id : String) :
    Roster.entry? r id =
      (lastRecord? records id).map (Entry.shown id (firstAsSelf records id)) := by
  cases he : Roster.entry? r id with
  | none =>
      have hid : id ∉ records.map (·.1) := by
        rw [← mem_displayOrder, ← h.ids]
        intro hmem
        obtain ⟨e, hmem, hid⟩ := List.mem_map.1 hmem
        have := List.find?_eq_none.1 he e hmem
        simp [hid] at this
      have hlast : lastRecord? records id = none :=
        lookup_eq_none (by simpa using hid)
      rw [hlast, Option.map_none]
  | some e =>
      obtain ⟨c, hlast, hshown⟩ := h.entry e (List.mem_of_find?_eq_some he)
      have hid : e.id = id := by simpa using List.find?_some he
      rw [hid] at hlast hshown
      rw [hlast, hshown, Option.map_some]

theorem lastRecord?_append_of_mem {more : List (String × Contact)} {c : Contact}
    (hd : (more.map (·.1)).Nodup) (h : (id, c) ∈ more) :
    lastRecord? (records ++ more) id = some c := by
  obtain ⟨first, rest, rfl⟩ := List.append_of_mem h
  have hrest : id ∉ rest.map (·.1) := by
    rw [List.map_append, List.map_cons] at hd
    exact (List.nodup_cons.1 (List.nodup_append.1 hd).2.1).1
  have hlookup : rest.reverse.lookup id = none := lookup_eq_none (by simpa using hrest)
  simp [lastRecord?, List.lookup_append, hlookup]

theorem firstAsSelf_append_of_nodup {more : List (String × Contact)} {c : Contact}
    (hd : (more.map (·.1)).Nodup) (h : (id, c) ∈ more) :
    firstAsSelf (records ++ more) id =
      if id ∈ records.map (·.1) then firstAsSelf records id else c.isSelf := by
  split
  · next hm => exact firstAsSelf_append_of_mem hm more
  · next hm =>
    rw [firstAsSelf_append_of_not_mem hm]
    obtain ⟨first, rest, rfl⟩ := List.append_of_mem h
    have hfirst : id ∉ first.map (·.1) := by
      rw [List.map_append, List.map_cons] at hd
      intro hmem
      exact (List.nodup_append.1 hd).2.2 id hmem id List.mem_cons_self rfl
    rw [firstAsSelf_append_of_not_mem hfirst, firstAsSelf, List.lookup_cons_self]
    rfl

/-- After a report that names every contact once, the entry of a contact in it shows its record in
the role that the entry had before, or in that of the record if there was no entry. It is the entry
of a list that got this report alone exactly if the entry there was had the role of the record. -/
theorem entry_agrees_with_fresh_iff (placeholder other : Option String)
    (history : List (Option ContactList)) (list : ContactList)
    (hd : (list.contacts.map (·.1)).Nodup) {id : String} {c : Contact}
    (h : (id, c) ∈ list.contacts) :
    let old := ((Roster.start placeholder).applyAll history).1
    let known := Roster.entry? old id
    let updated := Roster.entry? (old.apply (some list)).1 id
    let fresh := Roster.entry? ((Roster.start other).apply (some list)).1 id
    updated = some (Entry.shown id ((known.map Entry.isSelf).getD c.isSelf) c) ∧
      fresh = some (Entry.shown id c.isSelf c) ∧
      (updated = fresh ↔ ∀ e, known = some e → e.isSelf = c.isSelf) := by
  intro old known updated fresh
  have hrecords : recordsOf [some list] = list.contacts := by simp [recordsOf]
  have hold : Shows (recordsOf history) old.entries := shows_applyAll placeholder history
  have hnew := hold.apply (some list)
  have halone := shows_nil.apply (r := Roster.start other) (some list)
  rw [hrecords] at hnew halone
  have hfresh : fresh = some (Entry.shown id c.isSelf c) := by
    show Roster.entry? ((Roster.start other).apply (some list)).1 id = _
    rw [halone.lookup_eq id, lastRecord?_append_of_mem hd h, firstAsSelf_append_of_nodup hd h]
    rfl
  have hupdated : updated = some (Entry.shown id ((known.map Entry.isSelf).getD c.isSelf) c) := by
    have hknown : known = (lastRecord? (recordsOf history) id).map
        (Entry.shown id (firstAsSelf (recordsOf history) id)) := hold.lookup_eq id
    show Roster.entry? (old.apply (some list)).1 id = _
    rw [hnew.lookup_eq id, lastRecord?_append_of_mem hd h, firstAsSelf_append_of_nodup hd h,
      hknown, Option.map_some]
    by_cases hm : id ∈ (recordsOf history).map (·.1)
    · have hm' : id ∈ (recordsOf history).reverse.map (·.1) := by simpa using hm
      obtain ⟨last, hlast⟩ := lookup_isSome hm'
      have hlast' : lastRecord? (recordsOf history) id = some last := hlast
      simp [hm, hlast']
    · have hlast' : lastRecord? (recordsOf history) id = none := lookup_eq_none (by simpa using hm)
      simp [hm, hlast']
  refine ⟨hupdated, hfresh, ?_⟩
  rw [hupdated, hfresh]
  constructor
  · intro heq e he
    have hrole := congrArg Entry.isSelf (Option.some.inj heq)
    simpa [he] using hrole
  · intro hrole
    cases he : known with
    | none => rfl
    | some e =>
        have := hrole e he
        simp [this]

/-- A contact that was known before, in the role that the report gives it, next to a new one. -/
theorem entry_agrees_with_fresh_of_same_role :
    let history := [some ⟨[("alice", ⟨none, none, "found", 0, "/alice/myself", false⟩),
      ("bob", ⟨none, none, "", 1, "", true⟩)]⟩, none]
    let list : ContactList := ⟨[("carol", ⟨none, none, "found", 0, "/carol", false⟩),
      ("bob", ⟨none, none, "away", 3, "/bob", false⟩)]⟩
    (list.contacts.map (·.1)).Nodup ∧
      ("bob", ⟨none, none, "away", 3, "/bob", false⟩) ∈ list.contacts ∧
      Roster.entry? (((Roster.start none).applyAll history).1.apply (some list)).1 "bob" =
        Roster.entry? ((Roster.start none).apply (some list)).1 "bob" := by
  intro history list
  have hd : (list.contacts.map (·.1)).Nodup := by decide
  have hmem : ("bob", ⟨none, none, "away", 3, "/bob", false⟩) ∈ list.contacts := by decide
  refine ⟨hd, hmem, (entry_agrees_with_fresh_iff none none history list hd hmem).2.2.2 ?_⟩
  decide +kernel

/-- A contact whose path was empty when it was first seen, and which now proves to be the user's own
identity, is still displayed as somebody else. -/
theorem entry_disagrees_with_fresh :
    ¬ ∀ (placeholder other : Option String) (history : List (Option ContactList))
      (list : ContactList) (id : String) (c : Contact),
      (list.contacts.map (·.1)).Nodup → (id, c) ∈ list.contacts →
      Roster.entry? (((Roster.start placeholder).applyAll history).1.apply (some list)).1 id =
        Roster.entry? ((Roster.start other).apply (some list)).1 id := by
  intro h
  have hsame := h none none [some ⟨[("alice", ⟨none, none, "found", 0, "", false⟩)]⟩]
    ⟨[("alice", ⟨none, none, "found", 2, "/alice/myself", false⟩)]⟩ "alice" _ (by decide)
    List.mem_cons_self
  exact absurd hsame (by decide +kernel)

end PeerWatch.Presence
