import PeerWatch.Presence.Roster
import Mathlib.Data.List.Induction
import Mathlib.Data.List.Nodup

/-!
# What a displayed list remembers

A displayed list is told by the records it was given: the order of its entries by the first record
of each contact, and an entry by the last record of its contact together with the role that the
first one gave it. `Shows` states this. One record keeps it (`Shows.applyRecord`), hence every
sequence of reports does.
-/

namespace PeerWatch.Presence

/-- The records of some reports, in order. -/
def recordsOf (reports : List (Option ContactList)) : List (String × Contact) :=
  reports.flatMap fun report => (report.map ContactList.contacts).getD []

/-- The identifiers of some records, in the order in which they first appear. -/
def firstSeen (records : List (String × Contact)) : List String :=
  (records.map (·.1)).eraseDups

/-- Whether the first record with an identifier is one of the user's own identity. -/
def firstAsSelf (records : List (String × Contact)) (id : String) : Bool :=
  (records.lookup id).any Contact.isSelf

/-- The identifiers of some records in the order in which their entries are displayed: those first
seen as own identities, the latest of them in front, then all others. -/
def displayOrder (records : List (String × Contact)) : List String :=
  ((firstSeen records).filter (firstAsSelf records)).reverse ++
    (firstSeen records).filter fun id => !firstAsSelf records id

/-- The last record with an identifier. -/
def lastRecord? (records : List (String × Contact)) (id : String) : Option Contact :=
  records.reverse.lookup id

/-- The entry that has a role and a record to show. -/
def Entry.shown (id : String) (isSelf : Bool) (c : Contact) : Entry where
  id := id
  displayName := if isSelf then "Myself" else id
  path := c.path
  isSelf := isSelf
  status := c.status
  statusLabel := Text.capitalize c.status
  unread := if isSelf then 0 else c.messages
  links := (Entry.kinds isSelf).map (Entry.linkTo c.path)

/-- Some entries show exactly what the records so far amount to. -/
structure Shows (records : List (String × Contact)) (entries : List Entry) : Prop where
  ids : entries.map Entry.id = displayOrder records
  entry : ∀ e ∈ entries, ∃ c, lastRecord? records e.id = some c ∧
    e = Entry.shown e.id (firstAsSelf records e.id) c

/-! ## Entries -/

@[simp] theorem Entry.id_update (e : Entry) (c : Contact) : (e.update c).id = e.id := rfl

@[simp] theorem Entry.id_start (id : String) (c : Contact) : (Entry.start id c).id = id := rfl

@[simp] theorem Entry.id_shown (id : String) (isSelf : Bool) (c : Contact) :
    (Entry.shown id isSelf c).id = id := rfl

@[simp] theorem Entry.isSelf_shown (id : String) (isSelf : Bool) (c : Contact) :
    (Entry.shown id isSelf c).isSelf = isSelf := rfl

theorem Entry.update_start (id : String) (c : Contact) :
    (Entry.start id c).update c = Entry.shown id c.isSelf c := by
  cases h : c.isSelf <;> simp [Entry.start, Entry.update, Entry.shown, h]

theorem Entry.update_shown (id : String) (isSelf : Bool) (last c : Contact) :
    (Entry.shown id isSelf last).update c = Entry.shown id isSelf c := by
  cases isSelf <;> simp [Entry.update, Entry.shown]

/-! ## Records one more -/

variable {records : List (String × Contact)} {id : String}

theorem mem_firstSeen : id ∈ firstSeen records ↔ id ∈ records.map (·.1) := List.mem_eraseDups

theorem firstSeen_concat (records : List (String × Contact)) (id : String) (c : Contact) :
    firstSeen (records ++ [(id, c)]) =
      if id ∈ records.map (·.1) then firstSeen records else firstSeen records ++ [id] := by
  rw [firstSeen, List.map_append, List.eraseDups_append]
  by_cases h : id ∈ records.map (·.1)
  · rw [if_pos h]
    have hnone : [id].removeAll (records.map (·.1)) = [] := by
      simpa [List.removeAll] using h
    simp [hnone, firstSeen]
  · rw [if_neg h]
    have hone : [id].removeAll (records.map (·.1)) = [id] := by
      simpa [List.removeAll] using h
    simp [hone, firstSeen, List.eraseDups_cons]

theorem lookup_eq_none (h : id ∉ records.map (·.1)) : records.lookup id = none := by
  rw [List.lookup_eq_none_iff]
  intro r hr
  simp only [bne_iff_ne, ne_eq]
  exact fun heq => h (List.mem_map.2 ⟨r, hr, heq.symm⟩)

theorem lookup_isSome (h : id ∈ records.map (·.1)) : ∃ c, records.lookup id = some c := by
  obtain ⟨r, hr, hid⟩ := List.mem_map.1 h
  rw [← Option.isSome_iff_exists, List.lookup_isSome_iff]
  exact ⟨r, hr, by simp [hid]⟩

theorem firstAsSelf_append_of_mem (h : id ∈ records.map (·.1))
    (more : List (String × Contact)) :
    firstAsSelf (records ++ more) id = firstAsSelf records id := by
  obtain ⟨c, hc⟩ := lookup_isSome h
  rw [firstAsSelf, firstAsSelf, List.lookup_append, hc, Option.some_or]

theorem firstAsSelf_append_of_not_mem (h : id ∉ records.map (·.1))
    (more : List (String × Contact)) : firstAsSelf (records ++ more) id = firstAsSelf more id := by
  rw [firstAsSelf, firstAsSelf, List.lookup_append, lookup_eq_none h, Option.none_or]

theorem firstAsSelf_singleton (id : String) (c : Contact) :
    firstAsSelf [(id, c)] id = c.isSelf := by
  simp [firstAsSelf]

theorem lastRecord?_concat_self (id : String) (c : Contact) :
    lastRecord? (records ++ [(id, c)]) id = some c := by
  simp [lastRecord?]

theorem lastRecord?_concat_of_ne {id' : String} (h : id ≠ id') (c : Contact) :
    lastRecord? (records ++ [(id', c)]) id = lastRecord? records id := by
  have hb : (id == id') = false := by simpa using h
  simp [lastRecord?, List.lookup_cons, hb]

theorem displayOrder_concat_of_mem (h : id ∈ records.map (·.1)) (c : Contact) :
    displayOrder (records ++ [(id, c)]) = displayOrder records := by
  have hrole : ∀ i ∈ firstSeen records,
      firstAsSelf (records ++ [(id, c)]) i = firstAsSelf records i :=
    fun i hi => firstAsSelf_append_of_mem (mem_firstSeen.1 hi) _
  rw [displayOrder, displayOrder, firstSeen_concat, if_pos h, List.filter_congr hrole]
  congr 1
  exact List.filter_congr fun i hi => by rw [hrole i hi]

theorem displayOrder_concat_of_not_mem (h : id ∉ records.map (·.1)) (c : Contact) :
    displayOrder (records ++ [(id, c)]) =
      if c.isSelf then id :: displayOrder records else displayOrder records ++ [id] := by
  have hrole : ∀ i ∈ firstSeen records,
      firstAsSelf (records ++ [(id, c)]) i = firstAsSelf records i :=
    fun i hi => firstAsSelf_append_of_mem (mem_firstSeen.1 hi) _
  have hnew : firstAsSelf (records ++ [(id, c)]) id = c.isSelf := by
    rw [firstAsSelf_append_of_not_mem h, firstAsSelf_singleton]
  have hothers : ∀ i ∈ firstSeen records,
      (!firstAsSelf (records ++ [(id, c)]) i) = !firstAsSelf records i :=
    fun i hi => by rw [hrole i hi]
  rw [displayOrder, displayOrder, firstSeen_concat, if_neg h, List.filter_append,
    List.filter_append, List.filter_congr hrole, List.filter_congr hothers]
  cases hc : c.isSelf <;> simp [hnew, hc]

theorem mem_displayOrder : id ∈ displayOrder records ↔ id ∈ records.map (·.1) := by
  rw [displayOrder, List.mem_append, List.mem_reverse, List.mem_filter, List.mem_filter,
    mem_firstSeen]
  cases firstAsSelf records id <;> simp

theorem displayOrder_sublist (records more : List (String × Contact)) :
    (displayOrder records).Sublist (displayOrder (records ++ more)) := by
  induction more using List.reverseRecOn with
  | nil => simp
  | append_singleton more r ih =>
      obtain ⟨id, c⟩ := r
      rw [← List.append_assoc]
      refine ih.trans ?_
      by_cases h : id ∈ (records ++ more).map (·.1)
      · rw [displayOrder_concat_of_mem h]
      · rw [displayOrder_concat_of_not_mem h]
        split
        · exact List.sublist_cons_self _ _
        · exact List.sublist_append_left _ _

theorem nodup_displayOrder (records : List (String × Contact)) : (displayOrder records).Nodup := by
  induction records using List.reverseRecOn with
  | nil => simp [displayOrder, firstSeen]
  | append_singleton records r ih =>
      obtain ⟨id, c⟩ := r
      by_cases h : id ∈ records.map (·.1)
      · rwa [displayOrder_concat_of_mem h]
      · have hid : id ∉ displayOrder records := fun hm => h (mem_displayOrder.1 hm)
        rw [displayOrder_concat_of_not_mem h]
        split
        · exact List.nodup_cons.2 ⟨hid, ih⟩
        · exact List.nodup_append.2
            ⟨ih, by simp, fun a ha b hb => by rintro rfl; simp_all⟩

/-! ## One record -/

namespace Roster

theorem any_id_iff (entries : List Entry) (id : String) :
    entries.any (·.id = id) = true ↔ id ∈ entries.map Entry.id := by
  simp

theorem map_id_refresh (id : String) (c : Contact) (entries : List Entry) :
    (refresh id c entries).map Entry.id = entries.map Entry.id := by
  rw [refresh, List.map_map]
  refine List.map_congr_left fun e _ => ?_
  by_cases h : e.id = id <;> simp [h]

theorem refresh_of_not_mem {entries : List Entry} {id : String}
    (h : id ∉ entries.map Entry.id) (c : Contact) : refresh id c entries = entries := by
  rw [refresh]
  conv_rhs => rw [← List.map_id entries]
  refine List.map_congr_left fun e he => ?_
  have hne : e.id ≠ id := fun heq => h (List.mem_map.2 ⟨e, he, heq⟩)
  simp [hne]

theorem applyRecord_of_mem {entries : List Entry} {id : String} (h : id ∈ entries.map Entry.id)
    (c : Contact) : (applyRecord entries id c).1 = refresh id c entries := by
  rw [applyRecord, place, if_pos ((any_id_iff entries id).2 h)]

theorem applyRecord_of_not_mem {entries : List Entry} {id : String}
    (h : id ∉ entries.map Entry.id) (c : Contact) :
    (applyRecord entries id c).1 =
      if c.isSelf then Entry.shown id c.isSelf c :: entries
      else entries ++ [Entry.shown id c.isSelf c] := by
  have hrest := refresh_of_not_mem h c
  rw [refresh] at hrest
  rw [applyRecord, place, if_neg fun hany => h ((any_id_iff entries id).1 hany), refresh]
  split <;> simp [hrest, Entry.update_start]

end Roster

/-- One more record keeps entries showing what the records amount to. -/
theorem Shows.applyRecord {entries : List Entry} (h : Shows records entries) (id : String)
    (c : Contact) : Shows (records ++ [(id, c)]) (Roster.applyRecord entries id c).1 := by
  have hseen : ∀ i, i ∈ entries.map Entry.id ↔ i ∈ records.map (·.1) := by
    intro i
    rw [h.ids, mem_displayOrder]
  -- the entries of other contacts show what they showed before
  have hkept : ∀ e ∈ entries, e.id ≠ id → ∃ last,
      lastRecord? (records ++ [(id, c)]) e.id = some last ∧
        e = Entry.shown e.id (firstAsSelf (records ++ [(id, c)]) e.id) last := by
    intro e he hne
    obtain ⟨last, hlast, hshown⟩ := h.entry e he
    refine ⟨last, by rw [lastRecord?_concat_of_ne hne, hlast], ?_⟩
    rwa [firstAsSelf_append_of_mem ((hseen _).1 (List.mem_map_of_mem he))]
  by_cases hm : id ∈ records.map (·.1)
  · rw [Roster.applyRecord_of_mem ((hseen id).2 hm)]
    constructor
    · rw [Roster.map_id_refresh, h.ids, displayOrder_concat_of_mem hm]
    · intro e' he'
      obtain ⟨e, he, rfl⟩ := List.mem_map.1 he'
      by_cases hid : e.id = id
      · obtain ⟨last, -, hshown⟩ := h.entry e he
        subst hid
        refine ⟨c, by simp [lastRecord?_concat_self], ?_⟩
        rw [if_pos rfl, Entry.id_update, firstAsSelf_append_of_mem hm]
        conv_lhs => rw [hshown, Entry.update_shown]
      · rw [if_neg hid]
        exact hkept e he hid
  · have hnew : id ∉ entries.map Entry.id := fun hmem => hm ((hseen id).1 hmem)
    have hshown : ∃ last, lastRecord? (records ++ [(id, c)]) (Entry.shown id c.isSelf c).id =
        some last ∧ Entry.shown id c.isSelf c = Entry.shown (Entry.shown id c.isSelf c).id
          (firstAsSelf (records ++ [(id, c)]) (Entry.shown id c.isSelf c).id) last := by
      refine ⟨c, lastRecord?_concat_self id c, ?_⟩
      rw [Entry.id_shown, firstAsSelf_append_of_not_mem hm, firstAsSelf_singleton]
    have hne : ∀ e ∈ entries, e.id ≠ id := fun e he heq => hnew (List.mem_map.2 ⟨e, he, heq⟩)
    rw [Roster.applyRecord_of_not_mem hnew]
    constructor
    · rw [displayOrder_concat_of_not_mem hm, ← h.ids]
      split <;> simp
    · intro e he
      have he' : e = Entry.shown id c.isSelf c ∨ e ∈ entries := by
        split at he <;> simpa [or_comm] using he
      rcases he' with rfl | hold
      · exact hshown
      · exact hkept e hold (hne e hold)

/-! ## Whole histories -/

namespace Roster

theorem applyRecords_append (entries : List Entry) (first second : List (String × Contact)) :
    (applyRecords entries (first ++ second)).1 =
      (applyRecords (applyRecords entries first).1 second).1 := by
  induction first generalizing entries with
  | nil => rfl
  | cons r first ih => exact ih _

theorem apply_entries (r : Roster) (report : Option ContactList) :
    (r.apply report).1.entries = (applyRecords r.entries (recordsOf [report])).1 := by
  cases report with
  | none => rfl
  | some list => simp [apply, recordsOf]

theorem applyAll_entries (r : Roster) (reports : List (Option ContactList)) :
    (r.applyAll reports).1.entries = (applyRecords r.entries (recordsOf reports)).1 := by
  induction reports generalizing r with
  | nil => rfl
  | cons report reports ih =>
      have hsplit : recordsOf (report :: reports) = recordsOf [report] ++ recordsOf reports := by
        simp [recordsOf]
      rw [hsplit, applyRecords_append, ← apply_entries]
      exact ih _

end Roster

theorem Shows.applyRecords {entries : List Entry} (h : Shows records entries)
    (more : List (String × Contact)) :
    Shows (records ++ more) (Roster.applyRecords entries more).1 := by
  induction more generalizing records entries with
  | nil => simpa [Roster.applyRecords] using h
  | cons r more ih =>
      have hnext := ih (h.applyRecord r.1 r.2)
      rw [List.append_assoc] at hnext
      exact hnext

theorem Shows.apply {r : Roster} (h : Shows records r.entries) (report : Option ContactList) :
    Shows (records ++ recordsOf [report]) (r.apply report).1.entries := by
  rw [Roster.apply_entries]
  exact h.applyRecords _

theorem shows_nil : Shows [] [] := ⟨rfl, by simp⟩

/-- A list that started empty shows what all its reports amount to. -/
theorem shows_applyAll (placeholder : Option String) (reports : List (Option ContactList)) :
    Shows (recordsOf reports) ((Roster.start placeholder).applyAll reports).1.entries := by
  rw [Roster.applyAll_entries]
  exact shows_nil.applyRecords _

end PeerWatch.Presence
