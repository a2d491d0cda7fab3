import PeerWatch.Proofs.Presence.History

/-!
# Entries kept up to date

A report touches the entries of its own contacts only. Those show the last of its records on them,
and whatever else they show follows from that record and their role. The entries of all others are
left as they are, in the order in which they stand.
-/

namespace PeerWatch.Presence

/-- What an entry shows beside its status and its unread messages follows from its identifier, its
role, its path and its status; and an own identity has no unread messages. -/
structure Entry.Coherent (e : Entry) : Prop where
  links : e.links =
    if e.isSelf then [⟨.files, e.path ++ "/files/"⟩]
    else [⟨.files, e.path ++ "/files/"⟩, ⟨.board, e.path ++ "/board/"⟩,
      ⟨.chat, e.path ++ "/chat/"⟩]
  statusLabel : e.statusLabel = Text.capitalize e.status
  displayName : e.displayName = if e.isSelf then "Myself" else e.id
  unread : e.isSelf = true → e.unread = 0

theorem Entry.coherent_shown (id : String) (isSelf : Bool) (c : Contact) :
    (Entry.shown id isSelf c).Coherent := by
  cases isSelf <;> exact ⟨rfl, rfl, rfl, by simp [Entry.shown]⟩

variable {records : List (String × Contact)} {entries : List Entry}

theorem Shows.coherent (h : Shows records entries) {e : Entry} (he : e ∈ entries) :
    e.Coherent := by
  obtain ⟨c, -, hshown⟩ := h.entry e he
  rw [hshown]
  exact Entry.coherent_shown _ _ c

/-! ## The last record of a contact -/

theorem lastRecord?_append (first rest : List (String × Contact)) (id : String) :
    lastRecord? (first ++ rest) id = (lastRecord? rest id).or (lastRecord? first id) := by
  rw [lastRecord?, List.reverse_append, List.lookup_append]
  rfl

theorem lastRecord?_isSome {id : String} (h : id ∈ records.map (·.1)) :
    ∃ c, lastRecord? records id = some c :=
  lookup_isSome (by simpa using h)

/-- An entry whose contact is among the latest records shows the last of them. -/
theorem Shows.shown_latest {latest : List (String × Contact)}
    (h : Shows (records ++ latest) entries) {e : Entry} (he : e ∈ entries)
    (hid : e.id ∈ latest.map (·.1)) :
    ∃ c, lastRecord? latest e.id = some c ∧ e = Entry.shown e.id e.isSelf c := by
  obtain ⟨c, hlast, hshown⟩ := h.entry e he
  obtain ⟨c', hlatest⟩ := lastRecord?_isSome hid
  rw [lastRecord?_append, hlatest, Option.some_or] at hlast
  obtain rfl : c' = c := Option.some.inj hlast
  have hrole := congrArg Entry.isSelf hshown
  rw [Entry.isSelf_shown] at hrole
  exact ⟨c', hlatest, by rwa [hrole]⟩

/-! ## Entries of others -/

namespace Roster

/-- A record leaves the entries of other contacts alone, whatever room it takes. -/
theorem filter_applyRecord {p : Entry → Bool} {id : String} (h : ∀ e, e.id = id → p e = false)
    (entries : List Entry) (c : Contact) :
    (applyRecord entries id c).1.filter p = entries.filter p := by
  by_cases hm : id ∈ entries.map Entry.id
  · rw [applyRecord_of_mem hm, refresh]
    -- refreshing entry by entry, whether the contact is among them or not
    clear hm
    induction entries with
    | nil => rfl
    | cons e entries ih =>
        by_cases he : e.id = id
        · have hbefore : ¬ p e = true := ne_true_of_eq_false (h e he)
          have hafter : ¬ p (e.update c) = true := ne_true_of_eq_false (h (e.update c) he)
          rw [List.map_cons, if_pos he, List.filter_cons_of_neg hafter,
            List.filter_cons_of_neg hbefore, ih]
        · rw [List.map_cons, if_neg he, List.filter_cons, List.filter_cons, ih]
  · have hnew : p (Entry.shown id c.isSelf c) = false := h _ rfl
    rw [applyRecord_of_not_mem hm]
    split <;> simp [hnew]

theorem filter_applyRecords {p : Entry → Bool} {records : List (String × Contact)}
    (h : ∀ e, e.id ∈ records.map (·.1) → p e = false) (entries : List Entry) :
    (applyRecords entries records).1.filter p = entries.filter p := by
  induction records generalizing entries with
  | nil => rfl
  | cons r records ih =>
      obtain ⟨id, c⟩ := r
      have hrest := ih (fun e he => h e (List.mem_cons_of_mem _ he)) (applyRecord entries id c).1
      rw [filter_applyRecord fun e he => h e (by simp [he])] at hrest
      exact hrest

end Roster

/-- A report leaves every entry alone whose contact it does not name. Every contact that it names
has an entry afterwards, and shows the path, the status and, unless it is an own identity, the
number of unread messages of its last record in the report. All else that entries show is coherent
with that at any time. -/
theorem apply_refreshes_reported (placeholder : Option String)
    (history : List (Option ContactList)) (report : Option ContactList) :
    let old := ((Roster.start placeholder).applyAll history).1
    let new := (old.apply report).1
    let reported := recordsOf [report]
    let isOther := fun e : Entry => decide (e.id ∉ reported.map (·.1))
    new.entries.filter isOther = old.entries.filter isOther ∧
      (∀ id ∈ reported.map (·.1), ∃ e ∈ new.entries, e.id = id) ∧
      (∀ e ∈ new.entries, e.id ∈ reported.map (·.1) →
        ∃ c, lastRecord? reported e.id = some c ∧ e.path = c.path ∧ e.status = c.status ∧
          (e.isSelf = false → e.unread = c.messages)) ∧
      ∀ e ∈ old.entries, e.Coherent := by
  intro old new reported isOther
  have hold : Shows (recordsOf history) old.entries := shows_applyAll placeholder history
  have hnew : Shows (recordsOf history ++ reported) new.entries := hold.apply report
  refine ⟨?_, fun id hid => ?_, fun e he hid => ?_, fun e he => hold.coherent he⟩
  · show (old.apply report).1.entries.filter isOther = _
    rw [Roster.apply_entries]
    exact Roster.filter_applyRecords (fun e he => by simpa [isOther] using he) old.entries
  · have hshown : id ∈ new.entries.map Entry.id := by
      rw [hnew.ids, mem_displayOrder, List.map_append]
      exact List.mem_append_right _ hid
    exact List.mem_map.1 hshown
  · obtain ⟨c, hlast, hshown⟩ := hnew.shown_latest he hid
    refine ⟨c, hlast, ?_⟩
    rw [hshown]
    refine ⟨rfl, rfl, fun hrole => ?_⟩
    have hnot : e.isSelf = false := hrole
    simp [Entry.shown, hnot]

end PeerWatch.Presence
