import PeerWatch.Proofs.Presence.History

/-!
# The order of the displayed list

A list that started empty shows one entry for each contact, the user's own identities in a block at
the front. An entry that stands is never taken away, and two of them never change their order.
-/

namespace PeerWatch.Presence

theorem Shows.isSelf_eq {records : List (String × Contact)} {entries : List Entry}
    (h : Shows records entries) {e : Entry} (he : e ∈ entries) :
    e.isSelf = firstAsSelf records e.id := by
  obtain ⟨c, -, hshown⟩ := h.entry e he
  rw [hshown, Entry.isSelf_shown, Entry.id_shown]

theorem Shows.nodup_ids {records : List (String × Contact)} {entries : List Entry}
    (h : Shows records entries) : (entries.map Entry.id).Nodup := by
  rw [h.ids]
  exact nodup_displayOrder records

theorem Shows.own_first {records : List (String × Contact)} {entries : List Entry}
    (h : Shows records entries) :
    ∃ own others, entries = own ++ others ∧ (∀ e ∈ own, e.isSelf = true) ∧
      ∀ e ∈ others, e.isSelf = false := by
  obtain ⟨own, others, rfl, hown, hothers⟩ := List.map_eq_append_iff.1 h.ids
  refine ⟨own, others, rfl, fun e he => ?_, fun e he => ?_⟩
  · have hid : e.id ∈ own.map Entry.id := List.mem_map_of_mem he
    rw [hown, List.mem_reverse, List.mem_filter] at hid
    rw [h.isSelf_eq (List.mem_append_left _ he)]
    exact hid.2
  · have hid : e.id ∈ others.map Entry.id := List.mem_map_of_mem he
    rw [hothers, List.mem_filter, Bool.not_eq_true'] at hid
    rw [h.isSelf_eq (List.mem_append_right _ he)]
    exact hid.2

/-- Entries stand in the display order of the records so far, each identifier once. Own identities
are those that were first seen as such, and form a block at the front. Further reports neither take
an entry away nor change the order of two of them. -/
theorem entries_in_display_order (placeholder : Option String)
    (reports more : List (Option ContactList)) :
    let before := ((Roster.start placeholder).applyAll reports).1.entries
    let after := ((Roster.start placeholder).applyAll (reports ++ more)).1.entries
    (before.map Entry.id).Nodup ∧
      before.map Entry.id = displayOrder (recordsOf reports) ∧
      (∀ e ∈ before, e.isSelf = firstAsSelf (recordsOf reports) e.id) ∧
      (∃ own others, before = own ++ others ∧ (∀ e ∈ own, e.isSelf = true) ∧
        ∀ e ∈ others, e.isSelf = false) ∧
      (before.map Entry.id).Sublist (after.map Entry.id) := by
  intro before after
  have hbefore : Shows (recordsOf reports) before := shows_applyAll placeholder reports
  have hafter : Shows (recordsOf (reports ++ more)) after :=
    shows_applyAll placeholder (reports ++ more)
  refine ⟨hbefore.nodup_ids, hbefore.ids, fun e he => hbefore.isSelf_eq he, hbefore.own_first, ?_⟩
  rw [hbefore.ids, hafter.ids, recordsOf, recordsOf, List.flatMap_append]
  exact displayOrder_sublist _ _

end PeerWatch.Presence
