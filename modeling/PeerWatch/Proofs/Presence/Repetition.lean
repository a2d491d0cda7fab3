import PeerWatch.Proofs.Presence.News

/-!
# A report that comes again

A report that is applied once more leaves the displayed list as it is: which contacts are known, in
which role, and what is last known of them is the same as before. If the report names every contact
once, nothing but its new messages is told again.
-/

namespace PeerWatch.Presence

variable {records more : List (String × Contact)} {entries : List Entry}

/-! ## The list -/

/-- The entries are determined by the records that they show. -/
theorem Shows.entries_eq (h : Shows records entries) :
    entries = (displayOrder records).filterMap fun id =>
      (lastRecord? records id).map (Entry.shown id (firstAsSelf records id)) := by
  rw [← h.ids, List.filterMap_map]
  have hshown : ∀ e ∈ entries, ((fun id => (lastRecord? records id).map
      (Entry.shown id (firstAsSelf records id))) ∘ Entry.id) e = some e := by
    intro e he
    obtain ⟨c, hlast, hentry⟩ := h.entry e he
    rw [Function.comp_apply, hlast, Option.map_some, ← hentry]
  rw [List.filterMap_congr hshown, List.filterMap_some]

theorem displayOrder_append_of_known (h : ∀ r ∈ more, r.1 ∈ records.map (·.1)) :
    displayOrder (records ++ more) = displayOrder records := by
  induction more using List.reverseRecOn with
  | nil => rw [List.append_nil]
  | append_singleton more r ih =>
      obtain ⟨id, c⟩ := r
      have hid : id ∈ (records ++ more).map (·.1) := by
        rw [List.map_append]
        exact List.mem_append_left _ (h (id, c) (by simp))
      rw [← List.append_assoc, displayOrder_concat_of_mem hid]
      exact ih fun r hr => h r (List.mem_append_left _ hr)

/-- Records of known contacts that are known to be the last ones leave the list as it is. -/
theorem Shows.applyRecords_known (h : Shows records entries)
    (hknown : ∀ r ∈ more, r.1 ∈ records.map (·.1))
    (hlast : ∀ id, lastRecord? (records ++ more) id = lastRecord? records id) :
    (Roster.applyRecords entries more).1 = entries := by
  rw [(h.applyRecords more).entries_eq, displayOrder_append_of_known hknown]
  conv_rhs => rw [h.entries_eq]
  refine List.filterMap_congr fun id hid => ?_
  rw [hlast, firstAsSelf_append_of_mem (mem_displayOrder.1 hid)]

/-- The records of a report that comes again change nothing, even where several of them concern the
same contact. -/
theorem Shows.applyRecords_again (h : Shows (records ++ more) entries) :
    (Roster.applyRecords entries more).1 = entries := by
  refine h.applyRecords_known (fun r hr => ?_) fun id => ?_
  · exact List.mem_map_of_mem (List.mem_append_right _ hr)
  · rw [lastRecord?_append, lastRecord?_append, ← Option.or_assoc, Option.or_self]

/-! ## What is told -/

/-- The records of a report tell of their new messages by the roles that their contacts have in the
end. -/
theorem Shows.newsIn_applyRecords (h : Shows records entries) (more : List (String × Contact)) :
    newsIn (Roster.applyRecords entries more).2 =
      more.flatMap fun r => recordNews (firstAsSelf (records ++ more) r.1) r.1 r.2 := by
  induction more generalizing records entries with
  | nil => rfl
  | cons r more ih =>
      obtain ⟨id, c⟩ := r
      have hrole : firstAsSelf (records ++ [(id, c)] ++ more) id =
          firstAsSelf (records ++ [(id, c)]) id := firstAsSelf_append_of_mem (by simp) more
      rw [Roster.applyRecords_cons, newsIn_append, h.newsIn_applyRecord, ih (h.applyRecord id c),
        List.flatMap_cons, List.append_cons records (id, c) more, hrole]

section Known

variable {id : String} {c : Contact}

theorem mem_of_lastRecord? (h : lastRecord? records id = some c) : id ∈ records.map (·.1) := by
  by_contra hm
  have hnone : lastRecord? records id = none := lookup_eq_none (by simpa using hm)
  exact absurd (hnone.symm.trans h) (by simp)

/-- A record that the list shows already leaves it as it is. -/
theorem Shows.applyRecord_known (h : Shows records entries)
    (hlast : lastRecord? records id = some c) : (Roster.applyRecord entries id c).1 = entries := by
  show (Roster.applyRecords entries [(id, c)]).1 = entries
  refine h.applyRecords_known (fun r hr => ?_) fun other => ?_
  · obtain rfl : r = (id, c) := List.mem_singleton.1 hr
    exact mem_of_lastRecord? hlast
  · by_cases hid : other = id
    · rw [hid, lastRecord?_concat_self, hlast]
    · rw [lastRecord?_concat_of_ne hid]

/-- A record that the list shows already adds nobody and changes no status. -/
theorem Shows.changes_known (h : Shows records entries) (hlast : lastRecord? records id = some c) :
    (Roster.applyRecord entries id c).2 =
      (recordNews (firstAsSelf records id) id c).map .newMessages := by
  have hfind := h.find?_eq id
  rw [hlast, Option.map_some] at hfind
  have hany : entries.any (·.id = id) = true := by
    rw [← List.isSome_find?, hfind, Option.isSome_some]
  have hchanges : Roster.changes id c false entries =
      if firstAsSelf records id = false ∧ 0 < c.messages ∧ c.hasNew = true then
        [.newMessages ⟨id, c.messages, c.path ++ LinkKind.chat.ending⟩] else [] := by
    rw [Roster.changes, hfind]
    simp [Entry.shown, Entry.update, Entry.chatUrl]
  rw [Roster.applyRecord, Roster.place, if_pos hany, hany, Bool.not_true, hchanges, recordNews]
  split <;> rfl

end Known

/-- Records that the list shows already tell of their new messages and of nothing else. -/
theorem Shows.changes_again (h : Shows records entries)
    (hlast : ∀ r ∈ more, lastRecord? records r.1 = some r.2) :
    (Roster.applyRecords entries more).2 =
      (more.flatMap fun r => recordNews (firstAsSelf records r.1) r.1 r.2).map .newMessages := by
  induction more with
  | nil => rfl
  | cons r more ih =>
      obtain ⟨id, c⟩ := r
      have hfirst : lastRecord? records id = some c := hlast (id, c) List.mem_cons_self
      have hrest := ih fun r hr => hlast r (List.mem_cons_of_mem _ hr)
      rw [Roster.applyRecords_cons, h.applyRecord_known hfirst, h.changes_known hfirst, hrest,
        List.flatMap_cons, List.map_append]

/-! ## Reports -/

theorem Roster.apply_eq (r : Roster) (report : Option ContactList) :
    r.apply report =
      (⟨none, (applyRecords r.entries (recordsOf [report])).1⟩,
        (applyRecords r.entries (recordsOf [report])).2) := by
  cases report with
  | none => rfl
  | some list => simp [apply, recordsOf]

/-- A report that is applied a second time leaves the whole list as it is, and tells of the same new
messages in the same order. If it names every contact once it tells of nothing else. -/
theorem report_again_changes_nothing (placeholder : Option String)
    (history : List (Option ContactList)) (report : Option ContactList) :
    let old := ((Roster.start placeholder).applyAll history).1
    let once := old.apply report
    let twice := once.1.apply report
    twice.1 = once.1 ∧
      newsIn twice.2 = newsIn once.2 ∧
      (((recordsOf [report]).map (·.1)).Nodup →
        twice.2 = (newsIn once.2).map Change.newMessages) := by
  intro old once twice
  have hold : Shows (recordsOf history) old.entries := shows_applyAll placeholder history
  have honce : Shows (recordsOf history ++ recordsOf [report]) once.1.entries := hold.apply report
  have hnews : newsIn once.2 = (recordsOf [report]).flatMap fun r =>
      recordNews (firstAsSelf (recordsOf history ++ recordsOf [report]) r.1) r.1 r.2 := by
    show newsIn (old.apply report).2 = _
    rw [Roster.apply_eq, hold.newsIn_applyRecords]
  have hcleared : once.1 = ⟨none, once.1.entries⟩ := by
    show (old.apply report).1 = ⟨none, (old.apply report).1.entries⟩
    rw [Roster.apply_eq]
  have htwice : twice = (once.1,
      (Roster.applyRecords once.1.entries (recordsOf [report])).2) := by
    show once.1.apply report = _
    rw [Roster.apply_eq, honce.applyRecords_again, ← hcleared]
  rw [htwice]
  refine ⟨rfl, ?_, fun hd => ?_⟩
  · rw [honce.newsIn_applyRecords, hnews]
    refine List.flatMap_congr fun r hr => ?_
    have hseen : r.1 ∈ (recordsOf history ++ recordsOf [report]).map (·.1) :=
      List.mem_map_of_mem (List.mem_append_right _ hr)
    rw [firstAsSelf_append_of_mem hseen]
  · rw [hnews]
    exact honce.changes_again fun r hr => lastRecord?_append_of_mem hd hr

/-- A report with an own identity and new messages, for a list that knew their sender otherwise. -/
theorem report_again_tells_news_of_bob :
    let history := [some ⟨[("bob", ⟨none, none, "found", 0, "/b", false⟩)]⟩]
    let report : Option ContactList := some ⟨[("alice", ⟨none, none, "", 4, "/alice/myself", true⟩),
      ("bob", ⟨none, none, "away", 3, "/bob", true⟩)]⟩
    let once := ((Roster.start none).applyAll history).1.apply report
    ((recordsOf [report]).map (·.1)).Nodup ∧
      (once.1.apply report).2 = (newsIn once.2).map Change.newMessages ∧
      newsIn once.2 = [⟨"bob", 3, "/bob/chat/"⟩] := by
  intro history report once
  have hd : ((recordsOf [report]).map (·.1)).Nodup := by decide
  exact ⟨hd, (report_again_changes_nothing none history report).2.2 hd, by decide +kernel⟩

end PeerWatch.Presence
