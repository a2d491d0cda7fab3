import Mathlib.Logic.Function.Basic
import PeerWatch.Proofs.Presence.Order

/-!
# The changes as a log

Whoever sees only the changes that reports bring, and never the list, still knows the status of
every contact: `replay?` keeps an account of them, and refuses a change that does not fit it. The
changes of one record lead from the statuses before it to those after it (`replay_applyRecord`), and
so do those of all reports together.
-/

namespace PeerWatch.Presence

/-- The status of every contact that is known. -/
abbrev Statuses := String → Option String

def noStatuses : Statuses := fun _ => none

/-- What a change makes of the statuses so far. A contact is added once, with an empty status; it
must have been added before it gets another status, which must differ from the one it had. -/
def Change.replay? (known : Statuses) : Change → Option Statuses
  | .added id =>
    if known id = none then some (Function.update known id (some "")) else none
  | .status id now =>
    match known id with
    | none => none
    | some old => if old = now then none else some (Function.update known id (some now))
  | .newMessages _ => some known

/-- The statuses to which some changes lead. -/
def replay? (known : Statuses) (log : List Change) : Option Statuses :=
  log.foldlM Change.replay? known

/-- The statuses that some entries show. -/
def statusesOf (entries : List Entry) : Statuses :=
  fun id => (entries.find? (·.id = id)).map Entry.status

/-! ## Accounts that fit -/

variable {known after : Statuses} {log : List Change}

@[simp] theorem replay?_nil (known : Statuses) : replay? known [] = some known := rfl

@[simp] theorem replay?_cons (known : Statuses) (change : Change) (log : List Change) :
    replay? known (change :: log) =
      (change.replay? known).bind fun known => replay? known log := rfl

theorem replay?_append (known : Statuses) (first rest : List Change) :
    replay? known (first ++ rest) =
      (replay? known first).bind fun known => replay? known rest := by
  rw [replay?, List.foldlM_append]
  rfl

/-- All that a change which fits can do to an account. -/
theorem Change.replay?_cases {change : Change} (h : change.replay? known = some after) :
    (∃ id, change = .added id ∧ known id = none ∧
      after = Function.update known id (some "")) ∨
    (∃ id now old, change = .status id now ∧ known id = some old ∧ old ≠ now ∧
      after = Function.update known id (some now)) ∨
    (∃ m, change = .newMessages m ∧ after = known) := by
  cases change with
  | added id =>
      by_cases hknown : known id = none
      · exact .inl ⟨id, rfl, hknown, by simpa [replay?, hknown] using h.symm⟩
      · simp [replay?, hknown] at h
  | status id now =>
      refine .inr (.inl ⟨id, now, ?_⟩)
      cases hold : known id with
      | none => simp [replay?, hold] at h
      | some old =>
          by_cases hsame : old = now
          · simp [replay?, hold, hsame] at h
          · exact ⟨old, rfl, rfl, hsame, by simpa [replay?, hold, hsame] using h.symm⟩
  | newMessages m => exact .inr (.inr ⟨m, rfl, by simpa [replay?] using h.symm⟩)

/-- Only the addition of a contact makes it known, and only that of one that is not known yet. -/
theorem count_added_of_change {change : Change} (h : change.replay? known = some after)
    (id : String) :
    [change].count (.added id) + (known id).toList.length = (after id).toList.length := by
  rcases Change.replay?_cases h with
    ⟨id', rfl, hknown, rfl⟩ | ⟨id', now, old, rfl, hold, -, rfl⟩ | ⟨m, rfl, rfl⟩
  · by_cases hid : id' = id
    · subst hid
      simp [hknown]
    · rw [List.count_singleton, Function.update_of_ne (Ne.symm hid)]
      simp [hid]
  · by_cases hid : id' = id
    · subst hid
      simp [hold]
    · rw [Function.update_of_ne (Ne.symm hid)]
      simp
  · simp

/-- A contact that some changes made known was added by one of them, and only once. -/
theorem count_added_of_replay? (h : replay? known log = some after) (id : String) :
    log.count (.added id) + (known id).toList.length = (after id).toList.length := by
  induction log generalizing known with
  | nil =>
      obtain rfl : known = after := by simpa using h
      simp
  | cons change log ih =>
      rw [replay?_cons, Option.bind_eq_some_iff] at h
      obtain ⟨next, hnext, hrest⟩ := h
      have hfirst := count_added_of_change hnext id
      have hothers := ih hrest
      rw [← List.singleton_append, List.count_append]
      omega

/-- A status that is told differs from the one that was told before. -/
theorem status_ne_of_replay? {first rest : List Change} {id now : String}
    (h : replay? known (first ++ .status id now :: rest) = some after) :
    ∃ before old, replay? known first = some before ∧ before id = some old ∧ old ≠ now := by
  rw [replay?_append, Option.bind_eq_some_iff] at h
  obtain ⟨before, hfirst, hrest⟩ := h
  rw [replay?_cons, Option.bind_eq_some_iff] at hrest
  obtain ⟨next, hnext, -⟩ := hrest
  rcases Change.replay?_cases hnext with
    ⟨id', hchange, -⟩ | ⟨id', now', old, hchange, hold, hne, -⟩ | ⟨m, hchange, -⟩
  · simp at hchange
  · obtain ⟨rfl, rfl⟩ := Change.status.inj hchange
    exact ⟨before, old, hfirst, hold, hne⟩
  · simp at hchange

/-! ## One record -/

section Record

variable {entries : List Entry} {id : String} (c : Contact)

theorem statusesOf_eq_none (h : id ∉ entries.map Entry.id) : statusesOf entries id = none := by
  have hnone : entries.find? (·.id = id) = none := by
    rw [List.find?_eq_none]
    intro e he
    simp only [decide_eq_true_eq]
    exact fun heq => h (List.mem_map.2 ⟨e, he, heq⟩)
  rw [statusesOf, hnone, Option.map_none]

theorem find?_id_of_mem (h : id ∈ entries.map Entry.id) :
    ∃ e, entries.find? (·.id = id) = some e := by
  obtain ⟨e, he, hid⟩ := List.mem_map.1 h
  rw [← Option.isSome_iff_exists, List.find?_isSome]
  exact ⟨e, he, by simp [hid]⟩

/-- A contact that is given room has an empty status. -/
theorem statusesOf_place (h : id ∉ entries.map Entry.id) :
    statusesOf (Roster.place id c entries) =
      Function.update (statusesOf entries) id (some "") := by
  have hany : ¬ entries.any (·.id = id) = true := fun hany =>
    h ((Roster.any_id_iff entries id).1 hany)
  funext i
  rw [Roster.place, if_neg hany]
  by_cases hi : i = id
  · subst hi
    have hnone := statusesOf_eq_none h
    rw [statusesOf, Option.map_eq_none_iff] at hnone
    rw [Function.update_self]
    split <;> simp [statusesOf, List.find?_append, hnone, Entry.start]
  · rw [Function.update_of_ne hi]
    have hne : ¬ id = i := fun heq => hi heq.symm
    split <;> simp [statusesOf, List.find?_append, hne]

/-- A record gives its contact the status that it reports. -/
theorem statusesOf_refresh (h : id ∈ entries.map Entry.id) :
    statusesOf (Roster.refresh id c entries) =
      Function.update (statusesOf entries) id (some c.status) := by
  have hfind (i : String) : (Roster.refresh id c entries).find? (·.id = i) =
      (entries.find? (·.id = i)).map fun e => if e.id = id then e.update c else e := by
    rw [Roster.refresh, List.find?_map]
    congr 2
    funext e
    by_cases he : e.id = id <;> simp [he]
  funext i
  by_cases hi : i = id
  · subst hi
    obtain ⟨e, he⟩ := find?_id_of_mem h
    have hid : e.id = i := by simpa using List.find?_some he
    rw [Function.update_self, statusesOf, hfind, he]
    simp [hid, Entry.update]
  · rw [Function.update_of_ne hi, statusesOf, statusesOf, hfind, Option.map_map]
    refine Option.map_congr fun e he => ?_
    have hid : e.id = i := by simpa using List.find?_some he
    have hne : ¬ e.id = id := fun heq => hi (hid.symm.trans heq)
    simp [hne]

theorem changes_of_new (id : String) (entries : List Entry) :
    Roster.changes id c true entries = .added id :: Roster.changes id c false entries := by
  unfold Roster.changes
  cases entries.find? (·.id = id) <;> rfl

theorem replay_changes (h : id ∈ entries.map Entry.id) :
    replay? (statusesOf entries) (Roster.changes id c false entries) =
      some (statusesOf (Roster.refresh id c entries)) := by
  obtain ⟨e, he⟩ := find?_id_of_mem h
  have hold : statusesOf entries id = some e.status := by rw [statusesOf, he, Option.map_some]
  rw [statusesOf_refresh c h, Roster.changes, he]
  have hnews (known : Statuses) (b : Prop) [Decidable b] (m : NewMessages) :
      replay? known (if b then [.newMessages m] else []) = some known := by
    split <;> rfl
  simp only [Bool.false_eq_true, if_false, List.nil_append]
  rw [replay?_append]
  by_cases hsame : e.status = c.status
  · rw [if_neg (not_not_intro hsame), replay?_nil, Option.bind_some, hnews, ← hsame, ← hold,
      Function.update_eq_self]
  · rw [if_pos hsame]
    simp only [replay?_cons, Change.replay?, hold, if_neg hsame, replay?_nil, Option.bind_some]
    exact hnews _ _ _

/-- The changes of one record lead from the statuses before it to those after it. -/
theorem replay_applyRecord (entries : List Entry) (id : String) :
    replay? (statusesOf entries) (Roster.applyRecord entries id c).2 =
      some (statusesOf (Roster.applyRecord entries id c).1) := by
  have hany := Roster.any_id_iff entries id
  rw [Roster.applyRecord]
  by_cases hm : id ∈ entries.map Entry.id
  · rw [hany.2 hm, Roster.place, if_pos (hany.2 hm)]
    exact replay_changes c hm
  · have hnew : entries.any (·.id = id) = false := by
      rw [← Bool.not_eq_true]
      exact fun h => hm (hany.1 h)
    -- once the contact has its room, the rest of the record is that of a known one
    have hplaced : id ∈ (Roster.place id c entries).map Entry.id := by
      rw [Roster.place, hnew]
      cases c.isSelf <;> simp
    have hadded : Change.replay? (statusesOf entries) (.added id) =
        some (statusesOf (Roster.place id c entries)) := by
      rw [Change.replay?, if_pos (statusesOf_eq_none hm), statusesOf_place c hm]
    rw [hnew, Bool.not_false, changes_of_new, replay?_cons, hadded, Option.bind_some]
    exact replay_changes c hplaced

end Record

/-! ## Whole histories -/

theorem replay_applyRecords (entries : List Entry) (records : List (String × Contact)) :
    replay? (statusesOf entries) (Roster.applyRecords entries records).2 =
      some (statusesOf (Roster.applyRecords entries records).1) := by
  induction records generalizing entries with
  | nil => rfl
  | cons r records ih =>
      obtain ⟨id, c⟩ := r
      rw [Roster.applyRecords, replay?_append, replay_applyRecord, Option.bind_some]
      exact ih _

theorem replay_apply (r : Roster) (report : Option ContactList) :
    replay? (statusesOf r.entries) (r.apply report).2 =
      some (statusesOf (r.apply report).1.entries) := by
  cases report with
  | none => rfl
  | some list => exact replay_applyRecords r.entries list.contacts

theorem replay_applyAll (r : Roster) (reports : List (Option ContactList)) :
    replay? (statusesOf r.entries) (r.applyAll reports).2.flatten =
      some (statusesOf (r.applyAll reports).1.entries) := by
  induction reports generalizing r with
  | nil => rfl
  | cons report reports ih =>
      rw [Roster.applyAll, List.flatten_cons, replay?_append, replay_apply, Option.bind_some]
      exact ih _

theorem statusesOf_eq_some_iff {entries : List Entry} (hd : (entries.map Entry.id).Nodup)
    (id status : String) :
    statusesOf entries id = some status ↔ ∃ e ∈ entries, e.id = id ∧ e.status = status := by
  rw [statusesOf, Option.map_eq_some_iff]
  constructor
  · rintro ⟨e, he, hstatus⟩
    exact ⟨e, List.mem_of_find?_eq_some he, by simpa using List.find?_some he, hstatus⟩
  · rintro ⟨e, he, hid, hstatus⟩
    obtain ⟨e', he'⟩ := find?_id_of_mem (List.mem_map.2 ⟨e, he, hid⟩)
    have hid' : e'.id = id := by simpa using List.find?_some he'
    have heq : e' = e :=
      List.inj_on_of_nodup_map hd (List.mem_of_find?_eq_some he') he (hid'.trans hid.symm)
    exact ⟨e', he', heq ▸ hstatus⟩

/-- The changes of all reports to a list that started empty can be replayed, and lead to exactly the
statuses that its entries show. Every contact in the reports is added once over all of them, and
nobody else is. A status is told only where it differs from the one told before. -/
theorem changes_replay_to_statuses (placeholder : Option String)
    (reports : List (Option ContactList)) :
    let r := ((Roster.start placeholder).applyAll reports).1
    let log := ((Roster.start placeholder).applyAll reports).2.flatten
    (∃ known, replay? noStatuses log = some known ∧
      ∀ id status, known id = some status ↔ ∃ e ∈ r.entries, e.id = id ∧ e.status = status) ∧
    (∀ id, log.count (.added id) = if id ∈ (recordsOf reports).map (·.1) then 1 else 0) ∧
    ∀ first id now rest, log = first ++ .status id now :: rest →
      ∃ before old, replay? noStatuses first = some before ∧ before id = some old ∧
        old ≠ now := by
  intro r log
  have hshows : Shows (recordsOf reports) r.entries := shows_applyAll placeholder reports
  have hreplay : replay? noStatuses log = some (statusesOf r.entries) :=
    replay_applyAll (Roster.start placeholder) reports
  refine ⟨⟨_, hreplay, statusesOf_eq_some_iff hshows.nodup_ids⟩, fun id => ?_, ?_⟩
  · have hcount := count_added_of_replay? hreplay id
    have hseen : id ∈ r.entries.map Entry.id ↔ id ∈ (recordsOf reports).map (·.1) := by
      rw [hshows.ids, mem_displayOrder]
    by_cases hm : id ∈ (recordsOf reports).map (·.1)
    · obtain ⟨e, he⟩ := find?_id_of_mem (hseen.2 hm)
      rw [if_pos hm]
      simpa [noStatuses, statusesOf, he] using hcount
    · rw [statusesOf_eq_none (mt hseen.1 hm)] at hcount
      rw [if_neg hm]
      simpa [noStatuses] using hcount
  · intro first id now rest hlog
    rw [hlog] at hreplay
    exact status_ne_of_replay? hreplay

/- A contact without a status, a report that holds nothing, and one that names a contact twice. -/
example :
    ((Roster.start none).applyAll [some ⟨[("bob", ⟨none, none, "", 0, "", false⟩)]⟩, none,
      some ⟨[("bob", ⟨none, none, "found", 0, "", false⟩),
        ("bob", ⟨none, none, "away", 0, "", false⟩)]⟩]).2 =
      [[.added "bob"], [], [.status "bob" "found", .status "bob" "away"]] := by
  decide +kernel

end PeerWatch.Presence
