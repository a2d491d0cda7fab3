import PeerWatch.Presence.Alert
import PeerWatch.Proofs.Presence.Freshness
import PeerWatch.Proofs.Presence.Upkeep

/-!
# New messages, record by record

A record tells of new messages if it counts some, marks them as new, and its contact is not
displayed as an own identity. What it tells then agrees with the entry that it leaves: the number is
the one displayed, and the chat to which the notification leads is the one that the entry links to.
-/

namespace PeerWatch.Presence

/-- The new messages that a record tells of, given the role of its contact. -/
def recordNews (isSelf : Bool) (id : String) (c : Contact) : List NewMessages :=
  if isSelf = false ∧ 0 < c.messages ∧ c.hasNew = true then
    [⟨id, c.messages, c.path ++ LinkKind.chat.ending⟩]
  else []

/-- The new messages among some changes. -/
def newsIn (log : List Change) : List NewMessages := log.filterMap Change.news?

/-- Whatever leads from new messages and from the entry of their contact to the chat leads to the
same address. -/
structure NewMessages.LeadsTo (m : NewMessages) (e : Entry) (address : String) : Prop where
  chatUrl : m.chatUrl = address
  click : m.notification.target = some address
  entryUrl : e.chatUrl = address
  link : e.links.filter (·.kind = .chat) = [⟨.chat, address⟩]
  badge : e.badge =
    " <a href=\"" ++ Markup.escape address ++ "\">(" ++ toString m.count ++ ")</a>"

variable {records : List (String × Contact)} {entries : List Entry}

theorem newsIn_append (first rest : List Change) :
    newsIn (first ++ rest) = newsIn first ++ newsIn rest := List.filterMap_append

/-- The number that is told is the one that the entry displays. -/
theorem recordNews_eq_unread (isSelf : Bool) (id : String) (c : Contact) :
    recordNews isSelf id c =
      if isSelf = false ∧ 0 < c.messages ∧ c.hasNew = true then
        [⟨id, (Entry.shown id isSelf c).unread, c.path ++ "/chat/"⟩]
      else [] := by
  cases isSelf <;> rfl

theorem leadsTo_of_mem_recordNews {isSelf : Bool} {id : String} {c : Contact} {m : NewMessages}
    (h : m ∈ recordNews isSelf id c) :
    m.LeadsTo (Entry.shown id isSelf c) (c.path ++ LinkKind.chat.ending) := by
  rw [recordNews] at h
  split at h
  · next hnew =>
    obtain ⟨hrole, hcount, -⟩ := hnew
    obtain rfl : m = ⟨id, c.messages, c.path ++ LinkKind.chat.ending⟩ := by simpa using h
    subst hrole
    have hshown : ¬(c.messages = 0) := by omega
    exact ⟨rfl, rfl, rfl, by simp [Entry.shown, Entry.kinds, Entry.linkTo],
      by simp [Entry.badge, Entry.shown, Entry.chatUrl, hshown]⟩
  · exact absurd h List.not_mem_nil

/-! ## One record -/

namespace Roster

/-- The entry that a record meets is the one its contact has, or one made for it. -/
theorem find?_place (id : String) (c : Contact) (entries : List Entry) :
    (place id c entries).find? (·.id = id) =
      some ((entries.find? (·.id = id)).getD (Entry.start id c)) := by
  rw [place, ← List.isSome_find?]
  cases hknown : entries.find? (·.id = id) with
  | some e => simp [hknown]
  | none =>
      cases hrole : c.isSelf <;> simp [List.find?_append, hknown]

theorem newsIn_changes {id : String} {e : Entry} (he : entries.find? (·.id = id) = some e)
    (c : Contact) (isNew : Bool) :
    newsIn (changes id c isNew entries) = recordNews e.isSelf id c := by
  have hadded : newsIn (if isNew then [.added id] else []) = [] := by cases isNew <;> rfl
  have hstatus : newsIn (if e.status ≠ c.status then [.status id c.status] else []) = [] := by
    split <;> rfl
  rw [changes, he, newsIn_append, newsIn_append, hadded, hstatus, recordNews]
  simp only [Bool.not_eq_true, gt_iff_lt, List.nil_append]
  split <;> rfl

end Roster

theorem Shows.find?_eq (h : Shows records entries) (id : String) :
    entries.find? (·.id = id) =
      (lastRecord? records id).map (Entry.shown id (firstAsSelf records id)) :=
  Shows.lookup_eq (r := ⟨none, entries⟩) h id

/-- A record leaves a known contact its role, and gives a new one its own. -/
theorem Shows.firstAsSelf_concat (h : Shows records entries) (id : String) (c : Contact) :
    firstAsSelf (records ++ [(id, c)]) id =
      ((entries.find? (·.id = id)).map Entry.isSelf).getD c.isSelf := by
  rw [h.find?_eq id]
  by_cases hm : id ∈ records.map (·.1)
  · obtain ⟨last, hlast⟩ := lastRecord?_isSome hm
    rw [firstAsSelf_append_of_mem hm, hlast]
    rfl
  · have hlast : lastRecord? records id = none := lookup_eq_none (by simpa using hm)
    rw [firstAsSelf_append_of_not_mem hm, firstAsSelf_singleton, hlast]
    rfl

/-- A record tells of its new messages by the role that its contact has from then on. -/
theorem Shows.newsIn_applyRecord (h : Shows records entries) (id : String) (c : Contact) :
    newsIn (Roster.applyRecord entries id c).2 =
      recordNews (firstAsSelf (records ++ [(id, c)]) id) id c := by
  rw [Roster.applyRecord, Roster.newsIn_changes (Roster.find?_place id c entries),
    h.firstAsSelf_concat id c]
  cases entries.find? (·.id = id) <;> rfl

namespace Roster

theorem applyRecords_cons (entries : List Entry) (id : String) (c : Contact)
    (rest : List (String × Contact)) :
    applyRecords entries ((id, c) :: rest) =
      ((applyRecords (applyRecord entries id c).1 rest).1,
        (applyRecord entries id c).2 ++ (applyRecords (applyRecord entries id c).1 rest).2) := rfl

/-- The records of a report are applied one after the other, and so are the changes told. -/
theorem applyRecords_around (entries : List Entry) (before after : List (String × Contact))
    (id : String) (c : Contact) :
    let earlier := applyRecords entries before
    let now := applyRecord earlier.1 id c
    let later := applyRecords now.1 after
    applyRecords entries (before ++ (id, c) :: after) =
      (later.1, earlier.2 ++ now.2 ++ later.2) := by
  induction before generalizing entries with
  | nil => rfl
  | cons r before ih =>
      obtain ⟨first, contact⟩ := r
      rw [List.cons_append, applyRecords_cons, applyRecords_cons, ih]
      simp only [List.append_assoc]

end Roster

/-- A report tells of new messages once for each of its records that counts some and marks them as
new, unless the contact is displayed as an own identity, and it tells of no others. Each time the
number is the one that the entry displays from then on, and the notification, its click, the link of
the entry and that of its badge all lead to the chat under the path of the record. -/
theorem record_tells_its_news (placeholder : Option String) (history : List (Option ContactList))
    (before after : List (String × Contact)) (id : String) (c : Contact) :
    let old := ((Roster.start placeholder).applyAll history).1
    let earlier := Roster.applyRecords old.entries before
    let now := Roster.applyRecord earlier.1 id c
    let later := Roster.applyRecords now.1 after
    let known := earlier.1.find? (·.id = id)
    old.apply (some ⟨before ++ (id, c) :: after⟩) =
        (⟨none, later.1⟩, earlier.2 ++ now.2 ++ later.2) ∧
      ∃ e, now.1.find? (·.id = id) = some e ∧
        e.isSelf = (known.map Entry.isSelf).getD c.isSelf ∧
        newsIn now.2 =
          (if e.isSelf = false ∧ 0 < c.messages ∧ c.hasNew = true then
            [⟨id, e.unread, c.path ++ "/chat/"⟩] else []) ∧
        ∀ m ∈ newsIn now.2, m.LeadsTo e (c.path ++ "/chat/") := by
  intro old earlier now later known
  have hold : Shows (recordsOf history) old.entries := shows_applyAll placeholder history
  have hearlier : Shows (recordsOf history ++ before) earlier.1 := hold.applyRecords before
  have hnow := (hearlier.applyRecord id c).find?_eq id
  rw [lastRecord?_concat_self, Option.map_some] at hnow
  have hnews := hearlier.newsIn_applyRecord id c
  refine ⟨?_, _, hnow, hearlier.firstAsSelf_concat id c, ?_, fun m hm => ?_⟩
  · rw [Roster.apply]
    simp only [Roster.applyRecords_around]
    rfl
  · rw [hnews]
    exact recordNews_eq_unread _ id c
  · rw [hnews] at hm
    exact leadsTo_of_mem_recordNews hm

end PeerWatch.Presence
