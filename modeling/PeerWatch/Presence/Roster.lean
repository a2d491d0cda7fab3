import PeerWatch.Presence.Entry
import PeerWatch.Cue.Notification

/-!
# The displayed contact list

Successive reports of a node are folded into one entry per contact. An entry stays once its contact
was seen; the user's own identities come first. Each report also yields what changed, record by
record.
-/

namespace PeerWatch.Presence

/-- New private messages that wait for the user. -/
structure NewMessages where
  contact : String
  count : Nat
  chatUrl : String
  deriving DecidableEq, Repr

/-- The notification of new messages, which leads to the chat. -/
def NewMessages.notification (m : NewMessages) : Cue.Notification :=
  Cue.Notification.make ("New private message from " ++ m.contact)
    ("(" ++ toString m.count ++ " unread messages)") ("newmessage_" ++ m.contact) (some m.chatUrl)

/-- What changed in the list. -/
inductive Change
  | added (contact : String)
  | status (contact status : String)
  | newMessages (m : NewMessages)
  deriving DecidableEq, Repr

/-- The contact list as it is displayed. -/
structure Roster where
  /-- A text shown until the first report. -/
  placeholder : Option String
  entries : List Entry
  deriving DecidableEq, Repr

namespace Roster

def start (placeholder : Option String) : Roster := ⟨placeholder, []⟩

def entry? (r : Roster) (id : String) : Option Entry := r.entries.find? (·.id = id)

/-- Makes room for a contact: a new entry goes to the front if it is the user's own identity, and to
the end otherwise. -/
def place (id : String) (c : Contact) (entries : List Entry) : List Entry :=
  if entries.any (·.id = id) then entries
  else if c.isSelf then Entry.start id c :: entries
  else entries ++ [Entry.start id c]

def refresh (id : String) (c : Contact) (entries : List Entry) : List Entry :=
  entries.map fun e => if e.id = id then e.update c else e

/-- What the record of a contact changes in entries that have room for it. -/
def changes (id : String) (c : Contact) (isNew : Bool) (entries : List Entry) : List Change :=
  let added := if isNew then [.added id] else []
  match entries.find? (·.id = id) with
  | none => added
  | some e =>
    added ++ (if e.status ≠ c.status then [.status id c.status] else [])
      ++ (if ¬ e.isSelf ∧ c.messages > 0 ∧ c.hasNew then
        [.newMessages ⟨id, c.messages, (e.update c).chatUrl⟩] else [])

def applyRecord (entries : List Entry) (id : String) (c : Contact) : List Entry × List Change :=
  let placed := place id c entries
  (refresh id c placed, changes id c (! entries.any (·.id = id)) placed)

def applyRecords (entries : List Entry) : List (String × Contact) → List Entry × List Change
  | [] => (entries, [])
  | (id, c) :: rest =>
    let (entries, first) := applyRecord entries id c
    let (entries, others) := applyRecords entries rest
    (entries, first ++ others)

/-- Applies a report, which takes the placeholder away even when it holds nothing. -/
def apply (r : Roster) (report : Option ContactList) : Roster × List Change :=
  match report with
  | none => ({ r with placeholder := none }, [])
  | some list =>
    let (entries, changes) := applyRecords r.entries list.contacts
    (⟨none, entries⟩, changes)

/-- Applies reports in order, with the changes that each of them brings. -/
def applyAll (r : Roster) : List (Option ContactList) → Roster × List (List Change)
  | [] => (r, [])
  | report :: rest =>
    let (r, first) := r.apply report
    let (r, others) := r.applyAll rest
    (r, first :: others)

/-- The markup of the list: the placeholder, then the entries. -/
def render (r : Roster) : String :=
  (match r.placeholder with
    | some text => "<p>" ++ Markup.escape text ++ "</p>"
    | none => "")
    ++ String.join (r.entries.map Entry.render)

end Roster
end PeerWatch.Presence
