import PeerWatch.Presence.Stage

/-!
# Watching contacts

Every report that a poller brings is applied to the displayed list, and the calls that its changes
lead to are made at once, one after the other.
-/

namespace PeerWatch.Presence

open PeerWatch.Cue (Trigger)
open PeerWatch.Time (Timeline)

/-- What drives a watcher: its poller, and what tells that the user has seen the page. -/
inductive WatchEvent
  | poll (a : Poll.Act ContactList)
  | trigger (t : Trigger)

/-- The endpoint that is watched, in logs and metrics. -/
def contactsEndpoint : String := "contacts"

namespace Watcher

/-- What one event leads to: after an act of the poller, all the calls that it leaves are made. -/
def step (w : Watcher) : WatchEvent → Watcher × List WatchAct
  | .poll a =>
    let (s, acts) := w.take a
    let (w, others) := s.watcher.fireAll s.pending
    (w, acts ++ others)
  | .trigger t => w.reset t

def follow (w : Watcher) : Timeline WatchEvent → Watcher × Timeline WatchAct
  | [] => (w, [])
  | (t, e) :: rest =>
    let (w, acts) := w.step e
    let (w, others) := w.follow rest
    (w, Timeline.allAt t acts ++ others)

def isLast : WatchEvent → Bool
  | .poll a => a.isExit
  | .trigger _ => false

def startedEvent (url : String) : Log.Event :=
  ⟨.info, watchTarget, "Watching contacts", [("url", .display url)]⟩

/-- What happens before polling starts: the sound is loaded. -/
def opening (w : Watcher) (url : String) (period : Nat) : List WatchAct :=
  (Poll.makingEvents url period).map .log
    ++ (match w.sound with
      | some s => [.log s.loadedEvent, .player (.load s.format.source)]
      | none => [])
    ++ [.log (startedEvent url)]

def poller (url : String) (period : Nat) : Poll.Poller := .make url period contactsEndpoint

/-- Watches contacts: polls for reports and handles every one of them at once. Triggers after the
end are ignored. -/
def run (w : Watcher) (url : String) (period : Nat) (cancel : Option Poll.Cancellation)
    (triggers : Timeline Trigger) (replies : List Poll.Reply) :
    Watcher × Timeline WatchAct × Poll.Ending :=
  let polled := (poller url period).run ContactList.decode? (fun _ => 0) cancel replies
  let events := (Timeline.interleave (triggers.map fun (t, x) => (t, WatchEvent.trigger x))
    (polled.acts.map fun (t, a) => (t, WatchEvent.poll a))).upTo isLast
  let (after, acts) := w.follow events
  (after, Timeline.allAt 0 (w.opening url period) ++ acts, polled.ending)

end Watcher
end PeerWatch.Presence
