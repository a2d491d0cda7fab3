import PeerWatch.Cue.MailSound
import PeerWatch.Cue.UnreadTitle
import PeerWatch.Poll.Run
import PeerWatch.Presence.Alert

/-!
# The page while contacts are watched

The displayed list with what announces new messages. A report changes the list at once and leaves
the calls that its changes lead to, which are then made one by one; the poller waits until all of
them are made. Whoever else holds the title may reset it at any moment in between.
-/

namespace PeerWatch.Presence

open PeerWatch.Cue (MailSound Notification Notifier PlayerCall Trigger UnreadTitle)

/-- The displayed list with what announces new messages, as far as there is any. -/
structure Watcher where
  roster : Roster
  notifier : Option Notifier
  sound : Option MailSound
  title : Option UnreadTitle
  deriving DecidableEq, Repr

/-- What is displayed. -/
structure Screen where
  page : String
  title : Option String
  deriving DecidableEq, Repr

/-- What happens while contacts are watched. -/
inductive WatchAct
  /-- An act of the poller, except that it issues a request. -/
  | poll (a : Poll.Act ContactList)
  /-- A request is issued while something is displayed. -/
  | request (seen : Screen)
  /-- A notification is shown. -/
  | shown (n : Notification)
  /-- The player of the sound is asked for something. -/
  | player (c : PlayerCall)
  /-- The title forgets its count. -/
  | titleReset (before after : String)
  | record (r : Metric.Recording)
  | log (e : Log.Event)

/-- One move on the page. -/
inductive Move
  /-- An act of the poller. -/
  | poll (a : Poll.Act ContactList)
  /-- One of the calls that a report led to. -/
  | fire (a : Alert)
  /-- A sign that the user has seen the page. -/
  | trigger (t : Trigger)

/-- The page between two moves, with the calls that are still to be made for the last report. -/
structure Stage where
  watcher : Watcher
  pending : List Alert
  deriving DecidableEq, Repr

namespace Watcher

def screen (w : Watcher) : Screen := ⟨w.roster.render, w.title.map UnreadTitle.text⟩

/-- Shows the notification of new messages, if the user allowed it. -/
def announce (w : Watcher) (n : Notification) : Watcher × List WatchAct :=
  match w.notifier with
  | none => (w, [])
  | some s =>
    let (after, told) := s.notify n
    let logs := (after.logs.drop s.logs.length).map WatchAct.log
    let shown := (after.received.drop s.received.length).map WatchAct.shown
    ({ w with notifier := some after },
      shown ++ logs ++ if told then [.record .notification] else [])

def countUnread (w : Watcher) : Watcher × List WatchAct :=
  match w.title with
  | none => (w, [])
  | some t =>
    let t := t.add 1
    ({ w with title := some t },
      [.log ⟨.debug, watchTarget, "Unread title updated", [("title", .display t.text)]⟩])

/-- Makes one call, as far as there is somebody to take it. -/
def fire (w : Watcher) : Alert → Watcher × List WatchAct
  | .notify n => w.announce n
  | .count => w.countUnread
  | .play => (w, if w.sound.isSome then [.player .play] else [])
  | .note e => (w, [.log e])

def fireAll (w : Watcher) : List Alert → Watcher × List WatchAct
  | [] => (w, [])
  | a :: rest =>
    let (w, first) := w.fire a
    let (w, others) := w.fireAll rest
    (w, first ++ others)

def reset (w : Watcher) (t : Trigger) : Watcher × List WatchAct :=
  match w.title with
  | none => (w, [])
  | some title =>
    let after := title.handle t
    ({ w with title := some after }, [.log t.event, .titleReset title.text after.text])

/-- What an act of the poller leads to, with the calls that it leaves to be made. -/
def take (w : Watcher) : Poll.Act ContactList → Stage × List WatchAct
  | .request => (⟨w, []⟩, [.request w.screen])
  | .handler report =>
    let (roster, changes) := w.roster.apply report
    (⟨{ w with roster }, alertsOf changes⟩, [.poll (.handler report)])
  | a => (⟨w, []⟩, [.poll a])

end Watcher

namespace Stage

/-- What one move leads to, if it can be made: calls are made in their order, and the poller goes on
when all of them are made. -/
def step? (s : Stage) : Move → Option (Stage × List WatchAct)
  | .poll a => if s.pending = [] then some (s.watcher.take a) else none
  | .fire a =>
    match s.pending with
    | [] => none
    | first :: rest =>
      if a = first then
        let (w, acts) := s.watcher.fire a
        some (⟨w, rest⟩, acts)
      else none
  | .trigger t =>
    let (w, acts) := s.watcher.reset t
    some (⟨w, s.pending⟩, acts)

/-- What moves lead to, if they can be made in their order. -/
def follow? (s : Stage) : List Move → Option (Stage × List WatchAct)
  | [] => some (s, [])
  | m :: rest => do
    let (s, acts) ← s.step? m
    let (s, others) ← s.follow? rest
    return (s, acts ++ others)

end Stage
end PeerWatch.Presence
