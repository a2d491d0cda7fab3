import PeerWatch.Presence.Roster

/-!
# Alerts

What the changes of one report call for, as single calls in their order: for each contact with new
messages a notification and one more in the title, and in the end the sound, once for the whole
report. Other changes are only noted in the log.
-/

namespace PeerWatch.Presence

/-- One call that a report leads to. -/
inductive Alert
  | notify (n : Cue.Notification)
  /-- One more in the title. -/
  | count
  | play
  | note (e : Log.Event)
  deriving DecidableEq, Repr

def watchTarget : String := "teapot_client::presence::watcher"

def Change.news? : Change → Option NewMessages
  | .newMessages m => some m
  | _ => none

def Change.isNews (c : Change) : Bool := c.news?.isSome

def Change.alerts : Change → List Alert
  | .newMessages m => [.notify m.notification, .count]
  | .status id now =>
    [.note ⟨.debug, watchTarget, "Contact status changed",
      [("contact", .display id), ("status", .display now)]⟩]
  | .added id => [.note ⟨.debug, watchTarget, "Contact added", [("contact", .display id)]⟩]

def alertsOf (changes : List Change) : List Alert :=
  changes.flatMap Change.alerts ++ if changes.any Change.isNews then [.play] else []

def Alert.notification? : Alert → Option Cue.Notification
  | .notify n => some n
  | _ => none

end PeerWatch.Presence
