import PeerWatch.Log.Event
import PeerWatch.Text.Shown

/-!
# Desktop notifications

A notification is shown only if the user allowed it. It goes to whoever listens at the other end of
a channel, or into the log.
-/

namespace PeerWatch.Cue

/-- Whether the user allowed notifications. -/
inductive Permission
  /-- Not asked yet, which counts as denied. -/
  | undecided
  | granted
  | denied
  deriving DecidableEq, Repr

structure Notification where
  title : String
  body : String
  /-- Notifications with the same tag replace each other. -/
  tag : String
  icon : String
  /-- Where a click on the notification leads. -/
  target : Option String
  deriving DecidableEq, Repr

def notificationIcon : String := "/static/icon.png"

def Notification.make (title body tag : String) (target : Option String) : Notification :=
  ⟨title, body, tag, notificationIcon, target⟩

/-- Where notifications are shown. -/
inductive Outlet
  /-- A channel; whether somebody still listens. -/
  | channel (listening : Bool)
  | log
  deriving DecidableEq, Repr

/-- A notifier with what it has brought about so far. -/
structure Notifier where
  permission : Permission
  outlet : Outlet
  /-- What arrived at the channel, in order. -/
  received : List Notification
  /-- The number of notifications that were sent with permission. -/
  sent : Nat
  logs : List Log.Event
  deriving DecidableEq, Repr

namespace Notifier

def start (permission : Permission) (outlet : Outlet) : Notifier := ⟨permission, outlet, [], 0, []⟩

/-- The part of the program that reports on notifications. -/
def logTarget : String := "teapot_client::notify::desktop"

def targetText : Option String → String
  | some t => "Some(" ++ Text.shown t ++ ")"
  | none => "None"

def shownEvent (n : Notification) : Log.Event :=
  ⟨.info, logTarget, n.title ++ ": " ++ n.body,
    [("tag", .display n.tag), ("target", .display (targetText n.target))]⟩

/-- The log event for a notification that was not allowed. -/
def suppressedEvent (n : Notification) : Log.Event :=
  ⟨.debug, logTarget, "Notification suppressed, permission not granted",
    [("tag", .display n.tag)]⟩

/-- Shows a notification whatever the permission. A channel without a listener swallows it. -/
def «show» (s : Notifier) (n : Notification) : Notifier :=
  match s.outlet with
  | .channel true => { s with received := s.received ++ [n] }
  | .channel false => s
  | .log => { s with logs := s.logs ++ [shownEvent n] }

/-- Shows a notification if the permission was granted, and tells whether it was. -/
def notify (s : Notifier) (n : Notification) : Notifier × Bool :=
  if s.permission = .granted then
    let s := s.show n
    ({ s with sent := s.sent + 1 }, true)
  else ({ s with logs := s.logs ++ [suppressedEvent n] }, false)

def close (s : Notifier) : Notifier :=
  match s.outlet with
  | .channel _ => { s with outlet := .channel false }
  | .log => s

end Notifier
end PeerWatch.Cue
