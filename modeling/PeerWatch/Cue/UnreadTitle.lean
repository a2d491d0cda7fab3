import PeerWatch.Log.Event

/-!
# The unread counter in a title

A window title that shows how many new messages the user has not seen.
-/

namespace PeerWatch.Cue

def maxUnread : Nat := UInt32.size - 1

structure UnreadTitle where
  base : String
  unread : Nat
  deriving DecidableEq, Repr

/-- What tells that the user has seen the page. -/
inductive Trigger
  | focus
  | blur
  | keyDown
  | mouseDown
  | navigation
  deriving DecidableEq, Repr

def Trigger.name : Trigger → String
  | .focus => "Focus"
  | .blur => "Blur"
  | .keyDown => "KeyDown"
  | .mouseDown => "MouseDown"
  | .navigation => "Navigation"

def Trigger.event (t : Trigger) : Log.Event :=
  ⟨.trace, "teapot_client::notify::title", "Resetting unread title", [("trigger", .display t.name)]⟩

namespace UnreadTitle

def start (base : String) : UnreadTitle := ⟨base, 0⟩

/-- Counts more messages, up to the largest count. -/
def add (t : UnreadTitle) (n : Nat) : UnreadTitle :=
  { t with unread := min (t.unread + n) maxUnread }

def reset (t : UnreadTitle) : UnreadTitle := { t with unread := 0 }

def handle (t : UnreadTitle) (_ : Trigger) : UnreadTitle := t.reset

/-- The title with the count before it, or alone when there is nothing unseen. -/
def text (t : UnreadTitle) : String :=
  if t.unread = 0 then t.base else "(" ++ toString t.unread ++ ") " ++ t.base

end UnreadTitle
end PeerWatch.Cue
