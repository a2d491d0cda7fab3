import PeerWatch.Log.Event

/-!
# Shutting down

A coordinator leads from running to shut down. On the way it cancels a token, for which everything
that runs for long waits, and tells its subscribers how it shuts down. Calls may come from several
sides at once: each is a sequence of steps, and other calls can come between any two of them.
-/

namespace PeerWatch.Shutdown

/-- How a shutdown is announced. -/
inductive Signal
  | graceful
  | immediate
  deriving DecidableEq, Repr

inductive State
  | running
  | shuttingDown
  | shutdown
  deriving DecidableEq, Repr

namespace State

def rank : State → Nat
  | .running => 0
  | .shuttingDown => 1
  | .shutdown => 2

def name : State → String
  | .running => "Running"
  | .shuttingDown => "ShuttingDown"
  | .shutdown => "Shutdown"

end State

structure Coordinator where
  state : State
  /-- Whether the token is cancelled. -/
  cancelled : Bool
  /-- The signals sent so far. -/
  sent : List Signal
  deriving DecidableEq, Repr

/-- What may be asked of a coordinator and its token. -/
inductive Call
  | shutdown
  | shutdownImmediately
  | cancelToken
  deriving DecidableEq, Repr

/-- Where a call stands. -/
inductive Stage
  | start (c : Call)
  /-- The state was changed, and the token is next. -/
  | marked (s : Signal)
  /-- The token was cancelled, and the signal is next. -/
  | cancelled (s : Signal)
  /-- A graceful signal was sent, and the last change of state is next. -/
  | announced
  /-- The call has returned. `led` tells whether it led through a shutdown. -/
  | returned (led : Bool)
  deriving DecidableEq, Repr

namespace Coordinator

def start : Coordinator := ⟨.running, false, []⟩

def isShuttingDown (k : Coordinator) : Bool := k.state != .running

def plainEvent (level : Log.Level) (message : String) : Log.Event :=
  ⟨level, "teapot_client::shutdown", message, []⟩

def advance (k : Coordinator) : Stage → Coordinator × Stage × List Log.Event
  | .start .shutdown =>
    if k.state = .running then
      ({ k with state := .shuttingDown }, .marked .graceful,
        [plainEvent .info "Initiating graceful shutdown"])
    else (k, .returned false, [plainEvent .warn "Shutdown already in progress"])
  | .start .shutdownImmediately =>
    ({ k with state := .shutdown }, .marked .immediate,
      [plainEvent .warn "Initiating immediate shutdown"])
  | .start .cancelToken => ({ k with cancelled := true }, .returned false, [])
  | .marked s => ({ k with cancelled := true }, .cancelled s, [])
  | .cancelled s =>
    ({ k with sent := k.sent ++ [s] },
      match s with
      | .graceful => .announced
      | .immediate => .returned true, [])
  | .announced =>
    ({ k with state := .shutdown }, .returned true, [plainEvent .info "Shutdown complete"])
  | .returned led => (k, .returned led, [])

def longestCall : Nat := 4

/-- Some steps of a call that no other call interrupts. -/
def advanceBy (k : Coordinator) (stage : Stage) : Nat → Coordinator × Stage × List Log.Event
  | 0 => (k, stage, [])
  | n + 1 =>
    let (k, stage, first) := k.advance stage
    let (k, stage, others) := k.advanceBy stage n
    (k, stage, first ++ others)

def perform (k : Coordinator) (c : Call) : Coordinator × List Log.Event :=
  let (k, _, logs) := k.advanceBy (.start c) longestCall
  (k, logs)

end Coordinator

/-! ## Calls side by side -/

/-- A coordinator with calls, each at a stage of its own. -/
structure System where
  coordinator : Coordinator
  calls : List Stage
  deriving DecidableEq, Repr

namespace System

def start (calls : List Call) : System := ⟨.start, calls.map .start⟩

/-- The call `i` takes its next step. -/
def step (s : System) (i : Nat) : System :=
  match s.calls[i]? with
  | none => s
  | some stage =>
    let (k, stage, _) := s.coordinator.advance stage
    ⟨k, s.calls.set i stage⟩

def run (s : System) (schedule : List Nat) : System := schedule.foldl step s

end System

/-! ## Subscribers -/

/-- The number of signals that are kept for subscribers. -/
def kept : Nat := 16

/-- What a subscriber gets when it asks for the next signal. -/
inductive Received
  | signal (s : Signal)
  | empty
  /-- Some signals were missed; the next question is answered by the oldest that was kept. -/
  | lagged (missed : Nat)
  deriving DecidableEq, Repr

namespace Coordinator

/-- The position of a subscriber that gets every signal from now on. -/
def subscribe (k : Coordinator) : Nat := k.sent.length

/-- What a subscriber at a position gets, and its new position. -/
def receive (k : Coordinator) (position : Nat) : Received × Nat :=
  let oldest := k.sent.length - kept
  if position < oldest then (.lagged (oldest - position), oldest)
  else
    match k.sent[position]? with
    | some s => (.signal s, position + 1)
    | none => (.empty, position)

end Coordinator
end PeerWatch.Shutdown
