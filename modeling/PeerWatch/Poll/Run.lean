import PeerWatch.Metric.Tally
import PeerWatch.Navigation.Navigator
import PeerWatch.Poll.Cycle

/-!
# Runs of a poller

A poller repeats its cycle until the session expires or it is cancelled. It hands every payload to a
handler, which is never interrupted, and waits one period after a cycle has ended and its payload
was dealt with. A run is followed through the replies to its requests one by one.
-/

namespace PeerWatch.Poll

open PeerWatch.Time (Timeline)

/-- When polling is cancelled. -/
structure Cancellation where
  time : Nat
  /-- Whether it comes after whatever else is due at the same moment. -/
  late : Bool
  deriving DecidableEq, Repr

namespace Cancellation

/-- Whether a cancellation, if there is one, comes before what is due at a moment. -/
def before (c : Option Cancellation) (t : Nat) : Bool :=
  match c with
  | some c => c.time < t || (c.time == t && ! c.late)
  | none => false

/-- The moment at which a cancellation cuts a wait short, given when it starts and ends. -/
def cut (c : Option Cancellation) (start stop : Nat) : Option Nat :=
  if before c stop then c.map fun c => max start c.time else none

end Cancellation

/-- Where a run stands when the replies are used up. -/
inductive Ending
  /-- The next request is due at some moment. -/
  | due (t : Nat)
  /-- The run is over since some moment. -/
  | over (t : Nat) (unauthorized : Bool)
  deriving DecidableEq, Repr

structure Run (α : Type) where
  acts : Timeline (Act α)
  ending : Ending

def Act.handedOver? {α : Type} : Act α → Option (Option α)
  | .handler q => some q
  | _ => none

def Act.isRequest {α : Type} : Act α → Bool
  | .request => true
  | _ => false

namespace Run

variable {α : Type}

/-- The payloads that are handed over, in order. -/
def handed (r : Run α) : List (Option α) := r.acts.events.filterMap Act.handedOver?

def requests (r : Run α) : List Nat := (r.acts.filter fun a => a.2.isRequest).map (·.1)

def follow (acts : Timeline (Act α)) (r : Run α) : Run α := ⟨acts ++ r.acts, r.ending⟩

/-- A run that goes on as `next` tells from the moment at which its next request is due. -/
def andThen (r : Run α) (next : Nat → Run α) : Run α :=
  match r.ending with
  | .due t => (next t).follow r.acts
  | .over _ _ => r

end Run

def endpointField (p : Poller) : String × Log.FieldValue := ("endpoint", .text p.endpoint)

def startedEvent (p : Poller) : Log.Event :=
  ⟨.info, logTarget, "Poller started",
    [endpointField p, ("url", .display p.url), ("period_ms", shownMillis p.period)]⟩

def outcomeEvent {α : Type} (p : Poller) : Outcome α → Log.Event
  | .payload _ => ⟨.trace, logTarget, "Poll cycle succeeded", [endpointField p]⟩
  | .failed e =>
    ⟨.debug, logTarget, "Poll cycle failed, retrying next period",
      [endpointField p, ("error", .display e.message)]⟩
  | .unauthorized =>
    ⟨.warn, logTarget, "Session expired, redirecting to " ++ Navigation.appRoot, [endpointField p]⟩

def cancelledEvent (p : Poller) : Log.Event :=
  ⟨.info, logTarget, "Poller cancelled", [endpointField p]⟩

namespace Poller

def stop {α : Type} (p : Poller) (t : Nat) : Run α :=
  ⟨Timeline.allAt t [.log (cancelledEvent p), .exit false], .over t false⟩

/- Dealing with the last of the payloads handed over so far takes `busy` milliseconds. -/
variable {α : Type} (p : Poller) (decode : String → Option (Option α))
  (busy : List (Option α) → Nat) (cancel : Option Cancellation)

/-- The wait of one period from a moment at which a cycle is dealt with. -/
def rest (idle : Nat) : Run α :=
  match Cancellation.cut cancel idle (idle + p.period) with
  | some cut => p.stop cut
  | none => ⟨[], .due (idle + p.period)⟩

/-- What follows the outcome of a cycle, given the payloads handed over before it. -/
def conclude (past : List (Option α)) (now : Nat) : Outcome α → Run α
  | .payload q =>
    let idle := now + busy (past ++ [q])
    (p.rest cancel idle).follow [(now, .handler q), (idle, .handled)]
  | .failed _ => p.rest cancel now
  | .unauthorized =>
    ⟨Timeline.allAt now [.navigate Navigation.appRoot, .exit true], .over now true⟩

/-- One turn from a moment at which a request is due: the request with all that follows it, up to
the next request. -/
def turn (past : List (Option α)) (t : Nat) (reply : Reply) : Run α :=
  if Cancellation.before cancel t then p.stop t
  else
    let (acts, now, outcome) := p.cycle decode t reply
    match Cancellation.cut cancel t now with
    | some cut => (p.stop cut).follow [(t, .request), (cut, .dropped)]
    | none =>
      (p.conclude busy cancel past now outcome).follow
        (acts ++ Timeline.allAt now [.counted outcome.label, .log (outcomeEvent p outcome)])

/-- A run from a moment at which a request is due, turn by turn. -/
def runFrom (past : List (Option α)) (t : Nat) : List Reply → Run α
  | [] => if Cancellation.before cancel t then p.stop t else ⟨[], .due t⟩
  | reply :: replies =>
    let first := p.turn decode busy cancel past t reply
    first.andThen fun t => runFrom (past ++ first.handed) t replies

def run (replies : List Reply) : Run α :=
  (p.runFrom decode busy cancel [] 0 replies).follow [(0, .log (startedEvent p))]

def recordings : Act α → List Metric.Recording
  | .counted label => [.pollCycle p.endpoint label, .pollDuration p.endpoint]
  | _ => []

end Poller

def Act.isExit {α : Type} : Act α → Bool
  | .exit _ => true
  | _ => false

end PeerWatch.Poll
