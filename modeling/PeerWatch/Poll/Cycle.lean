import PeerWatch.Json.Decode
import PeerWatch.Log.Event
import PeerWatch.Poll.Reply

/-!
# Poll cycles

One cycle is one request with what becomes of its response: a payload, a failure that is worth
another try, or the news that the session expired.
-/

namespace PeerWatch.Poll

open PeerWatch.Client (RequestError)

def minPeriod : Nat := 10

/-- What is polled, and how often. -/
structure Poller where
  url : String
  /-- The milliseconds between the end of a cycle and the next request, and also how long a request
  may take. -/
  period : Nat
  /-- The name of the endpoint in logs and metrics. -/
  endpoint : String
  deriving DecidableEq, Repr

def anyEndpoint : String := "generic"

/-- A poller with a period that is raised to the shortest one. -/
def Poller.make (url : String) (period : Nat) (endpoint : String) : Poller :=
  ⟨url, max period minPeriod, endpoint⟩

def logTarget : String := "teapot_client::poller"

/-- Milliseconds as a log shows them, in 64 bits. -/
def shownMillis (n : Nat) : Log.FieldValue := .count (n % UInt64.size)

/-- The log events of making a poller: a warning if its period is raised. -/
def makingEvents (url : String) (period : Nat) : List Log.Event :=
  if period < minPeriod then
    [⟨.warn, logTarget, "Poll period too short, using minimum",
      [("url", .display url), ("period_ms", shownMillis period)]⟩]
  else []

/-- What a cycle leads to. -/
inductive Outcome (α : Type)
  /-- A body that was understood; nothing for `null`. -/
  | payload (p : Option α)
  /-- A failure, after which the next cycle tries again. -/
  | failed (e : RequestError)
  /-- The session expired. -/
  | unauthorized

namespace Outcome

def label {α : Type} : Outcome α → String
  | .payload (some _) => "ok"
  | .payload none => "empty"
  | .failed _ => "failed"
  | .unauthorized => "unauthorized"

/-- The outcome of a response whose body `decode` tries to understand. -/
def ofResponse {α : Type} (decode : String → Option (Option α)) : Response → Outcome α
  | .ok body =>
    match decode body with
    | some p => .payload p
    | none => .failed (.decode "unexpected content")
  | .error .unauthorized => .unauthorized
  | .error e => .failed e

end Outcome

/-- What happens in the course of polling. -/
inductive Act (α : Type)
  | request
  /-- The response to the request arrived. -/
  | resolved
  /-- The request was abandoned. -/
  | dropped
  /-- A cycle ended; it is counted under a word for its outcome. -/
  | counted (label : String)
  /-- The payload is handed over. -/
  | handler (p : Option α)
  /-- The payload was dealt with. -/
  | handled
  | navigate (location : String)
  | exit (unauthorized : Bool)
  | log (e : Log.Event)
  deriving DecidableEq, Repr

/-- A single request and its outcome, without anything around it. -/
def Poller.cycle {α : Type} (p : Poller) (decode : String → Option (Option α)) (start : Nat)
    (reply : Reply) : Time.Timeline (Act α) × Nat × Outcome α :=
  let r := reply.within p.period
  let now := start + r.elapsed
  ([(start, .request), (now, if r.arrived then .resolved else .dropped)], now,
    Outcome.ofResponse decode r.response)

end PeerWatch.Poll
