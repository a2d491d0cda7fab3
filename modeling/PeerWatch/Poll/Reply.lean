import PeerWatch.Client.Error
import PeerWatch.Time.Timeline

/-!
# Replies to requests

How a request goes, and what someone who waits for it for a limited time gets. A reply that arrives
at the very end of that time has still arrived.
-/

namespace PeerWatch.Poll

open PeerWatch.Client (RequestError)

/-- The body of a response, or why there is none. -/
abbrev Response := Except RequestError String

/-- How a request goes. -/
inductive Reply
  /-- The response arrives after some milliseconds. -/
  | after (delay : Nat) (response : Response)
  /-- No response ever arrives. -/
  | never

/-- How waiting for a reply ends. -/
structure Resolution where
  /-- Whether the response arrived; if not, the request was abandoned. -/
  arrived : Bool
  /-- The milliseconds since the request. -/
  elapsed : Nat
  response : Response

/-- How waiting for a reply ends when it may take `limit` milliseconds. -/
def Reply.within (limit : Nat) : Reply → Resolution
  | .after delay response =>
    if delay ≤ limit then ⟨true, delay, response⟩ else ⟨false, limit, .error .timeout⟩
  | .never => ⟨false, limit, .error .timeout⟩

end PeerWatch.Poll
