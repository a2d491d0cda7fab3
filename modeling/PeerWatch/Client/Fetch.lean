import PeerWatch.Client.Address
import PeerWatch.Client.Error
import PeerWatch.Client.Message
import PeerWatch.Text.Lossy

/-!
# Fetching

A fetch is one request, and more where its response refers to another location. Some time is allowed
for all of them. The cookie does not leave the host and service for which it was given. Whatever
carries requests is a parameter. What is fetched from a node may be given as a target that lies on it.
-/

namespace PeerWatch.Client

open PeerWatch.Uri (Location)

/-- How one request goes in the time allowed for it. -/
inductive Exchange
  | response (elapsed : Nat) (r : Response)
  | failed (reason : String)
  | timeout
  deriving DecidableEq, Repr

/-- The statuses of a response that refers to another location. -/
def redirections : List Nat := [301, 302, 303, 307, 308]

def maxRedirections : Nat := 10

/-- The location to which a response to a request refers. -/
def Response.redirection? (r : Response) (asked : Location) : Option Location :=
  if redirections.contains r.status then r.location.bind asked.resolve? else none

def Request.redirected (r : Request) (next : Location) : Request :=
  ⟨next, if next.isBeside r.location then r.cookie else none⟩

/-- The text of a response, if it is a success. -/
def Response.text (r : Response) : Except RequestError String :=
  if r.status < 200 ∨ 300 ≤ r.status then .error (.ofStatus r.status)
  else if r.whole then .ok (Text.lossy r.body)
  else .error (.transport "the body is not whole")

section

variable {m : Type → Type} [Monad m] (exchange : Request → (limit : Nat) → m Exchange)

/-- Follows a request through at most some redirections. -/
def follow : (redirections : Nat) → (limit : Nat) → Request → m (Except RequestError String)
  | n, limit, request => do
    match ← exchange request limit with
    | .timeout => return .error .timeout
    | .failed reason => return .error (.transport reason)
    | .response elapsed r =>
      match r.redirection? request.location with
      | none => return r.text
      | some next =>
        match n with
        | 0 => return .error (.transport "too many redirections")
        | n + 1 => follow n (limit - elapsed) (request.redirected next)

/-- Fetches the text at an address in at most `limit` milliseconds. -/
def fetch (address : String) (cookie : Option String) (limit : Nat) :
    m (Except RequestError String) :=
  match Location.read? address with
  | none => return .error (.transport "the address cannot be understood")
  | some location =>
    if (cookie.map isHeaderValue).getD true then
      follow exchange maxRedirections limit ⟨location, cookie⟩
    else return .error (.transport "the cookie cannot be sent")

/-- Fetches the text at a target on a node. -/
def Base.fetch (base : Base) (target : String) (cookie : Option String) (limit : Nat) :
    m (Except RequestError String) :=
  PeerWatch.Client.fetch exchange (base.resolve target) cookie limit

end

end PeerWatch.Client
