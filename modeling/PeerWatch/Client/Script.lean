import PeerWatch.Client.Fetch

/-!
# Scripted nodes

A node whose answers are known beforehand, one for each request, with the requests that it has seen.
After the last answer it turns everybody away.
-/

namespace PeerWatch.Client

/-- What a scripted node does about a request. -/
inductive ScriptedAnswer
  /-- Responds after some milliseconds. -/
  | response (delay : Nat) (r : Response)
  /-- Closes the connection. -/
  | close
  deriving DecidableEq, Repr

structure ScriptedNode where
  /-- The host and the service, as an address has them. -/
  authority : String
  answers : List ScriptedAnswer
  seen : List Request
  /-- The milliseconds that exchanges took so far. -/
  taken : Nat
  deriving DecidableEq, Repr

namespace ScriptedNode

def refusal : Response := ⟨401, none, [], true⟩

/-- An exchange with the node. Elsewhere nobody answers. -/
def exchange (r : Request) (limit : Nat) : StateM ScriptedNode Exchange := fun node =>
  if r.location.secure ∨ r.location.authority ≠ node.authority then
    (.failed "connection refused", node)
  else
    let node := { node with seen := node.seen ++ [r] }
    match node.answers with
    | [] => (.response 0 refusal, node)
    | .close :: rest => (.failed "connection closed", { node with answers := rest })
    | .response delay response :: rest =>
      let node := { node with answers := rest, taken := node.taken + min delay limit }
      (if delay ≤ limit then .response delay response else .timeout, node)

def fetch (address : String) (cookie : Option String) (limit : Nat) :
    StateM ScriptedNode (Except RequestError String) :=
  Client.fetch exchange address cookie limit

end ScriptedNode
end PeerWatch.Client
