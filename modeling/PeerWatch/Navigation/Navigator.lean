import PeerWatch.Log.Event

/-!
# Requests to navigate

Whoever embeds the client decides what it means to go somewhere. A request is handed through a
channel or written to the log.
-/

namespace PeerWatch.Navigation

def appRoot : String := "/"

/-- Who takes requests. -/
inductive Outlet
  /-- A channel; whether somebody still listens. -/
  | channel (listening : Bool)
  | log
  deriving DecidableEq, Repr

/-- A navigator with what it has brought about so far. -/
structure Navigator where
  outlet : Outlet
  received : List String
  logs : List Log.Event
  deriving DecidableEq, Repr

namespace Navigator

def start (outlet : Outlet) : Navigator := ⟨outlet, [], []⟩

def requestEvent (location : String) : Log.Event :=
  ⟨.info, "teapot_client::navigation", "Navigation requested", [("location", .text location)]⟩

/-- Hands on a request. A channel without a listener swallows it. -/
def navigate (s : Navigator) (location : String) : Navigator :=
  match s.outlet with
  | .channel true => { s with received := s.received ++ [location] }
  | .channel false => s
  | .log => { s with logs := s.logs ++ [requestEvent location] }

def close (s : Navigator) : Navigator :=
  match s.outlet with
  | .channel _ => { s with outlet := .channel false }
  | .log => s

end Navigator
end PeerWatch.Navigation
