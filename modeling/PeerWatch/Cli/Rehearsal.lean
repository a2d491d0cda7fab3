import PeerWatch.Cli.Program
import PeerWatch.Client.Script

/-!
# Rehearsals

The program run in a folder that holds one file at most, and against a scripted node instead of the
network: what paths lead to, the replies that its commands get, and the requests by which they get
them.
-/

namespace PeerWatch.Cli

open PeerWatch.Client (Base ScriptedNode)
open PeerWatch.Config (Settings)
open PeerWatch.Presence (Watcher)

/-! ## Files -/

/-- Where a path leads that starts in a folder with one file. -/
inductive Whereabouts
  | inside
  /-- In a folder around that folder. -/
  | outside
  | atFile
  | behindFile
  | nowhere
  deriving DecidableEq, Repr

/-- Takes a step of a path. `name` is that of the file, if there is one; nothing else is found. -/
def Whereabouts.follow (name : Option String) (place : Whereabouts) (step : String) :
    Whereabouts :=
  match place with
  | .nowhere => .nowhere
  | .behindFile => .behindFile
  | .atFile => .behindFile
  | place =>
    if step = "" ∨ step = "." then place
    else if step = ".." then .outside
    else if place = .inside ∧ name = some step then .atFile
    else .nowhere

/-- What a path leads to from a folder that holds at most a file called `name`. -/
def fileAt (name : String) (content : Option String) (path : String) : Config.File :=
  let start := if path.startsWith "/" then Whereabouts.outside else .inside
  match (path.splitOn "/").foldl (Whereabouts.follow (content.map fun _ => name)) start with
  | .atFile => .bytes (content.getD "").toUTF8
  | .behindFile => .behindFile
  | .nowhere => .missing
  | _ => .folder

/-! ## Requests -/

/-- The reply to a request with the cookie of a configuration. -/
def rehearseRequest (c : Settings) (base : Base) (target : String) (limit : Nat) :
    StateM ScriptedNode Poll.Reply :=
  fun node =>
    let (response, after) :=
      (base.fetch ScriptedNode.exchange target c.server.cookie limit).run { node with taken := 0 }
    match response with
    | .error .timeout => (.never, after)
    | response => (.after after.taken response, after)

/-- The replies to at most `n` requests, up to one that tells that the session expired. -/
def rehearsePolls (c : Settings) (base : Base) (target : String) (limit : Nat) :
    (n : Nat) → StateM ScriptedNode (List Poll.Reply)
  | 0 => return []
  | n + 1 => do
    let reply ← rehearseRequest c base target limit
    match reply with
    | .after _ (.error .unauthorized) => return [reply]
    | reply => return reply :: (← rehearsePolls c base target limit n)

def rehearseTarget (c : Settings) (target : String) : StateM ScriptedNode Poll.Reply :=
  match Base.ofConfigured c.server.baseUrl with
  | .ok base => rehearseRequest c base (base.resolve target) c.directory.timeout.millis
  | .error _ => return .never

def rehearseWatcher (c : Settings) : StateM ScriptedNode (List Poll.Reply) := do
  match watcherOf c, Base.ofConfigured c.server.baseUrl with
  | .ok (_, url), .ok base =>
    let limit := (Watcher.poller url c.contacts.period.millis).period
    rehearsePolls c base url limit ((← get).answers.length + 1)
  | _, _ => return []

/-- The world of a command, with the replies of the node in it. -/
def rehearseCommand (w : World) (s : Setting) : StateM ScriptedNode World := do
  match s.command with
  | some (.ls url _ _) =>
    let reply ← rehearseTarget s.config url
    return { w with reply := fun _ => reply }
  | some .contacts => return { w with polls := ← rehearseWatcher s.config }
  | _ => return w

def rehearse (w : World) (arguments : List String) : StateM ScriptedNode Transcript := do
  match Arguments.read arguments with
  | .error _ => return run w arguments
  | .ok a =>
    match prepare w.environment w.file a with
    | .error _ => return run w arguments
    | .ok (s, _) => return run (← rehearseCommand w s) arguments

end PeerWatch.Cli
