import PeerWatch.Cli.Program
import PeerWatch.Client.Fetch
import PeerWatch.Time.Calendar
import Std.Async.DNS
import Std.Async.Signal
import Std.Async.TCP
import Std.Async.Timer

/-!
# The command line

Carries requests over the network, prints what the program puts out, and waits: until a request is
due, until its reply is there, or until the program is told to stop.
-/

namespace PeerWatch.Main

open PeerWatch.Cli (Emission Failure Setting Stop)
open PeerWatch.Client (Base Exchange Reading Request Response)
open PeerWatch.Config (Settings)
open PeerWatch.Presence (Watcher)
open PeerWatch.Uri (Location)
open Std.Async

/-! ## Requests -/

def addressOf (l : Location) : Async Std.Net.SocketAddress := do
  let service := UInt16.ofNat l.reachedService
  let known := (Std.Net.IPv4Addr.ofString l.host).map Std.Net.IPAddr.v4
  let found : Array Std.Net.IPAddr ← match known with
    | some a => pure #[a]
    | none => DNS.getAddrInfo l.host (toString l.reachedService)
  match found.toList.head? with
  | some (.v4 a) => return .v4 ⟨a, service⟩
  | some (.v6 a) => return .v6 ⟨a, service⟩
  | none => throw (IO.userError "the host is not known")

/-- Receives until there is a response. -/
partial def receive (socket : TCP.Socket.Client) (bytes : ByteArray) : Async Reading := do
  let (bytes, ended) ← match ← socket.recv? 65536 with
    | some more => pure (bytes ++ more, false)
    | none => pure (bytes, true)
  match Response.read ended bytes.toList with
  | .unfinished => receive socket bytes
  | reading => return reading

/-- What some work leads to, unless it takes more than some milliseconds. -/
def within {α : Type} (limit : Nat) (work : Async α) : Async (Option α) := do
  let alarm : Async (Option α) := do
    sleep (.ofNat limit)
    return none
  Async.race (some <$> work) alarm

/-- Sends a request and receives the response. Connecting may take `patience` milliseconds. -/
def converse (patience start : Nat) (r : Request) : Async Exchange := do
  let socket ← TCP.Socket.Client.mk
  match ← within patience (do socket.connect (← addressOf r.location)) with
  | none => return .timeout
  | some _ =>
    socket.send r.text.toUTF8
    match ← receive socket .empty with
    | .response response => return .response ((← IO.monoMsNow) - start) response
    | _ => return .failed "the response cannot be understood"

/-- An exchange that may take some milliseconds, and connecting also no more than `patience`. -/
def exchange (patience : Nat) (r : Request) (limit : Nat) : IO Exchange := do
  if r.location.secure then return .failed "secure connections are not supported"
  let start ← IO.monoMsNow
  let work : Async Exchange :=
    try converse (min patience limit) start r catch e => return .failed (toString e)
  return (← Async.block (within limit work)).getD .timeout

/-- The reply to a request, with the time that it takes. -/
def request (c : Settings) (base : Base) (target : String) (limit : Nat) : IO Poll.Reply := do
  let start ← IO.monoMsNow
  let patience := c.server.connectTimeout.millis
  let response ← base.fetch (exchange patience) target c.server.cookie limit
  let elapsed := (← IO.monoMsNow) - start
  match response with
  | .error .timeout => return if elapsed < limit then .after elapsed response else .never
  | response => return .after (min elapsed limit) response

/-! ## Output -/

/-- Puts out emissions, stamped with the present time. -/
def emit (s : Setting) (emissions : List Emission) : IO Unit := do
  let out ← IO.getStdout
  let err ← IO.getStderr
  for e in emissions do
    let now ← Std.Time.Timestamp.now
    let micros := (now.toNanosecondsSinceUnixEpoch.toInt / 1000).toNat
    out.putStr (e.output s.layout s.filter (Time.preciseStamp micros))
    err.putStr e.errors
  out.flush

/-! ## Watching -/

/-- The tasks that end when the program is told to stop. -/
def stops : IO (List (Task Stop)) := do
  let interrupt ← Signal.Waiter.mk .sigint false
  let terminate ← Signal.Waiter.mk .sigterm false
  return [Task.map (fun _ => Stop.interrupted) (← interrupt.wait),
    Task.map (fun _ => Stop.terminated) (← terminate.wait)]

/-- What a task leads to, unless the program is told to stop before. -/
def unlessStopped {α : Type} (told : List (Task Stop)) (work : Task α) : IO (α ⊕ Stop) :=
  IO.waitAny (work.map .inl :: told.map (·.map .inr)) (by simp)

/-- Watches contacts. Moments count from `start`. -/
partial def watch (s : Setting) (told : List (Task Stop)) (start : Nat) (base : Base)
    (url : String) (w : Watcher) : IO Unit := do
  let period := s.config.contacts.period.millis
  let limit := (Watcher.poller url period).period
  let due := (← IO.monoMsNow) - start
  match ← unlessStopped told (← IO.asTask (request s.config base url limit)) with
  | .inr stop => emit s (Cli.stopEmissions w url period stop)
  | .inl (.error e) => throw e
  | .inl (.ok reply) =>
    let (w, emissions, ending) := Cli.watchOnce w url period due reply
    emit s emissions
    match ending with
    | .over _ unauthorized => emit s (Cli.farewell w unauthorized false)
    | .due t =>
      let idle := t - ((← IO.monoMsNow) - start)
      match ← unlessStopped told (← Async.toIO (sleep (.ofNat idle))) with
      | .inr stop => emit s (Cli.stopEmissions w url period stop)
      | .inl _ => watch s told start base url w

/-! ## Commands -/

/-- Runs a command that puts out what it has to say at its end. -/
def runAtOnce (s : Setting) (r : Cli.Result) : IO (Option Failure) := do
  emit s r.emissions
  return r.failure

def runCommand (s : Setting) : IO (Option Failure) := do
  match s.command with
  | none => runAtOnce s ⟨[Cli.noCommand], none⟩
  | some (.whoami cookie) => runAtOnce s (Cli.whoami cookie)
  | some (.ls url user json) =>
    let reply ← match Base.ofConfigured s.config.server.baseUrl with
      | .ok base => request s.config base (base.resolve url) s.config.directory.timeout.millis
      | .error _ => pure .never
    let user := user.orElse fun _ => s.config.sessionUser
    runAtOnce s (Cli.listDirectory s.config url user json fun _ => reply)
  | some .contacts =>
    match Cli.watcherOf s.config, Base.ofConfigured s.config.server.baseUrl with
    | .error f, _ => return some f
    | _, .error e => return some (.plain e.message)
    | .ok (w, url), .ok base =>
      emit s (Cli.openingEmissions w url s.config.contacts.period.millis)
      watch s (← stops) (← IO.monoMsNow) base url w
      return none

def readFile (path : String) : IO Config.File := do
  try return .bytes (← IO.FS.readBinFile path)
  catch
  | .inappropriateType _ code _ => return if code = 21 then .folder else .behindFile
  | _ => return .missing

/-- The values of the variables that the program knows. -/
def readEnvironment : IO (String → Option String) := do
  let names := Cli.filterVariable :: Config.Variable.all.map Config.Variable.name
  let found ← names.filterMapM fun name => do
    return (← IO.getEnv name).map fun value => (name, value)
  return fun name => (found.find? (·.1 = name)).map (·.2)

/-- Reports a failure, if there is one, and returns the status of the program. -/
def conclude : Option Failure → IO UInt32
  | none => return 0
  | some f => do
    (← IO.getStderr).putStr f.text
    return 1

def run (arguments : List String) : IO UInt32 := do
  match Cli.Arguments.read arguments with
  | .error .display =>
    IO.print Cli.usageText
    return 0
  | .error .usage =>
    (← IO.getStderr).putStr Cli.usageText
    return 2
  | .ok a =>
    let environment ← readEnvironment
    let file ← match a.config with
      | some path => readFile path
      | none => pure .missing
    match Cli.prepare environment (fun _ => file) a with
    | .error f => conclude (some f)
    | .ok (s, complaints) =>
      emit s (complaints ++ [Cli.started])
      let failure ← runCommand s
      if failure.isNone then emit s [Cli.finished]
      conclude failure

end PeerWatch.Main

def main (arguments : List String) : IO UInt32 := PeerWatch.Main.run arguments
