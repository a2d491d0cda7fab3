import PeerWatch.Cli.Arguments
import PeerWatch.Cli.Failure
import PeerWatch.Client.Address
import PeerWatch.Directory.Lister
import PeerWatch.Log.Filter
import PeerWatch.Log.Line
import PeerWatch.Presence.Watcher
import PeerWatch.Shutdown.Coordinator

/-!
# The command line program

What the program prints and logs, given what it can see of the world: variables, files, the replies
of the node and the moment at which it is told to stop.
-/

namespace PeerWatch.Cli

open PeerWatch.Client (Base)
open PeerWatch.Config (Settings)
open PeerWatch.Directory (Listing Row)
open PeerWatch.Json (Value)
open PeerWatch.Presence (WatchAct Watcher)
open PeerWatch.Time (Timeline)

/-- What the program puts out. -/
inductive Emission
  /-- A line of output. -/
  | print (line : String)
  /-- A line among the errors. -/
  | complain (line : String)
  | log (e : Log.Event)
  deriving DecidableEq, Repr

/-- What a command puts out, and why it fails if it does. -/
structure Result where
  emissions : List Emission
  failure : Option Failure
  deriving DecidableEq, Repr

namespace Result

def fail (f : Failure) : Result := ⟨[], some f⟩

def failWith (message : String) : Result := fail (.plain message)

end Result

def programTarget : String := "teapot"

def programEvent (level : Log.Level) (message : String)
    (fields : List (String × Log.FieldValue)) : Emission :=
  .log ⟨level, programTarget, message, fields⟩

def requestEvent (url : String) : Log.Event :=
  ⟨.trace, "teapot_client::client", "GET", [("url", .display url)]⟩

/-! ## Commands -/

def whoami (cookie : String) : Result :=
  match Session.authenticatedUser? (Session.CookieJar.parse cookie) with
  | some user => ⟨[.print user], none⟩
  | none => .failWith "not authenticated"

def rowValue (row : Row) : Value := .object [("link", .string row.link), ("name", .string row.name)]

def listingText (json : Bool) (l : Listing) : String :=
  if json then
    match l with
    | .entries rows => (Value.array (rows.map rowValue)).pretty
    | _ => (Value.array []).pretty
  else l.render

def listEmissions (url : String) : Directory.ListAct → List Emission
  | .request => [.log (requestEvent url)]
  | .log e => [.log e]
  | _ => []

def listDirectory (c : Settings) (target : String) (user : Option String) (json : Bool)
    (reply : String → Poll.Reply) : Result :=
  match Base.ofConfigured c.server.baseUrl with
  | .error e => .failWith e.message
  | .ok base =>
    let url := base.resolve target
    let (acts, _, listing) :=
      Directory.fetchListing url c.directory.timeout.millis user 0 (reply url)
    ⟨acts.events.flatMap (listEmissions url) ++ [.print (listingText json listing)],
      if listing = .failed then some (.plain ("listing " ++ target ++ " failed")) else none⟩

/-- The watcher of a configuration and the address at which it looks. -/
def watcherOf (c : Settings) : Except Failure (Watcher × String) :=
  match c.sessionUser with
  | none => .error (.plain "no user configured and no authenticated session cookie")
  | some user =>
    match Base.ofConfigured c.server.baseUrl with
    | .error e => .error (.plain e.message)
    | .ok base =>
      let permission : Cue.Permission := if c.notifications.enabled then .granted else .denied
      .ok ({
        roster := .start none
        notifier := some (.start permission .log)
        sound := if c.notifications.sound then some (.load fun _ => false) else none
        title := some (.start c.notifications.baseTitle) },
        base.resolve (Client.contactsPath user))

def watchEmissions (url : String) : WatchAct → List Emission
  | .request _ => [.log (requestEvent url)]
  | .poll (.log e) => [.log e]
  | .poll (.navigate location) => [.log (Navigation.Navigator.requestEvent location)]
  | .log e => [.log e]
  | _ => []

/-- What is put out once watching is over. `signal` tells whether the program was told to stop. -/
def farewell (w : Watcher) (unauthorized signal : Bool) : List Emission :=
  let reason := if unauthorized then "Unauthorized" else "Cancelled"
  let exit := ("exit", Log.FieldValue.display reason)
  let fields := if signal then [exit, ("signal", .display "Graceful")] else [exit]
  let title := match w.title with
    | some t => if t.unread > 0 then [Emission.print t.text] else []
    | none => []
  programEvent .info "Contacts watcher stopped" fields :: .print w.roster.render :: title

/-- Why the program stops. -/
inductive Stop
  | terminated
  | interrupted
  deriving DecidableEq, Repr

def Stop.events (s : Stop) : List Log.Event :=
  let message := match s with
    | .terminated => "Received SIGTERM"
    | .interrupted => "Received SIGINT"
  Shutdown.Coordinator.plainEvent .info message
    :: (Shutdown.Coordinator.start.perform .shutdown).2

/-- Watches contacts until the session expires or the program is told to stop, after some
milliseconds. -/
def watchContacts (c : Settings) (polls : List Poll.Reply) (stop : Option (Nat × Stop)) : Result :=
  match watcherOf c with
  | .error f => .fail f
  | .ok (w, url) =>
    let cancel := stop.map fun (t, _) => (⟨t, false⟩ : Poll.Cancellation)
    let (w, acts, ending) := w.run url c.contacts.period.millis cancel [] polls
    let told : Timeline (List Emission) :=
      (stop.toList).map fun (t, s) => (t, s.events.map .log)
    let line : Timeline (List Emission) :=
      Timeline.interleave told (acts.map fun (t, a) => (t, watchEmissions url a))
    match ending with
    | .due _ => ⟨line.events.flatten, none⟩
    | .over t unauthorized =>
      let signal := told.any fun (s, _) => s ≤ t
      let seen : Timeline (List Emission) := line.filter fun (s, _) => s ≤ t
      ⟨seen.events.flatten ++ farewell w unauthorized signal, none⟩

/-! ## Watching request by request -/

def openingEmissions (w : Watcher) (url : String) (period : Nat) : List Emission :=
  let started := Poll.startedEvent (Watcher.poller url period)
  (w.opening url period ++ [WatchAct.poll (.log started)]).flatMap (watchEmissions url)

/-- What one request at some moment leads to, given its reply. -/
def watchOnce (w : Watcher) (url : String) (period t : Nat) (reply : Poll.Reply) :
    Watcher × List Emission × Poll.Ending :=
  let p := Watcher.poller url period
  let r := p.runFrom Presence.ContactList.decode? (fun _ => 0) none [] t [reply]
  let (w, acts) := w.follow (r.acts.map fun (t, a) => (t, Presence.WatchEvent.poll a))
  (w, acts.events.flatMap (watchEmissions url), r.ending)

def stopEmissions (w : Watcher) (url : String) (period : Nat) (s : Stop) : List Emission :=
  s.events.map .log ++ .log (Poll.cancelledEvent (Watcher.poller url period))
    :: farewell w false true

/-! ## The whole program -/

/-- What the program can see of the world. -/
structure World where
  environment : String → Option String
  file : String → Config.File
  /-- How a request to an address goes. -/
  reply : String → Poll.Reply
  /-- The replies to the requests of a poller, in order. -/
  polls : List Poll.Reply
  /-- When the program is told to stop. -/
  stop : Option (Nat × Stop)
  /-- The time stamp of the log. -/
  stamp : String

/-- What a program needs for its command: a configuration, and where its log goes. -/
structure Setting where
  config : Settings
  layout : Log.Layout
  filter : Log.Filter
  command : Option Command

def filterVariable : String := "RUST_LOG"

/-- The filter of the log: that of the environment, if there is a sound one, or else a level. -/
def filterOf (environment : String → Option String) (level : Log.Level) : Log.Filter :=
  ((environment filterVariable).bind Log.Filter.read?).getD (.ofLevel level)

/-- The level of the log: that of the arguments, unless they name none that is known. -/
def levelOf (a : Arguments) (configured : Log.Level) : Log.Level × List Emission :=
  match a.logLevel with
  | none => (configured, [])
  | some name =>
    match Log.Level.parse? name with
    | some level => (level, [])
    | none =>
      (configured, [.complain ("Invalid log level '" ++ name ++ "', using '" ++ configured.name
        ++ "'")])

def prepare (environment : String → Option String) (file : String → Config.File) (a : Arguments) :
    Except Failure (Setting × List Emission) := do
  let c ← (loadConfig a.config file fun x => environment x.name).mapError LoadError.failure
  let setup ← c.logging.setup.mapError fun e => .plain e.message
  let (level, complaints) := levelOf a setup.level
  let layout := { setup.layout with json := setup.layout.json || a.jsonLogs }
  return (⟨c, layout, filterOf environment level, a.command⟩, complaints)

def started : Emission := programEvent .info "Teapot CLI started" []

def finished : Emission := programEvent .info "Teapot CLI finished" []

def noCommand : Emission :=
  programEvent .warn "No command specified. Use --help for usage information." []

def Setting.run (s : Setting) (w : World) : Result :=
  let r : Result := match s.command with
    | some .contacts => watchContacts s.config w.polls w.stop
    | some (.ls url user json) =>
      listDirectory s.config url (user.orElse fun _ => s.config.sessionUser) json w.reply
    | some (.whoami cookie) => whoami cookie
    | none => ⟨[noCommand], none⟩
  ⟨started :: r.emissions ++ (if r.failure.isNone then [finished] else []), r.failure⟩

/-- What a program leaves behind. -/
structure Transcript where
  output : String
  errors : String
  status : Nat
  deriving DecidableEq, Repr

def Emission.output (layout : Log.Layout) (filter : Log.Filter) (stamp : String) :
    Emission → String
  | .print line => line ++ "\n"
  | .complain _ => ""
  | .log e => if filter.passes e then e.line layout stamp ++ "\n" else ""

def Emission.errors : Emission → String
  | .complain line => line ++ "\n"
  | _ => ""

/-- Runs the program with arguments that were understood. -/
def runArguments (w : World) (a : Arguments) : Transcript :=
  match prepare w.environment w.file a with
  | .error f => ⟨"", f.text, 1⟩
  | .ok (s, complaints) =>
    let r := s.run w
    let emissions := complaints ++ r.emissions
    ⟨String.join (emissions.map (Emission.output s.layout s.filter w.stamp)),
      String.join (emissions.map Emission.errors) ++ (r.failure.map Failure.text).getD "",
      if r.failure.isNone then 0 else 1⟩

/-- Runs the program. Nothing is told here of how help and wrong arguments are answered but the
status. -/
def run (w : World) (arguments : List String) : Transcript :=
  match Arguments.read arguments with
  | .ok a => runArguments w a
  | .error .usage => ⟨"", "", 2⟩
  | .error .display => ⟨"", "", 0⟩

end PeerWatch.Cli
