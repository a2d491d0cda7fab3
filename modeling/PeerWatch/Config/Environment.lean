import PeerWatch.Config.Check

/-!
# Variables of the environment

Ten variables override values of a configuration, one after the other in a fixed order. A variable
with a value that cannot be read ends this; what was overridden before stays so.
-/

namespace PeerWatch.Config

/-- The variables in the order in which they are read. -/
inductive Variable
  | baseUrl
  | user
  | cookie
  | connectTimeout
  | period
  | timeout
  | enabled
  | sound
  | level
  | json
  deriving DecidableEq, Repr

namespace Variable

def all : List Variable :=
  [baseUrl, user, cookie, connectTimeout, period, timeout, enabled, sound, level, json]

def name : Variable → String
  | baseUrl => "TEAPOT_SERVER_BASE_URL"
  | user => "TEAPOT_SERVER_USER"
  | cookie => "TEAPOT_SERVER_COOKIE"
  | connectTimeout => "TEAPOT_SERVER_CONNECT_TIMEOUT"
  | period => "TEAPOT_CONTACTS_PERIOD"
  | timeout => "TEAPOT_DIRECTORY_TIMEOUT"
  | enabled => "TEAPOT_NOTIFICATIONS_ENABLED"
  | sound => "TEAPOT_NOTIFICATIONS_SOUND"
  | level => "TEAPOT_LOG_LEVEL"
  | json => "TEAPOT_LOG_JSON"

def title : Variable → String
  | baseUrl => "base URL"
  | user => "user"
  | cookie => "cookie"
  | connectTimeout => "connect timeout"
  | period => "contacts period"
  | timeout => "directory timeout"
  | enabled => "notifications flag"
  | sound => "sound flag"
  | level => "log level"
  | json => "JSON flag"

end Variable

def flag : String → Except ValueError Bool
  | "true" => .ok true
  | "false" => .ok false
  | _ => .error .flag

def span (s : String) : Except ValueError Time.Span :=
  match Time.Span.read s with
  | .ok s => .ok s
  | .error e => .error (.span e)

namespace Settings

def override (c : Settings) (x : Variable) (s : String) : Except ValueError Settings :=
  match x with
  | .baseUrl => .ok { c with server.baseUrl := s }
  | .user => .ok { c with server.user := some s }
  | .cookie => .ok { c with server.cookie := some s }
  | .connectTimeout => (span s).map fun t => { c with server.connectTimeout := t }
  | .period => (span s).map fun t => { c with contacts.period := t }
  | .timeout => (span s).map fun t => { c with directory.timeout := t }
  | .enabled => (flag s).map fun b => { c with notifications.enabled := b }
  | .sound => (flag s).map fun b => { c with notifications.sound := b }
  | .level => .ok { c with logging.level := s }
  | .json => (flag s).map fun b => { c with logging.layout.json := b }

/-- Overrides values by those of some variables that are set, in their order, up to the first that
cannot be read. -/
def overrideAll (c : Settings) (environment : Variable → Option String) :
    List Variable → Settings × Option ConfigError
  | [] => (c, none)
  | x :: xs =>
    match environment x with
    | none => c.overrideAll environment xs
    | some s =>
      match c.override x s with
      | .ok c => c.overrideAll environment xs
      | .error e => (c, some (.invalidValue x.title e))

def applyEnvironment (c : Settings) (environment : Variable → Option String) :
    Settings × Option ConfigError :=
  c.overrideAll environment Variable.all

/-- The configuration that the environment alone describes. -/
def ofEnvironment (environment : Variable → Option String) : Except ConfigError Settings :=
  match default.applyEnvironment environment with
  | (c, none) => c.check
  | (_, some e) => .error e

end Settings
end PeerWatch.Config
