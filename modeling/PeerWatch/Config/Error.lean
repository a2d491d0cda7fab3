import PeerWatch.Time.Span

/-!
# Errors of the configuration

Why no configuration could be had: its file cannot be read or makes no sense, a variable holds no
value of its sort, or the values do not go together.
-/

namespace PeerWatch.Config

/-- Why a text is no value of its sort. -/
inductive ValueError
  | span (e : Time.SpanError)
  | flag
  deriving DecidableEq, Repr

def ValueError.message : ValueError → String
  | .span e => e.message
  | .flag => "provided string was not \x60true\x60 or \x60false\x60"

/-- Why a configuration is refused. -/
inductive Fault
  | baseUrl (url : String)
  | user (name : String)
  | noPeriod
  | noTimeout
  | level (name : String)
  deriving DecidableEq, Repr

def Fault.message : Fault → String
  | .baseUrl url => "base_url must be an http(s) URL: " ++ url
  | .user name => "Invalid user name: " ++ Text.shown name
  | .noPeriod => "contacts period must be greater than 0"
  | .noTimeout => "directory timeout must be greater than 0"
  | .level name => "Invalid log level: " ++ name

inductive ConfigError
  /-- The file cannot be read, for the reason given. -/
  | unreadable (reason : String)
  /-- The file cannot be written, for the reason given. -/
  | unwritable (reason : String)
  /-- The file is no configuration. -/
  | malformed
  /-- A named value does not have the form it needs. -/
  | invalidValue (name : String) (e : ValueError)
  | refused (fault : Fault)
  deriving DecidableEq, Repr

def ConfigError.message : ConfigError → String
  | .unreadable reason => "Failed to read configuration file: " ++ reason
  | .unwritable reason => "Failed to write configuration file: " ++ reason
  | .malformed => "Failed to parse configuration"
  | .invalidValue name e => "Invalid configuration value: Invalid " ++ name ++ ": " ++ e.message
  | .refused fault => "Configuration validation failed: " ++ fault.message

end PeerWatch.Config
