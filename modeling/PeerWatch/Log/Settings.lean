import PeerWatch.Log.Level

/-!
# Log settings

From which level on events are logged and in which form. Settings as they are configured hold the
level as a text.
-/

namespace PeerWatch.Log

/-- The form of a log. -/
structure Layout where
  /-- Whether an event is an object of a line, or a sentence. -/
  json : Bool
  withTimestamp : Bool
  withTarget : Bool
  deriving DecidableEq, Repr

/-- Settings as configured. -/
structure Settings where
  level : String
  layout : Layout
  deriving DecidableEq, Repr

def Settings.default : Settings := ⟨Level.default.name, ⟨false, true, true⟩⟩

/-- Settings that were found to be sound. -/
structure Setup where
  level : Level
  layout : Layout
  deriving DecidableEq, Repr

inductive SetupError
  | unknownLevel (level : String)
  /-- A log is already in place; there can be one only. -/
  | alreadySet
  deriving DecidableEq, Repr

def SetupError.message : SetupError → String
  | .unknownLevel level => "Invalid logging configuration: unknown log level: " ++ level
  | .alreadySet =>
    "Failed to initialize logging: a global default trace dispatcher has already been set"

def Settings.setup (s : Settings) : Except SetupError Setup :=
  match Level.parse? s.level with
  | some level => .ok ⟨level, s.layout⟩
  | none => .error (.unknownLevel s.level)

/-- Puts a log in place, unless one already is. -/
def install (installed : Option Setup) (setup : Setup) : Except SetupError Setup :=
  match installed with
  | none => .ok setup
  | some _ => .error .alreadySet

end PeerWatch.Log
