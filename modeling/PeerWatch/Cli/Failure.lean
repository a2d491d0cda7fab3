import PeerWatch.Config.Environment
import PeerWatch.Config.File

/-!
# Failures of a command

A failure has a message and perhaps that of its cause. Loading the configuration is the first thing
that can fail.
-/

namespace PeerWatch.Cli

open PeerWatch.Config (Settings ConfigError)

structure Failure where
  message : String
  cause : Option String
  deriving DecidableEq, Repr

def Failure.plain (message : String) : Failure := ⟨message, none⟩

def Failure.messages (f : Failure) : List String := f.message :: f.cause.toList

def indented (s : String) : String :=
  "    " ++ String.ofList (s.toList.flatMap fun c => if c = '\n' then "\n    ".toList else [c])

def Failure.text (f : Failure) : String :=
  "Error: " ++ f.message
    ++ (match f.cause with
      | some cause => "\n\nCaused by:\n" ++ indented cause
      | none => "")
    ++ "\n"

/-- An error of the configuration, and the file in which it lies, if it lies in one. -/
structure LoadError where
  path : Option String
  error : ConfigError

def LoadError.failure (e : LoadError) : Failure :=
  match e.path with
  | some path => ⟨"loading config from " ++ path, some e.error.message⟩
  | none => .plain e.error.message

/-- The configuration of a file, if one is named, overridden by the environment. The file must hold
a sound configuration by itself. -/
def loadConfig (path : Option String) (file : String → Config.File)
    (environment : Config.Variable → Option String) : Except LoadError Settings := do
  let c ← match path with
    | some path => (Settings.ofFile (file path)).mapError fun e => ⟨some path, e⟩
    | none => .ok .default
  match c.applyEnvironment environment with
  | (_, some e) => .error ⟨none, e⟩
  | (c, none) => c.check.mapError fun e => ⟨none, e⟩

end PeerWatch.Cli
