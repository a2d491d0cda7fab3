import PeerWatch.Text.Blank

/-!
# Arguments of the command line

Options that concern every command stand before the command, and each command has options and
arguments of its own. Options may be given once. A value of an option is the rest of its argument or
the next argument, which then must not look like an option; after two hyphens nothing is an option
any more.
-/

namespace PeerWatch.Cli

/-- What the program is asked to do. -/
inductive Command
  /-- Watch contacts until interrupted. -/
  | contacts
  /-- Print a directory listing. -/
  | ls (url : String) (user : Option String) (json : Bool)
  /-- Print the user of a session. -/
  | whoami (cookie : String)
  deriving DecidableEq, Repr

structure Arguments where
  logLevel : Option String
  jsonLogs : Bool
  config : Option String
  command : Option Command
  deriving DecidableEq, Repr

/-- Why there is nothing to do. -/
inductive Refusal
  /-- The arguments cannot be understood. -/
  | usage
  /-- Help or the version was asked for. -/
  | display
  deriving DecidableEq, Repr

/-! ## Options -/

inductive OptionKind
  | flag
  /-- Takes a text. -/
  | value
  /-- Takes a path, which is not empty. -/
  | path
  deriving DecidableEq, Repr

structure OptionSpec where
  long : String
  short : Option Char
  kind : OptionKind
  deriving DecidableEq, Repr

/-- What may follow the name of the program or of a command. -/
structure Grammar where
  options : List OptionSpec
  /-- Whether the version can be asked for. -/
  version : Bool
  /-- The number of arguments that are no options. -/
  arity : Nat
  commands : List String

/-- The options and arguments read so far. -/
structure Scan where
  found : List (String × String)
  /-- An option with the value that it takes, if it was given. It is checked before the next one, or
  at the end. -/
  pending : Option (OptionSpec × Option String)
  arguments : List String
  /-- Whether there are no more options. -/
  noOptions : Bool

namespace Scan

def start : Scan := ⟨[], none, [], false⟩

def settle (s : Scan) : Except Refusal Scan :=
  match s.pending with
  | none => .ok s
  | some (_, none) => .error .usage
  | some (spec, some value) =>
    if (spec.kind = .path ∧ value = "") ∨ s.found.any (·.1 = spec.long) then .error .usage
    else .ok { s with found := s.found ++ [(spec.long, value)], pending := none }

/-- An option whose value, if it takes any, is the next argument. -/
def await (s : Scan) (spec : OptionSpec) : Except Refusal Scan := do
  return { ← s.settle with pending := some (spec, none) }

def give (s : Scan) (spec : OptionSpec) (value : String) : Except Refusal Scan := do
  Scan.settle { ← s.settle with pending := some (spec, some value) }

/-- Help or the version, unless the option before it is wrong. -/
def display (s : Scan) : Except Refusal Scan :=
  match s.settle with
  | .ok _ => .error .display
  | .error e => .error e

def isWaiting (s : Scan) : Bool :=
  match s.pending with
  | some (_, none) => true
  | _ => false

variable (g : Grammar)

def readLong (s : Scan) (cs : List Char) : Except Refusal Scan :=
  let (name, value) := match Text.cutOnce '=' cs with
    | some (name, value) => (String.ofList name, some (String.ofList value))
    | none => (String.ofList cs, none)
  match g.options.find? (·.long = name), value with
  | some spec, some value => if spec.kind = .flag then .error .usage else s.give spec value
  | some spec, none => if spec.kind = .flag then s.give spec "" else s.await spec
  | none, some _ => .error .usage
  | none, none =>
    if name = "help" ∨ (name = "version" ∧ g.version) then s.display else .error .usage

/-- An argument after one hyphen: a letter, and the value of its option. -/
def readShort (s : Scan) (letter : Char) (rest : List Char) : Except Refusal Scan :=
  match g.options.find? (·.short = some letter), rest with
  | some spec, [] => s.await spec
  | some spec, '=' :: value => s.give spec (String.ofList value)
  | some spec, value => s.give spec (String.ofList value)
  | none, _ =>
    if letter = 'h' ∨ (letter = 'V' ∧ g.version) then s.display else .error .usage

def readPlain (s : Scan) (text : String) : Except Refusal Scan :=
  if s.arguments.length < g.arity then do
    let s ← s.settle
    return { s with arguments := s.arguments ++ [text] }
  else .error .usage

def read (s : Scan) (text : String) : Except Refusal Scan :=
  if s.noOptions then s.readPlain g text
  else
    match text.toList with
    | ['-', '-'] => .ok { s with noOptions := true }
    | '-' :: '-' :: cs => s.readLong g cs
    | '-' :: letter :: rest => s.readShort g letter rest
    | _ =>
      match s.pending with
      | some (spec, none) => .ok { s with pending := some (spec, some text) }
      | _ => s.readPlain g text

/-- All arguments, up to the name of a command, which is returned with what follows it. -/
def readAll (s : Scan) : List String → Except Refusal (Scan × Option (String × List String))
  | [] => .ok (s, none)
  | text :: rest =>
    if ¬ s.noOptions ∧ ¬ s.isWaiting ∧ g.commands.contains text then .ok (s, some (text, rest))
    else do (← s.read g text).readAll rest

def value? (s : Scan) (long : String) : Option String :=
  (s.found.find? (·.1 = long)).map (·.2)

end Scan

/-! ## The program and its commands -/

def helpCommand : String := "help"

def rootGrammar : Grammar where
  options := [⟨"log-level", some 'l', .value⟩, ⟨"json-logs", none, .flag⟩,
    ⟨"config", some 'c', .path⟩]
  version := true
  arity := 0
  commands := ["contacts", "ls", "whoami", helpCommand]

def contactsGrammar : Grammar := ⟨[], false, 0, []⟩

def lsGrammar : Grammar :=
  ⟨[⟨"user", some 'u', .value⟩, ⟨"json", none, .flag⟩], false, 1, []⟩

def whoamiGrammar : Grammar := ⟨[], false, 1, []⟩

def usageLines : List String :=
  ["Usage: teapot [-l LEVEL] [--json-logs] [-c FILE] [COMMAND]",
    "",
    "Commands:",
    "  contacts                     Watch contacts until interrupted",
    "  ls URL [-u USER] [--json]    Print a directory listing",
    "  whoami COOKIE                Print the user of a session"]

def usageText : String := String.join (usageLines.map (· ++ "\n"))

def readRest (g : Grammar) (rest : List String) : Except Refusal Scan := do
  let (s, _) ← Scan.start.readAll g rest
  s.settle

/-- A request for help: on the program or on one command. -/
def helpOutcome : List String → Refusal
  | [] => .display
  | [name] => if rootGrammar.commands.contains name then .display else .usage
  | _ => .usage

def readCommand (name : String) (rest : List String) : Except Refusal Command :=
  match name with
  | "contacts" => do
    let _ ← readRest contactsGrammar rest
    return .contacts
  | "ls" => do
    let s ← readRest lsGrammar rest
    match s.arguments with
    | url :: _ => return .ls url (s.value? "user") (s.value? "json").isSome
    | [] => .error .usage
  | "whoami" => do
    let s ← readRest whoamiGrammar rest
    match s.arguments with
    | cookie :: _ => return .whoami cookie
    | [] => .error .usage
  | _ => .error (helpOutcome rest)

/-- The arguments of the program. What stands before a command is checked to the end after the
command. -/
def Arguments.read (arguments : List String) : Except Refusal Arguments := do
  let (s, found) ← Scan.start.readAll rootGrammar arguments
  let command ← match found with
    | some (name, rest) => (readCommand name rest).map some
    | none => .ok none
  let s ← s.settle
  return ⟨s.value? "log-level", (s.value? "json-logs").isSome, s.value? "config", command⟩

end PeerWatch.Cli
