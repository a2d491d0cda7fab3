/-!
# Log levels

The severities of log events, from the least to the gravest.
-/

namespace PeerWatch.Log

inductive Level
  /-- Every poll cycle and render step. -/
  | trace
  /-- Outcomes of poll cycles. -/
  | debug
  /-- Starts and ends of what runs for long. -/
  | info
  | warn
  | error
  deriving DecidableEq, Repr

namespace Level

/-- The place of a level among all, from the least. -/
def rank : Level → Nat
  | .trace => 0
  | .debug => 1
  | .info => 2
  | .warn => 3
  | .error => 4

def default : Level := .info

def name : Level → String
  | .trace => "trace"
  | .debug => "debug"
  | .info => "info"
  | .warn => "warn"
  | .error => "error"

def heading : Level → String
  | .trace => "TRACE"
  | .debug => "DEBUG"
  | .info => "INFO"
  | .warn => "WARN"
  | .error => "ERROR"

/-- The level of a name in any case; `warning` is another name of `warn`. No letter beyond ASCII has
one of the letters of these names as its lower case, so ASCII lower case decides. -/
def parse? (s : String) : Option Level :=
  match String.ofList (s.toList.map Char.toLower) with
  | "trace" => some .trace
  | "debug" => some .debug
  | "info" => some .info
  | "warn" => some .warn
  | "warning" => some .warn
  | "error" => some .error
  | _ => none

end Level
end PeerWatch.Log
