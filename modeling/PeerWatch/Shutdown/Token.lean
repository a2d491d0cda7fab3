/-!
# Cancellation tokens

A token is a flag that is set once and never cleared. All copies of a token observe the same flag.
-/

namespace PeerWatch.Shutdown

/-- Some tokens with their flags. -/
structure Tokens where
  /-- Whether each flag is set. -/
  flags : List Bool
  /-- The flag that each token observes. -/
  tokens : List Nat
  deriving DecidableEq, Repr

namespace Tokens

def empty : Tokens := ⟨[], []⟩

def fresh (s : Tokens) : Tokens := ⟨s.flags ++ [false], s.tokens ++ [s.flags.length]⟩

/-- One more token that observes the flag of the token `i`. -/
def copy (s : Tokens) (i : Nat) : Tokens := { s with tokens := s.tokens ++ (s.tokens[i]?).toList }

/-- Sets the flag of the token `i`. -/
def cancel (s : Tokens) (i : Nat) : Tokens :=
  match s.tokens[i]? with
  | some flag => { s with flags := s.flags.set flag true }
  | none => s

/-- Whether the flag of the token `i` is set, which is also when a wait for it ends. -/
def isCancelled (s : Tokens) (i : Nat) : Bool :=
  match s.tokens[i]? with
  | some flag => (s.flags[flag]?).getD false
  | none => false

end Tokens
end PeerWatch.Shutdown
