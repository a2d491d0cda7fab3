/-!
# Timelines

What happens, each with the millisecond at which it happens, in the order in which it happens.
-/

namespace PeerWatch.Time

abbrev Timeline (α : Type) := List (Nat × α)

namespace Timeline

/-- What happens, without the times. -/
def events {α : Type} (line : Timeline α) : List α := line.map (·.2)

def allAt {α : Type} (t : Nat) (events : List α) : Timeline α := events.map fun e => (t, e)

/-- Two timelines as one. What `first` holds comes before what happens at the same moment. -/
def interleave {α : Type} (first second : Timeline α) : Timeline α :=
  first.merge second fun a b => a.1 ≤ b.1

/-- A timeline up to the first event of a sort, which it includes. -/
def upTo {α : Type} (isLast : α → Bool) : Timeline α → Timeline α
  | [] => []
  | e :: rest => if isLast e.2 then [e] else e :: upTo isLast rest

end Timeline
end PeerWatch.Time
