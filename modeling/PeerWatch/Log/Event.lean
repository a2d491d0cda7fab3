import PeerWatch.Log.Level

/-!
# Log events

What the library reports about its work: a level, the part that reports, a sentence, and named
values.
-/

namespace PeerWatch.Log

/-- A named value of an event. -/
inductive FieldValue
  /-- A text that is quoted where values are told apart by quotes. -/
  | text (s : String)
  /-- A value in the form in which it is displayed. -/
  | display (s : String)
  | count (n : Nat)
  deriving DecidableEq, Repr

def FieldValue.plain : FieldValue → String
  | .text s => s
  | .display s => s
  | .count n => toString n

structure Event where
  level : Level
  /-- The part of the program that reports. -/
  target : String
  message : String
  fields : List (String × FieldValue)
  deriving DecidableEq, Repr

/-- Whether an event has a value of some name. Its sentence goes by the name `message`. -/
def Event.hasField (e : Event) (name : String) : Bool :=
  name == "message" || e.fields.any fun (other, _) => other == name

end PeerWatch.Log
