import PeerWatch.Json.Value
import PeerWatch.Log.Event
import PeerWatch.Log.Settings
import PeerWatch.Text.Shown

/-!
# Lines of a log

An event is written as a sentence or as an object, in either case on a line of its own.
-/

namespace PeerWatch.Log

namespace FieldValue

def inSentence : FieldValue → String
  | .text s => Text.shown s
  | v => v.plain

def toValue : FieldValue → Json.Value
  | .text s => .string s
  | .display s => .string s
  | .count n => .number (.natural n)

end FieldValue

namespace Event

/-- The heading of a level, moved to the right of five places. -/
def heading (e : Event) : String :=
  String.ofList (List.replicate (5 - e.level.heading.length) ' ') ++ e.level.heading

/-- The event as a sentence: level, reporting part, message and fields. -/
def sentence (layout : Layout) (stamp : String) (e : Event) : String :=
  (if layout.withTimestamp then stamp ++ " " else "") ++ e.heading ++ " "
    ++ (if layout.withTarget then e.target ++ ": " else "") ++ e.message
    ++ String.join (e.fields.map fun (name, v) => " " ++ name ++ "=" ++ v.inSentence)

def toValue (layout : Layout) (stamp : String) (e : Event) : Json.Value :=
  .object ((if layout.withTimestamp then [("timestamp", .string stamp)] else [])
    ++ [("level", .string e.level.heading),
      ("fields", .object (("message", .string e.message)
        :: e.fields.map fun (name, v) => (name, v.toValue)))]
    ++ if layout.withTarget then [("target", .string e.target)] else [])

/-- The line of an event that happens at the moment of a time stamp. -/
def line (layout : Layout) (stamp : String) (e : Event) : String :=
  if layout.json then (e.toValue layout stamp).compact else e.sentence layout stamp

end Event
end PeerWatch.Log
