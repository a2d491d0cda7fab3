import PeerWatch.Metric.Catalogue

/-!
# Recordings

One recording is one increment of a counter or one sample of a histogram. What matters of a list of
recordings is how many there are of each sort.
-/

namespace PeerWatch.Metric

structure Recording where
  metric : Quantity
  /-- Names and values of labels, in the order of the names. -/
  labels : List (String × String)
  deriving DecidableEq, Repr

namespace Recording

/-- A poll cycle of an endpoint that ended in some outcome. -/
def pollCycle (endpoint outcome : String) : Recording :=
  ⟨pollCycles, [("endpoint", endpoint), ("outcome", outcome)]⟩

def pollDuration (endpoint : String) : Recording :=
  ⟨Metric.pollDuration, [("endpoint", endpoint)]⟩

def listing (outcome : String) : Recording := ⟨directoryListings, [("outcome", outcome)]⟩

def notification : Recording := ⟨notifications, []⟩

def text (r : Recording) : String :=
  r.metric.name ++ "\x7b"
    ++ ",".intercalate (r.labels.map fun (name, value) => name ++ "=" ++ value)
    ++ "\x7d"

end Recording

def count (recordings : List Recording) (r : Recording) : Nat := recordings.count r

/-- Every sort of recording with its number, in the order in which the sorts first occur. -/
def tally (recordings : List Recording) : List (Recording × Nat) :=
  recordings.eraseDups.map fun r => (r, count recordings r)

end PeerWatch.Metric
