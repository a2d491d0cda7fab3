/-!
# Metrics

The quantities that the program counts or samples: what each is called and what it means.
-/

namespace PeerWatch.Metric

inductive Kind
  | counter
  | histogram
  deriving DecidableEq, Repr

/-- A quantity that is counted or sampled. -/
structure Quantity where
  kind : Kind
  name : String
  description : String
  deriving DecidableEq, Repr

def pollCycles : Quantity where
  kind := .counter
  name := "teapot_poll_cycles_total"
  description := "Total number of poll cycles, labeled by endpoint kind and outcome "
    ++ "(ok, empty, failed, unauthorized)"

def pollDuration : Quantity where
  kind := .histogram
  name := "teapot_poll_request_duration_seconds"
  description := "Time from issuing a poll request until it resolved, success or failure"

def directoryListings : Quantity where
  kind := .counter
  name := "teapot_directory_listings_total"
  description := "Total number of directory listings fetched, labeled by outcome "
    ++ "(entries, empty, failed)"

def notifications : Quantity where
  kind := .counter
  name := "teapot_notifications_total"
  description := "Total number of desktop notifications fired for new private messages"

/-- All metrics in the order in which they are announced. -/
def catalogue : List Quantity := [pollCycles, pollDuration, directoryListings, notifications]

end PeerWatch.Metric
