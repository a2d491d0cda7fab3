import PeerWatch.Directory.Listing
import PeerWatch.Metric.Tally
import PeerWatch.Poll.Reply

/-!
# Fetching listings

A listing is requested once. It fails when the request does, or takes longer than it may.
-/

namespace PeerWatch.Directory

open PeerWatch.Time (Timeline)

/-- What happens while a listing is fetched. -/
inductive ListAct
  | request
  /-- The response to the request arrived. -/
  | resolved
  /-- The request was abandoned. -/
  | dropped
  | listed (l : Listing)
  | record (r : Metric.Recording)
  | log (e : Log.Event)

def listerTarget : String := "teapot_client::directory"

def Listing.ofResponse (user : Option String) : Poll.Response → Listing
  | .ok body => .ofBody body user
  | .error _ => .failed

def responseEvents (url : String) (r : Poll.Resolution) : List Log.Event :=
  match r.arrived, r.response with
  | false, _ =>
    [⟨.debug, listerTarget, "Directory listing timed out", [("url", .display url)]⟩]
  | true, .ok body => Listing.readingEvents body
  | true, .error e =>
    [⟨.debug, listerTarget, "Directory listing failed",
      [("url", .display url), ("error", .display e.message)]⟩]

def listedEvent (url : String) (l : Listing) : Log.Event :=
  ⟨.info, listerTarget, "Directory listed", [("url", .display url), ("outcome", .text l.outcome)]⟩

/-- Fetches a listing that may take `timeout` milliseconds, and tells when that was done. -/
def fetchListing (url : String) (timeout : Nat) (user : Option String) (start : Nat)
    (reply : Poll.Reply) : Timeline ListAct × Nat × Listing :=
  let r := reply.within timeout
  let now := start + r.elapsed
  let listing := Listing.ofResponse user r.response
  ((start, .request) :: Timeline.allAt now
    ([if r.arrived then .resolved else .dropped] ++ (responseEvents url r).map .log
      ++ [.log (listedEvent url listing), .record (.listing listing.outcome), .listed listing]),
    now, listing)

end PeerWatch.Directory
