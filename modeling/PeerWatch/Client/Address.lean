import PeerWatch.Client.Error
import PeerWatch.Text.Blank

/-!
# Addresses on a node

The base address of a node, the paths of the pages that are polled, and how a target becomes an
absolute address.
-/

namespace PeerWatch.Client

def schemes : List String := ["http://", "https://"]

def isAbsolute (s : String) : Bool := schemes.any fun scheme => scheme.toList.isPrefixOf s.toList

def trimSlashes (s : String) : String :=
  String.ofList (s.toList.reverse.dropWhile (· == '/')).reverse

/-- The base address of a node: absolute, and without a slash at its end. -/
structure Base where
  address : String
  deriving DecidableEq, Repr

/-- The base address that a configured address stands for. -/
def Base.ofConfigured (configured : String) : Except RequestError Base :=
  let address := trimSlashes configured
  if isAbsolute address then .ok ⟨address⟩ else .error (.invalidUrl configured)

/-- The absolute address of a target: an absolute one is kept, any other lies below the base. -/
def Base.resolve (base : Base) (target : String) : String :=
  if isAbsolute target then target
  else if target.toList.head? = some '/' then base.address ++ target
  else base.address ++ "/" ++ target

def contactsPath (user : String) : String := "/" ++ user ++ "/contacts/?json"

/-- Where the files of a user, or those that a contact shares with the user, are. -/
def filesPath (user : String) (contact : Option String) : String :=
  match contact with
  | some contact => "/" ++ user ++ "/contacts/" ++ contact ++ "/files/?json"
  | none => "/" ++ user ++ "/myself/files/?json"

end PeerWatch.Client
