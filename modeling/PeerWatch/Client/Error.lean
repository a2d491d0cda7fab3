/-!
# Errors of a request

What can go wrong with one request to a node. All but an expired session are worth another try.
-/

namespace PeerWatch.Client

inductive RequestError
  /-- The connection failed, for the reason given. -/
  | transport (reason : String)
  /-- The session expired or was never established. -/
  | unauthorized
  | status (code : Nat)
  | timeout
  /-- The body is not what was expected, for the reason given. -/
  | decode (reason : String)
  | invalidUrl (url : String)
  deriving DecidableEq, Repr

namespace RequestError

def isUnauthorized : RequestError → Bool
  | .unauthorized => true
  | _ => false

def ofStatus (code : Nat) : RequestError := if code = 401 then .unauthorized else .status code

def message : RequestError → String
  | .transport reason => "HTTP error: " ++ reason
  | .unauthorized => "Unauthorized"
  | .status code => "Unexpected HTTP status: " ++ toString code
  | .timeout => "Request timed out"
  | .decode reason => "Invalid JSON payload: " ++ reason
  | .invalidUrl url => "Invalid URL: " ++ url

end RequestError
end PeerWatch.Client
