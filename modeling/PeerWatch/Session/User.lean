import PeerWatch.Session.CookieJar

/-!
# The user of a session

A node sets two cookies when a user logs in: `name`, which holds the user's name, and one called
`auth_` followed by that name. They are only read here; the token is not checked.
-/

namespace PeerWatch.Session

def tokenStart : String := "auth_"

/-- The user named by the `name` cookie, if that user has a token. -/
def namedUser? (jar : CookieJar) : Option String :=
  match jar.get? "name" with
  | some name => if name ≠ "" ∧ jar.isSet (tokenStart ++ name) then some name else none
  | none => none

def tokenUser? (cookie : String) : Option String :=
  match Text.dropStart? tokenStart.toList cookie.toList with
  | some (c :: user) => some (Uri.unescape (String.ofList (c :: user)))
  | _ => none

/-- The user of the session: the one named by the `name` cookie, or else the one of the first token
cookie. -/
def authenticatedUser? (jar : CookieJar) : Option String :=
  (namedUser? jar).orElse fun _ => jar.names.findSome? tokenUser?

end PeerWatch.Session
