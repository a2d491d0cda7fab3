import PeerWatch.Client.Address
import PeerWatch.Config.Error
import PeerWatch.Config.Settings
import PeerWatch.Session.User

/-!
# Sound configurations

The conditions that a configuration must meet, and the user that it names: as configured, or by the
cookies of the session.
-/

namespace PeerWatch.Config

def isUserName (name : String) : Bool := ! name.isEmpty && ! name.toList.contains '/'

namespace Settings

/-- The first condition that a configuration does not meet. -/
def fault? (c : Settings) : Option Fault :=
  if ¬ Client.isAbsolute c.server.baseUrl then some (.baseUrl c.server.baseUrl)
  else
    match c.server.user.filter fun name => ! isUserName name with
    | some name => some (.user name)
    | none =>
      if c.contacts.period.isZero then some .noPeriod
      else if c.directory.timeout.isZero then some .noTimeout
      else if (Log.Level.parse? c.logging.level).isNone then some (.level c.logging.level)
      else none

/-- The configuration, if it is sound. -/
def check (c : Settings) : Except ConfigError Settings :=
  match c.fault? with
  | some fault => .error (.refused fault)
  | none => .ok c

/-- The user whose contacts are watched: the configured one, or the one of the session. -/
def sessionUser (c : Settings) : Option String :=
  match c.server.user with
  | some user => some user
  | none => c.server.cookie.bind fun header =>
      Session.authenticatedUser? (Session.CookieJar.parse header)

end Settings
end PeerWatch.Config
