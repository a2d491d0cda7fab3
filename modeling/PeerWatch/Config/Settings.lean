import PeerWatch.Log.Settings
import PeerWatch.Time.Span

/-!
# Configuration

What the client must know before it starts, in five sections, each with values that hold where
nothing else is configured.
-/

namespace PeerWatch.Config

open PeerWatch.Time (Span)

/-- The node and the session with it. -/
structure Server where
  baseUrl : String
  /-- The user whose contacts are watched. -/
  user : Option String
  /-- The cookies that are sent with every request. -/
  cookie : Option String
  connectTimeout : Span
  deriving DecidableEq, Repr

structure Contacts where
  /-- The time between two polls, which is also how long one may take. -/
  period : Span
  deriving DecidableEq, Repr

structure Directory where
  timeout : Span
  deriving DecidableEq, Repr

structure Notifications where
  /-- Whether the user allowed notifications. -/
  enabled : Bool
  /-- Whether new messages are heard. -/
  sound : Bool
  /-- The window title without a counter. -/
  baseTitle : String
  deriving DecidableEq, Repr

structure Settings where
  server : Server
  contacts : Contacts
  directory : Directory
  notifications : Notifications
  logging : Log.Settings
  deriving DecidableEq, Repr

def Server.default : Server where
  baseUrl := "http://127.0.0.1:8480"
  user := none
  cookie := none
  connectTimeout := .ofSeconds 10

def Contacts.default : Contacts := ⟨.ofSeconds 5⟩

def Directory.default : Directory := ⟨.ofSeconds 60⟩

def Notifications.default : Notifications := ⟨false, true, "TeapotNet"⟩

def Settings.default : Settings :=
  ⟨Server.default, Contacts.default, Directory.default, Notifications.default, Log.Settings.default⟩

end PeerWatch.Config
