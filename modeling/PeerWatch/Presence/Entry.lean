import PeerWatch.Presence.Contact
import PeerWatch.Text.Capitalize
import PeerWatch.Markup.Escape

/-!
# Entries of the displayed contact list

What is shown of one contact: name, status, number of unread messages and links to the contact's
pages. The user's own identity is shown under a fixed name, with a link to the files only and
without unread messages.
-/

namespace PeerWatch.Presence

/-- The pages of a contact. -/
inductive LinkKind
  | files
  | board
  | chat
  deriving DecidableEq, Repr

namespace LinkKind

def styleClass : LinkKind → String
  | .files => "linkfiles"
  | .board => "linkboard"
  | .chat => "linkchat"

def icon : LinkKind → String
  | .files => "/static/icon_files.png"
  | .board => "/static/icon_board.png"
  | .chat => "/static/icon_chat.png"

def caption : LinkKind → String
  | .files => "Files"
  | .board => "Board"
  | .chat => "Messages"

def name : LinkKind → String
  | .files => "Files"
  | .board => "Board"
  | .chat => "Chat"

def ending : LinkKind → String
  | .files => "/files/"
  | .board => "/board/"
  | .chat => "/chat/"

end LinkKind

structure Link where
  kind : LinkKind
  href : String
  deriving DecidableEq, Repr

structure Entry where
  id : String
  displayName : String
  path : String
  /-- Whether the entry is the user's own identity, as its first record said. -/
  isSelf : Bool
  /-- The status as reported, which is also the style class of the entry. -/
  status : String
  statusLabel : String
  unread : Nat
  links : List Link
  deriving DecidableEq, Repr

namespace Entry

/-- The entry for a contact that is seen for the first time, before its record is applied. -/
def start (id : String) (c : Contact) : Entry where
  id := id
  displayName := if c.isSelf then "Myself" else id
  path := c.path
  isSelf := c.isSelf
  status := ""
  statusLabel := ""
  unread := 0
  links := []

def kinds (isSelf : Bool) : List LinkKind :=
  if isSelf then [.files] else [.files, .board, .chat]

def linkTo (path : String) (kind : LinkKind) : Link := ⟨kind, path ++ kind.ending⟩

def update (e : Entry) (c : Contact) : Entry :=
  { e with
    path := c.path
    links := (kinds e.isSelf).map (linkTo c.path)
    unread := if e.isSelf then e.unread else c.messages
    status := c.status
    statusLabel := Text.capitalize c.status }

def chatUrl (e : Entry) : String := e.path ++ LinkKind.chat.ending

/-! ## Markup -/

/-- The number of unread messages with a link to the chat, or nothing if there is none. -/
def badge (e : Entry) : String :=
  if e.isSelf ∨ e.unread = 0 then ""
  else " <a href=\"" ++ Markup.escape e.chatUrl ++ "\">(" ++ toString e.unread ++ ")</a>"

def linkMarkup (link : Link) : String :=
  "<span class=\"" ++ link.kind.styleClass ++ "\"><a href=\"" ++ Markup.escape link.href
    ++ "\"><img src=\"" ++ link.kind.icon ++ "\" alt=\"" ++ link.kind.caption ++ "\"/></a></span>"

/-- The markup of the entry: a line with name and status, then the links. -/
def render (e : Entry) : String :=
  let id := Markup.escape e.id
  "<div class=\"contactstr\"><div id=\"contact_" ++ id ++ "\" class=\"" ++ Markup.escape e.status
    ++ "\"><a href=\"" ++ Markup.escape e.path ++ "\">" ++ Markup.escape e.displayName
    ++ "</a><span class=\"messagescount\">" ++ e.badge ++ "</span><span class=\"status\">"
    ++ Markup.escape e.statusLabel ++ "</span></div><div id=\"contactinfo_" ++ id
    ++ "\" class=\"contactinfo\">" ++ String.join (e.links.map linkMarkup) ++ "</div></div>"

end Entry
end PeerWatch.Presence
