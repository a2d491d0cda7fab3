import PeerWatch.Config.Check
import PeerWatch.Toml.Document
import PeerWatch.Toml.Quote

/-!
# Configuration files

A file holds a table for each section. What it leaves out keeps its usual value, and what it has
beyond that is passed over. A section may also be an array of its values in order, or a moment,
which gives it no value.
-/

namespace PeerWatch.Config

open PeerWatch.Time (Span)
open PeerWatch.Toml (Members)

/-! ## Reading -/

def fields? (keys : List String) : Toml.Value → Option Members
  | .table _ members => some members
  | .array items => some (keys.zip items)
  | .tables elements => some (keys.zip (elements.map (.table .header)))
  | .moment _ => some []
  | _ => none

/-- The value of a key, decoded by `decode`, or `absent`. -/
def fieldOr? {α : Type} (members : Members) (key : String) (decode : Toml.Value → Option α)
    (absent : α) : Option α :=
  match members.get? key with
  | some v => decode v
  | none => some absent

def text? : Toml.Value → Option String
  | .string s => some s
  | _ => none

def truth? : Toml.Value → Option Bool
  | .bool b => some b
  | _ => none

def span? : Toml.Value → Option Span
  | .string s => (Span.read s).toOption
  | _ => none

def Server.keys : List String := ["base_url", "user", "cookie", "connect_timeout"]

def Server.ofValue? (v : Toml.Value) : Option Server := do
  let found ← fields? keys v
  return {
    baseUrl := ← fieldOr? found "base_url" text? default.baseUrl
    user := ← fieldOr? found "user" (fun v => (text? v).map some) default.user
    cookie := ← fieldOr? found "cookie" (fun v => (text? v).map some) default.cookie
    connectTimeout := ← fieldOr? found "connect_timeout" span? default.connectTimeout }

def Contacts.keys : List String := ["period"]

def Contacts.ofValue? (v : Toml.Value) : Option Contacts := do
  let found ← fields? keys v
  return { period := ← fieldOr? found "period" span? default.period }

def Directory.keys : List String := ["timeout"]

def Directory.ofValue? (v : Toml.Value) : Option Directory := do
  let found ← fields? keys v
  return { timeout := ← fieldOr? found "timeout" span? default.timeout }

def Notifications.keys : List String := ["enabled", "sound", "base_title"]

def Notifications.ofValue? (v : Toml.Value) : Option Notifications := do
  let found ← fields? keys v
  return {
    enabled := ← fieldOr? found "enabled" truth? default.enabled
    sound := ← fieldOr? found "sound" truth? default.sound
    baseTitle := ← fieldOr? found "base_title" text? default.baseTitle }

def loggingKeys : List String := ["level", "json_format", "with_timestamp", "with_target"]

def logging? (v : Toml.Value) : Option Log.Settings := do
  let usual := Log.Settings.default
  let found ← fields? loggingKeys v
  return {
    level := ← fieldOr? found "level" text? usual.level
    layout := {
      json := ← fieldOr? found "json_format" truth? usual.layout.json
      withTimestamp := ← fieldOr? found "with_timestamp" truth? usual.layout.withTimestamp
      withTarget := ← fieldOr? found "with_target" truth? usual.layout.withTarget } }

def Settings.ofMembers? (found : Members) : Option Settings := do
  return {
    server := ← fieldOr? found "server" Server.ofValue? Server.default
    contacts := ← fieldOr? found "contacts" Contacts.ofValue? Contacts.default
    directory := ← fieldOr? found "directory" Directory.ofValue? Directory.default
    notifications := ← fieldOr? found "notifications" Notifications.ofValue? Notifications.default
    logging := ← fieldOr? found "logging" logging? Log.Settings.default }

def Settings.ofText (s : String) : Except ConfigError Settings :=
  match (Toml.read? s).bind Settings.ofMembers? with
  | some c => c.check
  | none => .error .malformed

/-- What is found at the place of a file. -/
inductive File
  | missing
  /-- There is a folder instead. -/
  | folder
  /-- The path goes on behind a file as if that were a folder. -/
  | behindFile
  | bytes (content : ByteArray)

def Settings.ofFile : File → Except ConfigError Settings
  | .missing => .error (.unreadable "No such file or directory (os error 2)")
  | .folder => .error (.unreadable "Is a directory (os error 21)")
  | .behindFile => .error (.unreadable "Not a directory (os error 20)")
  | .bytes content =>
    match String.fromUTF8? content with
    | some s => Settings.ofText s
    | none => .error (.unreadable "stream did not contain valid UTF-8")

/-! ## Writing -/

def textLine (key s : String) : String := key ++ " = " ++ Toml.quote s ++ "\n"

def optionalLine (key : String) : Option String → String
  | some s => textLine key s
  | none => ""

def truthLine (key : String) (b : Bool) : String :=
  key ++ " = " ++ (if b then "true" else "false") ++ "\n"

def spanLine (key : String) (s : Span) : String := textLine key s.text

def Settings.text (c : Settings) : String :=
  "[server]\n" ++ textLine "base_url" c.server.baseUrl ++ optionalLine "user" c.server.user
    ++ optionalLine "cookie" c.server.cookie ++ spanLine "connect_timeout" c.server.connectTimeout
    ++ "\n[contacts]\n" ++ spanLine "period" c.contacts.period
    ++ "\n[directory]\n" ++ spanLine "timeout" c.directory.timeout
    ++ "\n[notifications]\n" ++ truthLine "enabled" c.notifications.enabled
    ++ truthLine "sound" c.notifications.sound ++ textLine "base_title" c.notifications.baseTitle
    ++ "\n[logging]\n" ++ textLine "level" c.logging.level
    ++ truthLine "json_format" c.logging.layout.json
    ++ truthLine "with_timestamp" c.logging.layout.withTimestamp
    ++ truthLine "with_target" c.logging.layout.withTarget

/-- Writes a configuration to a place whose directory may be missing, and returns the new content of
the file. -/
def Settings.save (c : Settings) (writable : Bool) : Except ConfigError String :=
  if writable then .ok c.text
  else .error (.unwritable "No such file or directory (os error 2)")

end PeerWatch.Config
