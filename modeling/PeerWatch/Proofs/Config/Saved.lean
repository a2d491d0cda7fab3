import PeerWatch.Config.File
import PeerWatch.Proofs.Time.Written
import PeerWatch.Proofs.Toml.Sections

/-!
# Configurations saved and loaded

The file of a configuration is a document of five sections. Its values are read back as they were,
and what is not written because it is absent is absent by default. So a file leads back to the
configuration that it was written from, or to the reason why that one is refused.
-/

namespace PeerWatch.Config

open PeerWatch.Time (Span)
open PeerWatch.Toml (Members Scalar Section fieldChars fieldMember documentChars)

/-- Its spans of time can be measured: their seconds fit into 64 bits. -/
structure Settings.Representable (c : Settings) : Prop where
  connectTimeout : c.server.connectTimeout.Representable
  period : c.contacts.period.Representable
  timeout : c.directory.timeout.Representable

instance (c : Settings) : Decidable c.Representable :=
  decidable_of_iff (c.server.connectTimeout.Representable ∧ c.contacts.period.Representable ∧
      c.directory.timeout.Representable)
    ⟨fun h => ⟨h.1, h.2.1, h.2.2⟩, fun h => ⟨h.connectTimeout, h.period, h.timeout⟩⟩

/-! ## The sections of a configuration -/

def optionalField (key : String) : Option String → List (String × Scalar)
  | some s => [(key, .text s)]
  | none => []

def Server.toSection (s : Server) : Section where
  name := "server"
  fields := [("base_url", .text s.baseUrl)] ++ optionalField "user" s.user
    ++ optionalField "cookie" s.cookie ++ [("connect_timeout", .text s.connectTimeout.text)]

def Contacts.toSection (s : Contacts) : Section where
  name := "contacts"
  fields := [("period", .text s.period.text)]

def Directory.toSection (s : Directory) : Section where
  name := "directory"
  fields := [("timeout", .text s.timeout.text)]

def Notifications.toSection (s : Notifications) : Section where
  name := "notifications"
  fields := [("enabled", .truth s.enabled), ("sound", .truth s.sound),
    ("base_title", .text s.baseTitle)]

def loggingSection (s : Log.Settings) : Section where
  name := "logging"
  fields := [("level", .text s.level), ("json_format", .truth s.layout.json),
    ("with_timestamp", .truth s.layout.withTimestamp), ("with_target", .truth s.layout.withTarget)]

def Settings.sections (c : Settings) : List Section :=
  [c.server.toSection, c.contacts.toSection, c.directory.toSection, c.notifications.toSection,
    loggingSection c.logging]

/-! ## Writing -/

theorem toList_textLine (key s : String) : (textLine key s).toList = fieldChars (key, .text s) := by
  simp [textLine, fieldChars, Scalar.chars]

theorem toList_spanLine (key : String) (s : Span) :
    (spanLine key s).toList = fieldChars (key, .text s.text) :=
  toList_textLine key s.text

theorem toList_truthLine (key : String) (b : Bool) :
    (truthLine key b).toList = fieldChars (key, .truth b) := by
  simp [truthLine, fieldChars, Scalar.chars]

theorem toList_optionalLine (key : String) (x : Option String) :
    (optionalLine key x).toList = (optionalField key x).flatMap fieldChars := by
  cases x with
  | none => rfl
  | some s => simp [optionalLine, optionalField, toList_textLine]

theorem toList_text (c : Settings) : c.text.toList = documentChars c.sections := by
  have hserver : "[server]\n".toList = '[' :: ("server".toList ++ [']', '\n']) := rfl
  have hcontacts : "\n[contacts]\n".toList =
      '\n' :: '[' :: ("contacts".toList ++ [']', '\n']) := rfl
  have hdirectory : "\n[directory]\n".toList =
      '\n' :: '[' :: ("directory".toList ++ [']', '\n']) := rfl
  have hnotifications : "\n[notifications]\n".toList =
      '\n' :: '[' :: ("notifications".toList ++ [']', '\n']) := rfl
  have hlogging : "\n[logging]\n".toList = '\n' :: '[' :: ("logging".toList ++ [']', '\n']) := rfl
  unfold Settings.text
  simp only [String.toList_append, toList_textLine, toList_spanLine, toList_truthLine,
    toList_optionalLine]
  rw [hserver, hcontacts, hdirectory, hnotifications, hlogging]
  simp only [Settings.sections, documentChars, Section.chars, Server.toSection, Contacts.toSection,
    Directory.toSection, Notifications.toSection, loggingSection, List.flatMap_cons,
    List.flatMap_append, List.flatMap_nil, List.append_nil, List.cons_append, List.nil_append,
    List.append_assoc]

/-! ## Reading -/

/-- A section that has some of the keys that are looked for can be told apart from everything
else. -/
theorem wellFormed_of_sublist {s : Section} (name : String) (keys : List String)
    (hsection : s.name = name) (hname : Toml.IsBareName name)
    (hsub : (s.fields.map (·.1)).Sublist keys) (hkeys : ∀ key ∈ keys, Toml.IsBareName key)
    (hnodup : keys.Nodup) : s.WellFormed where
  name := hsection ▸ hname
  keys key h := hkeys key (hsub.subset h)
  nodup := hsub.nodup hnodup

theorem Server.sublist_keys (s : Server) : (s.toSection.fields.map (·.1)).Sublist keys := by
  obtain ⟨baseUrl, user, cookie, connectTimeout⟩ := s
  cases user <;> cases cookie <;> simp [toSection, optionalField, keys]

theorem wellFormed_sections (c : Settings) : ∀ s ∈ c.sections, s.WellFormed := by
  have hserver : c.server.toSection.WellFormed :=
    wellFormed_of_sublist "server" Server.keys rfl (by decide) c.server.sublist_keys (by decide)
      (by decide)
  have hcontacts : c.contacts.toSection.WellFormed :=
    wellFormed_of_sublist "contacts" Contacts.keys rfl (by decide) (List.Sublist.refl _)
      (by decide) (by decide)
  have hdirectory : c.directory.toSection.WellFormed :=
    wellFormed_of_sublist "directory" Directory.keys rfl (by decide) (List.Sublist.refl _)
      (by decide) (by decide)
  have hnotifications : c.notifications.toSection.WellFormed :=
    wellFormed_of_sublist "notifications" Notifications.keys rfl (by decide)
      (List.Sublist.refl _) (by decide) (by decide)
  have hlogging : (loggingSection c.logging).WellFormed :=
    wellFormed_of_sublist "logging" loggingKeys rfl (by decide) (List.Sublist.refl _)
      (by decide) (by decide)
  simp [Settings.sections, hserver, hcontacts, hdirectory, hnotifications, hlogging]

theorem span?_text {s : Span} (h : s.Representable) : span? (.string s.text) = some s := by
  rw [span?, Span.read_text h]
  rfl

theorem Server.ofValue?_toSection {s : Server} (h : s.connectTimeout.Representable) :
    ofValue? s.toSection.member.2 = some s := by
  obtain ⟨baseUrl, user, cookie, connectTimeout⟩ := s
  have hspan := span?_text h
  cases user <;> cases cookie <;>
    simp [ofValue?, toSection, optionalField, Section.member, fieldMember, fields?, fieldOr?,
      Members.get?, Scalar.value, text?, hspan, Server.default]

theorem Contacts.ofValue?_toSection {s : Contacts} (h : s.period.Representable) :
    ofValue? s.toSection.member.2 = some s := by
  simp [ofValue?, toSection, Section.member, fieldMember, fields?, fieldOr?, Members.get?,
    Scalar.value, span?_text h]

theorem Directory.ofValue?_toSection {s : Directory} (h : s.timeout.Representable) :
    ofValue? s.toSection.member.2 = some s := by
  simp [ofValue?, toSection, Section.member, fieldMember, fields?, fieldOr?, Members.get?,
    Scalar.value, span?_text h]

theorem Notifications.ofValue?_toSection (s : Notifications) :
    ofValue? s.toSection.member.2 = some s := by
  simp [ofValue?, toSection, Section.member, fieldMember, fields?, fieldOr?, Members.get?,
    Scalar.value, text?, truth?]

theorem logging?_section (s : Log.Settings) : logging? (loggingSection s).member.2 = some s := by
  simp [logging?, loggingSection, Section.member, fieldMember, fields?, fieldOr?, Members.get?,
    Scalar.value, text?, truth?]

theorem fieldOr?_eq {α : Type} {members : Members} {key : String} {v : Toml.Value}
    (hget : members.get? key = some v) {decode : Toml.Value → Option α} {x : α}
    (hdecode : decode v = some x) (absent : α) : fieldOr? members key decode absent = some x := by
  rw [fieldOr?, hget]
  exact hdecode

theorem ofMembers?_sections {c : Settings} (h : c.Representable) :
    Settings.ofMembers? (c.sections.map Section.member) = some c := by
  have hserver : Members.get? (c.sections.map Section.member) "server" =
      some c.server.toSection.member.2 := rfl
  have hcontacts : Members.get? (c.sections.map Section.member) "contacts" =
      some c.contacts.toSection.member.2 := rfl
  have hdirectory : Members.get? (c.sections.map Section.member) "directory" =
      some c.directory.toSection.member.2 := rfl
  have hnotifications : Members.get? (c.sections.map Section.member) "notifications" =
      some c.notifications.toSection.member.2 := rfl
  have hlogging : Members.get? (c.sections.map Section.member) "logging" =
      some (loggingSection c.logging).member.2 := rfl
  rw [Settings.ofMembers?, fieldOr?_eq hserver (Server.ofValue?_toSection h.connectTimeout),
    fieldOr?_eq hcontacts (Contacts.ofValue?_toSection h.period),
    fieldOr?_eq hdirectory (Directory.ofValue?_toSection h.timeout),
    fieldOr?_eq hnotifications (Notifications.ofValue?_toSection c.notifications),
    fieldOr?_eq hlogging (logging?_section c.logging)]
  rfl

theorem read?_text (c : Settings) : Toml.read? c.text = some (c.sections.map Section.member) := by
  have htext : c.text = String.ofList (documentChars c.sections) := by
    rw [← toList_text, String.ofList_toList]
  have hnames : c.sections.map (·.name) =
      ["server", "contacts", "directory", "notifications", "logging"] := rfl
  rw [htext]
  exact Toml.read?_document (wellFormed_sections c) (hnames ▸ by decide)

/-! ## The way back -/

/-- A configuration that can be written is written, and its file leads back to it, or to its fault
where it has one. -/
theorem saved_file_leads_back (c : Settings) (h : c.Representable) :
    ∃ text, c.save true = .ok text ∧
      Settings.ofFile (.bytes text.toUTF8) =
        match c.fault? with
        | none => .ok c
        | some fault => .error (.refused fault) := by
  have hread : (Toml.read? c.text).bind Settings.ofMembers? = some c := by
    rw [read?_text]
    exact ofMembers?_sections h
  have hbytes : String.fromUTF8? c.text.toUTF8 = some c.text := dif_pos c.text.isValidUTF8
  refine ⟨c.text, rfl, ?_⟩
  rw [Settings.ofFile, hbytes]
  simp only [Settings.ofText, hread, Settings.check]
  cases c.fault? <;> rfl

/-- A sound configuration with strings of all forms and spans of many units. -/
def oddSettings : Settings where
  server := ⟨"http://[::1]:8480/a\\b", some "O'Neil \"Bob\"", some "name=\x07\n'''\"\"\"",
    ⟨94694401, 5⟩⟩
  contacts := ⟨⟨0, 1500⟩⟩
  directory := ⟨⟨18446744073709551615, 999999999⟩⟩
  notifications := ⟨true, false, "first line\nlast \"\" line\\"⟩
  logging := ⟨"WARNING", true, false, true⟩

theorem saved_file_leads_back_to_odd_settings :
    oddSettings.Representable ∧ ∃ text, oddSettings.save true = .ok text ∧
      Settings.ofFile (.bytes text.toUTF8) = .ok oddSettings := by
  have h : oddSettings.Representable := by decide
  have hsound : oddSettings.fault? = none := by decide
  have hback := saved_file_leads_back oddSettings h
  rw [hsound] at hback
  exact ⟨h, hback⟩

end PeerWatch.Config
