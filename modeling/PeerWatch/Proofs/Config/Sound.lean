import PeerWatch.Config.Check
import PeerWatch.Proofs.Client.BaseAddress
import PeerWatch.Proofs.Session.Login

/-!
# What a sound configuration promises

Two values are checked in one form and used in another. The base address is checked as it was
written, but a client takes the slashes off its end first. The user's name is checked where it is
configured, but not where the cookies of a session give it.
-/

namespace PeerWatch.Config

open PeerWatch.Client (IsBareScheme)
open PeerWatch.Session (CookieJar NamedAs)

/-! ## Names of users -/

theorem isUserName_iff {name : String} :
    isUserName name = true ↔ name ≠ "" ∧ '/' ∉ name.toList := by
  unfold isUserName
  simp only [Bool.and_eq_true, Bool.not_eq_true', List.contains_eq_mem, decide_eq_false_iff_not]
  rw [← Bool.not_eq_true, String.isEmpty_iff]

theorem isUserName_unescape_iff {sent : String} (h : Uri.unescape sent ≠ "") :
    isUserName (Uri.unescape sent) = false ↔
      ∃ form ∈ Uri.slashForms, form.toList <:+: sent.toList := by
  rw [← Bool.not_eq_true, isUserName_iff, and_iff_right h, not_not, Uri.unescape,
    String.toList_ofList]
  exact Uri.slash_mem_unescapeChars_iff

theorem toList_contactsPath (user : String) :
    (Client.contactsPath user).toList =
      '/' :: (user.toList ++ '/' :: "contacts/?json".toList) := by
  unfold Client.contactsPath
  simp only [String.toList_append]
  rfl

/-- The path of a user's contacts has the user as one segment, unless a slash cuts the name. -/
theorem cut_contactsPath_iff {user : String} :
    Text.cut '/' (Client.contactsPath user).toList =
        ["", user, "contacts", "?json"].map String.toList ↔ '/' ∉ user.toList := by
  have hend : Text.cut '/' "contacts/?json".toList = ["contacts", "?json"].map String.toList := by
    decide
  constructor
  · intro h
    have hpiece : user.toList ∈ Text.cut '/' (Client.contactsPath user).toList := by
      rw [h]
      simp
    exact Text.not_mem_of_mem_cut hpiece
  · intro h
    rw [toList_contactsPath, Text.cut, if_pos rfl, Text.cut_append_cons h, hend]
    rfl

namespace Settings

variable {c : Settings}

/-! ## Checks -/

theorem check_eq_ok_iff : c.check = .ok c ↔ c.fault? = none := by
  unfold check
  cases c.fault? <;> simp

theorem fault?_eq_none_iff :
    c.fault? = none ↔
      Client.isAbsolute c.server.baseUrl = true ∧
      (∀ user, c.server.user = some user → isUserName user = true) ∧
      c.contacts.period.isZero = false ∧ c.directory.timeout.isZero = false ∧
      (Log.Level.parse? c.logging.level).isSome = true := by
  have huser : c.server.user.filter (fun name => ! isUserName name) = none ↔
      ∀ user, c.server.user = some user → isUserName user = true := by
    simp [Option.filter_eq_none_iff]
  rw [← huser]
  unfold fault?
  by_cases hbase : Client.isAbsolute c.server.baseUrl = true
  · cases c.server.user.filter fun name => ! isUserName name with
    | some name => simp [hbase]
    | none =>
        simp only [hbase]
        cases c.contacts.period.isZero <;> cases c.directory.timeout.isZero <;>
          cases Log.Level.parse? c.logging.level <;> simp
  · simp [hbase]

/-! ## The base address -/

/-- A configuration in which nothing but its base address may be wrong. -/
def SoundOtherwise (c : Settings) : Prop :=
  ({ c with server.baseUrl := Server.default.baseUrl } : Settings).fault? = none

instance (c : Settings) : Decidable c.SoundOtherwise := inferInstanceAs (Decidable (_ = none))

theorem SoundOtherwise.check_iff (h : c.SoundOtherwise) :
    c.check = .ok c ↔ Client.isAbsolute c.server.baseUrl = true := by
  obtain ⟨-, hrest⟩ := fault?_eq_none_iff.1 h
  rw [check_eq_ok_iff, fault?_eq_none_iff]
  exact and_iff_left hrest

/-- Where nothing else is wrong, a configuration passes its check whenever a client can be made for
its base address. The converse fails for nothing but a scheme without an address, of which taking
the slashes off leaves no absolute address. -/
theorem base_address_checks_agree_iff (h : c.SoundOtherwise) :
    let accepted := c.check = .ok c
    let served := ∀ url, Client.Base.ofConfigured c.server.baseUrl ≠ .error (.invalidUrl url)
    (served → accepted) ∧ ((accepted ↔ served) ↔ ¬ IsBareScheme c.server.baseUrl) := by
  intro accepted served
  have haccepted : accepted ↔ Client.isAbsolute c.server.baseUrl = true := h.check_iff
  have hserved : served ↔
      Client.isAbsolute c.server.baseUrl = true ∧ ¬ IsBareScheme c.server.baseUrl :=
    Client.ofConfigured_ne_invalidUrl_iff.trans Client.isAbsolute_trimSlashes_iff
  rw [haccepted, hserved]
  constructor
  · exact And.left
  constructor
  · intro hagree hbare
    exact (hagree.1 hbare.isAbsolute).2 hbare
  · intro hbare
    exact (and_iff_left hbare).symm

theorem base_address_checks_agree_with_slash :
    let c : Settings := { Settings.default with server.baseUrl := "https://teapotnet.org/" }
    c.SoundOtherwise ∧
      (c.check = .ok c ↔
        ∀ url, Client.Base.ofConfigured c.server.baseUrl ≠ .error (.invalidUrl url)) := by
  intro c
  have hsound : c.SoundOtherwise := by decide
  exact ⟨hsound, (base_address_checks_agree_iff hsound).2.2 (by decide)⟩

theorem bare_scheme_accepted_not_served :
    let c : Settings := { Settings.default with server.baseUrl := "http://" }
    c.SoundOtherwise ∧ c.check = .ok c ∧
      Client.Base.ofConfigured c.server.baseUrl = .error (.invalidUrl "http://") := by
  decide

/-! ## The user of the session -/

theorem sessionUser_of_configured {user : String} (h : c.server.user = some user) :
    c.sessionUser = some user := by
  unfold sessionUser
  rw [h]

theorem sessionUser_of_not_configured (h : c.server.user = none) {user : String} :
    c.sessionUser = some user ↔ ∃ header sent, c.server.cookie = some header ∧
      NamedAs (CookieJar.parse header) sent ∧ user = Uri.unescape sent := by
  unfold sessionUser
  rw [h]
  simp only [Option.bind_eq_some_iff, Session.authenticatedUser?_eq_some_iff_namedAs,
    exists_and_left]

theorem sessionUser_ne_empty (hsound : c.check = .ok c) : c.sessionUser ≠ some "" := by
  obtain ⟨-, hconfigured, -⟩ := fault?_eq_none_iff.1 (check_eq_ok_iff.1 hsound)
  intro hempty
  cases hserver : c.server.user with
  | some name =>
      rw [sessionUser_of_configured hserver, Option.some_inj] at hempty
      exact (isUserName_iff.1 (hconfigured name hserver)).1 hempty
  | none =>
      obtain ⟨header, sent, -, hsent⟩ := (sessionUser_of_not_configured hserver).1 hempty
      apply Session.authenticatedUser?_ne_empty (CookieJar.parse header)
      exact Session.authenticatedUser?_eq_some_iff_namedAs.2 ⟨sent, hsent⟩

/-- The user that a sound configuration leads to is somebody, and is one segment of the path of the
contacts exactly if the name is one that could be configured. The name breaks that rule exactly if
no user is configured and the cookie, as it was sent, has a slash in the name that it gives to the
user: as itself, or escaped in one of four ways. -/
theorem session_user_breaks_rule_iff (hsound : c.check = .ok c) {user : String}
    (huser : c.sessionUser = some user) :
    user ≠ "" ∧
      (isUserName user = true ↔ Text.cut '/' (Client.contactsPath user).toList =
        ["", user, "contacts", "?json"].map String.toList) ∧
      (isUserName user = false ↔ c.server.user = none ∧ ∃ header sent,
        c.server.cookie = some header ∧ NamedAs (CookieJar.parse header) sent ∧
          user = Uri.unescape sent ∧ ∃ form ∈ Uri.slashForms, form.toList <:+: sent.toList) := by
  obtain ⟨-, hconfigured, -⟩ := fault?_eq_none_iff.1 (check_eq_ok_iff.1 hsound)
  have hnonempty : user ≠ "" := by
    rintro rfl
    exact sessionUser_ne_empty hsound huser
  refine ⟨hnonempty, ?_, ?_, ?_⟩
  · rw [cut_contactsPath_iff, isUserName_iff, and_iff_right hnonempty]
  · intro hbroken
    cases hserver : c.server.user with
    | some name =>
        rw [sessionUser_of_configured hserver, Option.some_inj] at huser
        rw [huser] at hserver
        rw [hconfigured user hserver] at hbroken
        exact absurd hbroken Bool.noConfusion
    | none =>
        obtain ⟨header, sent, hcookie, hnamed, rfl⟩ :=
          (sessionUser_of_not_configured hserver).1 huser
        have hslash := (isUserName_unescape_iff hnonempty).1 hbroken
        exact ⟨rfl, header, sent, hcookie, hnamed, rfl, hslash⟩
  · rintro ⟨-, header, sent, -, -, rfl, hslash⟩
    exact (isUserName_unescape_iff hnonempty).2 hslash

theorem session_user_keeps_rule_with_blank :
    let c : Settings := { Settings.default with server.cookie := some "auth_bob%20smith=1" }
    c.check = .ok c ∧ c.sessionUser = some "bob smith" ∧
      Text.cut '/' (Client.contactsPath "bob smith").toList =
        ["", "bob smith", "contacts", "?json"].map String.toList := by
  intro c
  have hsound : c.check = .ok c := by decide
  have huser : c.sessionUser = some "bob smith" := by decide +kernel
  exact ⟨hsound, huser, (session_user_breaks_rule_iff hsound huser).2.1.1 (by decide)⟩

theorem session_user_holds_escaped_slash :
    let c : Settings := { Settings.default with server.cookie := some "auth_a%2Fb=1" }
    c.check = .ok c ∧ c.sessionUser = some "a/b" ∧ isUserName "a/b" = false ∧
      Text.cut '/' (Client.contactsPath "a/b").toList =
        ["", "a", "b", "contacts", "?json"].map String.toList := by
  decide +kernel

end Settings
end PeerWatch.Config
