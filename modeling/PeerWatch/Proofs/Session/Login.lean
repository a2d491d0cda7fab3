import PeerWatch.Proofs.Text.Pieces
import PeerWatch.Proofs.Uri.Unescape
import PeerWatch.Session.User

/-!
# Who is logged in

The two rules by which a session names its user, told of the cookies as they stand in the jar: the
`name` cookie with its token, and else the first token. Names of tokens are compared as they were
sent, but the `name` cookie as it is unescaped, so that it need not find its own token.
-/

namespace PeerWatch.Session

/-- A cookie of this name is the token of some user. -/
def IsToken (cookie : String) : Prop := ∃ user, user ≠ "" ∧ cookie = tokenStart ++ user

/-- The first `name` cookie names the user, and the first cookie called after that user holds
something. The empty name is nobody's, even where a cookie is called after it. -/
structure NamedBy (jar : CookieJar) (user : String) : Prop where
  nonempty : user ≠ ""
  name : jar.get? "name" = some user
  token : ∃ value, jar.get? (tokenStart ++ user) = some value ∧ value ≠ ""

/-- The first token of all is that of the user. -/
def FirstToken (jar : CookieJar) (user : String) : Prop :=
  ∃ before owner after, jar.names = before ++ (tokenStart ++ owner) :: after ∧ owner ≠ "" ∧
    user = Uri.unescape owner ∧ ∀ cookie ∈ before, ¬ IsToken cookie

/-! ## Tokens -/

theorem tokenUser?_eq_some_iff {cookie user : String} :
    tokenUser? cookie = some user ↔
      ∃ owner, owner ≠ "" ∧ cookie = tokenStart ++ owner ∧ user = Uri.unescape owner := by
  constructor
  · intro h
    unfold tokenUser? at h
    split at h
    next c owner hdrop =>
      have htext : cookie.toList = tokenStart.toList ++ c :: owner :=
        Text.dropStart?_eq_some_iff.1 hdrop
      refine ⟨String.ofList (c :: owner), by simp, ?_, ?_⟩
      · rw [← String.toList_inj, htext, String.toList_append, String.toList_ofList]
      · exact (Option.some.inj h).symm
    next => cases h
  · rintro ⟨owner, howner, rfl, rfl⟩
    obtain ⟨c, rest, hrest⟩ : ∃ c rest, owner.toList = c :: rest :=
      List.exists_cons_of_ne_nil (by simpa using howner)
    have hdrop : Text.dropStart? tokenStart.toList (tokenStart ++ owner).toList =
        some (c :: rest) := by
      rw [Text.dropStart?_eq_some_iff, String.toList_append, hrest]
    unfold tokenUser?
    rw [hdrop]
    simp only [← hrest, String.ofList_toList]

theorem tokenUser?_eq_none_iff {cookie : String} : tokenUser? cookie = none ↔ ¬ IsToken cookie := by
  rw [Option.eq_none_iff_forall_ne_some]
  constructor
  · rintro h ⟨owner, howner, rfl⟩
    exact h _ (tokenUser?_eq_some_iff.2 ⟨owner, howner, rfl, rfl⟩)
  · intro h user huser
    obtain ⟨owner, howner, hcookie, -⟩ := tokenUser?_eq_some_iff.1 huser
    exact h ⟨owner, howner, hcookie⟩

theorem findSome?_tokenUser? {jar : CookieJar} {user : String} :
    jar.names.findSome? tokenUser? = some user ↔ FirstToken jar user := by
  rw [List.findSome?_eq_some_iff]
  constructor
  · rintro ⟨before, cookie, after, hnames, htoken, hbefore⟩
    obtain ⟨owner, howner, rfl, huser⟩ := tokenUser?_eq_some_iff.1 htoken
    exact ⟨before, owner, after, hnames, howner, huser,
      fun c hc => tokenUser?_eq_none_iff.1 (hbefore c hc)⟩
  · rintro ⟨before, owner, after, hnames, howner, huser, hbefore⟩
    exact ⟨before, _, after, hnames, tokenUser?_eq_some_iff.2 ⟨owner, howner, rfl, huser⟩,
      fun c hc => tokenUser?_eq_none_iff.2 (hbefore c hc)⟩

theorem FirstToken.nonempty {jar : CookieJar} {user : String} (h : FirstToken jar user) :
    user ≠ "" := by
  obtain ⟨_, _, _, _, howner, rfl, -⟩ := h
  exact fun hempty => howner (Uri.unescape_eq_empty_iff.1 hempty)

/-! ## The named user -/

theorem CookieJar.isSet_iff {jar : CookieJar} {name : String} :
    jar.isSet name = true ↔ ∃ value, jar.get? name = some value ∧ value ≠ "" := by
  simp [isSet, Option.any_eq_true]

theorem CookieJar.mem_names_of_get? {jar : CookieJar} {name value : String}
    (h : jar.get? name = some value) : name ∈ jar.names := by
  rw [get?, raw?, Option.map_map, Option.map_eq_some_iff] at h
  obtain ⟨pair, hfind, -⟩ := h
  have hname : pair.1 = name := by simpa using List.find?_some hfind
  rw [names, ← hname]
  exact List.mem_map_of_mem (List.mem_of_find?_eq_some hfind)

theorem namedUser?_eq_some_iff {jar : CookieJar} {user : String} :
    namedUser? jar = some user ↔ NamedBy jar user := by
  unfold namedUser?
  constructor
  · intro h
    split at h
    next name hname =>
      split at h
      next hset =>
        cases h
        exact ⟨hset.1, hname, CookieJar.isSet_iff.1 hset.2⟩
      next => cases h
    next => cases h
  · intro h
    rw [h.name]
    exact if_pos ⟨h.nonempty, CookieJar.isSet_iff.2 h.token⟩

theorem namedUser?_eq_none_iff {jar : CookieJar} :
    namedUser? jar = none ↔ ∀ user, ¬ NamedBy jar user := by
  rw [Option.eq_none_iff_forall_ne_some]
  exact forall_congr' fun user => not_congr namedUser?_eq_some_iff

theorem NamedBy.isToken {jar : CookieJar} {user : String} (h : NamedBy jar user) :
    ∃ cookie ∈ jar.names, IsToken cookie := by
  obtain ⟨value, hvalue, -⟩ := h.token
  exact ⟨_, CookieJar.mem_names_of_get? hvalue, user, h.nonempty, rfl⟩

/-! ## Both rules -/

theorem authenticatedUser?_of_namedBy {jar : CookieJar} {user : String} (h : NamedBy jar user) :
    authenticatedUser? jar = some user := by
  rw [authenticatedUser?, namedUser?_eq_some_iff.2 h]
  rfl

theorem authenticatedUser?_of_not_namedBy {jar : CookieJar} (h : ∀ user, ¬ NamedBy jar user) :
    authenticatedUser? jar = jar.names.findSome? tokenUser? := by
  rw [authenticatedUser?, namedUser?_eq_none_iff.2 h]
  rfl

theorem authenticatedUser?_eq_some_iff {jar : CookieJar} {user : String} :
    authenticatedUser? jar = some user ↔
      NamedBy jar user ∨ (∀ other, ¬ NamedBy jar other) ∧ FirstToken jar user := by
  by_cases hnamed : ∃ named, NamedBy jar named
  · obtain ⟨named, hnamed⟩ := hnamed
    have hsome := authenticatedUser?_of_namedBy hnamed
    constructor
    · intro h
      rw [hsome] at h
      cases h
      exact Or.inl hnamed
    · rintro (huser | ⟨hnobody, -⟩)
      · exact authenticatedUser?_of_namedBy huser
      · exact absurd hnamed (hnobody named)
  · have hnobody : ∀ other, ¬ NamedBy jar other := fun other hother => hnamed ⟨other, hother⟩
    rw [authenticatedUser?_of_not_namedBy hnobody, findSome?_tokenUser?]
    constructor
    · exact fun h => Or.inr ⟨hnobody, h⟩
    · rintro (huser | ⟨-, hfirst⟩)
      · exact absurd huser (hnobody user)
      · exact hfirst

theorem authenticatedUser?_eq_none_iff {jar : CookieJar} :
    authenticatedUser? jar = none ↔ ∀ cookie ∈ jar.names, ¬ IsToken cookie := by
  constructor
  · intro h
    have hnobody : ∀ user, ¬ NamedBy jar user := by
      intro user huser
      rw [authenticatedUser?_of_namedBy huser] at h
      cases h
    rw [authenticatedUser?_of_not_namedBy hnobody, List.findSome?_eq_none_iff] at h
    exact fun cookie hcookie => tokenUser?_eq_none_iff.1 (h cookie hcookie)
  · intro h
    have hnobody : ∀ user, ¬ NamedBy jar user := by
      intro user huser
      obtain ⟨cookie, hcookie, htoken⟩ := huser.isToken
      exact h cookie hcookie htoken
    rw [authenticatedUser?_of_not_namedBy hnobody, List.findSome?_eq_none_iff]
    exact fun cookie hcookie => tokenUser?_eq_none_iff.2 (h cookie hcookie)

theorem authenticatedUser?_ne_empty (jar : CookieJar) : authenticatedUser? jar ≠ some "" := by
  rw [Ne, authenticatedUser?_eq_some_iff]
  rintro (h | ⟨-, h⟩)
  · exact h.nonempty rfl
  · exact h.nonempty rfl

/-! ## Cookies that do not count -/

/-- A cookie by which a session may name its user: `name`, or one called like a token. -/
def ConcernsLogin (pair : String × String) : Prop :=
  pair.1 = "name" ∨ tokenStart.toList <+: pair.1.toList

instance (pair : String × String) : Decidable (ConcernsLogin pair) :=
  inferInstanceAs (Decidable (_ ∨ _))

theorem concernsLogin_token (user value : String) : ConcernsLogin (tokenStart ++ user, value) := by
  refine Or.inr ⟨user.toList, ?_⟩
  rw [String.toList_append]

namespace CookieJar

/-- The jar without the cookies that say nothing about the user. -/
def loginPart (jar : CookieJar) : CookieJar := ⟨jar.pairs.filter (ConcernsLogin ·)⟩

theorem get?_loginPart (jar : CookieJar) {name : String}
    (h : ∀ value, ConcernsLogin (name, value)) : jar.loginPart.get? name = jar.get? name := by
  have hsame : ∀ pair : String × String,
      decide (decide (ConcernsLogin pair) = true ∧ decide (pair.1 = name) = true) =
        decide (pair.1 = name) := by
    rintro ⟨n, value⟩
    by_cases hn : n = name
    · simp [hn, h value]
    · simp [hn]
  rw [get?, raw?, loginPart, List.find?_filter, funext hsame]
  rfl

theorem findSome?_loginPart (jar : CookieJar) :
    jar.loginPart.names.findSome? tokenUser? = jar.names.findSome? tokenUser? := by
  obtain ⟨pairs⟩ := jar
  show ((pairs.filter (ConcernsLogin ·)).map (·.1)).findSome? tokenUser? =
    (pairs.map (·.1)).findSome? tokenUser?
  induction pairs with
  | nil => rfl
  | cons pair pairs ih =>
      by_cases hpair : ConcernsLogin pair
      · rw [List.filter_cons_of_pos (by simpa using hpair), List.map_cons, List.map_cons,
          List.findSome?_cons, List.findSome?_cons, ih]
      · have hnone : tokenUser? pair.1 = none := by
          rw [tokenUser?_eq_none_iff]
          rintro ⟨owner, -, hcookie⟩
          exact hpair (Or.inr ⟨owner.toList, by rw [hcookie, String.toList_append]⟩)
        rw [List.filter_cons_of_neg (by simpa using hpair), List.map_cons, List.findSome?_cons,
          hnone, ih]

end CookieJar

theorem authenticatedUser?_loginPart (jar : CookieJar) :
    authenticatedUser? jar.loginPart = authenticatedUser? jar := by
  have hname : jar.loginPart.get? "name" = jar.get? "name" :=
    jar.get?_loginPart fun _ => Or.inl rfl
  have htoken : ∀ user,
      jar.loginPart.isSet (tokenStart ++ user) = jar.isSet (tokenStart ++ user) := by
    intro user
    rw [CookieJar.isSet, jar.get?_loginPart (concernsLogin_token user), CookieJar.isSet]
  have hnamed : namedUser? jar.loginPart = namedUser? jar := by
    simp only [namedUser?, hname, htoken]
  rw [authenticatedUser?, hnamed, CookieJar.findSome?_loginPart, authenticatedUser?]

/-- A session has no user exactly if none of its cookies is a token. The user that it has is the one
whom the `name` cookie names and who has a token that is not empty, or else, where that holds of
nobody, the one of the first token; the empty name is nobody's. Other cookies than these do not
count, whatever they are and wherever they stand. -/
theorem session_names_its_user (jar : CookieJar) :
    (authenticatedUser? jar = none ↔ ∀ cookie ∈ jar.names, ¬ IsToken cookie) ∧
      (∀ user, authenticatedUser? jar = some user ↔
        NamedBy jar user ∨ (∀ other, ¬ NamedBy jar other) ∧ FirstToken jar user) ∧
      authenticatedUser? jar ≠ some "" ∧
      ∀ other : CookieJar, other.loginPart = jar.loginPart →
        authenticatedUser? other = authenticatedUser? jar := by
  refine ⟨authenticatedUser?_eq_none_iff, fun user => authenticatedUser?_eq_some_iff,
    authenticatedUser?_ne_empty jar, fun other h => ?_⟩
  rw [← authenticatedUser?_loginPart other, h, authenticatedUser?_loginPart]

theorem session_names_its_user_despite_theme :
    let jar : CookieJar := ⟨[("name", "carol"), ("auth_bob%20smith", "1")]⟩
    let other : CookieJar := ⟨[("theme", "dark"), ("name", "carol"), ("auth_bob%20smith", "1")]⟩
    other.loginPart = jar.loginPart ∧ authenticatedUser? other = authenticatedUser? jar :=
  ⟨by decide, (session_names_its_user _).2.2.2 _ (by decide)⟩

example : authenticatedUser? ⟨[("name", ""), ("auth_", "1"), ("auth_bob", "2")]⟩ = some "bob" := by
  decide +kernel

/-! ## Escaped names -/

variable {jar : CookieJar} {x : String}

theorem get?_of_raw? {name value : String} (h : jar.raw? name = some value) :
    jar.get? name = some (Uri.unescape value) := by
  rw [CookieJar.get?, h, Option.map_some]

theorem namedBy_unescape_iff (hname : jar.raw? "name" = some x) (hx : x ≠ "") :
    NamedBy jar (Uri.unescape x) ↔
      ∃ value, jar.get? (tokenStart ++ Uri.unescape x) = some value ∧ value ≠ "" :=
  ⟨NamedBy.token, fun htoken =>
    ⟨fun h => hx (Uri.unescape_eq_empty_iff.1 h), get?_of_raw? hname, htoken⟩⟩

/-- Let the `name` cookie hold `x` as it was sent, and the cookie called after `x` as it was sent
hold something. The user is `x` unescaped exactly if also the cookie called after `x` unescaped holds
something, or if the first token of all is one of that user. Names without escapes always win. -/
theorem named_user_wins_iff (hname : jar.raw? "name" = some x) (hx : x ≠ "")
    (htoken : ∃ value, jar.raw? (tokenStart ++ x) = some value ∧ value ≠ "") :
    (authenticatedUser? jar = some (Uri.unescape x) ↔
      (∃ value, jar.get? (tokenStart ++ Uri.unescape x) = some value ∧ value ≠ "") ∨
        FirstToken jar (Uri.unescape x)) ∧
      ('%' ∉ x.toList → authenticatedUser? jar = some (Uri.unescape x)) := by
  have hnamed := namedBy_unescape_iff hname hx
  refine ⟨?_, fun hpercent => ?_⟩
  · rw [authenticatedUser?_eq_some_iff, ← hnamed]
    constructor
    · rintro (h | ⟨-, h⟩)
      · exact Or.inl h
      · exact Or.inr h
    · rintro (h | h)
      · exact Or.inl h
      · by_cases hthis : NamedBy jar (Uri.unescape x)
        · exact Or.inl hthis
        · -- only the unescaped value of the cookie could name anyone
          refine Or.inr ⟨fun other hother => hthis ?_, h⟩
          have hsame : other = Uri.unescape x := by
            have hget := hother.name
            rw [get?_of_raw? hname] at hget
            exact (Option.some.inj hget).symm
          rwa [← hsame]
  · obtain ⟨value, hvalue, hnonempty⟩ := htoken
    apply authenticatedUser?_of_namedBy
    rw [hnamed, Uri.unescape_of_no_percent hpercent]
    exact ⟨_, get?_of_raw? hvalue, fun h => hnonempty (Uri.unescape_eq_empty_iff.1 h)⟩

theorem named_user_wins_over_first_token :
    let jar := CookieJar.parse "auth_alice=1; name=bob; auth_bob=2"
    jar.raw? "name" = some "bob" ∧ jar.raw? (tokenStart ++ "bob") = some "2" ∧
      authenticatedUser? jar = some (Uri.unescape "bob") := by
  have hname : (CookieJar.parse "auth_alice=1; name=bob; auth_bob=2").raw? "name" = some "bob" := by
    decide
  have htoken : (CookieJar.parse "auth_alice=1; name=bob; auth_bob=2").raw? (tokenStart ++ "bob") =
      some "2" := by
    decide
  exact ⟨hname, htoken,
    (named_user_wins_iff hname (by decide) ⟨"2", htoken, by decide⟩).2 (by decide)⟩

/-- The `name` cookie and the token have the same text, but the token is looked for by the unescaped
one, and another user's token comes first. -/
theorem escaped_user_loses_to_first_token :
    let jar := CookieJar.parse "auth_alice=1; name=bob%20smith; auth_bob%20smith=2"
    jar.raw? "name" = some "bob%20smith" ∧ jar.raw? (tokenStart ++ "bob%20smith") = some "2" ∧
      Uri.unescape "bob%20smith" = "bob smith" ∧ authenticatedUser? jar = some "alice" := by
  decide +kernel

/-! ## Names as they were sent -/

/-- The text, with its escapes, by which a session names its user: the value of the `name` cookie if
the user has a token, and else what the first token is called after. -/
def NamedAs (jar : CookieJar) (sent : String) : Prop :=
  (jar.raw? "name" = some sent ∧ NamedBy jar (Uri.unescape sent)) ∨
    (∀ other, ¬ NamedBy jar other) ∧ ∃ before after,
      jar.names = before ++ (tokenStart ++ sent) :: after ∧ sent ≠ "" ∧
        ∀ cookie ∈ before, ¬ IsToken cookie

theorem authenticatedUser?_eq_some_iff_namedAs {jar : CookieJar} {user : String} :
    authenticatedUser? jar = some user ↔ ∃ sent, NamedAs jar sent ∧ user = Uri.unescape sent := by
  rw [authenticatedUser?_eq_some_iff]
  constructor
  · rintro (h | ⟨hnobody, before, owner, after, hnames, howner, huser, hbefore⟩)
    · have hname := h.name
      rw [CookieJar.get?, Option.map_eq_some_iff] at hname
      obtain ⟨sent, hsent, rfl⟩ := hname
      exact ⟨sent, .inl ⟨hsent, h⟩, rfl⟩
    · exact ⟨owner, .inr ⟨hnobody, before, after, hnames, howner, hbefore⟩, huser⟩
  · rintro ⟨sent, ⟨-, h⟩ | ⟨hnobody, before, after, hnames, hsent, hbefore⟩, rfl⟩
    · exact .inl h
    · exact .inr ⟨hnobody, before, sent, after, hnames, hsent, rfl, hbefore⟩

end PeerWatch.Session
