import PeerWatch.Config.Environment

/-!
# What variables override

Every variable has a field of the configuration for its own, and a sort: a text is taken as it is, a
duration or a flag must be one. Reading the variables in their order overrides the fields of those
that are set, up to the first whose text is not of its sort; the error names it, and all other fields
stay as they are.
-/

namespace PeerWatch.Config

/-- The value of a field, of one of the sorts that fields have. -/
inductive FieldValue
  | text (s : String)
  | optional (s : Option String)
  | span (t : Time.Span)
  | flag (b : Bool)
  deriving DecidableEq, Repr

namespace Settings

/-- The value of the field that a variable overrides. -/
def fieldOf (c : Settings) : Variable → FieldValue
  | .baseUrl => .text c.server.baseUrl
  | .user => .optional c.server.user
  | .cookie => .optional c.server.cookie
  | .connectTimeout => .span c.server.connectTimeout
  | .period => .span c.contacts.period
  | .timeout => .span c.directory.timeout
  | .enabled => .flag c.notifications.enabled
  | .sound => .flag c.notifications.sound
  | .level => .text c.logging.level
  | .json => .flag c.logging.layout.json

/-- The values of the fields that no variable overrides. -/
def otherFields (c : Settings) : String × Bool × Bool :=
  (c.notifications.baseTitle, c.logging.layout.withTimestamp, c.logging.layout.withTarget)

/-- The fields make up a configuration: none is left out. -/
theorem eq_of_fields {c d : Settings} (hfields : ∀ x, c.fieldOf x = d.fieldOf x)
    (hothers : c.otherFields = d.otherFields) : c = d := by
  obtain ⟨⟨_, _, _, _⟩, ⟨_⟩, ⟨_⟩, ⟨_, _, _⟩, _, ⟨_, _, _⟩⟩ := c
  obtain ⟨⟨_, _, _, _⟩, ⟨_⟩, ⟨_⟩, ⟨_, _, _⟩, _, ⟨_, _, _⟩⟩ := d
  cases hfields .baseUrl
  cases hfields .user
  cases hfields .cookie
  cases hfields .connectTimeout
  cases hfields .period
  cases hfields .timeout
  cases hfields .enabled
  cases hfields .sound
  cases hfields .level
  cases hfields .json
  cases hothers
  rfl

end Settings

/-! ## What texts say -/

/-- The sorts of values that variables have. -/
inductive ValueSort
  | text
  | optional
  | span
  | flag
  deriving DecidableEq, Repr

def Variable.sort : Variable → ValueSort
  | .baseUrl | .level => .text
  | .user | .cookie => .optional
  | .connectTimeout | .period | .timeout => .span
  | .enabled | .sound | .json => .flag

/-- The variables whose texts may be malformed. -/
def parsedVariables : List Variable := [.connectTimeout, .period, .timeout, .enabled, .sound, .json]

/-- What a text says as a value of a sort. -/
inductive Says : ValueSort → String → FieldValue → Prop
  | text (s : String) : Says .text s (.text s)
  | optional (s : String) : Says .optional s (.optional (some s))
  | span {s : String} {t : Time.Span} (h : Time.Span.read s = .ok t) : Says .span s (.span t)
  | yes {s : String} (h : s = "true") : Says .flag s (.flag true)
  | no {s : String} (h : s = "false") : Says .flag s (.flag false)

/-- Why a text says nothing as a value of a sort. -/
inductive Malformed : ValueSort → String → ValueError → Prop
  | span {s : String} {e : Time.SpanError} (h : Time.Span.read s = .error e) :
      Malformed .span s (.span e)
  | flag {s : String} (hyes : s ≠ "true") (hno : s ≠ "false") : Malformed .flag s .flag

theorem Says.unique {sort : ValueSort} {s : String} {v w : FieldValue} (hv : Says sort s v)
    (hw : Says sort s w) : v = w := by
  cases hv with
  | text => cases hw; rfl
  | optional => cases hw; rfl
  | span h =>
      cases hw with
      | span h' =>
          rw [h, Except.ok.injEq] at h'
          rw [h']
  | yes h =>
      cases hw with
      | yes => rfl
      | no h' => exact absurd (h.symm.trans h') (by decide)
  | no h =>
      cases hw with
      | yes h' => exact absurd (h.symm.trans h') (by decide)
      | no => rfl

theorem Says.not_malformed {sort : ValueSort} {s : String} {v : FieldValue} (h : Says sort s v)
    (e : ValueError) : ¬ Malformed sort s e := by
  intro hmalformed
  cases h with
  | text => cases hmalformed
  | optional => cases hmalformed
  | span h =>
      cases hmalformed with
      | span h' =>
          rw [h] at h'
          cases h'
  | yes h =>
      cases hmalformed with
      | flag hyes _ => exact hyes h
  | no h =>
      cases hmalformed with
      | flag _ hno => exact hno h

theorem Malformed.mem_parsed {x : Variable} {s : String} {e : ValueError}
    (h : Malformed x.sort s e) : x ∈ parsedVariables := by
  cases x with
  | baseUrl | user | cookie | level => cases h
  | connectTimeout | period | timeout | enabled | sound | json => decide

theorem says_of_flag {s : String} {b : Bool} (h : flag s = .ok b) : Says .flag s (.flag b) := by
  unfold flag at h
  split at h
  · cases h
    exact .yes rfl
  · cases h
    exact .no rfl
  · cases h

theorem malformed_of_flag {s : String} {e : ValueError} (h : flag s = .error e) :
    Malformed .flag s e := by
  unfold flag at h
  split at h
  · cases h
  · cases h
  · rename_i hyes hno
    cases h
    exact .flag hyes hno

theorem says_of_span {s : String} {t : Time.Span} (h : span s = .ok t) : Says .span s (.span t) := by
  unfold span at h
  split at h
  · rename_i hread
    cases h
    exact .span hread
  · cases h

theorem malformed_of_span {s : String} {e : ValueError} (h : span s = .error e) :
    Malformed .span s e := by
  unfold span at h
  split at h
  · cases h
  · rename_i hread
    cases h
    exact .span hread

/-! ## One variable -/

variable {c after : Settings} {x : Variable} {s : String} {e : ValueError}

/-- What overriding does by the text of one variable. -/
structure Overrides (c : Settings) (x : Variable) (s : String) (after : Settings) : Prop where
  said : Says x.sort s (after.fieldOf x)
  kept : ∀ y, y ≠ x → after.fieldOf y = c.fieldOf y
  others : after.otherFields = c.otherFields

theorem map_eq_ok_iff {α β : Type} {f : α → β} {r : Except ValueError α} {b : β} :
    r.map f = .ok b ↔ ∃ a, r = .ok a ∧ f a = b := by
  cases r <;> simp [Except.map]

theorem map_eq_error_iff {α β : Type} {f : α → β} {r : Except ValueError α} :
    r.map f = .error e ↔ r = .error e := by
  cases r <;> simp [Except.map]

theorem overrides_of_override (h : c.override x s = .ok after) : Overrides c x s after := by
  unfold Settings.override at h
  cases x with
  | baseUrl | level =>
      cases h
      exact ⟨.text s, fun y hy => by cases y <;> trivial, rfl⟩
  | user | cookie =>
      cases h
      exact ⟨.optional s, fun y hy => by cases y <;> trivial, rfl⟩
  | connectTimeout | period | timeout =>
      obtain ⟨t, ht, rfl⟩ := map_eq_ok_iff.1 h
      exact ⟨says_of_span ht, fun y hy => by cases y <;> trivial, rfl⟩
  | enabled | sound | json =>
      obtain ⟨b, hb, rfl⟩ := map_eq_ok_iff.1 h
      exact ⟨says_of_flag hb, fun y hy => by cases y <;> trivial, rfl⟩

theorem malformed_of_override (h : c.override x s = .error e) : Malformed x.sort s e := by
  unfold Settings.override at h
  cases x with
  | baseUrl | user | cookie | level => cases h
  | connectTimeout | period | timeout => exact malformed_of_span (map_eq_error_iff.1 h)
  | enabled | sound | json => exact malformed_of_flag (map_eq_error_iff.1 h)

/-! ## All variables -/

variable {environment : Variable → Option String} {read rest : List Variable}

/-- What is left of a configuration once some variables were read: those that are set have overridden
their fields, and every other field is as it was. -/
structure Overridden (c : Settings) (environment : Variable → Option String)
    (read : List Variable) (after : Settings) : Prop where
  said : ∀ x ∈ read, ∀ s, environment x = some s → Says x.sort s (after.fieldOf x)
  kept : ∀ x, x ∉ read ∨ environment x = none → after.fieldOf x = c.fieldOf x
  others : after.otherFields = c.otherFields

namespace Overridden

theorem none_read (c : Settings) (environment : Variable → Option String) :
    Overridden c environment [] c where
  said := fun _ hx => absurd hx List.not_mem_nil
  kept := fun _ _ => rfl
  others := rfl

theorem cons_unset (hx : environment x = none) (h : Overridden c environment read after) :
    Overridden c environment (x :: read) after where
  said := by
    intro y hy s hs
    rcases List.mem_cons.1 hy with rfl | hy
    · rw [hx] at hs
      cases hs
    · exact h.said y hy s hs
  kept := by
    intro y hy
    apply h.kept y
    rcases hy with hy | hy
    · exact .inl fun hmem => hy (List.mem_cons_of_mem _ hmem)
    · exact .inr hy
  others := h.others

/-- Reading goes on from what the first variable has made of the configuration. -/
theorem cons_set {between : Settings} (hx : environment x = some s)
    (hfirst : Overrides c x s between) (hnew : x ∉ read)
    (h : Overridden between environment read after) :
    Overridden c environment (x :: read) after where
  said := by
    intro y hy t ht
    rcases List.mem_cons.1 hy with rfl | hy
    · rw [hx, Option.some_inj] at ht
      rw [h.kept y (.inl hnew), ← ht]
      exact hfirst.said
    · exact h.said y hy t ht
  kept := by
    intro y hy
    have hne : y ≠ x := by
      rintro rfl
      rcases hy with hy | hy
      · exact hy List.mem_cons_self
      · rw [hx] at hy
        cases hy
    have hrest : y ∉ read ∨ environment y = none :=
      hy.imp_left fun hy hmem => hy (List.mem_cons_of_mem _ hmem)
    rw [h.kept y hrest, hfirst.kept y hne]
  others := h.others.trans hfirst.others

theorem not_malformed (h : Overridden c environment read after) (hx : x ∈ read)
    (hs : environment x = some s) : ¬ Malformed x.sort s e :=
  (h.said x hx s hs).not_malformed e

/-- There is but one such configuration. -/
theorem unique {after' : Settings} (h : Overridden c environment read after)
    (h' : Overridden c environment read after') : after = after' := by
  apply Settings.eq_of_fields
  · intro x
    by_cases hx : x ∈ read
    · cases hs : environment x with
      | none => rw [h.kept x (.inr hs), h'.kept x (.inr hs)]
      | some s => exact (h.said x hx s hs).unique (h'.said x hx s hs)
    · rw [h.kept x (.inl hx), h'.kept x (.inl hx)]
  · rw [h.others, h'.others]

end Overridden

/-- What is left of a configuration when reading variables ended at `x`, behind those in `first`. -/
structure StoppedAt (c : Settings) (environment : Variable → Option String)
    (first : List Variable) (x : Variable) (e : ConfigError) (after : Settings) : Prop where
  /-- The error names the variable and says what is wrong with its text. -/
  named : ∃ s why, environment x = some s ∧ Malformed x.sort s why ∧ e = .invalidValue x.title why
  /-- No variable before it is malformed. -/
  leading : ∀ y ∈ first, ∀ s why, environment y = some s → ¬ Malformed y.sort s why
  overridden : Overridden c environment first after

theorem overrideAll_cons_unset (hx : environment x = none) :
    c.overrideAll environment (x :: rest) = c.overrideAll environment rest := by
  rw [Settings.overrideAll, hx]

theorem overrideAll_cons_ok {between : Settings} (hx : environment x = some s)
    (h : c.override x s = .ok between) :
    c.overrideAll environment (x :: rest) = between.overrideAll environment rest := by
  rw [Settings.overrideAll, hx]
  simp only [h]

theorem overrideAll_cons_error (hx : environment x = some s) (h : c.override x s = .error e) :
    c.overrideAll environment (x :: rest) = (c, some (.invalidValue x.title e)) := by
  rw [Settings.overrideAll, hx]
  simp only [h]

/-- Reading variables ends with all of them read, or at the first that is malformed. -/
theorem overrideAll_cases {all : List Variable} (hall : all.Nodup) (c : Settings)
    (environment : Variable → Option String) :
    (∃ after, c.overrideAll environment all = (after, none) ∧
        Overridden c environment all after) ∨
      ∃ after e first x rest, c.overrideAll environment all = (after, some e) ∧
        all = first ++ x :: rest ∧ StoppedAt c environment first x e after := by
  induction all generalizing c with
  | nil => exact .inl ⟨c, rfl, .none_read c environment⟩
  | cons x all ih =>
      obtain ⟨hnew, hall⟩ := List.nodup_cons.1 hall
      cases hx : environment x with
      | none =>
          rw [overrideAll_cons_unset hx]
          rcases ih hall c with ⟨after, hafter, h⟩ | ⟨after, e, first, y, rest, hafter, rfl, h⟩
          · exact .inl ⟨after, hafter, h.cons_unset hx⟩
          · have hread := h.overridden.cons_unset hx
            exact .inr ⟨after, e, x :: first, y, rest, hafter, rfl, h.named,
              fun _ hy _ _ => hread.not_malformed hy, hread⟩
      | some s =>
          cases hs : c.override x s with
          | error why =>
              rw [overrideAll_cons_error hx hs]
              exact .inr ⟨c, _, [], x, all, rfl, rfl, ⟨s, why, hx, malformed_of_override hs, rfl⟩,
                fun _ hy => absurd hy List.not_mem_nil, .none_read c environment⟩
          | ok between =>
              rw [overrideAll_cons_ok hx hs]
              have hfirst := overrides_of_override hs
              rcases ih hall between with
                ⟨after, hafter, h⟩ | ⟨after, e, first, y, rest, hafter, rfl, h⟩
              · exact .inl ⟨after, hafter, h.cons_set hx hfirst hnew⟩
              · have hnew' : x ∉ first := fun hmem => hnew (List.mem_append_left _ hmem)
                have hread := h.overridden.cons_set hx hfirst hnew'
                exact .inr ⟨after, e, x :: first, y, rest, hafter, rfl, h.named,
                  fun _ hy _ _ => hread.not_malformed hy, hread⟩

theorem title_injective : Function.Injective Variable.title := by
  intro x y h
  cases x <;> cases y <;> first | rfl | exact absurd h (by decide)

/-- The environment fails exactly if a variable that is parsed is set to a malformed text. If it does
not, every field whose variable is set holds its value and no other field has changed. If it does, the
error names the first such variable, by a title that no other variable has; the variables before it
have overridden their fields, and no other field has changed. -/
theorem environment_overrides_in_order (c : Settings) (environment : Variable → Option String) :
    let result := c.applyEnvironment environment
    (result.2.isSome = true ↔ ∃ x ∈ parsedVariables, ∃ s why,
        environment x = some s ∧ Malformed x.sort s why) ∧
      (result.2 = none → Overridden c environment Variable.all result.1) ∧
      (∀ e, result.2 = some e → ∃ first x rest, Variable.all = first ++ x :: rest ∧
        StoppedAt c environment first x e result.1) ∧
      (∀ read after after', Overridden c environment read after →
        Overridden c environment read after' → after = after') ∧
      Function.Injective Variable.title := by
  intro result
  have hall : Variable.all.Nodup := by decide
  have hparsed : parsedVariables ⊆ Variable.all := by decide
  rcases overrideAll_cases hall c environment with
    ⟨after, hafter, h⟩ | ⟨after, e, first, x, rest, hafter, hsplit, h⟩
  · have hresult : result = (after, none) := hafter
    rw [hresult]
    refine ⟨?_, fun _ => h, ?_, fun _ _ _ => Overridden.unique, title_injective⟩
    · constructor
      · intro hfailed
        cases hfailed
      · rintro ⟨x, hx, s, why, hs, hmalformed⟩
        exact absurd hmalformed (h.not_malformed (hparsed hx) hs)
    · intro e he
      cases he
  · have hresult : result = (after, some e) := hafter
    rw [hresult]
    refine ⟨?_, ?_, ?_, fun _ _ _ => Overridden.unique, title_injective⟩
    · obtain ⟨s, why, hs, hmalformed, -⟩ := h.named
      exact iff_of_true rfl ⟨x, hmalformed.mem_parsed, s, why, hs, hmalformed⟩
    · intro hnone
      cases hnone
    · intro e' he
      cases he
      exact ⟨first, x, rest, hsplit, h⟩

/-- The user is overridden, and the flag behind the malformed period is not. -/
example :
    let environment : Variable → Option String
      | .user => some "alice"
      | .period => some "soon"
      | .sound => some "false"
      | _ => none
    Settings.default.applyEnvironment environment =
      ({ Settings.default with server.user := some "alice" },
        some (.invalidValue "contacts period" (.span (.numberExpected 0)))) := by
  decide +kernel

end PeerWatch.Config
