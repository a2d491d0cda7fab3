import PeerWatch.Proofs.Text.Rewriting

/-!
# Substitution place by place

A substitution goes through a text from the left. Where its matches consume something, the bound on
the number of places does not matter, and the pass is told by what happens at each place: a match is
replaced, any other character is copied.
-/

namespace PeerWatch.Text.Substitution

/-- Every match consumes something. -/
def Consumes (sub : Substitution) : Prop :=
  ∀ (c last : Cursor) (ws : List (List Char)),
    matchParts? sub.parts c = some (ws, last) → ws.flatten ≠ []

/-- The text from a place on, with its matches replaced. -/
def scan (sub : Substitution) (c : Cursor) : List Char := sub.applyFrom (c.ahead.length + 1) c

theorem apply_eq_scan (sub : Substitution) (cs : List Char) : sub.apply cs = sub.scan ⟨none, cs⟩ :=
  rfl

variable {sub : Substitution} {c last : Cursor} {ws : List (List Char)} {text rest : List Char}

theorem Consumes.length_lt (h : sub.Consumes) (hmatch : matchParts? sub.parts c = some (ws, last)) :
    last.ahead.length < c.ahead.length := by
  obtain ⟨⟨rest, hrest⟩, -, rfl⟩ := matchParts?_sound hmatch
  have hpos : 0 < ws.flatten.length := List.length_pos_iff.2 (h c _ ws hmatch)
  rw [Cursor.ahead_skip hrest.symm, ← hrest, List.length_append]
  omega

theorem applyFrom_eq_of_lt (h : sub.Consumes) {n m : Nat} (hn : c.ahead.length < n)
    (hm : c.ahead.length < m) : sub.applyFrom n c = sub.applyFrom m c := by
  induction n generalizing c m with
  | zero => exact absurd hn (Nat.not_lt_zero _)
  | succ n ih =>
      obtain ⟨m, rfl⟩ : ∃ k, m = k + 1 := ⟨m - 1, by omega⟩
      rw [applyFrom, applyFrom]
      cases hmatch : matchParts? sub.parts c with
      | some found =>
          obtain ⟨ws, last⟩ := found
          have hshorter := h.length_lt hmatch
          exact congrArg (sub.fill ws ++ ·) (ih (by omega) (by omega))
      | none =>
          obtain ⟨before, ahead⟩ := c
          cases ahead with
          | nil => rfl
          | cons x xs =>
              have hcopy := Nat.lt_of_succ_lt_succ hn
              have hcopy' := Nat.lt_of_succ_lt_succ hm
              exact congrArg (x :: ·) (ih hcopy hcopy')

theorem scan_of_match (h : sub.Consumes) (hmatch : matchParts? sub.parts c = some (ws, last)) :
    sub.scan c = sub.fill ws ++ sub.scan last := by
  have hshorter := h.length_lt hmatch
  rw [scan, applyFrom, hmatch]
  exact congrArg (sub.fill ws ++ ·) (applyFrom_eq_of_lt h hshorter (Nat.lt_succ_self _))

theorem scan_cons {before : Option Char} {x : Char} {xs : List Char}
    (hmatch : matchParts? sub.parts ⟨before, x :: xs⟩ = none) :
    sub.scan ⟨before, x :: xs⟩ = x :: sub.scan ⟨some x, xs⟩ := by
  rw [scan, applyFrom, hmatch]
  rfl

theorem scan_nil (h : sub.Consumes) (before : Option Char) : sub.scan ⟨before, []⟩ = [] := by
  rw [scan, applyFrom]
  cases hmatch : matchParts? sub.parts ⟨before, []⟩ with
  | some found =>
      obtain ⟨ws, last⟩ := found
      exact absurd (h.length_lt hmatch) (Nat.not_lt_zero _)
  | none => rfl

theorem scan_inert (h : sub.Consumes) (hinert : sub.Inert c.before text)
    (hahead : c.ahead = text ++ rest) : sub.scan c = text ++ sub.scan (c.skip text) := by
  have hnext := Cursor.ahead_skip hahead
  have hlength : c.ahead.length = text.length + rest.length := by
    rw [hahead, List.length_append]
  rw [scan, applyFrom_inert hinert hahead (by omega)]
  apply congrArg (text ++ ·)
  apply applyFrom_eq_of_lt h
  · rw [hnext]
    omega
  · exact Nat.lt_succ_self _

/-- A text stays as it is if there is no match at any place in it. -/
theorem apply_eq_self {cs : List Char}
    (h : ∀ c : Cursor, c.ahead <:+ cs → matchParts? sub.parts c = none) : sub.apply cs = cs := by
  have hfrom : ∀ n (c : Cursor), c.ahead <:+ cs → sub.applyFrom n c = c.ahead := by
    intro n
    induction n with
    | zero => exact fun c _ => rfl
    | succ n ih =>
        intro c hc
        obtain ⟨before, ahead⟩ := c
        rw [applyFrom, h _ hc]
        cases ahead with
        | nil => rfl
        | cons x xs =>
            have hrest : xs <:+ cs := (List.suffix_cons x xs).trans hc
            exact congrArg (x :: ·) (ih ⟨some x, xs⟩ hrest)
  exact hfrom _ _ List.suffix_rfl

end PeerWatch.Text.Substitution
