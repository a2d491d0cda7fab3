import PeerWatch.Text.Pattern

/-!
# What a match consumes

A pattern is tried together with what comes after it, in an order of preference. Which texts it can
consume at a place is told here without that order. Every match is found among them, and where there
are any there is a match. Nothing is said about the texts that are preferred.
-/

namespace PeerWatch.Text

/-! ## Moving on -/

/-- The place after `w`, for a place with `w` ahead. -/
def Cursor.skip (c : Cursor) (w : List Char) : Cursor :=
  ⟨w.getLast?.or c.before, c.ahead.drop w.length⟩

theorem Cursor.skip_append (c : Cursor) (u v : List Char) :
    (c.skip u).skip v = c.skip (u ++ v) := by
  rw [skip, skip, skip, List.drop_drop, List.length_append, List.getLast?_append, Option.or_assoc]

theorem Cursor.ahead_skip {c : Cursor} {w rest : List Char} (h : c.ahead = w ++ rest) :
    (c.skip w).ahead = rest := by
  rw [skip, h]
  exact List.drop_left

theorem Cursor.append_prefix {c : Cursor} {u v : List Char} (hu : u <+: c.ahead)
    (hv : v <+: (c.skip u).ahead) : u ++ v <+: c.ahead := by
  obtain ⟨rest, hrest⟩ := hu
  rw [ahead_skip hrest.symm] at hv
  rw [← hrest]
  exact (List.prefix_append_right_inj u).2 hv

/-! ## The texts of a pattern -/

/-- Any number of rounds, each at the place where the one before ended. -/
inductive Rounds (takes : Cursor → List Char → Prop) : Cursor → List Char → Prop
  | done (c : Cursor) : Rounds takes c []
  | more {c : Cursor} {u v : List Char} :
    takes c u → Rounds takes (c.skip u) v → Rounds takes c (u ++ v)

/-- The pattern can consume the text at the place. -/
def Pattern.Takes : Pattern → Cursor → List Char → Prop
  | .empty, _, w => w = []
  | .edge e, c, w => e.holds c ∧ w = []
  | .one set, _, w => ∃ x, set x ∧ w = [x]
  | .run set _, _, w => ∀ x ∈ w, set x
  | .seq p q, c, w => ∃ u v, p.Takes c u ∧ q.Takes (c.skip u) v ∧ w = u ++ v
  | .either p q, c, w => p.Takes c w ∨ q.Takes c w
  | .rounds p, c, w => Rounds p.Takes c w

/-- The parts consume these texts one after the other. -/
def TakesParts : List Pattern → Cursor → List (List Char) → Prop
  | [], _, ws => ws = []
  | p :: ps, c, ws => ∃ w rest, p.Takes c w ∧ TakesParts ps (c.skip w) rest ∧ ws = w :: rest

theorem or_of_orElse_eq_some {α : Type} {o : Option α} {f : Unit → Option α} {a : α}
    (h : o.orElse f = some a) : o = some a ∨ f () = some a := by
  rw [Option.orElse_eq_or] at h
  exact (Option.or_eq_some_iff.1 h).imp_right And.right

theorem matchRun_sound {α : Type} {set : Char → Bool} {greed : Greed} {k : Cursor → Option α}
    {before : Option Char} {cs : List Char} {a : α} (h : matchRun set greed k before cs = some a) :
    ∃ w, w <+: cs ∧ (∀ x ∈ w, set x) ∧ k ((⟨before, cs⟩ : Cursor).skip w) = some a := by
  induction cs generalizing before with
  | nil => exact ⟨[], List.nil_prefix, fun x hx => absurd hx List.not_mem_nil, h⟩
  | cons c cs ih =>
      have hgo : (if set c then matchRun set greed k (some c) cs else none) = some a →
          ∃ w, w <+: c :: cs ∧ (∀ x ∈ w, set x) ∧
            k ((⟨before, c :: cs⟩ : Cursor).skip w) = some a := by
        intro hgo
        obtain ⟨hc, hrun⟩ := Option.ite_none_right_eq_some.1 hgo
        obtain ⟨w, hw, hset, hk⟩ := ih hrun
        have hskip := Cursor.skip_append ⟨before, c :: cs⟩ [c] w
        exact ⟨c :: w, List.cons_prefix_cons.2 ⟨rfl, hw⟩, List.forall_mem_cons.2 ⟨hc, hset⟩,
          hskip ▸ hk⟩
      have hstop : k ⟨before, c :: cs⟩ = some a → ∃ w, w <+: c :: cs ∧ (∀ x ∈ w, set x) ∧
          k ((⟨before, c :: cs⟩ : Cursor).skip w) = some a :=
        fun hstop => ⟨[], List.nil_prefix, fun x hx => absurd hx List.not_mem_nil, hstop⟩
      cases greed with
      | longestFirst =>
          rcases or_of_orElse_eq_some h with h | h
          · exact hgo h
          · exact hstop h
      | shortestFirst =>
          rcases or_of_orElse_eq_some h with h | h
          · exact hstop h
          · exact hgo h

theorem matchRounds_sound {α : Type} {body : Cursor → (Cursor → Option α) → Option α}
    {takes : Cursor → List Char → Prop}
    (hbody : ∀ c k a, body c k = some a →
      ∃ w, w <+: c.ahead ∧ takes c w ∧ k (c.skip w) = some a)
    {k : Cursor → Option α} {n : Nat} {c : Cursor} {a : α} (h : matchRounds body k n c = some a) :
    ∃ w, w <+: c.ahead ∧ Rounds takes c w ∧ k (c.skip w) = some a := by
  induction n generalizing c with
  | zero => exact ⟨[], List.nil_prefix, .done c, h⟩
  | succ n ih =>
      rcases or_of_orElse_eq_some h with h | h
      · obtain ⟨u, hu, htakes, hrounds⟩ := hbody c _ a h
        obtain ⟨v, hv, hmore, hk⟩ := ih hrounds
        exact ⟨u ++ v, Cursor.append_prefix hu hv, .more htakes hmore, c.skip_append u v ▸ hk⟩
      · exact ⟨[], List.nil_prefix, .done c, h⟩

theorem match?_sound {α : Type} {p : Pattern} {c : Cursor} {k : Cursor → Option α} {a : α}
    (h : p.match? c k = some a) :
    ∃ w, w <+: c.ahead ∧ p.Takes c w ∧ k (c.skip w) = some a := by
  induction p generalizing c k a with
  | empty => exact ⟨[], List.nil_prefix, rfl, h⟩
  | edge e =>
      obtain ⟨he, hk⟩ := Option.ite_none_right_eq_some.1 h
      exact ⟨[], List.nil_prefix, ⟨he, rfl⟩, hk⟩
  | one set =>
      obtain ⟨before, ahead⟩ := c
      cases ahead with
      | nil => exact absurd h (by simp [Pattern.match?])
      | cons x xs =>
          obtain ⟨hx, hk⟩ := Option.ite_none_right_eq_some.1 h
          exact ⟨[x], List.cons_prefix_cons.2 ⟨rfl, List.nil_prefix⟩, ⟨x, hx, rfl⟩, hk⟩
  | run set greed => exact matchRun_sound h
  | seq p q ihp ihq =>
      obtain ⟨u, hu, hp, hrest⟩ := ihp h
      obtain ⟨v, hv, hq, hk⟩ := ihq hrest
      exact ⟨u ++ v, Cursor.append_prefix hu hv, ⟨u, v, hp, hq, rfl⟩, c.skip_append u v ▸ hk⟩
  | either p q ihp ihq =>
      rcases or_of_orElse_eq_some h with h | h
      · obtain ⟨w, hw, hp, hk⟩ := ihp h
        exact ⟨w, hw, .inl hp, hk⟩
      · obtain ⟨w, hw, hq, hk⟩ := ihq h
        exact ⟨w, hw, .inr hq, hk⟩
  | rounds p ih => exact matchRounds_sound (fun _ _ _ hbody => ih hbody) h

theorem matchParts?_sound {ps : List Pattern} {c last : Cursor} {ws : List (List Char)}
    (h : matchParts? ps c = some (ws, last)) :
    ws.flatten <+: c.ahead ∧ TakesParts ps c ws ∧ last = c.skip ws.flatten := by
  induction ps generalizing c ws last with
  | nil =>
      obtain ⟨rfl, rfl⟩ : [] = ws ∧ c = last := by simpa [matchParts?] using h
      exact ⟨List.nil_prefix, rfl, rfl⟩
  | cons p ps ih =>
      obtain ⟨w, hw, hp, hrest⟩ := match?_sound h
      obtain ⟨⟨rest, place⟩, hparts, heq⟩ := Option.map_eq_some_iff.1 hrest
      obtain ⟨hbegin, htakes, rfl⟩ := ih hparts
      have htake : c.ahead.take (c.ahead.length - (c.skip w).ahead.length) = w := by
        obtain ⟨left, hleft⟩ := hw
        rw [Cursor.ahead_skip hleft.symm, ← hleft, List.length_append, Nat.add_sub_cancel]
        exact List.take_left
      obtain ⟨rfl, rfl⟩ : w :: rest = ws ∧ (c.skip w).skip rest.flatten = last := by
        simpa [htake] using heq
      rw [List.flatten_cons]
      exact ⟨Cursor.append_prefix hw hbegin, ⟨w, rest, hp, htakes, rfl⟩, c.skip_append w _⟩

theorem TakesParts.exists_of_mem {p : Pattern} {ps : List Pattern} {c : Cursor}
    {ws : List (List Char)} (h : TakesParts ps c ws) (hp : p ∈ ps) :
    ∃ w ∈ ws, ∃ place, p.Takes place w := by
  induction ps generalizing c ws with
  | nil => exact absurd hp List.not_mem_nil
  | cons q ps ih =>
      obtain ⟨w, rest, hw, hrest, rfl⟩ := h
      rcases List.mem_cons.1 hp with rfl | hp
      · exact ⟨w, List.mem_cons_self, c, hw⟩
      · obtain ⟨v, hv, hplace⟩ := ih hrest hp
        exact ⟨v, List.mem_cons_of_mem w hv, hplace⟩

/-! ## Where there is a match -/

theorem isSome_orElse_left {α : Type} {o : Option α} (h : o.isSome) (f : Unit → Option α) :
    (o.orElse f).isSome := by
  rw [Option.orElse_eq_or, Option.isSome_or, h, Bool.true_or]

theorem isSome_orElse_right {α : Type} (o : Option α) {f : Unit → Option α} (h : (f ()).isSome) :
    (o.orElse f).isSome := by
  rw [Option.orElse_eq_or, Option.isSome_or, h, Bool.or_true]

theorem prefix_ahead_skip {c : Cursor} {u v : List Char} (h : u ++ v <+: c.ahead) :
    v <+: (c.skip u).ahead := by
  obtain ⟨rest, hrest⟩ := h
  rw [List.append_assoc] at hrest
  rw [Cursor.ahead_skip hrest.symm]
  exact List.prefix_append v rest

theorem matchRun_complete {α : Type} {set : Char → Bool} (greed : Greed) {k : Cursor → Option α}
    {before : Option Char} {cs w : List Char} (hw : w <+: cs) (hset : ∀ x ∈ w, set x)
    (hk : (k ((⟨before, cs⟩ : Cursor).skip w)).isSome) :
    (matchRun set greed k before cs).isSome := by
  induction w generalizing before cs with
  | nil =>
      have hstop : (k ⟨before, cs⟩).isSome := hk
      cases cs with
      | nil => exact hstop
      | cons c cs =>
          cases greed with
          | longestFirst => exact isSome_orElse_right _ hstop
          | shortestFirst => exact isSome_orElse_left hstop _
  | cons x w ih =>
      obtain ⟨rest, rfl⟩ := hw
      obtain ⟨hx, hset⟩ := List.forall_mem_cons.1 hset
      have hskip := Cursor.skip_append ⟨before, x :: (w ++ rest)⟩ [x] w
      rw [List.singleton_append] at hskip
      have hgo : (if set x then matchRun set greed k (some x) (w ++ rest) else none).isSome := by
        rw [if_pos hx]
        apply ih (List.prefix_append w rest) hset
        rw [List.cons_append, ← hskip] at hk
        exact hk
      cases greed with
      | longestFirst => exact isSome_orElse_left hgo _
      | shortestFirst => exact isSome_orElse_right _ hgo

-- A round that consumes nothing does not count, so that there are enough rounds for the others.
theorem matchRounds_complete {α : Type} {body : Cursor → (Cursor → Option α) → Option α}
    {takes : Cursor → List Char → Prop}
    (hbody : ∀ c w k, takes c w → w <+: c.ahead → (k (c.skip w)).isSome → (body c k).isSome)
    {k : Cursor → Option α} {n : Nat} {c : Cursor} {w : List Char} (h : Rounds takes c w)
    (hw : w <+: c.ahead) (hk : (k (c.skip w)).isSome) (hn : w.length ≤ n) :
    (matchRounds body k n c).isSome := by
  induction h generalizing n with
  | done c =>
      cases n with
      | zero => exact hk
      | succ n => exact isSome_orElse_right _ hk
  | @more c u v hu hv ih =>
      have hrest := prefix_ahead_skip hw
      rw [← Cursor.skip_append] at hk
      by_cases hempty : u = []
      · subst hempty
        exact ih hrest hk hn
      · have hpos : 0 < u.length := List.length_pos_iff.2 hempty
        rw [List.length_append] at hn
        obtain ⟨n, rfl⟩ : ∃ m, n = m + 1 := ⟨n - 1, by omega⟩
        apply isSome_orElse_left
        apply hbody c u _ hu ((List.prefix_append u v).trans hw)
        exact ih hrest hk (by omega)

theorem match?_complete {α : Type} {p : Pattern} {c : Cursor} {w : List Char}
    {k : Cursor → Option α} (h : p.Takes c w) (hw : w <+: c.ahead)
    (hk : (k (c.skip w)).isSome) : (p.match? c k).isSome := by
  induction p generalizing c w k with
  | empty =>
      obtain rfl : w = [] := h
      exact hk
  | edge e =>
      obtain ⟨he, rfl⟩ := h
      rw [Pattern.match?, if_pos he]
      exact hk
  | one set =>
      obtain ⟨x, hx, rfl⟩ := h
      obtain ⟨before, ahead⟩ := c
      obtain ⟨rest, rfl⟩ := hw
      show (if set x then k ⟨some x, rest⟩ else none).isSome
      rw [if_pos hx]
      exact hk
  | run set greed => exact matchRun_complete greed hw h hk
  | seq p q ihp ihq =>
      obtain ⟨u, v, hu, hv, rfl⟩ := h
      apply ihp hu ((List.prefix_append u v).trans hw)
      apply ihq hv (prefix_ahead_skip hw)
      rwa [Cursor.skip_append]
  | either p q ihp ihq =>
      rcases h with h | h
      · exact isSome_orElse_left (ihp h hw hk) _
      · exact isSome_orElse_right _ (ihq h hw hk)
  | rounds p ih => exact matchRounds_complete (fun _ _ _ => ih) h hw hk hw.length_le

/-- There is a match where the parts can consume some texts one after the other. -/
theorem matchParts?_complete {ps : List Pattern} {c : Cursor} {ws : List (List Char)}
    (h : TakesParts ps c ws) (hw : ws.flatten <+: c.ahead) : (matchParts? ps c).isSome := by
  induction ps generalizing c ws with
  | nil => rfl
  | cons p ps ih =>
      obtain ⟨w, rest, hp, hrest, rfl⟩ := h
      rw [List.flatten_cons] at hw
      apply match?_complete hp ((List.prefix_append w _).trans hw)
      rw [Option.isSome_map]
      exact ih hrest (prefix_ahead_skip hw)

/-! ## The characters of a match -/

/-- All characters that the pattern consumes have the property. -/
def Pattern.Within (P : Char → Prop) : Pattern → Prop
  | .empty => True
  | .edge _ => True
  | .one set => ∀ x, set x → P x
  | .run set _ => ∀ x, set x → P x
  | .seq p q => p.Within P ∧ q.Within P
  | .either p q => p.Within P ∧ q.Within P
  | .rounds p => p.Within P

theorem Pattern.Takes.within {P : Char → Prop} {p : Pattern} {c : Cursor} {w : List Char}
    (h : p.Takes c w) (hp : p.Within P) : ∀ x ∈ w, P x := by
  induction p generalizing c w with
  | empty => exact (h : w = []) ▸ fun x hx => absurd hx List.not_mem_nil
  | edge e => exact h.2 ▸ fun x hx => absurd hx List.not_mem_nil
  | one set =>
      obtain ⟨x, hx, rfl⟩ := h
      exact List.forall_mem_singleton.2 (hp x hx)
  | run set greed => exact fun x hx => hp x (h x hx)
  | seq p q ihp ihq =>
      obtain ⟨u, v, hu, hv, rfl⟩ := h
      exact List.forall_mem_append.2 ⟨ihp hu hp.1, ihq hv hp.2⟩
  | either p q ihp ihq =>
      rcases h with h | h
      · exact ihp h hp.1
      · exact ihq h hp.2
  | rounds p ih =>
      have hrounds : Rounds p.Takes c w := h
      induction hrounds with
      | done c => exact fun x hx => absurd hx List.not_mem_nil
      | more hu _ ihv => exact List.forall_mem_append.2 ⟨ih hu hp, ihv ‹_›⟩

theorem Pattern.Within.mono {P Q : Char → Prop} {p : Pattern} (h : p.Within P)
    (hPQ : ∀ x, P x → Q x) : p.Within Q := by
  induction p with
  | empty => trivial
  | edge e => trivial
  | one set => exact fun x hx => hPQ x (h x hx)
  | run set greed => exact fun x hx => hPQ x (h x hx)
  | seq p q ihp ihq => exact ⟨ihp h.1, ihq h.2⟩
  | either p q ihp ihq => exact ⟨ihp h.1, ihq h.2⟩
  | rounds p ih => exact ih h

/-! ## The patterns built from others -/

namespace Pattern

theorem takes_some {set : Char → Bool} {greed : Greed} {c : Cursor} {w : List Char}
    (h : (Pattern.some set greed).Takes c w) : w ≠ [] ∧ ∀ x ∈ w, set x := by
  obtain ⟨u, v, ⟨x, hx, rfl⟩, hv, rfl⟩ := h
  exact ⟨List.cons_ne_nil x v, List.forall_mem_cons.2 ⟨hx, hv⟩⟩

theorem within_some {P : Char → Prop} {set : Char → Bool} {greed : Greed}
    (h : ∀ x, set x → P x) : (Pattern.some set greed).Within P := ⟨h, h⟩

theorem within_all {P : Char → Prop} {ps : List Pattern} (h : ∀ p ∈ ps, p.Within P) :
    (all ps).Within P := by
  induction ps with
  | nil => trivial
  | cons p ps ih =>
      have hrest := ih fun q hq => h q (List.mem_cons_of_mem _ hq)
      cases ps with
      | nil => exact h p List.mem_cons_self
      | cons q ps => exact ⟨h p List.mem_cons_self, hrest⟩

theorem within_upTo {P : Char → Prop} {set : Char → Bool} (h : ∀ x, set x → P x) (n : Nat) :
    (upTo set n).Within P := by
  induction n with
  | zero => trivial
  | succ n ih => exact ⟨⟨h, ih⟩, trivial⟩

theorem within_word {P : Char → Prop} {same : Char → Char → Bool} {cs : List Char}
    (h : ∀ c ∈ cs, ∀ x, same c x → P x) : (word same cs).Within P := by
  refine within_all fun p hp => ?_
  obtain ⟨c, hc, rfl⟩ := List.mem_map.1 hp
  exact h c hc

theorem takes_word_self {same : Char → Char → Bool} (hsame : ∀ a, same a a) {as : List Char}
    (place : Cursor) : (word same as).Takes place as := by
  induction as generalizing place with
  | nil => rfl
  | cons a as ih =>
      cases as with
      | nil => exact ⟨a, hsame a, rfl⟩
      | cons b bs => exact ⟨[a], b :: bs, ⟨a, hsame a, rfl⟩, ih _, rfl⟩

/-- A word that is matched begins with its first character. -/
theorem takes_word_cons {same : Char → Char → Bool} {a : Char} {as : List Char} {c : Cursor}
    {w : List Char} (h : (word same (a :: as)).Takes c w) : ∃ x v, same a x ∧ w = x :: v := by
  cases as with
  | nil =>
      obtain ⟨x, hx, rfl⟩ := h
      exact ⟨x, [], hx, rfl⟩
  | cons b bs =>
      obtain ⟨u, v, ⟨x, hx, rfl⟩, -, rfl⟩ := h
      exact ⟨x, v, hx, rfl⟩

end Pattern
end PeerWatch.Text
