import Mathlib.Data.List.Count
import PeerWatch.Shutdown.Coordinator
import PeerWatch.Shutdown.Token

/-!
# Shutdowns side by side

Any number of calls on one coordinator, their steps in any order, with copies of the token made in
between. What a call knows of the coordinator when it stands at a stage (`Stage.Knows`) holds of
every call at every moment, since one step of one call only leads the coordinator forward
(`Coordinator.Reaches`) and takes nothing away that another call knows.
-/

namespace PeerWatch.Shutdown

/-! ## Calls and copies -/

/-- Whether the next step of a call cancels the token: if it was not cancelled, it is after the
step. -/
def Coordinator.cancels (k : Coordinator) (stage : Stage) : Bool :=
  ({ k with cancelled := false }.advance stage).1.cancelled

inductive Move
  /-- A call takes its next step. -/
  | step (call : Nat)
  /-- Someone who holds a token makes one more copy of it. -/
  | copy (token : Nat)

/-- Calls on a coordinator, its token, which is the first of the tokens, and the copies of it. -/
structure Shared where
  system : System
  tokens : Tokens

namespace Shared

def start (calls : List Call) : Shared := ⟨.start calls, Tokens.empty.fresh⟩

def move (s : Shared) : Move → Shared
  | .step i =>
    ⟨s.system.step i,
      if (s.system.calls[i]?).any s.system.coordinator.cancels then s.tokens.cancel 0 else s.tokens⟩
  | .copy i => { s with tokens := s.tokens.copy i }

def run (s : Shared) (moves : List Move) : Shared := moves.foldl move s

def coordinator (s : Shared) : Coordinator := s.system.coordinator

/-- Where the call `i` stands. -/
def stage? (s : Shared) (i : Nat) : Option Stage := s.system.calls[i]?

/-- Whether every token there is, the first one or a copy, is cancelled. -/
def AllCancelled (s : Shared) : Prop :=
  ∀ i < s.tokens.tokens.length, s.tokens.isCancelled i = true

theorem run_append (s : Shared) (first rest : List Move) :
    s.run (first ++ rest) = (s.run first).run rest := List.foldl_append

end Shared

/-! ## Tokens of one flag -/

/-- At least one token, and all of them observe one flag, which is `b`. -/
structure Tokens.OneFlag (t : Tokens) (b : Bool) : Prop where
  flags : t.flags = [b]
  tokens : ∀ flag ∈ t.tokens, flag = 0
  nonempty : 0 < t.tokens.length

namespace Tokens.OneFlag

variable {t : Tokens} {b : Bool}

theorem getElem? (h : t.OneFlag b) {i : Nat} (hi : i < t.tokens.length) :
    t.tokens[i]? = some 0 := by
  rw [List.getElem?_eq_getElem hi, h.tokens _ (List.getElem_mem hi)]

theorem isCancelled (h : t.OneFlag b) {i : Nat} (hi : i < t.tokens.length) :
    t.isCancelled i = b := by
  rw [Tokens.isCancelled, h.getElem? hi, h.flags]
  rfl

theorem fresh : (Tokens.empty.fresh).OneFlag false := ⟨rfl, by simp [Tokens.fresh, Tokens.empty],
  by simp [Tokens.fresh, Tokens.empty]⟩

theorem copy (h : t.OneFlag b) (i : Nat) : (t.copy i).OneFlag b := by
  have htokens : ∀ flag ∈ (t.copy i).tokens, flag = 0 := by
    intro flag hflag
    rw [Tokens.copy, List.mem_append, Option.mem_toList] at hflag
    rcases hflag with hflag | hflag
    · exact h.tokens flag hflag
    · exact h.tokens flag (List.mem_of_getElem? hflag)
  have hlength : 0 < (t.copy i).tokens.length := by
    have := h.nonempty
    simp only [Tokens.copy, List.length_append]
    omega
  exact ⟨h.flags, htokens, hlength⟩

/-- Cancelling through any copy cancels all of them. -/
theorem cancel (h : t.OneFlag b) {i : Nat} (hi : i < t.tokens.length) :
    t.cancel i = ⟨[true], t.tokens⟩ := by
  rw [Tokens.cancel, h.getElem? hi, h.flags]
  rfl

theorem cancelled (h : t.OneFlag b) : (t.cancel 0).OneFlag true := by
  rw [h.cancel h.nonempty]
  exact ⟨rfl, h.tokens, h.nonempty⟩

end Tokens.OneFlag

/-! ## One step of a call -/

/-- `k'` stands where `k` stands or further on. -/
structure Coordinator.Reaches (k k' : Coordinator) : Prop where
  state : k.state.rank ≤ k'.state.rank
  cancelled : k.cancelled = true → k'.cancelled = true
  sent : k.sent <+: k'.sent

namespace Coordinator.Reaches

variable {k k' k'' : Coordinator}

theorem refl (k : Coordinator) : k.Reaches k := ⟨Nat.le_refl _, id, List.prefix_rfl⟩

theorem trans (h : k.Reaches k') (h' : k'.Reaches k'') : k.Reaches k'' :=
  ⟨Nat.le_trans h.state h'.state, h'.cancelled ∘ h.cancelled, h.sent.trans h'.sent⟩

theorem shutdown (h : k.Reaches k') (hk : k.state = .shutdown) : k'.state = .shutdown := by
  have hrank := h.state
  rw [hk] at hrank
  cases hk' : k'.state <;> simp [hk', State.rank] at hrank ⊢

theorem left_running (h : k.Reaches k') (hk : k.state ≠ .running) : k'.state ≠ .running := by
  intro hk'
  have hrank := h.state
  rw [hk'] at hrank
  cases hs : k.state <;> simp [hs, State.rank] at hrank hk

end Coordinator.Reaches

/-- What a call that stands at a stage knows of the coordinator. -/
def Stage.Knows (k : Coordinator) : Stage → Prop
  | .start _ => True
  | .marked .graceful => k.state ≠ .running
  | .marked .immediate => k.state = .shutdown
  | .cancelled .graceful => k.state ≠ .running ∧ k.cancelled = true
  | .cancelled .immediate => k.state = .shutdown ∧ k.cancelled = true
  | .announced => k.state ≠ .running ∧ k.cancelled = true
  | .returned led => led = true → k.state = .shutdown ∧ k.cancelled = true

/-- Whether the call is one that leads to a shutdown: an immediate one, or a graceful one that found
the state to be running. -/
def Stage.leads : Stage → Bool
  | .start c => c == .shutdownImmediately
  | .returned led => led
  | _ => true

/-- Whether the call is going to send the graceful signal. -/
def Stage.owes : Stage → Bool
  | .marked .graceful => true
  | .cancelled .graceful => true
  | _ => false

namespace Coordinator

variable (k : Coordinator) (stage : Stage)

theorem reaches_advance : k.Reaches (k.advance stage).1 := by
  have hrank : k.state.rank ≤ State.shutdown.rank := by cases k.state <;> decide
  cases stage with
  | start c =>
      cases c with
      | shutdown =>
          by_cases hk : k.state = .running
          · rw [advance, if_pos hk]
            exact ⟨by simp [hk, State.rank], id, List.prefix_rfl⟩
          · rw [advance, if_neg hk]
            exact .refl k
      | shutdownImmediately => exact ⟨hrank, id, List.prefix_rfl⟩
      | cancelToken => exact ⟨Nat.le_refl _, fun _ => rfl, List.prefix_rfl⟩
  | marked s => exact ⟨Nat.le_refl _, fun _ => rfl, List.prefix_rfl⟩
  | cancelled s => exact ⟨Nat.le_refl _, id, List.prefix_append _ _⟩
  | announced => exact ⟨hrank, id, List.prefix_rfl⟩
  | returned led => exact .refl k

theorem cancelled_advance : (k.advance stage).1.cancelled = (k.cancels stage || k.cancelled) := by
  cases stage with
  | start c =>
      cases c with
      | shutdown => by_cases hk : k.state = .running <;> simp [advance, hk, cancels]
      | shutdownImmediately => rfl
      | cancelToken => rfl
  | _ => rfl

variable {k stage}

theorem knows_advance (h : stage.Knows k) : (k.advance stage).2.1.Knows (k.advance stage).1 := by
  cases stage with
  | start c =>
      cases c with
      | shutdown => by_cases hk : k.state = .running <;> simp [advance, hk, Stage.Knows]
      | shutdownImmediately => simp [advance, Stage.Knows]
      | cancelToken => simp [advance, Stage.Knows]
  | marked s => cases s <;> simpa [advance, Stage.Knows] using h
  | cancelled s => cases s <;> simpa [advance, Stage.Knows] using h
  | announced => exact fun _ => ⟨rfl, h.2⟩
  | returned led => exact h

theorem leads_advance (h : stage.leads = true) : (k.advance stage).2.1.leads = true := by
  cases stage with
  | start c => cases c <;> simp [Stage.leads, advance] at h ⊢
  | cancelled s => cases s <;> rfl
  | returned led => exact h
  | _ => rfl

/-- A signal is sent by a call that knows the token to be cancelled and the state to have been
left. -/
theorem sent_advance (h : stage.Knows k) (hsent : (k.advance stage).1.sent ≠ k.sent) :
    k.cancelled = true ∧ k.state ≠ .running := by
  cases stage with
  | cancelled s =>
      cases s with
      | graceful => exact ⟨h.2, h.1⟩
      | immediate => exact ⟨h.2, by rw [h.1]; decide⟩
  | start c => cases c <;> simp [advance] at hsent; split at hsent <;> simp at hsent
  | _ => simp [advance] at hsent

/-- The graceful signals of a run: those sent, those owed by a call, and the one that may still be
promised while the state is running. -/
def promised (k : Coordinator) (owed : Nat) : Nat :=
  k.sent.count .graceful + owed + if k.state = .running then 1 else 0

variable (k stage)

theorem promised_advance :
    (k.advance stage).1.promised (k.advance stage).2.1.owes.toNat ≤
      k.promised stage.owes.toNat := by
  by_cases hk : k.state = .running
  all_goals
    cases stage with
    | start c => cases c <;> simp [advance, promised, Stage.owes, hk]
    | marked s => cases s <;> simp [advance, promised, Stage.owes, hk]
    | cancelled s => cases s <;> simp [advance, promised, Stage.owes, hk]
    | announced => simp [advance, promised, Stage.owes, hk]
    | returned led => simp [advance, promised, Stage.owes, hk]

end Coordinator

/-! ## Runs -/

theorem countP_set_add {calls : List Stage} {i : Nat} {stage : Stage} (h : calls[i]? = some stage)
    (p : Stage → Bool) (stage' : Stage) :
    (calls.set i stage').countP p + (p stage).toNat = calls.countP p + (p stage').toNat := by
  obtain ⟨hlt, hget⟩ := List.getElem?_eq_some_iff.1 h
  have hle : (p stage).toNat ≤ calls.countP p := by
    cases hp : p stage with
    | false => exact Nat.zero_le _
    | true => exact List.countP_pos_iff.2 ⟨stage, List.mem_of_getElem? h, hp⟩
  have hif : ∀ b : Bool, (if b = true then 1 else 0) = b.toNat := by decide
  rw [List.countP_set hlt, hget, hif, hif]
  omega

theorem Stage.Knows.mono {k k' : Coordinator} {stage : Stage} (h : stage.Knows k)
    (hk : k.Reaches k') : stage.Knows k' := by
  cases stage with
  | start c => trivial
  | marked s =>
      cases s with
      | graceful => exact hk.left_running h
      | immediate => exact hk.shutdown h
  | cancelled s =>
      cases s with
      | graceful => exact ⟨hk.left_running h.1, hk.cancelled h.2⟩
      | immediate => exact ⟨hk.shutdown h.1, hk.cancelled h.2⟩
  | announced => exact ⟨hk.left_running h.1, hk.cancelled h.2⟩
  | returned led => exact fun hled => ⟨hk.shutdown (h hled).1, hk.cancelled (h hled).2⟩

/-- What holds at every moment of a run. -/
structure Shared.Sound (s : Shared) : Prop where
  /-- The copies of the token and the coordinator agree. -/
  token : s.tokens.OneFlag s.coordinator.cancelled
  calls : ∀ stage ∈ s.system.calls, stage.Knows s.coordinator
  graceful : s.coordinator.promised (s.system.calls.countP Stage.owes) ≤ 1

namespace Shared

variable {s : Shared} {i : Nat}

theorem sound_start (calls : List Call) : (start calls).Sound := by
  have howes : (calls.map Stage.start).countP Stage.owes = 0 := by
    rw [List.countP_eq_zero]
    intro stage hstage
    obtain ⟨c, -, rfl⟩ := List.mem_map.1 hstage
    simp [Stage.owes]
  refine ⟨Tokens.OneFlag.fresh, ?_, ?_⟩
  · intro stage hstage
    obtain ⟨c, -, rfl⟩ := List.mem_map.1 hstage
    trivial
  · simp [start, coordinator, System.start, howes, Coordinator.promised, Coordinator.start]

/-- A step does nothing, or it is a step of a call. -/
theorem move_step_cases (s : Shared) (i : Nat) :
    (s.stage? i = none ∧ s.move (.step i) = s) ∨
    ∃ stage, s.stage? i = some stage ∧
      (s.move (.step i)).coordinator = (s.coordinator.advance stage).1 ∧
      (s.move (.step i)).system.calls =
        s.system.calls.set i (s.coordinator.advance stage).2.1 ∧
      (s.move (.step i)).tokens =
        if s.coordinator.cancels stage then s.tokens.cancel 0 else s.tokens := by
  cases hi : s.system.calls[i]? with
  | none =>
      refine .inl ⟨hi, ?_⟩
      simp [move, System.step, hi]
  | some stage =>
      refine .inr ⟨stage, hi, ?_, ?_, ?_⟩
      · simp [move, coordinator, System.step, hi]
      · simp [move, coordinator, System.step, hi]
      · simp only [move, hi, Option.any_some]
        rfl

theorem Sound.move (h : s.Sound) (m : Move) : (s.move m).Sound := by
  cases m with
  | copy i => exact ⟨h.token.copy i, h.calls, h.graceful⟩
  | step i =>
      rcases s.move_step_cases i with ⟨-, hs⟩ | ⟨stage, hi, hk, hcalls, htokens⟩
      · rwa [hs]
      have hstage : stage ∈ s.system.calls := List.mem_of_getElem? hi
      refine ⟨?_, ?_, ?_⟩
      · rw [hk, htokens, Coordinator.cancelled_advance]
        cases hc : s.coordinator.cancels stage with
        | true => exact h.token.cancelled
        | false => simpa using h.token
      · intro other hother
        rw [hcalls] at hother
        rw [hk]
        rcases List.mem_or_eq_of_mem_set hother with hother | rfl
        · exact (h.calls other hother).mono (s.coordinator.reaches_advance stage)
        · exact Coordinator.knows_advance (h.calls stage hstage)
      · have hset := countP_set_add hi Stage.owes (s.coordinator.advance stage).2.1
        have hadvance := s.coordinator.promised_advance stage
        have hgraceful := h.graceful
        rw [hk, hcalls]
        simp only [Coordinator.promised] at hadvance hgraceful ⊢
        omega

theorem Sound.run (h : s.Sound) (moves : List Move) : (s.run moves).Sound := by
  induction moves generalizing s with
  | nil => exact h
  | cons m moves ih => exact ih (h.move m)

theorem reaches_move (s : Shared) (m : Move) : s.coordinator.Reaches (s.move m).coordinator := by
  cases m with
  | copy i => exact .refl _
  | step i =>
      rcases s.move_step_cases i with ⟨-, hs⟩ | ⟨stage, -, hk, -⟩
      · rw [hs]
        exact .refl _
      · rw [hk]
        exact s.coordinator.reaches_advance stage

theorem reaches_run (s : Shared) (moves : List Move) :
    s.coordinator.Reaches (s.run moves).coordinator := by
  induction moves generalizing s with
  | nil => exact .refl _
  | cons m moves ih => exact (s.reaches_move m).trans (ih (s.move m))

theorem Sound.allCancelled_iff (h : s.Sound) : s.AllCancelled ↔ s.coordinator.cancelled = true := by
  constructor
  · intro hall
    rw [← h.token.isCancelled h.token.nonempty]
    exact hall 0 h.token.nonempty
  · intro hk i hi
    rw [h.token.isCancelled hi, hk]

/-- Once one token is cancelled, all are. -/
theorem Sound.allCancelled (h : s.Sound) {token : Nat} (hi : token < s.tokens.tokens.length)
    (hcancelled : s.tokens.isCancelled token = true) : s.AllCancelled := by
  rw [h.allCancelled_iff, ← h.token.isCancelled hi, hcancelled]

/-! ## Calls that lead -/

/-- The call `i` leads through a shutdown: it stands at a stage of a call that does. -/
def Leads (s : Shared) (i : Nat) : Prop := ∃ stage, s.stage? i = some stage ∧ stage.leads = true

theorem Leads.move (h : s.Leads i) (m : Move) : (s.move m).Leads i := by
  obtain ⟨stage, hi, hleads⟩ := h
  cases m with
  | copy j => exact ⟨stage, hi, hleads⟩
  | step j =>
      rcases s.move_step_cases j with ⟨-, hs⟩ | ⟨stage', hj, -, hcalls, -⟩
      · rw [hs]
        exact ⟨stage, hi, hleads⟩
      by_cases hji : j = i
      · subst hji
        obtain rfl : stage = stage' := Option.some.inj (hi.symm.trans hj)
        have hlt := (List.getElem?_eq_some_iff.1 hi).1
        refine ⟨_, ?_, Coordinator.leads_advance (k := s.coordinator) hleads⟩
        rw [stage?, hcalls, List.getElem?_set_self hlt]
      · refine ⟨stage, ?_, hleads⟩
        rw [stage?, hcalls, List.getElem?_set_ne hji]
        exact hi

theorem Leads.run (h : s.Leads i) (moves : List Move) : (s.run moves).Leads i := by
  induction moves generalizing s with
  | nil => exact h
  | cons m moves ih => exact ih (h.move m)

/-- Among the moves of a run is the one by which a graceful call finds the state to be running and
so initiates the shutdown. -/
def Initiates (s : Shared) (moves : List Move) (i : Nat) : Prop :=
  ∃ before after, moves = before ++ .step i :: after ∧
    (s.run before).stage? i = some (.start .shutdown) ∧
    (s.run before).coordinator.state = .running

theorem Initiates.leads {moves : List Move} (h : s.Initiates moves i) : (s.run moves).Leads i := by
  obtain ⟨before, after, rfl, hi, hrunning⟩ := h
  rw [run_append]
  refine Leads.run (s := (s.run before).move (.step i)) ?_ after
  rcases (s.run before).move_step_cases i with ⟨hnone, -⟩ | ⟨stage, hstage, -, hcalls, -⟩
  · rw [hi] at hnone
    cases hnone
  · obtain rfl : stage = .start .shutdown := Option.some.inj (hstage.symm.trans hi)
    have hlt := (List.getElem?_eq_some_iff.1 hi).1
    refine ⟨.marked .graceful, ?_, rfl⟩
    rw [stage?, hcalls, List.getElem?_set_self hlt, Coordinator.advance, if_pos hrunning]

theorem leads_start {calls : List Call} (h : calls[i]? = some .shutdownImmediately) :
    (start calls).Leads i := by
  refine ⟨.start .shutdownImmediately, ?_, rfl⟩
  rw [stage?, start, System.start, List.getElem?_map, h]
  rfl

/-- Where a call that leads has returned, the shutdown is complete. -/
theorem Leads.shutdown (h : s.Leads i) (hs : s.Sound) {led : Bool}
    (hreturned : s.stage? i = some (.returned led)) :
    s.coordinator.state = .shutdown ∧ s.coordinator.cancelled = true := by
  obtain ⟨stage, hstage, hleads⟩ := h
  obtain rfl : stage = .returned led := Option.some.inj (hstage.symm.trans hreturned)
  exact hs.calls _ (List.mem_of_getElem? hreturned) hleads

end Shared

/-! ## The order of a shutdown -/

open Shared

/-- Calls side by side, at any moment (after the moves `first`) and at any later one (after the
moves `next` too). The state never goes back. The tokens tell what the coordinator knows. A token
that is cancelled stays so, and all copies with it, whenever they are made; and cancelling one copy
does what cancelling the token itself does.
The graceful signal is sent once at most. A signal is sent only when the token is cancelled and the
state is not running any more. And once a call that initiated the shutdown or an immediate one has
returned, the state is that of a complete shutdown and the token is cancelled, now and later. -/
theorem shutdowns_keep_order (calls : List Call) (first next : List Move) :
    let s := (start calls).run first
    let t := s.run next
    s.coordinator.state.rank ≤ t.coordinator.state.rank ∧
      (∀ token < s.tokens.tokens.length,
        s.tokens.isCancelled token = s.coordinator.cancelled) ∧
      (∀ token < s.tokens.tokens.length, s.tokens.isCancelled token = true → t.AllCancelled) ∧
      (∀ token < s.tokens.tokens.length, s.tokens.cancel token = s.tokens.cancel 0) ∧
      t.coordinator.sent.count .graceful ≤ 1 ∧
      (∀ m, (s.move m).coordinator.sent ≠ s.coordinator.sent →
        s.AllCancelled ∧ s.coordinator.state ≠ .running) ∧
      ∀ i led, s.stage? i = some (.returned led) →
        calls[i]? = some .shutdownImmediately ∨ (start calls).Initiates first i →
        t.coordinator.state = .shutdown ∧ t.AllCancelled := by
  intro s t
  have hs : s.Sound := (sound_start calls).run first
  have ht : t.Sound := hs.run next
  have hreaches : s.coordinator.Reaches t.coordinator := s.reaches_run next
  refine ⟨hreaches.state, fun token hi => hs.token.isCancelled hi, ?_, ?_, ?_, ?_, ?_⟩
  · intro token hi hcancelled
    rw [ht.allCancelled_iff]
    exact hreaches.cancelled (hs.allCancelled_iff.1 (hs.allCancelled hi hcancelled))
  · intro token hi
    rw [hs.token.cancel hi, hs.token.cancel hs.token.nonempty]
  · have hgraceful := ht.graceful
    rw [Coordinator.promised] at hgraceful
    omega
  · intro m hsent
    cases m with
    | copy i => exact absurd rfl hsent
    | step i =>
        rcases s.move_step_cases i with ⟨-, hmove⟩ | ⟨stage, hi, hk, -⟩
        · exact absurd (congrArg (·.coordinator.sent) hmove) hsent
        · rw [hk] at hsent
          have hknows : stage.Knows s.coordinator := hs.calls stage (List.mem_of_getElem? hi)
          obtain ⟨hcancelled, hstate⟩ := Coordinator.sent_advance hknows hsent
          exact ⟨hs.allCancelled_iff.2 hcancelled, hstate⟩
  · intro i led hreturned hleads
    have hlead : s.Leads i := by
      rcases hleads with himmediate | hinitiates
      · exact (leads_start himmediate).run first
      · exact hinitiates.leads
    obtain ⟨hstate, hcancelled⟩ := hlead.shutdown hs hreturned
    exact ⟨hreaches.shutdown hstate, ht.allCancelled_iff.2 (hreaches.cancelled hcancelled)⟩

/-- A graceful call and an immediate one that comes in between: both lead and both return. -/
example :
    let s := (start [.shutdown, .shutdownImmediately]).run
      [.step 0, .copy 0, .step 1, .step 0, .step 1, .step 1, .step 0, .step 0]
    s.stage? 0 = some (.returned true) ∧ s.stage? 1 = some (.returned true) ∧
      s.coordinator = ⟨.shutdown, true, [.immediate, .graceful]⟩ ∧ s.tokens = ⟨[true], [0, 0]⟩ := by
  decide

end PeerWatch.Shutdown
