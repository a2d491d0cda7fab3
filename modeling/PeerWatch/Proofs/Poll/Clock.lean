import Mathlib.Data.List.Chain
import PeerWatch.Proofs.Poll.Contract

/-!
# The clock of a poller

The acts of a run never go back in time, from the moment at which its first request is due to the
one that its ending tells. Each turn that is followed by another takes one period at least.
-/

namespace PeerWatch.Poll

open PeerWatch.Time (Timeline)

variable {α : Type}

namespace Cancellation

theorem before_mono {c : Option Cancellation} {t u : Nat} (h : before c t = true) (htu : t ≤ u) :
    before c u = true := by
  cases c with
  | none => simp [before] at h
  | some c =>
      simp only [before, Bool.or_eq_true, decide_eq_true_eq, Bool.and_eq_true, beq_iff_eq] at h ⊢
      rcases h with h | ⟨rfl, hearly⟩
      · exact .inl (h.trans_le htu)
      · rcases htu.eq_or_lt with rfl | hlt
        · exact .inr ⟨rfl, hearly⟩
        · exact .inl hlt

theorem not_before_of_le {c : Option Cancellation} {t u : Nat} (h : before c u = false)
    (htu : t ≤ u) : before c t = false := by
  rw [← Bool.not_eq_true] at h ⊢
  exact fun ht => h (before_mono ht htu)

theorem le_time_of_not_before {c : Cancellation} {t : Nat} (h : before (some c) t = false) :
    t ≤ c.time := by
  simp only [before, Bool.or_eq_false_iff, decide_eq_false_iff_not] at h
  omega

theorem time_le {c : Cancellation} {t : Nat} (h : before (some c) t = true) : c.time ≤ t := by
  obtain ⟨c', hc', hle⟩ := time_le_of_before h
  obtain rfl : c = c' := Option.some.inj hc'
  exact hle

end Cancellation

/-- The moment that an ending tells. -/
def Ending.time : Ending → Nat
  | .due t => t
  | .over t _ => t

/-- A moment, the times of some acts and another moment never go back. -/
def Forward (start : Nat) (acts : Timeline (Act α)) (stop : Nat) : Prop :=
  (start :: (acts.map (·.1) ++ [stop])).Pairwise (· ≤ ·)

namespace Forward

variable {start mid stop : Nat} {first rest acts : Timeline (Act α)}

theorem nil (h : start ≤ stop) : Forward start ([] : Timeline (Act α)) stop := by
  simpa [Forward] using h

theorem append (hf : Forward start first mid) (hr : Forward mid rest stop) :
    Forward start (first ++ rest) stop := by
  have hboth : (start :: (first.map (·.1) ++ mid :: (rest.map (·.1) ++ [stop]))).Pairwise
      (· ≤ ·) := by
    rw [Forward, ← List.isChain_iff_pairwise] at hf hr
    rw [← List.isChain_iff_pairwise, ← List.cons_append, List.isChain_split]
    exact ⟨hf, hr⟩
  refine hboth.sublist ?_
  rw [List.map_append, List.append_assoc]
  exact ((List.sublist_cons_self _ _).append_left _).cons_cons _

theorem sorted (h : Forward start acts stop) : acts.Pairwise fun a b => a.1 ≤ b.1 := by
  rw [Forward, List.pairwise_cons, List.pairwise_append, List.pairwise_map] at h
  exact h.2.1

theorem start_le (h : Forward start acts stop) {a : Nat × Act α} (ha : a ∈ acts) :
    start ≤ a.1 := by
  rw [Forward, List.pairwise_cons] at h
  exact h.1 a.1 (List.mem_append_left _ (List.mem_map_of_mem ha))

theorem le_stop (h : Forward start acts stop) {a : Nat × Act α} (ha : a ∈ acts) :
    a.1 ≤ stop := by
  rw [Forward, List.pairwise_cons, List.pairwise_append] at h
  exact h.2.2.2 a.1 (List.mem_map_of_mem ha) stop List.mem_cons_self

theorem start_le_stop (h : Forward start acts stop) : start ≤ stop := by
  rw [Forward, List.pairwise_cons] at h
  exact h.1 stop (by simp)

end Forward

namespace Poller

variable (p : Poller) (decode : String → Option (Option α)) (busy : List (Option α) → Nat)
  (cancel : Option Cancellation)

theorem settled_le (t : Nat) (reply : Reply) : p.settled t reply ≤ t + p.period := by
  cases reply with
  | never => exact Nat.le_refl _
  | after delay response =>
      by_cases h : delay ≤ p.period
      · rw [settled, Reply.within_of_le h]
        exact Nat.add_le_add_left h t
      · rw [settled, Reply.within_of_not_le h]

theorem le_settled (t : Nat) (reply : Reply) : t ≤ p.settled t reply := Nat.le_add_right _ _

/-- The acts of a request that is settled, up to where its outcome is told. -/
def opened (t : Nat) (reply : Reply) : Timeline (Act α) :=
  (p.cycle decode t reply).1 ++ Timeline.allAt (p.settled t reply)
    [.counted (p.outcome decode reply).label, .log (outcomeEvent p (p.outcome decode reply))]

theorem opened_eq (t : Nat) (reply : Reply) :
    p.opened decode t reply =
      [(t, .request),
        (p.settled t reply, if (reply.within p.period).arrived then .resolved else .dropped),
        (p.settled t reply, .counted (p.outcome decode reply).label),
        (p.settled t reply, .log (outcomeEvent p (p.outcome decode reply)))] := rfl

/-- The moment at which a cycle with an outcome at `now` is dealt with: its handler has finished, if
it was called. -/
def idleAfter (past : List (Option α)) (now : Nat) (o : Outcome α) : Nat :=
  match o.payload? with
  | some q => now + busy (past ++ [q])
  | none => now

/-- The acts of the handler, if it is called. -/
def dealing (past : List (Option α)) (now : Nat) (o : Outcome α) : Timeline (Act α) :=
  match o.payload? with
  | some q => [(now, .handler q), (now + busy (past ++ [q]), .handled)]
  | none => []

theorem conclude_eq_rest {o : Outcome α} (h : o.isUnauthorized = false) (past : List (Option α))
    (now : Nat) :
    p.conclude busy cancel past now o =
      (p.rest cancel (idleAfter busy past now o)).follow (dealing busy past now o) := by
  cases o with
  | payload q => rfl
  | failed e => rfl
  | unauthorized => simp [Outcome.isUnauthorized] at h

/-! ## A turn -/

theorem forward_stop {start t : Nat} (h : start ≤ t) :
    Forward start (p.stop t : Run α).acts (p.stop t : Run α).ending.time := by
  simpa [Forward, stop, Timeline.allAt, Ending.time] using h

theorem forward_rest {start idle : Nat} (h : start ≤ idle) :
    Forward start (p.rest cancel idle : Run α).acts
      (p.rest cancel idle : Run α).ending.time := by
  rcases p.rest_cases (α := α) cancel idle with ⟨-, hr⟩ | ⟨c, -, -, hr⟩
  · rw [hr]
    exact .nil (h.trans (Nat.le_add_right _ _))
  · rw [hr]
    exact p.forward_stop (h.trans (Nat.le_max_left _ _))

theorem forward_conclude (past : List (Option α)) (now : Nat) (o : Outcome α) :
    Forward now (p.conclude busy cancel past now o).acts
      (p.conclude busy cancel past now o).ending.time := by
  cases o with
  | payload q =>
      have hdealing : Forward now [(now, Act.handler q), (now + busy (past ++ [q]), .handled)]
          (now + busy (past ++ [q])) := by
        simp [Forward]
      exact hdealing.append (p.forward_rest cancel le_rfl)
  | failed e => exact p.forward_rest cancel le_rfl
  | unauthorized => simp [Forward, conclude, Timeline.allAt, Ending.time]

theorem forward_opened (t : Nat) (reply : Reply) :
    Forward t (p.opened decode t reply) (p.settled t reply) := by
  have hle := p.le_settled t reply
  rw [opened_eq]
  simp [Forward, hle]

theorem forward_turn (past : List (Option α)) (t : Nat) (reply : Reply) :
    Forward t (p.turn decode busy cancel past t reply).acts
      (p.turn decode busy cancel past t reply).ending.time := by
  rcases p.turn_cases decode busy cancel past t reply with
    ⟨-, h⟩ | ⟨-, cut, hcut, h⟩ | ⟨-, -, h⟩
  · rw [h]
    exact p.forward_stop le_rfl
  · obtain ⟨-, c, -, rfl⟩ := Cancellation.eq_of_cut hcut
    have hdropped : Forward t [(t, (.request : Act α)), (max t c.time, .dropped)]
        (max t c.time) := by
      simp [Forward, Nat.le_max_left t c.time]
    rw [h]
    exact hdropped.append (p.forward_stop le_rfl)
  · rw [h]
    exact (p.forward_opened decode t reply).append (p.forward_conclude busy cancel past _ _)

/-- A turn that is followed by another settled its request, dealt with what it delivered, and then
waited for one period. -/
theorem turn_of_due {past : List (Option α)} {t u : Nat} {reply : Reply}
    (h : (p.turn decode busy cancel past t reply).ending = .due u) :
    Cancellation.before cancel u = false ∧
      u = idleAfter busy past (p.settled t reply) (p.outcome decode reply) + p.period ∧
      (p.turn decode busy cancel past t reply).acts = p.opened decode t reply ++
        dealing busy past (p.settled t reply) (p.outcome decode reply) := by
  rcases p.turn_cases decode busy cancel past t reply with
    ⟨-, hr⟩ | ⟨-, cut, -, hr⟩ | ⟨-, -, hr⟩
  · simp [hr, stop] at h
  · simp [hr, stop] at h
  · rw [hr, Run.ending_follow] at h
    rcases p.ending_conclude busy cancel past (p.settled t reply) (p.outcome decode reply) with
      ⟨-, hend⟩ | ⟨ho, -⟩
    · simp [hend] at h
    · rw [p.conclude_eq_rest busy cancel ho] at h hr
      rcases p.rest_cases (α := α) cancel
        (idleAfter busy past (p.settled t reply) (p.outcome decode reply)) with
        ⟨hn, hrest⟩ | ⟨c, -, -, hrest⟩
      · rw [hrest] at h hr
        obtain rfl := Ending.due.inj h
        refine ⟨hn, rfl, ?_⟩
        rw [hr]
        simp [opened]
      · simp [hrest, stop] at h

theorem le_idleAfter (past : List (Option α)) (now : Nat) (o : Outcome α) :
    now ≤ idleAfter busy past now o := by
  unfold idleAfter
  split
  · exact Nat.le_add_right _ _
  · exact Nat.le_refl _

theorem period_le_due_turn {past : List (Option α)} {t u : Nat} {reply : Reply}
    (h : (p.turn decode busy cancel past t reply).ending = .due u) : t + p.period ≤ u := by
  obtain ⟨-, rfl, -⟩ := p.turn_of_due decode busy cancel h
  have hsettled := p.le_settled t reply
  have hidle := le_idleAfter busy past (p.settled t reply) (p.outcome decode reply)
  omega

/-! ## A run -/

theorem forward_runFrom (past : List (Option α)) (t : Nat) (replies : List Reply) :
    Forward t (p.runFrom decode busy cancel past t replies).acts
      (p.runFrom decode busy cancel past t replies).ending.time := by
  induction replies generalizing past t with
  | nil =>
      rcases p.runFrom_nil_cases decode busy cancel past t with ⟨-, h⟩ | h <;> rw [h]
      · exact p.forward_stop le_rfl
      · exact .nil le_rfl
  | cons reply replies ih =>
      have hturn := p.forward_turn decode busy cancel past t reply
      rcases hend : (p.turn decode busy cancel past t reply).ending with u | ⟨u, unauthorized⟩
      · rw [hend] at hturn
        rw [p.runFrom_cons_of_due decode busy cancel hend]
        exact hturn.append (ih _ u)
      · rwa [p.runFrom_cons_of_over decode busy cancel hend]

/-- A run that puts all its replies to use takes one period at least for each of them. -/
theorem length_le_due {past : List (Option α)} {t u : Nat} {replies : List Reply}
    (h : (p.runFrom decode busy cancel past t replies).ending = .due u) :
    t + replies.length * p.period ≤ u := by
  induction replies generalizing past t with
  | nil =>
      rcases p.runFrom_nil_cases decode busy cancel past t with ⟨-, hr⟩ | hr <;> rw [hr] at h
      · simp [stop] at h
      · obtain rfl : t = u := by simpa using h
        simp
  | cons reply replies ih =>
      rcases hend : (p.turn decode busy cancel past t reply).ending with v | ⟨v, unauthorized⟩
      · have hturn := p.period_le_due_turn decode busy cancel hend
        rw [p.runFrom_cons_of_due decode busy cancel hend, Run.ending_follow] at h
        have hrest := ih h
        rw [List.length_cons, Nat.succ_mul]
        omega
      · rw [p.runFrom_cons_of_over decode busy cancel hend, hend] at h
        simp at h

end Poller
end PeerWatch.Poll
