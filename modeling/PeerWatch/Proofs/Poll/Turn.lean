import PeerWatch.Poll.Run

/-!
# What one turn of a poller does

A turn issues at most one request. What becomes of it is told here from the reply alone: the payload
that is delivered, or that the session expired, provided that no cancellation came first. All that a
turn can do is summed up in `turn_cases`; what a whole run does follows from it turn by turn.
-/

namespace PeerWatch.Poll

open PeerWatch.Time (Timeline)

/-! ## Waiting under a cancellation -/

namespace Cancellation

theorem cut_eq_none_iff (c : Option Cancellation) (start stop : Nat) :
    cut c start stop = none ↔ before c stop = false := by
  cases c <;> simp [cut, before]

theorem eq_of_cut {c : Option Cancellation} {start stop t : Nat} (h : cut c start stop = some t) :
    before c stop = true ∧ ∃ c', c = some c' ∧ t = max start c'.time := by
  cases c with
  | none => simp [cut, before] at h
  | some c' =>
      unfold cut at h
      split at h
      · next hb => exact ⟨hb, c', rfl, by simpa using h.symm⟩
      · simp at h

theorem time_le_of_before {c : Option Cancellation} {t : Nat} (h : before c t = true) :
    ∃ c', c = some c' ∧ c'.time ≤ t := by
  cases c with
  | none => simp [before] at h
  | some c' =>
      refine ⟨c', rfl, ?_⟩
      simp only [before, Bool.or_eq_true, decide_eq_true_eq, Bool.and_eq_true, beq_iff_eq] at h
      omega

end Cancellation

/-! ## Runs piece by piece -/

variable {α : Type}

namespace Run

@[simp] theorem ending_follow (acts : Timeline (Act α)) (r : Run α) :
    (r.follow acts).ending = r.ending := rfl

@[simp] theorem acts_follow (acts : Timeline (Act α)) (r : Run α) :
    (r.follow acts).acts = acts ++ r.acts := rfl

theorem handed_follow (acts : Timeline (Act α)) (r : Run α) :
    (r.follow acts).handed = acts.events.filterMap Act.handedOver? ++ r.handed := by
  simp [handed, follow, Timeline.events]

theorem requests_follow (acts : Timeline (Act α)) (r : Run α) :
    (r.follow acts).requests = (acts.filter fun a => a.2.isRequest).map (·.1) ++ r.requests := by
  simp [requests, follow]

theorem handed_append_acts (first r : Run α) :
    (r.follow first.acts).handed = first.handed ++ r.handed := handed_follow _ _

theorem requests_append_acts (first r : Run α) :
    (r.follow first.acts).requests = first.requests ++ r.requests := requests_follow _ _

theorem andThen_of_due {r : Run α} {t : Nat} (h : r.ending = .due t) (next : Nat → Run α) :
    r.andThen next = (next t).follow r.acts := by
  simp [andThen, h]

theorem andThen_of_over {r : Run α} {t : Nat} {unauthorized : Bool}
    (h : r.ending = .over t unauthorized) (next : Nat → Run α) : r.andThen next = r := by
  simp [andThen, h]

end Run

/-! ## What becomes of a request -/

theorem Reply.within_of_le {delay limit : Nat} (h : delay ≤ limit) (response : Response) :
    (Reply.after delay response).within limit = ⟨true, delay, response⟩ := by
  simp [Reply.within, h]

theorem Reply.within_of_not_le {delay limit : Nat} (h : ¬ delay ≤ limit) (response : Response) :
    (Reply.after delay response).within limit = ⟨false, limit, .error .timeout⟩ := by
  simp [Reply.within, h]

def Outcome.payload? : Outcome α → Option (Option α)
  | .payload q => some q
  | _ => none

/-- Whether an outcome tells that the session expired. -/
def Outcome.isUnauthorized : Outcome α → Bool
  | .unauthorized => true
  | _ => false

namespace Poller

variable (p : Poller) (decode : String → Option (Option α)) (busy : List (Option α) → Nat)
  (cancel : Option Cancellation)

/-- What a request issued at `t` delivers: the payload of a body that arrives in time and before a
cancellation. -/
def delivered (t : Nat) : Reply → Option (Option α)
  | .after delay (.ok body) =>
    if delay ≤ p.period ∧ Cancellation.before cancel (t + delay) = false then decode body else none
  | _ => none

/-- Whether a request issued at `t` is refused, in time and before a cancellation, because the
session expired. -/
def expires (t : Nat) : Reply → Bool
  | .after delay (.error .unauthorized) =>
    delay ≤ p.period && !Cancellation.before cancel (t + delay)
  | _ => false

/-- The moment at which a request issued at `t` is answered or given up. -/
def settled (t : Nat) (reply : Reply) : Nat := t + (reply.within p.period).elapsed

def outcome (reply : Reply) : Outcome α :=
  Outcome.ofResponse decode (reply.within p.period).response

theorem delivered_eq (t : Nat) (reply : Reply) :
    p.delivered decode cancel t reply =
      if Cancellation.before cancel (p.settled t reply) then none
      else (p.outcome decode reply).payload? := by
  cases reply with
  | never => simp [delivered, outcome, Reply.within, Outcome.ofResponse, Outcome.payload?]
  | after delay response =>
      by_cases hd : delay ≤ p.period
      · simp only [settled, outcome, Reply.within_of_le hd]
        cases response with
        | ok body =>
            by_cases hc : Cancellation.before cancel (t + delay) <;> cases hb : decode body <;>
              simp [delivered, hd, hc, hb, Outcome.ofResponse, Outcome.payload?]
        | error e => cases e <;> simp [delivered, Outcome.ofResponse, Outcome.payload?]
      · simp only [settled, outcome, Reply.within_of_not_le hd]
        cases response <;> simp [delivered, hd, Outcome.ofResponse, Outcome.payload?]

theorem expires_eq (t : Nat) (reply : Reply) :
    p.expires cancel t reply =
      (!Cancellation.before cancel (p.settled t reply) &&
        (p.outcome decode reply).isUnauthorized) := by
  cases reply with
  | never => simp [expires, outcome, Reply.within, Outcome.ofResponse, Outcome.isUnauthorized]
  | after delay response =>
      by_cases hd : delay ≤ p.period
      · simp only [settled, outcome, Reply.within_of_le hd]
        cases response with
        | ok body =>
            cases hb : decode body <;>
              simp [expires, hb, Outcome.ofResponse, Outcome.isUnauthorized]
        | error e => cases e <;> simp [expires, hd, Outcome.ofResponse, Outcome.isUnauthorized]
      · simp only [settled, outcome, Reply.within_of_not_le hd]
        cases response with
        | ok body => simp [expires, Outcome.ofResponse, Outcome.isUnauthorized]
        | error e => cases e <;> simp [expires, hd, Outcome.ofResponse, Outcome.isUnauthorized]

/-! ## The shape of a turn -/

/-- Everything that a turn can do: nothing, since it is cancelled at once; a request that is cut off
by a cancellation; or a request that is settled, with what follows its outcome. -/
theorem turn_cases (past : List (Option α)) (t : Nat) (reply : Reply) :
    (Cancellation.before cancel t = true ∧ p.turn decode busy cancel past t reply = p.stop t) ∨
    (Cancellation.before cancel t = false ∧ ∃ cut,
      Cancellation.cut cancel t (p.settled t reply) = some cut ∧
      p.turn decode busy cancel past t reply =
        (p.stop cut).follow [(t, .request), (cut, .dropped)]) ∨
    (Cancellation.before cancel t = false ∧
      Cancellation.before cancel (p.settled t reply) = false ∧
      p.turn decode busy cancel past t reply =
        (p.conclude busy cancel past (p.settled t reply) (p.outcome decode reply)).follow
          ((p.cycle decode t reply).1 ++ Timeline.allAt (p.settled t reply)
            [.counted (p.outcome decode reply).label,
              .log (outcomeEvent p (p.outcome decode reply))])) := by
  by_cases ht : Cancellation.before cancel t = true
  · exact .inl ⟨ht, by simp [turn, ht]⟩
  · rw [Bool.not_eq_true] at ht
    refine .inr ?_
    cases hcut : Cancellation.cut cancel t (p.settled t reply) with
    | some cut =>
        refine .inl ⟨ht, cut, rfl, ?_⟩
        simp only [settled] at hcut
        simp [turn, ht, cycle, hcut]
    | none =>
        have hn := (Cancellation.cut_eq_none_iff _ _ _).1 hcut
        refine .inr ⟨ht, hn, ?_⟩
        simp only [settled] at hcut
        simp [turn, ht, cycle, hcut, settled, outcome]

theorem rest_cases (idle : Nat) :
    (Cancellation.before cancel (idle + p.period) = false ∧
      p.rest cancel idle = (⟨[], .due (idle + p.period)⟩ : Run α)) ∨
    (∃ c, cancel = some c ∧ Cancellation.before cancel (idle + p.period) = true ∧
      p.rest cancel idle = (p.stop (max idle c.time) : Run α)) := by
  cases hcut : Cancellation.cut cancel idle (idle + p.period) with
  | none =>
      exact .inl ⟨(Cancellation.cut_eq_none_iff _ _ _).1 hcut, by simp [rest, hcut]⟩
  | some cut =>
      obtain ⟨hb, c, hc, rfl⟩ := Cancellation.eq_of_cut hcut
      exact .inr ⟨c, hc, hb, by simp [rest, hcut]⟩

/-! ## Requests and payloads of a turn -/

@[simp] theorem handed_stop (t : Nat) : (p.stop t : Run α).handed = [] := rfl

@[simp] theorem requests_stop (t : Nat) : (p.stop t : Run α).requests = [] := rfl

theorem handed_rest (idle : Nat) : (p.rest cancel idle : Run α).handed = [] := by
  rcases p.rest_cases (α := α) cancel idle with ⟨-, h⟩ | ⟨c, -, -, h⟩ <;> rw [h] <;> rfl

theorem requests_rest (idle : Nat) : (p.rest cancel idle : Run α).requests = [] := by
  rcases p.rest_cases (α := α) cancel idle with ⟨-, h⟩ | ⟨c, -, -, h⟩ <;> rw [h] <;> rfl

theorem handed_conclude (past : List (Option α)) (now : Nat) (o : Outcome α) :
    (p.conclude busy cancel past now o).handed = o.payload?.toList := by
  cases o with
  | payload q =>
      rw [conclude, Run.handed_follow, handed_rest]
      rfl
  | failed e => exact handed_rest p cancel now
  | unauthorized => rfl

theorem requests_conclude (past : List (Option α)) (now : Nat) (o : Outcome α) :
    (p.conclude busy cancel past now o).requests = [] := by
  cases o with
  | payload q =>
      rw [conclude, Run.requests_follow, requests_rest]
      rfl
  | failed e => exact requests_rest p cancel now
  | unauthorized => rfl

theorem requests_turn (past : List (Option α)) (t : Nat) (reply : Reply) :
    (p.turn decode busy cancel past t reply).requests =
      if Cancellation.before cancel t then [] else [t] := by
  rcases p.turn_cases decode busy cancel past t reply with
    ⟨ht, h⟩ | ⟨ht, cut, -, h⟩ | ⟨ht, -, h⟩
  · simp [h, ht]
  · rw [h, ht, Run.requests_follow, requests_stop]
    rfl
  · rw [h, ht, Run.requests_follow, requests_conclude]
    cases hr : (reply.within p.period).arrived <;>
      simp [cycle, hr, Act.isRequest, Timeline.allAt]

/-- A turn hands over what its request delivers and nothing else. -/
theorem handed_turn (past : List (Option α)) (t : Nat) (reply : Reply) :
    (p.turn decode busy cancel past t reply).handed =
      if Cancellation.before cancel t then []
      else (p.delivered decode cancel t reply).toList := by
  rcases p.turn_cases decode busy cancel past t reply with
    ⟨ht, h⟩ | ⟨ht, cut, hcut, h⟩ | ⟨ht, hn, h⟩
  · simp [h, ht]
  · have hb := (Cancellation.eq_of_cut hcut).1
    rw [h, ht, Run.handed_follow, handed_stop, delivered_eq, hb]
    rfl
  · rw [h, ht, Run.handed_follow, handed_conclude, delivered_eq, hn]
    cases hr : (reply.within p.period).arrived <;>
      simp [cycle, hr, Act.handedOver?, Timeline.allAt, Timeline.events]

/-! ## How a turn ends -/

theorem ending_rest (idle : Nat) :
    (p.rest cancel idle : Run α).ending = .due (idle + p.period) ∨
    ∃ c, cancel = some c ∧ c.time ≤ idle + p.period ∧
      (p.rest cancel idle : Run α).ending = .over (max idle c.time) false := by
  rcases p.rest_cases (α := α) cancel idle with ⟨-, h⟩ | ⟨c, hc, hb, h⟩
  · exact .inl (by rw [h])
  · obtain ⟨c', hc', hle⟩ := Cancellation.time_le_of_before hb
    obtain rfl : c = c' := Option.some.inj (hc.symm.trans hc')
    exact .inr ⟨c, hc, hle, by rw [h]; rfl⟩

theorem ending_conclude (past : List (Option α)) (now : Nat) (o : Outcome α) :
    (o.isUnauthorized = true ∧ (p.conclude busy cancel past now o).ending = .over now true) ∨
    (o.isUnauthorized = false ∧ ∃ idle, now ≤ idle ∧
      (p.conclude busy cancel past now o).ending = (p.rest cancel idle : Run α).ending) := by
  cases o with
  | payload q => exact .inr ⟨rfl, now + busy (past ++ [q]), Nat.le_add_right _ _, rfl⟩
  | failed e => exact .inr ⟨rfl, now, Nat.le_refl _, rfl⟩
  | unauthorized => exact .inl ⟨rfl, rfl⟩

/-- A turn is over because the session expired, over because of a cancellation, or followed by the
next request, and which of them it is can be told from its reply. -/
theorem ending_turn (past : List (Option α)) (t : Nat) (reply : Reply) :
    (Cancellation.before cancel t = false ∧ p.expires cancel t reply = true ∧
      (p.turn decode busy cancel past t reply).ending = .over (p.settled t reply) true) ∨
    (¬(Cancellation.before cancel t = false ∧ p.expires cancel t reply = true) ∧
      ∃ c u, cancel = some c ∧ c.time ≤ u ∧
        (p.turn decode busy cancel past t reply).ending = .over u false) ∨
    (Cancellation.before cancel t = false ∧ p.expires cancel t reply = false ∧
      ∃ u, (p.turn decode busy cancel past t reply).ending = .due u) := by
  rcases p.turn_cases decode busy cancel past t reply with
    ⟨ht, h⟩ | ⟨ht, cut, hcut, h⟩ | ⟨ht, hn, h⟩
  · obtain ⟨c, hc, hle⟩ := Cancellation.time_le_of_before ht
    exact .inr (.inl ⟨by simp [ht], c, t, hc, hle, by rw [h]; rfl⟩)
  · obtain ⟨hb, c, hc, rfl⟩ := Cancellation.eq_of_cut hcut
    refine .inr (.inl ⟨?_, c, _, hc, Nat.le_max_right _ _, by rw [h]; rfl⟩)
    simp [p.expires_eq decode, hb]
  · have he := p.expires_eq decode cancel t reply
    rw [hn, Bool.not_false, Bool.true_and] at he
    rw [he, h, Run.ending_follow]
    rcases p.ending_conclude busy cancel past (p.settled t reply) (p.outcome decode reply) with
      ⟨hu, hend⟩ | ⟨hu, idle, -, hend⟩
    · exact .inl ⟨ht, hu, hend⟩
    · rw [hend, hu]
      rcases p.ending_rest (α := α) cancel idle with hd | ⟨c, hc, -, ho⟩
      · exact .inr (.inr ⟨ht, rfl, _, hd⟩)
      · exact .inr (.inl ⟨by simp, c, _, hc, Nat.le_max_right _ _, ho⟩)

theorem before_of_due {past : List (Option α)} {t u : Nat} {reply : Reply}
    (h : (p.turn decode busy cancel past t reply).ending = .due u) :
    Cancellation.before cancel t = false := by
  rcases p.ending_turn decode busy cancel past t reply with
    ⟨ht, -, -⟩ | ⟨-, c, v, -, -, hend⟩ | ⟨ht, -, -⟩
  · exact ht
  · simp [hend] at h
  · exact ht

end Poller

/-! ## Leaving the session -/

/-- Whether an act leaves the session: it navigates away or exits. -/
def Act.leaves : Act α → Bool
  | .navigate _ => true
  | .exit _ => true
  | _ => false

/-- None of some acts leaves the session. -/
def Stays (acts : Timeline (Act α)) : Prop := ∀ a ∈ acts.events, a.leaves = false

/-- The acts by which a run leaves the session. -/
def farewell (t : Nat) (unauthorized : Bool) : Timeline (Act α) :=
  Timeline.allAt t
    (if unauthorized then [.navigate Navigation.appRoot, .exit true] else [.exit false])

/-- A run leaves the session in the way that its ending tells, with its last acts and not before. -/
def Run.LeavesLast (r : Run α) : Prop :=
  match r.ending with
  | .due _ => Stays r.acts
  | .over t unauthorized => ∃ before, Stays before ∧ r.acts = before ++ farewell t unauthorized

theorem mem_farewell {a : Nat × Act α} {t : Nat} {unauthorized : Bool}
    (h : a ∈ farewell t unauthorized) :
    a = (t, .exit unauthorized) ∨
      (unauthorized = true ∧ a = (t, .navigate Navigation.appRoot)) := by
  cases unauthorized <;> simp [farewell, Timeline.allAt] at h
  · exact .inl h
  · exact h.elim (fun h => .inr ⟨rfl, h⟩) .inl

theorem Run.LeavesLast.mem_farewell {r : Run α} (hr : r.LeavesLast) {a : Nat × Act α}
    (ha : a ∈ r.acts) (hl : a.2.leaves = true) :
    ∃ t unauthorized, r.ending = .over t unauthorized ∧ a ∈ farewell t unauthorized := by
  unfold Run.LeavesLast at hr
  split at hr
  · have := hr a.2 (List.mem_map_of_mem ha)
    simp [hl] at this
  · next t unauthorized he =>
    obtain ⟨before, hb, hacts⟩ := hr
    rw [hacts, List.mem_append] at ha
    refine ⟨t, unauthorized, he, ha.resolve_left fun hmem => ?_⟩
    have := hb a.2 (List.mem_map_of_mem hmem)
    simp [hl] at this

theorem Stays.append {first second : Timeline (Act α)} (hf : Stays first) (hs : Stays second) :
    Stays (first ++ second) := by
  intro a ha
  simp only [Timeline.events, List.map_append, List.mem_append] at ha
  exact ha.elim (hf a) (hs a)

theorem stays_log (t : Nat) (e : Log.Event) : Stays ([(t, .log e)] : Timeline (Act α)) := by
  simp [Stays, Timeline.events, Act.leaves]

theorem Run.LeavesLast.follow {acts : Timeline (Act α)} {r : Run α} (hr : r.LeavesLast)
    (ha : Stays acts) : (r.follow acts).LeavesLast := by
  unfold Run.LeavesLast at hr ⊢
  rw [Run.ending_follow]
  split
  · next t he =>
    rw [he] at hr
    exact ha.append hr
  · next t unauthorized he =>
    rw [he] at hr
    obtain ⟨before, hb, hacts⟩ := hr
    exact ⟨acts ++ before, ha.append hb, by simp [hacts]⟩

namespace Poller

variable (p : Poller) (decode : String → Option (Option α)) (busy : List (Option α) → Nat)
  (cancel : Option Cancellation)

theorem leavesLast_stop (t : Nat) : (p.stop t : Run α).LeavesLast :=
  ⟨[(t, .log (cancelledEvent p))], stays_log t _, rfl⟩

theorem leavesLast_rest (idle : Nat) : (p.rest cancel idle : Run α).LeavesLast := by
  rcases p.rest_cases (α := α) cancel idle with ⟨-, h⟩ | ⟨c, -, -, h⟩
  · rw [h]
    simp [Run.LeavesLast, Stays, Timeline.events]
  · rw [h]
    exact p.leavesLast_stop _

theorem leavesLast_conclude (past : List (Option α)) (now : Nat) (o : Outcome α) :
    (p.conclude busy cancel past now o).LeavesLast := by
  cases o with
  | payload q =>
      exact (p.leavesLast_rest cancel _).follow (by simp [Stays, Timeline.events, Act.leaves])
  | failed e => exact p.leavesLast_rest cancel now
  | unauthorized => exact ⟨[], by simp [Stays, Timeline.events], rfl⟩

theorem leavesLast_turn (past : List (Option α)) (t : Nat) (reply : Reply) :
    (p.turn decode busy cancel past t reply).LeavesLast := by
  rcases p.turn_cases decode busy cancel past t reply with
    ⟨-, h⟩ | ⟨-, cut, -, h⟩ | ⟨-, -, h⟩
  · rw [h]
    exact p.leavesLast_stop t
  · rw [h]
    exact (p.leavesLast_stop cut).follow (by simp [Stays, Timeline.events, Act.leaves])
  · rw [h]
    refine (p.leavesLast_conclude busy cancel past _ _).follow ?_
    cases hr : (reply.within p.period).arrived <;>
      simp [cycle, hr, Stays, Timeline.events, Timeline.allAt, Act.leaves]

end Poller

/-! ## The handler at work -/

/-- After some acts no handler is at work: it is not the last of them that a payload is handed
over. -/
def Dealt (acts : Timeline (Act α)) : Prop := ∀ q, acts.events.getLast? ≠ some (.handler q)

theorem Dealt.append {first second : Timeline (Act α)} (hf : Dealt first) (hs : Dealt second) :
    Dealt (first ++ second) := by
  intro q hlast
  rw [Timeline.events, List.map_append, List.getLast?_append] at hlast
  cases hl : (second.map (·.2)).getLast? with
  | none =>
      rw [hl, Option.none_or] at hlast
      exact hf q hlast
  | some a =>
      rw [hl, Option.some_or] at hlast
      exact hs q (hl.trans hlast)

namespace Poller

variable (p : Poller) (decode : String → Option (Option α)) (busy : List (Option α) → Nat)
  (cancel : Option Cancellation)

theorem dealt_stop (t : Nat) : Dealt (p.stop t : Run α).acts := by
  simp [Dealt, stop, Timeline.events, Timeline.allAt]

theorem dealt_rest (idle : Nat) : Dealt (p.rest cancel idle : Run α).acts := by
  rcases p.rest_cases (α := α) cancel idle with ⟨-, h⟩ | ⟨c, -, -, h⟩
  · rw [h]
    simp [Dealt, Timeline.events]
  · rw [h]
    exact p.dealt_stop _

theorem dealt_conclude (past : List (Option α)) (now : Nat) (o : Outcome α) :
    Dealt (p.conclude busy cancel past now o).acts := by
  cases o with
  | payload q => exact Dealt.append (by simp [Dealt, Timeline.events]) (p.dealt_rest cancel _)
  | failed e => exact p.dealt_rest cancel now
  | unauthorized => simp [Dealt, conclude, Timeline.events, Timeline.allAt]

/-- Within one turn a payload that is handed over is also dealt with, even when the run is cancelled
meanwhile. -/
theorem dealt_turn (past : List (Option α)) (t : Nat) (reply : Reply) :
    Dealt (p.turn decode busy cancel past t reply).acts := by
  rcases p.turn_cases decode busy cancel past t reply with
    ⟨-, h⟩ | ⟨-, cut, -, h⟩ | ⟨-, -, h⟩
  · rw [h]
    exact p.dealt_stop t
  · rw [h]
    exact Dealt.append (by simp [Dealt, Timeline.events]) (p.dealt_stop cut)
  · rw [h]
    refine Dealt.append ?_ (p.dealt_conclude busy cancel past _ _)
    simp [Dealt, Timeline.events, Timeline.allAt]

end Poller
end PeerWatch.Poll
