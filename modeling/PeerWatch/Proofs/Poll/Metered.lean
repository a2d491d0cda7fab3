import PeerWatch.Proofs.Poll.Contract

/-!
# What the metrics of a poller tell

Every request of a run is either settled, with one outcome that is counted and timed, or in flight
when the run is cancelled. The counters are compared with what the run does by way of the list of
settled outcomes: labels, payloads and refusals are all read off it.
-/

namespace PeerWatch.Poll

open PeerWatch.Time (Timeline)

variable {α : Type}

/-! ## Readings of a run -/

def Act.countedLabel? : Act α → Option String
  | .counted label => some label
  | _ => none

def Act.isNavigation : Act α → Bool
  | .navigate _ => true
  | _ => false

def Ending.isRefusal : Ending → Bool
  | .due _ => false
  | .over _ unauthorized => unauthorized

namespace Run

/-- The words under which the cycles of a run are counted, in order. -/
def labels (r : Run α) : List String := r.acts.events.filterMap Act.countedLabel?

def navigations (r : Run α) : Nat := r.acts.events.countP Act.isNavigation

theorem labels_follow (acts : Timeline (Act α)) (r : Run α) :
    (r.follow acts).labels = acts.events.filterMap Act.countedLabel? ++ r.labels := by
  simp [labels, Timeline.events]

theorem navigations_of_leavesLast {r : Run α} (h : r.LeavesLast) :
    r.navigations = if r.ending.isRefusal then 1 else 0 := by
  have hstays {acts : Timeline (Act α)} (hacts : Stays acts) :
      acts.events.countP Act.isNavigation = 0 := by
    rw [List.countP_eq_zero]
    intro a ha
    have hleaves := hacts a ha
    cases a <;> simp_all [Act.isNavigation, Act.leaves]
  unfold LeavesLast at h
  unfold navigations
  split at h
  · next t hend => rw [hstays h, hend]; rfl
  · next t unauthorized hend =>
    obtain ⟨before, hbefore, hacts⟩ := h
    rw [hacts, Timeline.events, List.map_append, List.countP_append, ← Timeline.events,
      hstays hbefore, hend]
    cases unauthorized <;> rfl

end Run

namespace Poller

variable (p : Poller) (decode : String → Option (Option α)) (busy : List (Option α) → Nat)
  (cancel : Option Cancellation)

/-- Whether a request with some reply is in flight at the cancellation. -/
def inFlight (c : Nat × Reply) : Bool := Cancellation.before cancel (p.settled c.1 c.2)

/-- The outcomes of the cycles that no cancellation cut off, in order. -/
def settledOutcomes (cycles : List (Nat × Reply)) : List (Outcome α) :=
  (cycles.filter fun c => !p.inFlight cancel c).map fun c => p.outcome decode c.2

/-! ## Labels -/

@[simp] theorem labels_stop (t : Nat) : (p.stop t : Run α).labels = [] := rfl

theorem labels_rest (idle : Nat) : (p.rest cancel idle : Run α).labels = [] := by
  rcases p.rest_cases (α := α) cancel idle with ⟨-, h⟩ | ⟨c, -, -, h⟩ <;> rw [h] <;> rfl

theorem labels_conclude (past : List (Option α)) (now : Nat) (o : Outcome α) :
    (p.conclude busy cancel past now o).labels = [] := by
  cases o with
  | payload q =>
      rw [conclude, Run.labels_follow, labels_rest]
      rfl
  | failed e => exact labels_rest p cancel now
  | unauthorized => rfl

theorem labels_turn (past : List (Option α)) (t : Nat) (reply : Reply) :
    (p.turn decode busy cancel past t reply).labels =
      if Cancellation.before cancel t then []
      else (p.settledOutcomes decode cancel [(t, reply)]).map Outcome.label := by
  rcases p.turn_cases decode busy cancel past t reply with
    ⟨ht, h⟩ | ⟨ht, cut, hcut, h⟩ | ⟨ht, hn, h⟩
  · simp [h, ht]
  · have hb := (Cancellation.eq_of_cut hcut).1
    rw [h, ht, Run.labels_follow, labels_stop]
    simp [settledOutcomes, inFlight, hb, Act.countedLabel?, Timeline.events, List.filterMap_cons]
  · rw [h, ht, Run.labels_follow, labels_conclude]
    cases hr : (reply.within p.period).arrived <;>
      simp [settledOutcomes, inFlight, hn, cycle, hr, Act.countedLabel?, Timeline.allAt,
        Timeline.events, List.filterMap_cons]

theorem inFlight_of_due {past : List (Option α)} {t u : Nat} {reply : Reply}
    (h : (p.turn decode busy cancel past t reply).ending = .due u) :
    p.inFlight cancel (t, reply) = false := by
  rcases p.turn_cases decode busy cancel past t reply with
    ⟨-, hr⟩ | ⟨-, cut, -, hr⟩ | ⟨-, hn, -⟩
  · simp [hr, stop] at h
  · simp [hr, stop] at h
  · exact hn

/-- Exactly the settled cycles of a run are counted, each under the word for its outcome. -/
theorem labels_runFrom (past : List (Option α)) (t : Nat) (replies : List Reply) :
    (p.runFrom decode busy cancel past t replies).labels =
      (p.settledOutcomes decode cancel
        ((p.runFrom decode busy cancel past t replies).cycles replies)).map Outcome.label := by
  induction replies generalizing past t with
  | nil =>
      rcases p.runFrom_nil_cases decode busy cancel past t with ⟨-, h⟩ | h <;> rw [h] <;> rfl
  | cons reply replies ih =>
      have hlabels := p.labels_turn decode busy cancel past t reply
      have hreq := p.requests_turn decode busy cancel past t reply
      rcases hend : (p.turn decode busy cancel past t reply).ending with u | ⟨u, unauthorized⟩
      · have ht := p.before_of_due decode busy cancel hend
        rw [ht, if_neg Bool.false_ne_true] at hlabels
        rw [p.cycles_runFrom_of_due decode busy cancel ht hend,
          p.runFrom_cons_of_due decode busy cancel hend, Run.labels_follow, ih, ← Run.labels,
          hlabels]
        simp [settledOutcomes, p.inFlight_of_due decode busy cancel hend]
      · rw [p.runFrom_cons_of_over decode busy cancel hend, Run.cycles, hreq, hlabels]
        cases Cancellation.before cancel t <;> rfl

/-! ## Requests in flight -/

/-- At most one request of a run is in flight when it is cancelled. -/
theorem countP_inFlight_runFrom (past : List (Option α)) (t : Nat) (replies : List Reply) :
    ((p.runFrom decode busy cancel past t replies).cycles replies).countP (p.inFlight cancel) =
      if ((p.runFrom decode busy cancel past t replies).cycles replies).any (p.inFlight cancel)
      then 1 else 0 := by
  induction replies generalizing past t with
  | nil => simp [Run.cycles]
  | cons reply replies ih =>
      have hreq := p.requests_turn decode busy cancel past t reply
      rcases hend : (p.turn decode busy cancel past t reply).ending with u | ⟨u, unauthorized⟩
      · have ht := p.before_of_due decode busy cancel hend
        have hsettled := p.inFlight_of_due decode busy cancel hend
        rw [p.cycles_runFrom_of_due decode busy cancel ht hend, List.countP_cons, List.any_cons,
          hsettled, ih]
        rfl
      · rw [p.runFrom_cons_of_over decode busy cancel hend, Run.cycles, hreq]
        cases Cancellation.before cancel t with
        | true => rfl
        | false =>
            show List.countP _ [(t, reply)] = if List.any [(t, reply)] _ then 1 else 0
            cases h : p.inFlight cancel (t, reply) <;> simp [h]

theorem length_settledOutcomes (cycles : List (Nat × Reply)) :
    (p.settledOutcomes decode cancel cycles).length + cycles.countP (p.inFlight cancel) =
      cycles.length := by
  have hsplit := cycles.length_eq_countP_add_countP (p := p.inFlight cancel)
  have hsettled : (p.settledOutcomes decode cancel cycles).length =
      cycles.countP fun c => !p.inFlight cancel c := by
    rw [settledOutcomes, List.length_map, List.countP_eq_length_filter]
  simp only [Bool.not_eq_true, Bool.decide_eq_false] at hsplit
  omega

theorem filterMap_delivered (cycles : List (Nat × Reply)) :
    cycles.filterMap (fun c => p.delivered decode cancel c.1 c.2) =
      (p.settledOutcomes decode cancel cycles).filterMap Outcome.payload? := by
  rw [settledOutcomes, List.filterMap_map, List.filterMap_filter]
  apply congrArg (List.filterMap · cycles)
  funext c
  rw [delivered_eq, inFlight]
  cases Cancellation.before cancel (p.settled c.1 c.2) <;> rfl

/-! ## Refusals -/

theorem countP_isUnauthorized (cycles : List (Nat × Reply)) :
    (p.settledOutcomes decode cancel cycles).countP Outcome.isUnauthorized =
      cycles.countP fun c => p.expires cancel c.1 c.2 := by
  have hcycle : ∀ c : Nat × Reply, p.expires cancel c.1 c.2 =
      ((p.outcome decode c.2).isUnauthorized && !p.inFlight cancel c) := by
    intro c
    rw [p.expires_eq decode, Bool.and_comm]
    rfl
  simp only [hcycle]
  rw [settledOutcomes, List.countP_map, List.countP_filter]
  rfl

theorem countP_expires_runFrom (past : List (Option α)) (t : Nat) (replies : List Reply) :
    ((p.runFrom decode busy cancel past t replies).cycles replies).countP
        (fun c => p.expires cancel c.1 c.2) =
      if (p.runFrom decode busy cancel past t replies).ending.isRefusal then 1 else 0 := by
  have hzero {cycles : List (Nat × Reply)} (h : ∀ c ∈ cycles, p.expires cancel c.1 c.2 = false) :
      cycles.countP (fun c => p.expires cancel c.1 c.2) = 0 := by
    rw [List.countP_eq_zero]
    intro c hc
    rw [h c hc]
    exact Bool.false_ne_true
  rcases hend : (p.runFrom decode busy cancel past t replies).ending with u | ⟨u, _ | _⟩
  · exact hzero (p.cycles_of_due decode busy cancel hend).2
  · exact hzero (p.cycles_of_cancelled decode busy cancel hend).2
  · obtain ⟨before, v, reply, hcycles, he, -, hall⟩ := p.cycles_of_refused decode busy cancel hend
    rw [hcycles, List.countP_append, hzero hall]
    simp [he, Ending.isRefusal]

end Poller

/-! ## What labels tell of outcomes -/

theorem Outcome.tally_labels (os : List (Outcome α)) :
    (os.map label).count "ok" + (os.map label).count "empty" = (os.filterMap payload?).length ∧
      (os.map label).count "empty" = (os.filterMap payload?).countP Option.isNone ∧
      (os.map label).count "unauthorized" = os.countP isUnauthorized ∧
      (os.map label).count "ok" + (os.map label).count "empty" + (os.map label).count "failed" +
        (os.map label).count "unauthorized" = os.length := by
  induction os with
  | nil => exact ⟨rfl, rfl, rfl, rfl⟩
  | cons o os ih =>
      obtain ⟨hhanded, hempty, hrefused, hall⟩ := ih
      cases o with
      | payload q =>
          cases q <;>
            simp [label, payload?, isUnauthorized] <;> omega
      | failed e =>
          simp [label, payload?, List.filterMap_cons, isUnauthorized]
          omega
      | unauthorized =>
          simp [label, payload?, List.filterMap_cons, List.countP_cons, isUnauthorized]
          omega

/-! ## What is recorded -/

section

open PeerWatch.Metric (Recording)

variable (endpoint : String)

/-- What is recorded of cycles that are counted under some words. -/
def recordsOf (labels : List String) : List Recording :=
  labels.flatMap fun label => [.pollCycle endpoint label, .pollDuration endpoint]

theorem flatMap_recordings (p : Poller) (acts : List (Act α)) :
    acts.flatMap p.recordings = recordsOf p.endpoint (acts.filterMap Act.countedLabel?) := by
  induction acts with
  | nil => rfl
  | cons a acts ih =>
      rw [List.flatMap_cons, ih]
      cases a <;> rfl

theorem countP_recordsOf (f : Recording → Bool) (labels : List String) :
    (recordsOf endpoint labels).countP f =
      labels.countP (fun label => f (.pollCycle endpoint label)) +
        labels.countP (fun _ => f (.pollDuration endpoint)) := by
  unfold recordsOf
  induction labels with
  | nil => rfl
  | cons label labels ih =>
      rw [List.flatMap_cons, List.countP_append, ih]
      simp only [List.countP_cons, List.countP_nil]
      omega

theorem count_pollCycle (labels : List String) (label : String) :
    Metric.count (recordsOf endpoint labels) (.pollCycle endpoint label) = labels.count label := by
  have hcycle : ∀ l, (Recording.pollCycle endpoint l == .pollCycle endpoint label) =
      (l == label) := by
    intro l
    rw [Bool.eq_iff_iff]
    simp [Recording.pollCycle]
  have hduration : (Recording.pollDuration endpoint == .pollCycle endpoint label) = false := by
    simp [Recording.pollCycle, Recording.pollDuration]
  unfold Metric.count
  rw [List.count_eq_countP, countP_recordsOf, List.count_eq_countP]
  simp only [hcycle, hduration, List.countP_false, Function.const_apply, Nat.add_zero]

theorem count_pollDuration (labels : List String) :
    Metric.count (recordsOf endpoint labels) (.pollDuration endpoint) = labels.length := by
  unfold Metric.count
  rw [List.count_eq_countP, countP_recordsOf]
  simp [Recording.pollCycle, Recording.pollDuration]

theorem countP_pollCycles (labels : List String) :
    (recordsOf endpoint labels).countP (fun r => r.metric = Metric.pollCycles) = labels.length := by
  have hkind : Metric.pollDuration ≠ Metric.pollCycles := by decide
  rw [countP_recordsOf]
  simp [Recording.pollCycle, Recording.pollDuration, hkind]

end

/-! ## The accounts -/

/-- What the metrics `records` of a run of `p` account for. -/
structure Metered (p : Poller) (cancel : Option Cancellation) (replies : List Reply) (r : Run α)
    (records : List Metric.Recording) : Prop where
  begins : r.Begins cancel replies
  /-- A cycle is counted as ok or empty exactly when its payload is handed over. -/
  handed : Metric.count records (.pollCycle p.endpoint "ok") +
    Metric.count records (.pollCycle p.endpoint "empty") = r.handed.length
  /-- The empty ones are those of which nothing was handed over but a null. -/
  empty : Metric.count records (.pollCycle p.endpoint "empty") = r.handed.countP Option.isNone
  /-- A run that the session's expiry ends navigates once, and no other run navigates. -/
  refused : Metric.count records (.pollCycle p.endpoint "unauthorized") = r.navigations ∧
    r.navigations = if r.ending.isRefusal then 1 else 0
  /-- There is no outcome but these four, and every one is timed. -/
  outcomes : Metric.count records (.pollCycle p.endpoint "ok") +
      Metric.count records (.pollCycle p.endpoint "empty") +
      Metric.count records (.pollCycle p.endpoint "failed") +
      Metric.count records (.pollCycle p.endpoint "unauthorized") =
        records.countP (fun record => record.metric = Metric.pollCycles) ∧
    records.countP (fun record => record.metric = Metric.pollCycles) =
      Metric.count records (.pollDuration p.endpoint)
  /-- Every request is timed, except for one that is in flight at the cancellation. -/
  requests : r.requests.length = Metric.count records (.pollDuration p.endpoint) +
    if (r.cycles replies).any (p.inFlight cancel) then 1 else 0
  /-- A run with a request in flight at the cancellation drops it and is over as cancelled. -/
  cutOff : (r.cycles replies).any (p.inFlight cancel) = true →
    ∃ earlier start t, r.ending = .over t false ∧
      r.acts = earlier ++ (start, .request) :: (t, .dropped) :: (p.stop t : Run α).acts

namespace Poller

variable (p : Poller) (decode : String → Option (Option α)) (busy : List (Option α) → Nat)
  (cancel : Option Cancellation)

theorem cutOff_turn (past : List (Option α)) {t : Nat} {reply : Reply}
    (ht : Cancellation.before cancel t = false) (h : p.inFlight cancel (t, reply) = true) :
    ∃ cut, p.turn decode busy cancel past t reply =
      (p.stop cut).follow [(t, .request), (cut, .dropped)] := by
  rcases p.turn_cases decode busy cancel past t reply with
    ⟨hb, -⟩ | ⟨-, cut, -, hr⟩ | ⟨-, hn, -⟩
  · rw [ht] at hb
    exact absurd hb Bool.false_ne_true
  · exact ⟨cut, hr⟩
  · rw [inFlight, hn] at h
    exact absurd h Bool.false_ne_true

theorem cutOff_runFrom {past : List (Option α)} {t : Nat} {replies : List Reply}
    (h : ((p.runFrom decode busy cancel past t replies).cycles replies).any
      (p.inFlight cancel) = true) :
    ∃ earlier start u, (p.runFrom decode busy cancel past t replies).ending = .over u false ∧
      (p.runFrom decode busy cancel past t replies).acts =
        earlier ++ (start, .request) :: (u, .dropped) :: (p.stop u : Run α).acts := by
  induction replies generalizing past t with
  | nil => simp [Run.cycles] at h
  | cons reply replies ih =>
      have hreq := p.requests_turn decode busy cancel past t reply
      rcases hend : (p.turn decode busy cancel past t reply).ending with u | ⟨u, unauthorized⟩
      · have ht := p.before_of_due decode busy cancel hend
        have hsettled := p.inFlight_of_due decode busy cancel hend
        rw [p.cycles_runFrom_of_due decode busy cancel ht hend, List.any_cons, hsettled,
          Bool.false_or] at h
        obtain ⟨earlier, start, v, hover, hacts⟩ := ih h
        rw [p.runFrom_cons_of_due decode busy cancel hend]
        refine ⟨(p.turn decode busy cancel past t reply).acts ++ earlier, start, v, hover, ?_⟩
        rw [Run.acts_follow, hacts, List.append_assoc]
      · rw [p.runFrom_cons_of_over decode busy cancel hend, Run.cycles, hreq] at h
        rw [p.runFrom_cons_of_over decode busy cancel hend]
        cases ht : Cancellation.before cancel t with
        | true => simp [ht] at h
        | false =>
            have hflight : p.inFlight cancel (t, reply) = true := by simpa [ht] using h
            obtain ⟨cut, hturn⟩ := p.cutOff_turn decode busy cancel past ht hflight
            exact ⟨[], t, cut, by rw [hturn]; rfl, by rw [hturn]; rfl⟩

theorem metered_runFrom (replies : List Reply) :
    Metered p cancel replies (p.runFrom decode busy cancel [] 0 replies)
      ((p.runFrom decode busy cancel [] 0 replies).acts.events.flatMap p.recordings) := by
  have hlabels := p.labels_runFrom decode busy cancel [] 0 replies
  have hhanded := p.handed_runFrom decode busy cancel [] 0 replies
  have hcycles := p.requests_runFrom decode busy cancel [] 0 replies
  have hflight := p.countP_inFlight_runFrom decode busy cancel [] 0 replies
  have hexpires := p.countP_expires_runFrom decode busy cancel [] 0 replies
  have hleaves := p.leavesLast_runFrom decode busy cancel [] 0 replies
  rw [p.filterMap_delivered decode] at hhanded
  rw [← p.countP_isUnauthorized decode] at hexpires
  obtain ⟨htallyHanded, htallyEmpty, htallyRefused, htallyAll⟩ := Outcome.tally_labels
    (p.settledOutcomes decode cancel
      ((p.runFrom decode busy cancel [] 0 replies).cycles replies))
  have hlength := p.length_settledOutcomes decode cancel
    ((p.runFrom decode busy cancel [] 0 replies).cycles replies)
  rw [flatMap_recordings, ← Run.labels]
  constructor
  case begins => exact p.begins_runFrom decode busy cancel replies
  case handed =>
    rw [count_pollCycle, count_pollCycle, hlabels, hhanded, htallyHanded]
  case empty =>
    rw [count_pollCycle, hlabels, hhanded, htallyEmpty]
  case refused =>
    rw [count_pollCycle, Run.navigations_of_leavesLast hleaves, hlabels, htallyRefused, hexpires]
    exact ⟨rfl, rfl⟩
  case outcomes =>
    rw [count_pollCycle, count_pollCycle, count_pollCycle, count_pollCycle, countP_pollCycles,
      count_pollDuration, hlabels, htallyAll, List.length_map]
    exact ⟨rfl, rfl⟩
  case requests =>
    rw [count_pollDuration, hlabels, List.length_map, hcycles, List.length_map, ← hflight]
    exact hlength.symm
  case cutOff => exact p.cutOff_runFrom decode busy cancel

theorem metered_follow_log {replies : List Reply} {r : Run α}
    (h : Metered p cancel replies r (r.acts.events.flatMap p.recordings)) (t : Nat)
    (e : Log.Event) :
    Metered p cancel replies (r.follow [(t, .log e)])
      ((r.follow [(t, .log e)]).acts.events.flatMap p.recordings) := by
  constructor
  case begins => exact h.begins
  case handed => exact h.handed
  case empty => exact h.empty
  case refused => exact h.refused
  case outcomes => exact h.outcomes
  case requests => exact h.requests
  case cutOff =>
    intro hflight
    obtain ⟨earlier, start, u, hend, hacts⟩ := h.cutOff hflight
    exact ⟨(t, .log e) :: earlier, start, u, hend, by rw [Run.acts_follow, hacts]; rfl⟩

/-- The metrics of a run account for all of its cycles: for all replies, whatever is polled under
whatever name, however long the handler takes, and whenever the run is cancelled. -/
theorem run_metrics_account_for_cycles (replies : List Reply) :
    Metered p cancel replies (p.run decode busy cancel replies)
      ((p.run decode busy cancel replies).acts.events.flatMap p.recordings) :=
  p.metered_follow_log cancel (p.metered_runFrom decode busy cancel replies) 0 (startedEvent p)

/- A null, a failure and a payload, and the cancellation while the fourth request is in flight. -/
example :
    let p := Poller.make "/x" 100 anyEndpoint
    let decode := fun s => if s = "3" then some (some 3) else if s = "null" then some none else none
    let r := p.run decode (fun _ => 7) (some ⟨400, false⟩)
      [.after 10 (.ok "null"), .after 20 (.ok "x"), .after 30 (.ok "3"), .never]
    let records := r.acts.events.flatMap p.recordings
    r.requests.length = 4 ∧ Metric.count records (.pollDuration anyEndpoint) = 3 ∧
      ["ok", "empty", "failed", "unauthorized"].map (fun label =>
        Metric.count records (.pollCycle anyEndpoint label)) = [1, 1, 1, 0] := by
  decide +kernel

end Poller
end PeerWatch.Poll
