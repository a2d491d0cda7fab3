import PeerWatch.Proofs.Poll.Clock

/-!
# Cancelled runs

What a cancellation does to a run is told by comparison with the run that has the same replies and
is never cancelled. Up to the cancellation the two are the same. What the cancelled one still does
depends only on where it stands then (`Closing`): a request in flight is dropped, a handler at work
finishes, and nothing new is begun. `Cuts` is shown for one turn and lifted to runs.
-/

namespace PeerWatch.Poll

open PeerWatch.Time (Timeline)

variable {α : Type}

open Cancellation (before)

/-! ## Where a run stands -/

/-- After some acts no request is in flight and no handler is at work. -/
def AtRest (acts : Timeline (Act α)) : Prop :=
  ∀ a, acts.events.getLast? = some a → a.isRequest = false ∧ a.handedOver? = none

theorem atRest_nil : AtRest ([] : Timeline (Act α)) := by
  intro a hlast
  simp [Timeline.events] at hlast

theorem AtRest.append {first second : Timeline (Act α)} (hf : AtRest first)
    (hs : AtRest second) : AtRest (first ++ second) := by
  intro a hlast
  rw [Timeline.events, List.map_append, List.getLast?_append, Option.or_eq_some_iff] at hlast
  rcases hlast with hlast | ⟨-, hlast⟩
  · exact hs a hlast
  · exact hf a hlast

/-- How a run goes on after a cancellation, given what it did before and what it would do if it were
not cancelled. -/
inductive Closing (p : Poller) (c : Cancellation) (earlier later : Timeline (Act α)) :
    Run α → Prop
  /-- The request in flight is dropped. -/
  | inFlight (h : earlier.events.getLast? = some .request) :
    Closing p c earlier later ((p.stop c.time).follow [(c.time, .dropped)])
  /-- The handler at work finishes, at the moment at which it would do so anyway. -/
  | handling (q : Option α) (idle : Nat) (rest : Timeline (Act α))
    (h : earlier.events.getLast? = some (.handler q)) (hl : later = (idle, .handled) :: rest) :
    Closing p c earlier later ((p.stop idle).follow [(idle, .handled)])
  /-- There is nothing to be finished. -/
  | resting (h : AtRest earlier) : Closing p c earlier later (p.stop c.time)

namespace Closing

variable {p : Poller} {c : Cancellation} {acts earlier later : Timeline (Act α)} {r : Run α}

theorem append_earlier (ha : AtRest acts) (h : Closing p c earlier later r) :
    Closing p c (acts ++ earlier) later r := by
  have hlast (a : Act α) (ha : earlier.events.getLast? = some a) :
      (Timeline.events (acts ++ earlier)).getLast? = some a := by
    rw [Timeline.events, List.map_append, List.getLast?_append, ← Timeline.events, ha,
      Option.some_or]
  cases h with
  | inFlight h => exact .inFlight (hlast _ h)
  | handling q idle rest h hl => exact .handling q idle rest (hlast _ h) hl
  | resting h => exact .resting (ha.append h)

theorem append_later (h : Closing p c earlier later r) (more : Timeline (Act α)) :
    Closing p c earlier (later ++ more) r := by
  cases h with
  | inFlight h => exact .inFlight h
  | handling q idle rest h hl => exact .handling q idle (rest ++ more) h (by simp [hl])
  | resting h => exact .resting h

end Closing

/-- A run that is cancelled before its end, given what it is without the cancellation: what it did
before, brought to a close. -/
structure CutShort (p : Poller) (c : Cancellation) (full r : Run α) : Prop where
  before_ending : before (some c) full.ending.time = true
  parts : ∃ earlier later closing, full.acts = earlier ++ later ∧ r = closing.follow earlier ∧
    (∀ a ∈ earlier, before (some c) a.1 = false) ∧ (∀ a ∈ later, before (some c) a.1 = true) ∧
    Closing p c earlier later closing

namespace CutShort

variable {p : Poller} {c : Cancellation} {full r : Run α}

/-- A cancellation that comes before a run leaves nothing of it. -/
theorem of_start {start : Nat} (hf : Forward start full.acts full.ending.time)
    (hb : before (some c) start = true) : CutShort p c full (p.stop c.time) := by
  refine ⟨Cancellation.before_mono hb hf.start_le_stop, [], full.acts, p.stop c.time, rfl, rfl,
    by simp, fun a ha => ?_, .resting atRest_nil⟩
  exact Cancellation.before_mono hb (hf.start_le ha)

theorem follow (h : CutShort p c full r) {acts : Timeline (Act α)}
    (hb : ∀ a ∈ acts, before (some c) a.1 = false) (ha : AtRest acts) :
    CutShort p c (full.follow acts) (r.follow acts) := by
  obtain ⟨earlier, later, closing, hfull, rfl, hearlier, hlater, hclosing⟩ := h.parts
  refine ⟨h.before_ending, acts ++ earlier, later, closing, ?_, ?_, ?_, hlater,
    hclosing.append_earlier ha⟩
  · rw [Run.acts_follow, hfull, List.append_assoc]
  · simp [Run.follow]
  · intro a hmem
    exact (List.mem_append.1 hmem).elim (hb a) (hearlier a)

/-- What would follow a run that is cut short is lost. -/
theorem lose (h : CutShort p c full r) {rest : Run α}
    (hrest : Forward full.ending.time rest.acts rest.ending.time) :
    CutShort p c (rest.follow full.acts) r := by
  obtain ⟨earlier, later, closing, hfull, hr, hearlier, hlater, hclosing⟩ := h.parts
  refine ⟨Cancellation.before_mono h.before_ending hrest.start_le_stop, earlier,
    later ++ rest.acts, closing, ?_, hr, hearlier, ?_, hclosing.append_later _⟩
  · rw [Run.acts_follow, hfull, List.append_assoc]
  · intro a hmem
    rcases List.mem_append.1 hmem with hmem | hmem
    · exact hlater a hmem
    · exact Cancellation.before_mono h.before_ending (hrest.start_le hmem)

theorem ending_eq (h : CutShort p c full r) : ∃ t, c.time ≤ t ∧ r.ending = .over t false := by
  obtain ⟨earlier, later, closing, -, rfl, -, hlater, hclosing⟩ := h.parts
  cases hclosing with
  | inFlight _ => exact ⟨c.time, le_rfl, rfl⟩
  | handling q idle rest _ hl =>
      have hidle := hlater (idle, .handled) (by simp [hl])
      exact ⟨idle, Cancellation.time_le hidle, rfl⟩
  | resting _ => exact ⟨c.time, le_rfl, rfl⟩

end CutShort

/-- What becomes of the run `full` under a cancellation: nothing changes if the cancellation comes
after its end, and otherwise it is cut short. -/
def Cuts (p : Poller) (c : Cancellation) (full r : Run α) : Prop :=
  (before (some c) full.ending.time = false ∧ r = full) ∨ CutShort p c full r

theorem Cuts.follow {p : Poller} {c : Cancellation} {full r : Run α} (h : Cuts p c full r)
    {acts : Timeline (Act α)} (hb : ∀ a ∈ acts, before (some c) a.1 = false)
    (ha : AtRest acts) : Cuts p c (full.follow acts) (r.follow acts) := by
  rcases h with ⟨hend, rfl⟩ | hcut
  · exact .inl ⟨hend, rfl⟩
  · exact .inr (hcut.follow hb ha)

namespace Poller

variable (p : Poller) (decode : String → Option (Option α)) (busy : List (Option α) → Nat)
  (c : Cancellation)

/-! ## A turn -/

theorem atRest_opened (t : Nat) (reply : Reply) : AtRest (p.opened decode t reply) := by
  intro a hlast
  have ha : Act.log (outcomeEvent p (p.outcome decode reply)) = a := by
    simpa [opened_eq, Timeline.events] using hlast
  subst ha
  exact ⟨rfl, rfl⟩

theorem atRest_handled (now idle : Nat) (q : Option α) :
    AtRest [(now, Act.handler q), (idle, .handled)] := by
  intro a hlast
  obtain rfl : Act.handled = a := by simpa [Timeline.events] using hlast
  exact ⟨rfl, rfl⟩

theorem atRest_dealing (past : List (Option α)) (now : Nat) (o : Outcome α) :
    AtRest (dealing busy past now o) := by
  unfold dealing
  split
  · exact atRest_handled _ _ _
  · exact atRest_nil

theorem rest_never (idle : Nat) : (p.rest none idle : Run α) = ⟨[], .due (idle + p.period)⟩ := rfl

theorem rest_of_before {idle : Nat} (h : before (some c) idle = true) :
    (p.rest (some c) idle : Run α) = p.stop idle := by
  rcases p.rest_cases (α := α) (some c) idle with ⟨hn, -⟩ | ⟨c', hc', -, hr⟩
  · have hb := Cancellation.before_mono h (Nat.le_add_right idle p.period)
    simp [hb] at hn
  · obtain rfl : c = c' := Option.some.inj hc'
    rw [hr, Nat.max_eq_left (Cancellation.time_le h)]

theorem cuts_rest {idle : Nat} (h : before (some c) idle = false) :
    Cuts p c (p.rest none idle : Run α) (p.rest (some c) idle) := by
  rw [rest_never]
  rcases p.rest_cases (α := α) (some c) idle with ⟨hn, hr⟩ | ⟨c', hc', hb, hr⟩
  · rw [hr]
    exact .inl ⟨hn, rfl⟩
  · obtain rfl : c = c' := Option.some.inj hc'
    rw [hr, Nat.max_eq_right (Cancellation.le_time_of_not_before h)]
    exact .inr (.of_start (.nil le_rfl) hb)

/-- A handler that was called before the cancellation is never cut short itself. -/
theorem cuts_handling {now idle : Nat} (h : before (some c) now = false) (q : Option α) :
    Cuts p c ((p.rest none idle).follow [(now, .handler q), (idle, .handled)])
      ((p.rest (some c) idle).follow [(now, .handler q), (idle, .handled)]) := by
  cases hidle : before (some c) idle with
  | true =>
      -- the handler is at work then, and what is lost is the wait after it
      rw [p.rest_of_before c hidle, rest_never]
      exact .inr ⟨Cancellation.before_mono hidle (Nat.le_add_right idle p.period),
        [(now, .handler q)], [(idle, .handled)], _, rfl, rfl, by simpa using h,
        by simpa using hidle, .handling q idle [] rfl rfl⟩
  | false =>
      refine (p.cuts_rest c hidle).follow ?_ (atRest_handled now idle q)
      intro a ha
      rcases List.mem_pair.1 ha with rfl | rfl
      · exact h
      · exact hidle

theorem cuts_conclude {now : Nat} (h : before (some c) now = false) (past : List (Option α))
    (o : Outcome α) :
    Cuts p c (p.conclude busy none past now o) (p.conclude busy (some c) past now o) := by
  cases o with
  | payload q => exact p.cuts_handling c h q
  | failed e => exact p.cuts_rest c h
  | unauthorized => exact .inl ⟨h, rfl⟩

theorem cuts_turn {t : Nat} (ht : t ≤ c.time) (past : List (Option α)) (reply : Reply) :
    Cuts p c (p.turn decode busy none past t reply)
      (p.turn decode busy (some c) past t reply) := by
  have hfull : p.turn decode busy none past t reply =
      (p.conclude busy none past (p.settled t reply) (p.outcome decode reply)).follow
        (p.opened decode t reply) := by
    rcases p.turn_cases decode busy none past t reply with ⟨h, -⟩ | ⟨-, cut, h, -⟩ | ⟨-, -, h⟩
    · simp [before] at h
    · simp [Cancellation.cut, before] at h
    · exact h
  have hforward := p.forward_turn decode busy none past t reply
  rcases p.turn_cases decode busy (some c) past t reply with
    ⟨hb, h⟩ | ⟨hb, cut, hcut, h⟩ | ⟨hb, hn, h⟩
  · -- cancelled right before the request
    obtain rfl : t = c.time := Nat.le_antisymm ht (Cancellation.time_le hb)
    rw [h]
    exact .inr (.of_start hforward hb)
  · -- cancelled while the request is in flight: of the turn only the request is left
    obtain ⟨hn, c', hc', rfl⟩ := Cancellation.eq_of_cut hcut
    obtain rfl : c = c' := Option.some.inj hc'
    rw [h, hfull, Nat.max_eq_right ht]
    have hsettled : Forward (p.settled t reply) (p.opened decode t reply).tail
        (p.settled t reply) := by
      simp [opened_eq, Forward]
    have hlater := hsettled.append
      (p.forward_conclude busy none past (p.settled t reply) (p.outcome decode reply))
    refine .inr ⟨Cancellation.before_mono hn hlater.start_le_stop, [(t, .request)], _,
      (p.stop c.time).follow [(c.time, .dropped)], rfl, rfl, by simpa using hb, ?_, .inFlight rfl⟩
    exact fun a ha => Cancellation.before_mono hn (hlater.start_le ha)
  · rw [h, hfull]
    refine (p.cuts_conclude busy c hn past _).follow (fun a ha => ?_) (p.atRest_opened decode t reply)
    exact Cancellation.not_before_of_le hn ((p.forward_opened decode t reply).le_stop ha)

/-! ## A run -/

theorem cuts_runFrom {t : Nat} (ht : t ≤ c.time) (past : List (Option α))
    (replies : List Reply) :
    Cuts p c (p.runFrom decode busy none past t replies)
      (p.runFrom decode busy (some c) past t replies) := by
  induction replies generalizing past t with
  | nil =>
      have hfull : p.runFrom decode busy none past t [] = ⟨[], .due t⟩ := by
        simp [runFrom, before]
      rw [hfull]
      cases hb : before (some c) t with
      | false => exact .inl ⟨hb, by simp [runFrom, hb]⟩
      | true =>
          obtain rfl : t = c.time := Nat.le_antisymm ht (Cancellation.time_le hb)
          have hstop : p.runFrom decode busy (some c) past c.time [] = p.stop c.time := by
            simp [runFrom, hb]
          rw [hstop]
          exact .inr (.of_start (.nil le_rfl) hb)
  | cons reply replies ih =>
      have hforward := p.forward_turn decode busy none past t reply
      rcases p.cuts_turn decode busy c ht past reply with ⟨hn, hsame⟩ | hcut
      · rcases hend : (p.turn decode busy none past t reply).ending with u | ⟨u, unauthorized⟩
        · obtain ⟨-, -, hacts⟩ := p.turn_of_due decode busy none hend
          have hrest : AtRest (p.turn decode busy none past t reply).acts := by
            rw [hacts]
            exact (p.atRest_opened decode t reply).append (atRest_dealing busy past _ _)
          rw [hend] at hn hforward
          rw [p.runFrom_cons_of_due decode busy none hend,
            p.runFrom_cons_of_due decode busy (some c) (hsame ▸ hend), hsame]
          refine (ih (Cancellation.le_time_of_not_before hn) _).follow (fun a ha => ?_) hrest
          exact Cancellation.not_before_of_le hn (hforward.le_stop ha)
        · rw [p.runFrom_cons_of_over decode busy none hend,
            p.runFrom_cons_of_over decode busy (some c) (hsame ▸ hend)]
          exact .inl ⟨hn, hsame⟩
      · -- the run is over with this turn, and the turns that would follow are lost
        obtain ⟨v, -, hover⟩ := hcut.ending_eq
        rw [p.runFrom_cons_of_over decode busy (some c) hover]
        rcases hend : (p.turn decode busy none past t reply).ending with u | ⟨u, unauthorized⟩
        · rw [p.runFrom_cons_of_due decode busy none hend]
          refine .inr (hcut.lose ?_)
          rw [hend]
          exact p.forward_runFrom decode busy none _ u replies
        · rw [p.runFrom_cons_of_over decode busy none hend]
          exact .inr hcut

end Poller

/-! ## What is promised of a cancellation -/

/-- What a run `r` of a poller keeps to that is cancelled before its end, given what it would do
without the cancellation, which is `full`. -/
structure Heeds (p : Poller) (c : Cancellation) (full r : Run α)
    (earlier later closing : Timeline (Act α)) : Prop where
  /-- Before the cancellation come the acts that would come then anyway. -/
  same : full.acts = (0, .log (startedEvent p)) :: (earlier ++ later) ∧
    r.acts = (0, .log (startedEvent p)) :: (earlier ++ closing)
  kept : ∀ a ∈ earlier, before (some c) a.1 = false
  lost : ∀ a ∈ later, before (some c) a.1 = true
  /-- After the cancellation no request is issued, no payload is handed over and nothing is
  navigated to. -/
  quiet : ∀ a ∈ closing, a.2.isRequest = false ∧ a.2.handedOver? = none ∧
    ∀ location, a.2 ≠ .navigate location
  /-- A request in flight is dropped at the moment of the cancellation, and nothing but the exit
  follows. -/
  inFlight : earlier.events.getLast? = some .request →
    closing = (c.time, .dropped) :: (p.stop c.time : Run α).acts
  /-- A handler at work finishes when it would finish anyway, and nothing but the exit follows. -/
  handling : ∀ q, earlier.events.getLast? = some (.handler q) →
    ∃ idle rest, later = (idle, .handled) :: rest ∧
      closing = (idle, .handled) :: (p.stop idle : Run α).acts
  /-- With neither of them, the poller exits at the moment of the cancellation. -/
  resting : AtRest earlier → closing = (p.stop c.time : Run α).acts
  exit : ∃ t, c.time ≤ t ∧ r.ending = .over t false ∧ closing.getLast? = some (t, .exit false)

theorem Closing.acts_quiet {p : Poller} {c : Cancellation} {earlier later : Timeline (Act α)}
    {closing : Run α} (h : Closing p c earlier later closing) :
    ∀ a ∈ closing.acts, a.2.isRequest = false ∧ a.2.handedOver? = none ∧
      ∀ location, a.2 ≠ .navigate location := by
  cases h <;>
    simp [Run.follow, Poller.stop, Timeline.allAt, Act.isRequest, Act.handedOver?]

theorem Closing.getLast?_acts {p : Poller} {c : Cancellation} {earlier later : Timeline (Act α)}
    {closing : Run α} (h : Closing p c earlier later closing) {t : Nat}
    (ht : closing.ending = .over t false) : closing.acts.getLast? = some (t, .exit false) := by
  cases h <;>
    simp only [Run.follow, Poller.stop, Ending.over.injEq, and_true] at ht <;>
    simp [Run.follow, Poller.stop, Timeline.allAt, ht]

theorem AtRest.getLast?_ne {acts : Timeline (Act α)} (h : AtRest acts) {a : Act α}
    (ha : a.isRequest = true ∨ a.handedOver? ≠ none) : acts.events.getLast? ≠ some a := by
  intro hlast
  obtain ⟨hrequest, hhanded⟩ := h a hlast
  simp [hrequest, hhanded] at ha

theorem CutShort.heeds {p : Poller} {c : Cancellation} {full r : Run α}
    (hcut : CutShort p c full r) :
    ∃ earlier later closing, Heeds p c (full.follow [(0, .log (startedEvent p))])
      (r.follow [(0, .log (startedEvent p))]) earlier later closing := by
  obtain ⟨t, hle, hend⟩ := hcut.ending_eq
  obtain ⟨earlier, later, closing, hfull, rfl, hkept, hlost, hclosing⟩ := hcut.parts
  refine ⟨earlier, later, closing.acts, ?_⟩
  have hrequest (h : AtRest earlier) : earlier.events.getLast? ≠ some .request :=
    h.getLast?_ne (.inl rfl)
  have hhandler (h : AtRest earlier) (q : Option α) :
      earlier.events.getLast? ≠ some (.handler q) :=
    h.getLast?_ne (.inr (Option.some_ne_none q))
  constructor
  case same => exact ⟨by simp [hfull], by simp⟩
  case kept => exact hkept
  case lost => exact hlost
  case quiet => exact hclosing.acts_quiet
  case exit => exact ⟨t, hle, hend, hclosing.getLast?_acts hend⟩
  case inFlight =>
    intro hlast
    cases hclosing with
    | inFlight _ => rfl
    | handling q idle rest h => simp [hlast] at h
    | resting h => exact absurd hlast (hrequest h)
  case handling =>
    intro q hlast
    cases hclosing with
    | inFlight h => simp [hlast] at h
    | handling q' idle rest _ hl => exact ⟨idle, rest, hl, rfl⟩
    | resting h => exact absurd hlast (hhandler h q)
  case resting =>
    intro hrest
    cases hclosing with
    | inFlight h => exact absurd h (hrequest hrest)
    | handling q idle rest h => exact absurd h (hhandler hrest q)
    | resting _ => rfl

namespace Poller

variable (decode : String → Option (Option α)) (busy : List (Option α) → Nat)

/-- A poller that is cancelled before its first request issues none. -/
theorem run_of_cancelled_first (p : Poller) (c : Cancellation) (h : before (some c) 0 = true)
    (replies : List Reply) :
    p.run decode busy (some c) replies =
      (p.stop 0).follow [(0, .log (startedEvent p))] := by
  have hstop : p.runFrom decode busy (some c) [] 0 replies = p.stop 0 := by
    cases replies with
    | nil => simp [runFrom, h]
    | cons reply replies =>
        have hturn : p.turn decode busy (some c) [] 0 reply = p.stop 0 := by simp [turn, h]
        rw [runFrom, hturn]
        rfl
  rw [run, hstop]

/-- A run is cancelled at any moment, before or after whatever else is due then. If it had come to
its end by then, nothing changes: it had left the session, or all replies at hand were used up, of
which there can be one per period. Otherwise it heeds the cancellation and exits as cancelled.
Cancelled before it starts, it issues no request at all, while a run that is never cancelled issues
its first one at once. -/
theorem run_heeds_cancellation (url endpoint : String) (period : Nat) (c : Cancellation)
    (replies : List Reply) :
    let p := Poller.make url period endpoint
    let full := p.run decode busy none replies
    let r := p.run decode busy (some c) replies
    ((before (some c) full.ending.time = false ∧ r = full ∧
        ((∃ t, full.ending = .over t true) ∨
          (∃ t, full.ending = .due t) ∧ replies.length * max period 10 ≤ c.time)) ∨
      (before (some c) full.ending.time = true ∧
        ∃ earlier later closing, Heeds p c full r earlier later closing)) ∧
    (c = ⟨0, false⟩ → r.acts = [(0, .log (startedEvent p)), (0, .log (cancelledEvent p)),
      (0, .exit false)] ∧ r.ending = .over 0 false) ∧
    full.Begins none replies := by
  intro p full r
  refine ⟨?_, ?_, p.begins_run decode busy none replies⟩
  · rcases p.cuts_runFrom decode busy c (Nat.zero_le _) [] replies with ⟨hn, hsame⟩ | hcut
    · refine .inl ⟨hn, congrArg (Run.follow _) hsame, ?_⟩
      rcases hend : (p.runFrom decode busy none [] 0 replies).ending with t | ⟨t, _ | _⟩
      · have hlength := p.length_le_due decode busy none hend
        rw [Nat.zero_add] at hlength
        rw [hend] at hn
        exact .inr ⟨⟨t, hend⟩, hlength.trans (Cancellation.le_time_of_not_before hn)⟩
      · obtain ⟨⟨c', hnone, -⟩, -⟩ := p.cycles_of_cancelled decode busy none hend
        simp at hnone
      · exact .inl ⟨t, hend⟩
    · exact .inr ⟨hcut.before_ending, hcut.heeds⟩
  · rintro rfl
    have hr : r = (p.stop 0).follow [(0, .log (startedEvent p))] :=
      p.run_of_cancelled_first decode busy ⟨0, false⟩ rfl replies
    rw [hr]
    exact ⟨rfl, rfl⟩

/- A response and the cancellation at the same moment, in either order. -/
example :
    let decode := fun s => if s = "3" then some (some 3) else none
    let r := fun late => (Poller.make "/x" 100 anyEndpoint).run decode (fun _ => 7)
      (some ⟨50, late⟩) [.after 50 (.ok "3"), .never]
    (r false).handed = [] ∧ (r false).ending = .over 50 false ∧
      (r true).handed = [some 3] ∧ (r true).ending = .over 57 false := by
  decide +kernel

end Poller
end PeerWatch.Poll
