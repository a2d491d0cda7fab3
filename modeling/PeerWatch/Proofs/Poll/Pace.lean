import PeerWatch.Proofs.Poll.Clock

/-!
# The pace of a poller

The first request is issued at once. Requests never overlap: each is answered or given up, within one period, before the next one is
issued. That happens exactly one period after its cycle was dealt with, however long the response
and the handler took.
-/

namespace PeerWatch.Poll

open PeerWatch.Time (Timeline)
open Cancellation (before)

variable {α : Type}

/-! ## Requests in flight -/

/-- Whether an act puts an end to a request. -/
def Act.settles : Act α → Bool
  | .resolved => true
  | .dropped => true
  | _ => false

/-- In the course of some acts at most one request is in flight at a time, and in the end none. -/
structure Serial (acts : List (Act α)) : Prop where
  single : ∀ done, done <+: acts → done.countP Act.settles ≤ done.countP Act.isRequest ∧
    done.countP Act.isRequest ≤ done.countP Act.settles + 1
  settled : acts.countP Act.isRequest = acts.countP Act.settles

namespace Serial

variable {acts first second : List (Act α)}

theorem of_countP_eq_zero (hr : acts.countP Act.isRequest = 0)
    (hs : acts.countP Act.settles = 0) : Serial acts := by
  constructor
  case single =>
    intro done hdone
    have hrequests := hdone.sublist.countP_le (p := Act.isRequest)
    have hsettled := hdone.sublist.countP_le (p := Act.settles)
    omega
  case settled => omega

theorem append (hf : Serial first) (hs : Serial second) : Serial (first ++ second) := by
  constructor
  case single =>
    rintro done ⟨rest, hdone⟩
    rcases List.append_eq_append_iff.1 hdone with ⟨more, hfirst, -⟩ | ⟨more, hdone', hsecond⟩
    · exact hf.single done ⟨more, hfirst.symm⟩
    · have hmore := hs.single more ⟨rest, hsecond.symm⟩
      have hall := hf.settled
      rw [hdone', List.countP_append, List.countP_append]
      omega
  case settled =>
    rw [List.countP_append, List.countP_append, hf.settled, hs.settled]

/-- A request that is settled by the next act. -/
theorem request {a : Act α} (ha : a.settles = true) : Serial [.request, a] := by
  have hsettled : Act.isRequest a = false := by
    cases a <;> simp [Act.settles] at ha <;> rfl
  have hrequest : Act.isRequest (.request : Act α) = true := rfl
  have hpending : Act.settles (.request : Act α) = false := rfl
  constructor
  case single =>
    intro done hdone
    simp only [List.prefix_cons_iff, List.prefix_nil] at hdone
    rcases hdone with rfl | ⟨_, rfl, rfl | ⟨_, rfl, rfl⟩⟩ <;>
      simp [ha, hsettled, hrequest, hpending]
  case settled => simp [ha, hsettled, hrequest, hpending]

end Serial

namespace Poller

variable (p : Poller) (decode : String → Option (Option α)) (busy : List (Option α) → Nat)
  (cancel : Option Cancellation)

theorem serial_stop (t : Nat) : Serial (p.stop t : Run α).acts.events :=
  .of_countP_eq_zero rfl rfl

theorem serial_conclude (past : List (Option α)) (now : Nat) (o : Outcome α) :
    Serial (p.conclude busy cancel past now o).acts.events := by
  have hrest (idle : Nat) : Serial (p.rest cancel idle : Run α).acts.events := by
    rcases p.rest_cases (α := α) cancel idle with ⟨-, h⟩ | ⟨c, -, -, h⟩ <;> rw [h]
    · exact .of_countP_eq_zero rfl rfl
    · exact p.serial_stop _
  cases o with
  | payload q =>
      rw [conclude, Run.acts_follow, Timeline.events, List.map_append]
      exact Serial.append (.of_countP_eq_zero rfl rfl) (hrest _)
  | failed e => exact hrest now
  | unauthorized => exact .of_countP_eq_zero rfl rfl

theorem serial_opened (t : Nat) (reply : Reply) : Serial (p.opened decode t reply).events := by
  have hrequest : Serial [.request,
      if (reply.within p.period).arrived then .resolved else (.dropped : Act α)] := by
    refine .request ?_
    cases (reply.within p.period).arrived <;> rfl
  have htold : Serial [(.counted (p.outcome decode reply).label : Act α),
      .log (outcomeEvent p (p.outcome decode reply))] := .of_countP_eq_zero rfl rfl
  exact hrequest.append htold

/-- A turn issues its request, if at all, when none is in flight, and does not leave it in
flight. -/
theorem serial_turn (past : List (Option α)) (t : Nat) (reply : Reply) :
    Serial (p.turn decode busy cancel past t reply).acts.events := by
  rcases p.turn_cases decode busy cancel past t reply with
    ⟨-, h⟩ | ⟨-, cut, -, h⟩ | ⟨-, -, h⟩
  · rw [h]
    exact p.serial_stop t
  · rw [h]
    exact (Serial.request rfl).append (p.serial_stop cut)
  · rw [h, Run.acts_follow, Timeline.events, List.map_append]
    exact (p.serial_opened decode t reply).append (p.serial_conclude busy cancel past _ _)

theorem serial_runFrom (past : List (Option α)) (t : Nat) (replies : List Reply) :
    Serial (p.runFrom decode busy cancel past t replies).acts.events := by
  refine p.runFrom_of_turn decode busy cancel (P := fun r => Serial r.acts.events) p.serial_stop ?_
    (p.serial_turn decode busy cancel) ?_ past t replies
  · exact fun t => .of_countP_eq_zero rfl rfl
  · -- a turn leaves no request in flight, so the next may begin with one
    intro first r t _ hfirst hr
    rw [Run.acts_follow, Timeline.events, List.map_append]
    exact hfirst.append hr

/-! ## From request to request -/

theorem le_of_mem_requests {past : List (Option α)} {t u : Nat} {replies : List Reply}
    (h : u ∈ (p.runFrom decode busy cancel past t replies).requests) : t ≤ u := by
  obtain ⟨a, ha, rfl⟩ := List.mem_map.1 h
  exact (p.forward_runFrom decode busy cancel past t replies).start_le (List.mem_filter.1 ha).1

theorem spaced_runFrom (past : List (Option α)) (t : Nat) (replies : List Reply) :
    (p.runFrom decode busy cancel past t replies).requests.Pairwise
      fun s u => s + p.period ≤ u := by
  induction replies generalizing past t with
  | nil =>
      rcases p.runFrom_nil_cases decode busy cancel past t with ⟨-, h⟩ | h <;> rw [h]
      · simp
      · exact .nil
  | cons reply replies ih =>
      have hreq := p.requests_turn decode busy cancel past t reply
      rcases hend : (p.turn decode busy cancel past t reply).ending with u | ⟨u, unauthorized⟩
      · have hle := p.period_le_due_turn decode busy cancel hend
        rw [p.before_of_due decode busy cancel hend] at hreq
        rw [p.runFrom_cons_of_due decode busy cancel hend, Run.requests_append_acts, hreq]
        refine List.pairwise_cons.2 ⟨fun v hv => ?_, ih _ u⟩
        exact hle.trans (p.le_of_mem_requests decode busy cancel hv)
      · rw [p.runFrom_cons_of_over decode busy cancel hend, hreq]
        split <;> simp

/-- The first cycle of a run, if there is one, is that of its first turn. -/
theorem cycles_runFrom_head {past : List (Option α)} {t u : Nat} {reply reply' : Reply}
    {replies : List Reply} {rest : List (Nat × Reply)}
    (h : (p.runFrom decode busy cancel past t (reply :: replies)).cycles (reply :: replies) =
      (u, reply') :: rest) :
    before cancel t = false ∧ t = u ∧ reply = reply' := by
  have hreq := p.requests_turn decode busy cancel past t reply
  rcases hend : (p.turn decode busy cancel past t reply).ending with v | ⟨v, unauthorized⟩
  · have ht := p.before_of_due decode busy cancel hend
    rw [p.cycles_runFrom_of_due decode busy cancel ht hend, List.cons.injEq, Prod.mk.injEq] at h
    exact ⟨ht, h.1⟩
  · rw [p.runFrom_cons_of_over decode busy cancel hend, Run.cycles, hreq] at h
    cases ht : before cancel t with
    | true => simp [ht] at h
    | false =>
        simp [ht] at h
        exact ⟨rfl, h.1⟩

/-- A cycle of a run is the first turn of what follows the cycles before it. -/
theorem runFrom_at_cycle {past : List (Option α)} {t u : Nat} {reply : Reply}
    {replies : List Reply} {first rest : List (Nat × Reply)}
    (h : (p.runFrom decode busy cancel past t replies).cycles replies =
      first ++ (u, reply) :: rest) :
    ∃ acts others, replies = first.map (·.2) ++ reply :: others ∧
      p.runFrom decode busy cancel past t replies =
        (p.runFrom decode busy cancel
          (past ++ first.filterMap fun c => p.delivered decode cancel c.1 c.2) u
          (reply :: others)).follow acts ∧
      (p.runFrom decode busy cancel
        (past ++ first.filterMap fun c => p.delivered decode cancel c.1 c.2) u
        (reply :: others)).cycles (reply :: others) = (u, reply) :: rest := by
  induction first generalizing past t replies with
  | nil =>
      cases replies with
      | nil => simp [Run.cycles] at h
      | cons reply' replies =>
          obtain ⟨-, rfl, rfl⟩ := p.cycles_runFrom_head decode busy cancel h
          exact ⟨[], replies, rfl, by simp [Run.follow], by simpa using h⟩
  | cons cycle first ih =>
      cases replies with
      | nil => simp [Run.cycles] at h
      | cons reply' replies =>
          obtain ⟨v, reply₁⟩ := cycle
          obtain ⟨ht, rfl, rfl⟩ := p.cycles_runFrom_head decode busy cancel h
          have hreq := p.requests_turn decode busy cancel past t reply'
          have hhanded := p.handed_turn decode busy cancel past t reply'
          rw [ht] at hreq hhanded
          rcases hend : (p.turn decode busy cancel past t reply').ending with w | ⟨w, unauthorized⟩
          · rw [p.cycles_runFrom_of_due decode busy cancel ht hend, List.cons_append,
              List.cons.injEq] at h
            obtain ⟨acts, others, hreplies, hrun, hcycles⟩ := ih h.2
            -- what the turn hands over is what its cycle delivers
            have hpast : past ++ (p.turn decode busy cancel past t reply').handed ++
                (first.filterMap fun c => p.delivered decode cancel c.1 c.2) =
                past ++ ((t, reply') :: first).filterMap
                  fun c => p.delivered decode cancel c.1 c.2 := by
              rw [hhanded]
              cases hd : p.delivered decode cancel t reply' <;> simp [hd]
            rw [hpast] at hrun hcycles
            refine ⟨(p.turn decode busy cancel past t reply').acts ++ acts, others,
              by simp [hreplies], ?_, hcycles⟩
            rw [p.runFrom_cons_of_due decode busy cancel hend, hrun]
            simp [Run.follow]
          · rw [p.runFrom_cons_of_over decode busy cancel hend, Run.cycles, hreq] at h
            simp at h

/-! ## The course of a cycle -/

/-- The moment at which a cycle is dealt with, given the payloads handed over before it: the handler
has finished, if the request delivers a payload, or else the request is settled. -/
def freeAt (past : List (Option α)) (t : Nat) (reply : Reply) : Nat :=
  match p.delivered decode cancel t reply with
  | some q => p.settled t reply + busy (past ++ [q])
  | none => p.settled t reply

theorem freeAt_eq {t : Nat} {reply : Reply} (h : before cancel (p.settled t reply) = false)
    (past : List (Option α)) :
    p.freeAt decode busy cancel past t reply =
      idleAfter busy past (p.settled t reply) (p.outcome decode reply) := by
  rw [freeAt, p.delivered_eq, h, idleAfter]
  rfl

theorem settled_le_freeAt (past : List (Option α)) (t : Nat) (reply : Reply) :
    p.settled t reply ≤ p.freeAt decode busy cancel past t reply := by
  unfold freeAt
  split
  · exact Nat.le_add_right _ _
  · exact Nat.le_refl _

theorem acts_turn_prefix (past : List (Option α)) (t : Nat) (reply : Reply)
    (replies : List Reply) :
    (p.turn decode busy cancel past t reply).acts <+:
      (p.runFrom decode busy cancel past t (reply :: replies)).acts := by
  rcases hend : (p.turn decode busy cancel past t reply).ending with u | ⟨u, unauthorized⟩
  · rw [p.runFrom_cons_of_due decode busy cancel hend, Run.acts_follow]
    exact List.prefix_append _ _
  · rewrite [p.runFrom_cons_of_over decode busy cancel hend]
    exact List.prefix_rfl

/-- Unless a cancellation comes first, a turn settles its request and deals with the outcome. -/
theorem turn_of_not_before {t : Nat} {reply : Reply}
    (h : before cancel (p.settled t reply) = false) (past : List (Option α)) :
    p.turn decode busy cancel past t reply =
      (p.conclude busy cancel past (p.settled t reply) (p.outcome decode reply)).follow
        (p.opened decode t reply) := by
  rcases p.turn_cases decode busy cancel past t reply with
    ⟨hb, -⟩ | ⟨-, cut, hcut, -⟩ | ⟨-, -, hr⟩
  · simp [Cancellation.not_before_of_le h (p.le_settled t reply)] at hb
  · have hb := (Cancellation.eq_of_cut hcut).1
    simp [h] at hb
  · exact hr

theorem turn_infix_of_cycle {past : List (Option α)} {t u : Nat} {reply : Reply}
    {replies : List Reply} {first rest : List (Nat × Reply)}
    (h : (p.runFrom decode busy cancel past t replies).cycles replies =
      first ++ (u, reply) :: rest) :
    (p.turn decode busy cancel
      (past ++ first.filterMap fun c => p.delivered decode cancel c.1 c.2) u reply).acts <:+:
      (p.runFrom decode busy cancel past t replies).acts := by
  obtain ⟨acts, others, -, hrun, -⟩ := p.runFrom_at_cycle decode busy cancel h
  rw [hrun, Run.acts_follow]
  exact (p.acts_turn_prefix decode busy cancel _ u reply others).isInfix.trans
    (List.suffix_append _ _).isInfix

theorem opened_infix {past : List (Option α)} {t : Nat} {replies : List Reply}
    {c : Nat × Reply}
    (hc : c ∈ (p.runFrom decode busy cancel past t replies).cycles replies)
    (hb : before cancel (p.settled c.1 c.2) = false) :
    p.opened decode c.1 c.2 <:+: (p.runFrom decode busy cancel past t replies).acts := by
  obtain ⟨first, rest, hcycles⟩ := List.append_of_mem hc
  have hturn := p.turn_infix_of_cycle decode busy cancel hcycles
  rw [p.turn_of_not_before decode busy cancel hb] at hturn
  exact (List.prefix_append _ _).isInfix.trans hturn

/-- Within one period a request is settled by the act that follows it. -/
theorem settled_turn {t : Nat} (h : before cancel t = false) (past : List (Option α))
    (reply : Reply) :
    ∃ u a, a.settles = true ∧ t ≤ u ∧ u ≤ t + p.period ∧
      [(t, .request), (u, a)] <+: (p.turn decode busy cancel past t reply).acts := by
  have hle := p.settled_le t reply
  rcases p.turn_cases decode busy cancel past t reply with
    ⟨hb, -⟩ | ⟨-, cut, hcut, hr⟩ | ⟨-, -, hr⟩
  · simp [h] at hb
  · obtain ⟨hb, c, rfl, rfl⟩ := Cancellation.eq_of_cut hcut
    have htime := Cancellation.time_le hb
    refine ⟨max t c.time, .dropped, rfl, Nat.le_max_left _ _, by omega, ?_⟩
    rw [hr]
    exact List.prefix_append _ _
  · refine ⟨p.settled t reply,
      if (reply.within p.period).arrived then .resolved else .dropped, ?_,
      p.le_settled t reply, hle, ?_⟩
    · cases (reply.within p.period).arrived <;> rfl
    · rw [hr]
      exact ⟨_, rfl⟩

theorem dealt_turn_infix {past : List (Option α)} {t : Nat} {reply : Reply} {q : Option α}
    (h : p.delivered decode cancel t reply = some q) :
    [(p.settled t reply, .handler q), (p.freeAt decode busy cancel past t reply, .handled)] <:+:
      (p.turn decode busy cancel past t reply).acts := by
  have hfree : p.freeAt decode busy cancel past t reply =
      p.settled t reply + busy (past ++ [q]) := by
    rw [freeAt, h]
  rw [p.delivered_eq] at h
  cases hb : before cancel (p.settled t reply) with
  | true => simp [hb] at h
  | false =>
      rw [hb] at h
      cases ho : p.outcome decode reply with
      | payload q' =>
          obtain rfl : q = q' := by simpa [ho, Outcome.payload?] using h.symm
          rw [p.turn_of_not_before decode busy cancel hb, ho, hfree, conclude]
          exact ⟨p.opened decode t reply,
            (p.rest cancel (p.settled t reply + busy (past ++ [q]))).acts, by simp⟩
      | failed e => simp [ho, Outcome.payload?] at h
      | unauthorized => simp [ho, Outcome.payload?] at h

/-- A turn that is neither refused nor cancelled is followed by the next one period after it was
dealt with. -/
theorem ending_turn_of_free {past : List (Option α)} {t : Nat} {reply : Reply}
    (he : p.expires cancel t reply = false)
    (h : before cancel (p.freeAt decode busy cancel past t reply + p.period) = false) :
    (p.turn decode busy cancel past t reply).ending =
      .due (p.freeAt decode busy cancel past t reply + p.period) := by
  have hfree := p.settled_le_freeAt decode busy cancel past t reply
  have hb : before cancel (p.settled t reply) = false :=
    Cancellation.not_before_of_le h (by omega)
  have ho : (p.outcome decode reply).isUnauthorized = false := by
    simpa [p.expires_eq decode, hb] using he
  rw [p.freeAt_eq decode busy cancel hb] at h ⊢
  rw [p.turn_of_not_before decode busy cancel hb, Run.ending_follow,
    p.conclude_eq_rest busy cancel ho, Run.ending_follow]
  rcases p.rest_cases (α := α) cancel
    (idleAfter busy past (p.settled t reply) (p.outcome decode reply)) with
    ⟨-, hr⟩ | ⟨c, -, hcut, -⟩
  · rw [hr]
  · simp [h] at hcut

end Poller

/-! ## The pace of a run -/

/-- What a run of `p` keeps to in time, for some replies, given how long its handler takes and when
it is cancelled. -/
structure Paced (p : Poller) (decode : String → Option (Option α))
    (busy : List (Option α) → Nat) (cancel : Option Cancellation) (replies : List Reply)
    (r : Run α) : Prop where
  begins : r.Begins cancel replies
  /-- Time never goes back. -/
  sorted : r.acts.Pairwise fun a b => a.1 ≤ b.1
  /-- At any moment at most one request is in flight. -/
  serial : Serial r.acts.events
  /-- No request is in flight for longer than one period. -/
  bounded : ∀ t reply, (t, reply) ∈ r.cycles replies →
    ∃ u a, a.settles = true ∧ t ≤ u ∧ u ≤ t + p.period ∧ [(t, .request), (u, a)] <:+: r.acts
  /-- A response that arrives within one period is taken when it arrives. -/
  answered : ∀ t delay response, (t, .after delay response) ∈ r.cycles replies →
    delay ≤ p.period → before cancel (t + delay) = false →
    [(t, .request), (t + delay, .resolved)] <:+: r.acts
  /-- A request that is not answered within one period is given up then: it timed out. -/
  abandoned : ∀ t reply, (t, reply) ∈ r.cycles replies →
    (∀ delay response, reply = .after delay response → p.period < delay) →
    before cancel (t + p.period) = false →
    [(t, .request), (t + p.period, .dropped), (t + p.period, .counted "failed"),
      (t + p.period, .log (outcomeEvent p (.failed .timeout : Outcome α)))] <:+: r.acts
  /-- A payload is handed over when its request is settled, and the cycle is free when the handler
  has finished. -/
  dealt : ∀ first t reply rest q, r.cycles replies = first ++ (t, reply) :: rest →
    p.delivered decode cancel t reply = some q →
    [(p.settled t reply, .handler q),
      (p.freeAt decode busy cancel
        (first.filterMap fun c => p.delivered decode cancel c.1 c.2) t reply, .handled)] <:+: r.acts
  /-- Unless the session expired or the run is cancelled by then, the next request is issued exactly
  one period after the cycle is free. It is due then if there is no further reply. -/
  next : ∀ first t reply rest, r.cycles replies = first ++ (t, reply) :: rest →
    p.expires cancel t reply = false →
    let due := p.freeAt decode busy cancel
      (first.filterMap fun c => p.delivered decode cancel c.1 c.2) t reply + p.period
    before cancel due = false →
    (rest = [] ∧ first.length + 1 = replies.length ∧ r.ending = .due due) ∨
      ∃ reply' others, rest = (due, reply') :: others
  /-- Requests are one period apart at least. -/
  spaced : r.requests.Pairwise fun s t => s + p.period ≤ t

theorem Paced.follow_log {p : Poller} {decode : String → Option (Option α)}
    {busy : List (Option α) → Nat} {cancel : Option Cancellation} {replies : List Reply}
    {r : Run α} (h : Paced p decode busy cancel replies r) (e : Log.Event) :
    Paced p decode busy cancel replies (r.follow [(0, .log e)]) := by
  have hlater {acts : Timeline (Act α)} (h : acts <:+: r.acts) :
      acts <:+: (r.follow [(0, .log e)]).acts :=
    h.trans (List.suffix_cons _ _).isInfix
  constructor
  case begins => exact h.begins
  case sorted => exact List.pairwise_cons.2 ⟨fun a _ => Nat.zero_le _, h.sorted⟩
  case serial =>
    have hlog : Serial [(.log e : Act α)] := .of_countP_eq_zero rfl rfl
    exact hlog.append h.serial
  case bounded =>
    intro t reply hc
    obtain ⟨u, a, ha, hle, hlimit, hacts⟩ := h.bounded t reply hc
    exact ⟨u, a, ha, hle, hlimit, hlater hacts⟩
  case answered =>
    intro t delay response hc hdelay hb
    exact hlater (h.answered t delay response hc hdelay hb)
  case abandoned =>
    intro t reply hc hlate hb
    exact hlater (h.abandoned t reply hc hlate hb)
  case dealt =>
    intro first t reply rest q hcycles hq
    exact hlater (h.dealt first t reply rest q hcycles hq)
  case next => exact h.next
  case spaced => exact h.spaced

namespace Poller

variable (p : Poller) (decode : String → Option (Option α)) (busy : List (Option α) → Nat)
  (cancel : Option Cancellation)

theorem paced_runFrom (replies : List Reply) :
    Paced p decode busy cancel replies (p.runFrom decode busy cancel [] 0 replies) := by
  constructor
  case begins => exact p.begins_runFrom decode busy cancel replies
  case sorted => exact (p.forward_runFrom decode busy cancel [] 0 replies).sorted
  case serial => exact p.serial_runFrom decode busy cancel [] 0 replies
  case spaced => exact p.spaced_runFrom decode busy cancel [] 0 replies
  case bounded =>
    intro t reply hc
    obtain ⟨first, rest, hcycles⟩ := List.append_of_mem hc
    have hturn := p.turn_infix_of_cycle decode busy cancel hcycles
    obtain ⟨acts, others, -, -, hhead⟩ := p.runFrom_at_cycle decode busy cancel hcycles
    obtain ⟨ht, -, -⟩ := p.cycles_runFrom_head decode busy cancel hhead
    obtain ⟨u, a, ha, hle, hlimit, hacts⟩ := p.settled_turn decode busy cancel ht _ reply
    exact ⟨u, a, ha, hle, hlimit, hacts.isInfix.trans hturn⟩
  case answered =>
    intro t delay response hc hdelay hb
    have hsettled : p.settled t (.after delay response) = t + delay := by
      rw [settled, Reply.within_of_le hdelay]
    have hopened := p.opened_infix decode busy cancel hc (by rwa [hsettled])
    rw [opened_eq, hsettled, Reply.within_of_le hdelay] at hopened
    exact (List.prefix_append [_, _] _).isInfix.trans hopened
  case abandoned =>
    intro t reply hc hlate hb
    have hwithin : reply.within p.period = ⟨false, p.period, .error .timeout⟩ := by
      cases reply with
      | never => rfl
      | after delay response =>
          exact Reply.within_of_not_le (Nat.not_le.2 (hlate delay response rfl)) response
    have hsettled : p.settled t reply = t + p.period := by rw [settled, hwithin]
    have hopened := p.opened_infix decode busy cancel hc (by rwa [hsettled])
    rw [opened_eq, hsettled, outcome, hwithin] at hopened
    exact hopened
  case dealt =>
    intro first t reply rest q hcycles hq
    have hturn := p.turn_infix_of_cycle decode busy cancel hcycles
    exact (p.dealt_turn_infix decode busy cancel hq).trans hturn
  case next =>
    intro first t reply rest hcycles he due hb
    obtain ⟨acts, others, hreplies, hrun, hhead⟩ :=
      p.runFrom_at_cycle decode busy cancel hcycles
    obtain ⟨ht, -, -⟩ := p.cycles_runFrom_head decode busy cancel hhead
    -- the turn ends with its next request due, and with that the remaining run begins
    have hend := p.ending_turn_of_free decode busy cancel he hb
    rw [List.nil_append] at hrun hhead
    rw [p.cycles_runFrom_of_due decode busy cancel ht hend, List.cons.injEq] at hhead
    rw [hrun, Run.ending_follow, p.runFrom_cons_of_due decode busy cancel hend,
      Run.ending_follow, ← hhead.2]
    rcases p.runFrom_starts decode busy cancel hb _ others with ⟨rfl, hlast⟩ | ⟨reply', more, hmore⟩
    · refine .inl ⟨by simp [Run.cycles], by simp [hreplies], ?_⟩
      rw [hlast]
    · exact .inr ⟨reply', more, hmore⟩

/-- Every run of a poller keeps its pace: for all replies, whatever period is asked for, however
long the handler takes over each payload, and whenever the run is cancelled. -/
theorem run_keeps_pace (url endpoint : String) (period : Nat) (replies : List Reply) :
    let p := Poller.make url period endpoint
    let r := p.run decode busy cancel replies
    p.period = max period 10 ∧ Paced p decode busy cancel replies r ∧
      r.requests.Pairwise fun s t => s + 10 ≤ t := by
  intro p r
  have hpaced : Paced p decode busy cancel replies r :=
    (p.paced_runFrom decode busy cancel replies).follow_log (startedEvent p)
  have hleast : 10 ≤ p.period := Nat.le_max_right period 10
  refine ⟨rfl, hpaced, hpaced.spaced.imp fun {s t} hst => ?_⟩
  omega

/- Responses in time, at the very end of the period, too late and never, with a handler that takes
longer each time, where no period at all is asked for. -/
example :
    let decode := fun s => if s = "3" then some (some 3) else none
    let r := (Poller.make "/x" 0 anyEndpoint).run decode (fun past => 25 * past.length) none
      [.after 4 (.ok "3"), .after 10 (.ok "3"), .after 11 (.ok "3"), .never]
    r.requests = [0, 39, 109, 129] ∧ r.ending = .due 149 := by
  decide +kernel

end Poller
end PeerWatch.Poll
