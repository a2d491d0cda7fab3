import PeerWatch.Proofs.Poll.Turn

/-!
# The contract of a poller

What the embedder of a poller relies on, for every sequence of replies, every handler and every
moment of cancellation: which payloads are handed over, when the session is left, and how a run can
end. Each fact is lifted from a turn to a run by induction on the replies; `runFrom_cases` is the
step that all of them share.
-/

namespace PeerWatch.Poll

open PeerWatch.Time (Timeline)

variable {α : Type}

/-- The cycles of a run: the moment of each request with the reply to it. -/
def Run.cycles (r : Run α) (replies : List Reply) : List (Nat × Reply) := r.requests.zip replies

/-- A run issues its first request at once, unless it is cancelled before that. It is due at once if
there is no reply to it. -/
def Run.Begins (cancel : Option Cancellation) (replies : List Reply) (r : Run α) : Prop :=
  Cancellation.before cancel 0 = false →
    (replies = [] ∧ r.ending = .due 0) ∨ r.requests.head? = some 0

namespace Poller

variable (p : Poller) (decode : String → Option (Option α)) (busy : List (Option α) → Nat)
  (cancel : Option Cancellation)

/-! ## Turn by turn -/

theorem runFrom_nil_cases (past : List (Option α)) (t : Nat) :
    (Cancellation.before cancel t = true ∧
      p.runFrom decode busy cancel past t [] = p.stop t) ∨
    p.runFrom decode busy cancel past t [] = ⟨[], .due t⟩ := by
  cases ht : Cancellation.before cancel t <;> simp [runFrom, ht]

theorem runFrom_cons_of_over {past : List (Option α)} {t u : Nat} {reply : Reply}
    {unauthorized : Bool}
    (h : (p.turn decode busy cancel past t reply).ending = .over u unauthorized)
    (replies : List Reply) :
    p.runFrom decode busy cancel past t (reply :: replies) =
      p.turn decode busy cancel past t reply := by
  rw [runFrom]
  exact Run.andThen_of_over h _

theorem runFrom_cons_of_due {past : List (Option α)} {t u : Nat} {reply : Reply}
    (h : (p.turn decode busy cancel past t reply).ending = .due u) (replies : List Reply) :
    p.runFrom decode busy cancel past t (reply :: replies) =
      (p.runFrom decode busy cancel (past ++ (p.turn decode busy cancel past t reply).handed) u
        replies).follow (p.turn decode busy cancel past t reply).acts := by
  rw [runFrom]
  exact Run.andThen_of_due h _

theorem cycles_runFrom_of_due {past : List (Option α)} {t u : Nat} {reply : Reply}
    (ht : Cancellation.before cancel t = false)
    (h : (p.turn decode busy cancel past t reply).ending = .due u) (replies : List Reply) :
    (p.runFrom decode busy cancel past t (reply :: replies)).cycles (reply :: replies) =
      (t, reply) :: (p.runFrom decode busy cancel
        (past ++ (p.turn decode busy cancel past t reply).handed) u replies).cycles replies := by
  have hreq := p.requests_turn decode busy cancel past t reply
  rw [ht] at hreq
  rw [p.runFrom_cons_of_due decode busy cancel h, Run.cycles, Run.requests_append_acts, hreq]
  rfl

/-- A run with a reply at hand is over with its first turn, by a refusal or by a cancellation, or
goes on after a cycle that was neither. -/
theorem runFrom_cases (past : List (Option α)) (t : Nat) (reply : Reply) (replies : List Reply) :
    (p.expires cancel t reply = true ∧
      (p.runFrom decode busy cancel past t (reply :: replies)).cycles (reply :: replies) =
        [(t, reply)] ∧
      (p.runFrom decode busy cancel past t (reply :: replies)).ending =
        .over (p.settled t reply) true) ∨
    ((∀ c ∈ (p.runFrom decode busy cancel past t (reply :: replies)).cycles (reply :: replies),
        p.expires cancel c.1 c.2 = false) ∧
      ∃ c u, cancel = some c ∧ c.time ≤ u ∧
        (p.runFrom decode busy cancel past t (reply :: replies)).ending = .over u false) ∨
    (p.expires cancel t reply = false ∧ ∃ handed u,
      (p.runFrom decode busy cancel past t (reply :: replies)).cycles (reply :: replies) =
        (t, reply) ::
          (p.runFrom decode busy cancel (past ++ handed) u replies).cycles replies ∧
      (p.runFrom decode busy cancel past t (reply :: replies)).ending =
        (p.runFrom decode busy cancel (past ++ handed) u replies).ending) := by
  have hreq := p.requests_turn decode busy cancel past t reply
  rcases p.ending_turn decode busy cancel past t reply with
    ⟨ht, he, hend⟩ | ⟨hne, c, u, hc, hle, hend⟩ | ⟨ht, he, u, hend⟩
  · rw [p.runFrom_cons_of_over decode busy cancel hend replies, Run.cycles, hreq, ht]
    exact .inl ⟨he, rfl, hend⟩
  · rw [p.runFrom_cons_of_over decode busy cancel hend replies, Run.cycles, hreq]
    refine .inr (.inl ⟨?_, c, u, hc, hle, hend⟩)
    cases ht : Cancellation.before cancel t <;> simp_all
  · refine .inr (.inr ⟨he, (p.turn decode busy cancel past t reply).handed, u, ?_, ?_⟩)
    · exact p.cycles_runFrom_of_due decode busy cancel ht hend replies
    · rw [p.runFrom_cons_of_due decode busy cancel hend replies]
      rfl

/-! ## Whole runs -/

/-- Exactly the payloads that the requests of a run deliver are handed over, in their order. -/
theorem handed_runFrom (past : List (Option α)) (t : Nat) (replies : List Reply) :
    (p.runFrom decode busy cancel past t replies).handed =
      ((p.runFrom decode busy cancel past t replies).cycles replies).filterMap
        fun c => p.delivered decode cancel c.1 c.2 := by
  induction replies generalizing past t with
  | nil =>
      rcases p.runFrom_nil_cases decode busy cancel past t with ⟨-, h⟩ | h <;> rw [h] <;> rfl
  | cons reply replies ih =>
      have hhanded := p.handed_turn decode busy cancel past t reply
      have hreq := p.requests_turn decode busy cancel past t reply
      rcases hend : (p.turn decode busy cancel past t reply).ending with u | ⟨u, unauthorized⟩
      · have ht := p.before_of_due decode busy cancel hend
        rw [p.cycles_runFrom_of_due decode busy cancel ht hend,
          p.runFrom_cons_of_due decode busy cancel hend, Run.handed_append_acts, ih, hhanded, ht]
        cases hd : p.delivered decode cancel t reply <;> simp [hd]
      · rw [p.runFrom_cons_of_over decode busy cancel hend, Run.cycles, hreq, hhanded]
        cases Cancellation.before cancel t with
        | true => rfl
        | false => cases hd : p.delivered decode cancel t reply <;> simp [hd]

theorem length_requests_runFrom_le (past : List (Option α)) (t : Nat) (replies : List Reply) :
    (p.runFrom decode busy cancel past t replies).requests.length ≤ replies.length := by
  induction replies generalizing past t with
  | nil =>
      rcases p.runFrom_nil_cases decode busy cancel past t with ⟨-, h⟩ | h <;> rw [h] <;>
        exact Nat.le_refl 0
  | cons reply replies ih =>
      have hreq := p.requests_turn decode busy cancel past t reply
      have hle : (p.turn decode busy cancel past t reply).requests.length ≤ 1 := by
        rw [hreq]
        split <;> simp
      rcases hend : (p.turn decode busy cancel past t reply).ending with u | ⟨u, unauthorized⟩
      · have hrest := ih (past ++ (p.turn decode busy cancel past t reply).handed) u
        rw [p.runFrom_cons_of_due decode busy cancel hend, Run.requests_append_acts,
          List.length_append, List.length_cons]
        omega
      · rw [p.runFrom_cons_of_over decode busy cancel hend, List.length_cons]
        omega

/-- Every request is the start of a cycle. -/
theorem requests_runFrom (past : List (Option α)) (t : Nat) (replies : List Reply) :
    (p.runFrom decode busy cancel past t replies).requests =
      ((p.runFrom decode busy cancel past t replies).cycles replies).map (·.1) := by
  rw [Run.cycles, List.map_fst_zip]
  exact p.length_requests_runFrom_le decode busy cancel past t replies

theorem runFrom_starts {t : Nat} (h : Cancellation.before cancel t = false) (past : List (Option α))
    (replies : List Reply) :
    (replies = [] ∧ p.runFrom decode busy cancel past t replies = ⟨[], .due t⟩) ∨
      ∃ reply rest, (p.runFrom decode busy cancel past t replies).cycles replies =
        (t, reply) :: rest := by
  cases replies with
  | nil => exact .inl ⟨rfl, by simp [runFrom, h]⟩
  | cons reply replies =>
      refine .inr ⟨reply, ?_⟩
      have hreq := p.requests_turn decode busy cancel past t reply
      rw [h] at hreq
      rcases hend : (p.turn decode busy cancel past t reply).ending with u | ⟨u, unauthorized⟩
      · exact ⟨_, p.cycles_runFrom_of_due decode busy cancel h hend replies⟩
      · rw [p.runFrom_cons_of_over decode busy cancel hend, Run.cycles, hreq]
        exact ⟨[], rfl⟩

theorem begins_runFrom (replies : List Reply) :
    (p.runFrom decode busy cancel [] 0 replies).Begins cancel replies := by
  intro h
  rcases p.runFrom_starts decode busy cancel h [] replies with
    ⟨hnil, hr⟩ | ⟨reply, rest, hcycles⟩
  · exact .inl ⟨hnil, by rw [hr]⟩
  · rw [p.requests_runFrom, hcycles]
    exact .inr rfl

theorem begins_run (replies : List Reply) :
    (p.run decode busy cancel replies).Begins cancel replies :=
  p.begins_runFrom decode busy cancel replies

/-- What holds of every turn, and still holds when another run follows the acts of a turn, holds of
every run. -/
theorem runFrom_of_turn {P : Run α → Prop} (hstop : ∀ t, P (p.stop t))
    (hdue : ∀ t, P ⟨[], .due t⟩)
    (hturn : ∀ past t reply, P (p.turn decode busy cancel past t reply))
    (hnext : ∀ (first r : Run α) (t : Nat), first.ending = .due t → P first → P r →
      P (r.follow first.acts))
    (past : List (Option α)) (t : Nat) (replies : List Reply) :
    P (p.runFrom decode busy cancel past t replies) := by
  induction replies generalizing past t with
  | nil =>
      rcases p.runFrom_nil_cases decode busy cancel past t with ⟨-, h⟩ | h <;> rw [h]
      · exact hstop t
      · exact hdue t
  | cons reply replies ih =>
      rcases hend : (p.turn decode busy cancel past t reply).ending with u | ⟨u, unauthorized⟩
      · rw [p.runFrom_cons_of_due decode busy cancel hend]
        exact hnext _ _ u hend (hturn past t reply) (ih _ u)
      · rw [p.runFrom_cons_of_over decode busy cancel hend]
        exact hturn past t reply

theorem leavesLast_runFrom (past : List (Option α)) (t : Nat) (replies : List Reply) :
    (p.runFrom decode busy cancel past t replies).LeavesLast := by
  refine p.runFrom_of_turn decode busy cancel p.leavesLast_stop ?_
    (p.leavesLast_turn decode busy cancel) ?_ past t replies
  · intro t
    simp [Run.LeavesLast, Stays, Timeline.events]
  · intro first r t hend hfirst hr
    rw [Run.LeavesLast, hend] at hfirst
    exact hr.follow hfirst

theorem dealt_runFrom (past : List (Option α)) (t : Nat) (replies : List Reply) :
    Dealt (p.runFrom decode busy cancel past t replies).acts := by
  refine p.runFrom_of_turn decode busy cancel (P := fun r => Dealt r.acts) p.dealt_stop ?_
    (p.dealt_turn decode busy cancel) ?_ past t replies
  · simp [Dealt, Timeline.events]
  · intro first r t _ hfirst hr
    exact hfirst.append hr

theorem leavesLast_run (replies : List Reply) :
    (p.run decode busy cancel replies).LeavesLast :=
  (p.leavesLast_runFrom decode busy cancel [] 0 replies).follow (stays_log 0 _)

/-- Every payload that a run hands over is dealt with before anything else happens, even if the run
is cancelled meanwhile. -/
theorem dealt_run (replies : List Reply) : Dealt (p.run decode busy cancel replies).acts := by
  refine Dealt.append ?_ (p.dealt_runFrom decode busy cancel [] 0 replies)
  simp [Dealt, Timeline.events]

/-- A run that still has a request due has put all its replies to use, and none was a refusal. -/
theorem cycles_of_due {past : List (Option α)} {t u : Nat} {replies : List Reply}
    (h : (p.runFrom decode busy cancel past t replies).ending = .due u) :
    ((p.runFrom decode busy cancel past t replies).cycles replies).length = replies.length ∧
      ∀ c ∈ (p.runFrom decode busy cancel past t replies).cycles replies,
        p.expires cancel c.1 c.2 = false := by
  induction replies generalizing past t with
  | nil => simp [Run.cycles]
  | cons reply replies ih =>
      rcases p.runFrom_cases decode busy cancel past t reply replies with
        ⟨-, -, hend⟩ | ⟨-, c, v, -, -, hend⟩ | ⟨he, handed, v, hcycles, hend⟩
      · simp [hend] at h
      · simp [hend] at h
      · obtain ⟨hlen, hall⟩ := ih (hend.symm.trans h)
        rw [hcycles]
        exact ⟨by simp [hlen], by simpa [he] using hall⟩

/-- A run that a cancellation ended was cancelled by then, and none of its requests was refused. -/
theorem cycles_of_cancelled {past : List (Option α)} {t u : Nat} {replies : List Reply}
    (h : (p.runFrom decode busy cancel past t replies).ending = .over u false) :
    (∃ c, cancel = some c ∧ c.time ≤ u) ∧
      ∀ c ∈ (p.runFrom decode busy cancel past t replies).cycles replies,
        p.expires cancel c.1 c.2 = false := by
  induction replies generalizing past t with
  | nil =>
      rcases p.runFrom_nil_cases decode busy cancel past t with ⟨ht, hr⟩ | hr <;> rw [hr] at h
      · obtain ⟨c, hc, hle⟩ := Cancellation.time_le_of_before ht
        have hu : t = u := by simpa [stop] using h
        exact ⟨⟨c, hc, hu ▸ hle⟩, by simp [Run.cycles]⟩
      · simp at h
  | cons reply replies ih =>
      rcases p.runFrom_cases decode busy cancel past t reply replies with
        ⟨-, -, hend⟩ | ⟨hall, c, v, hc, hle, hend⟩ | ⟨he, handed, v, hcycles, hend⟩
      · simp [hend] at h
      · have hv : v = u := by simpa using hend.symm.trans h
        exact ⟨⟨c, hc, hv ▸ hle⟩, hall⟩
      · obtain ⟨hc, hall⟩ := ih (hend.symm.trans h)
        rw [hcycles]
        exact ⟨hc, by simpa [he] using hall⟩

/-- A run that a refusal ended was refused at its last request and at no other. -/
theorem cycles_of_refused {past : List (Option α)} {t u : Nat} {replies : List Reply}
    (h : (p.runFrom decode busy cancel past t replies).ending = .over u true) :
    ∃ before v reply,
      (p.runFrom decode busy cancel past t replies).cycles replies = before ++ [(v, reply)] ∧
        p.expires cancel v reply = true ∧ u = p.settled v reply ∧
        ∀ c ∈ before, p.expires cancel c.1 c.2 = false := by
  induction replies generalizing past t with
  | nil =>
      rcases p.runFrom_nil_cases decode busy cancel past t with ⟨-, hr⟩ | hr <;> rw [hr] at h
      · simp [stop] at h
      · simp at h
  | cons reply replies ih =>
      rcases p.runFrom_cases decode busy cancel past t reply replies with
        ⟨he, hcycles, hend⟩ | ⟨-, c, v, -, -, hend⟩ | ⟨he, handed, v, hcycles, hend⟩
      · refine ⟨[], t, reply, hcycles, he, ?_, by simp⟩
        simpa using h.symm.trans hend
      · simp [hend] at h
      · obtain ⟨before, w, last, hrest, hlast, hu, hall⟩ := ih (hend.symm.trans h)
        refine ⟨(t, reply) :: before, w, last, by rw [hcycles, hrest]; rfl, hlast, hu, ?_⟩
        simpa [he] using hall

end Poller

/-! ## The contract -/

/-- What a run of `p` with some replies keeps to, given when it is cancelled. -/
structure Contract (p : Poller) (decode : String → Option (Option α))
    (cancel : Option Cancellation) (replies : List Reply) (r : Run α) : Prop where
  begins : r.Begins cancel replies
  /-- Every request is the start of a cycle. -/
  requests : r.requests = (r.cycles replies).map (·.1)
  /-- The handler is called once, in order, for every cycle that delivers a payload, with that
  payload, and for no other cycle. -/
  handed : r.handed = (r.cycles replies).filterMap fun c => p.delivered decode cancel c.1 c.2
  /-- No cycle comes after a refused one. The run ends with it: it goes to the root, which it did
  not do before, and does nothing but exit after that. -/
  refused : ∀ before t reply after, r.cycles replies = before ++ (t, reply) :: after →
    p.expires cancel t reply = true →
    after = [] ∧ r.ending = .over (p.settled t reply) true ∧
      ∃ acts, Stays acts ∧ r.acts =
        acts ++ [(p.settled t reply, .navigate "/"), (p.settled t reply, .exit true)]
  /-- A run of which no cycle is refused navigates nowhere. -/
  unrefused : (∀ c ∈ r.cycles replies, p.expires cancel c.1 c.2 = false) →
    ∀ t location, (t, Act.navigate location) ∉ r.acts
  /-- A run that exits as cancelled was cancelled by then. -/
  cancelled : ∀ t, (t, Act.exit false) ∈ r.acts →
    r.ending = .over t false ∧ ∃ c, cancel = some c ∧ c.time ≤ t
  /-- Without a cancellation and a refusal a run never exits, however many replies there are: it
  puts all of them to use, and the next request is due. -/
  endless : cancel = none → (∀ c ∈ r.cycles replies, p.expires cancel c.1 c.2 = false) →
    (∃ t, r.ending = .due t) ∧ Stays r.acts ∧ r.requests.length = replies.length

theorem Contract.follow_log {p : Poller} {decode : String → Option (Option α)}
    {cancel : Option Cancellation} {replies : List Reply} {r : Run α}
    (h : Contract p decode cancel replies r) (t : Nat) (e : Log.Event) :
    Contract p decode cancel replies (r.follow [(t, .log e)]) := by
  have hstays := stays_log (α := α) t e
  constructor
  case begins => exact h.begins
  case requests => exact h.requests
  case handed => exact h.handed
  case refused =>
    intro before u reply after hcycles he
    obtain ⟨hafter, hend, acts, hacts, hr⟩ := h.refused before u reply after hcycles he
    exact ⟨hafter, hend, (t, .log e) :: acts, hstays.append hacts, by simp [hr]⟩
  case unrefused =>
    intro hall u location hmem
    exact h.unrefused hall u location (by simpa using hmem)
  case cancelled =>
    intro u hmem
    exact h.cancelled u (by simpa using hmem)
  case endless =>
    intro hnone hall
    obtain ⟨hdue, hr, hlen⟩ := h.endless hnone hall
    exact ⟨hdue, hstays.append hr, hlen⟩

namespace Poller

variable (p : Poller) (decode : String → Option (Option α)) (busy : List (Option α) → Nat)
  (cancel : Option Cancellation)

theorem ending_ne_refused {past : List (Option α)} {t : Nat} {replies : List Reply}
    (hall : ∀ c ∈ (p.runFrom decode busy cancel past t replies).cycles replies,
      p.expires cancel c.1 c.2 = false) (u : Nat) :
    (p.runFrom decode busy cancel past t replies).ending ≠ .over u true := by
  intro hend
  obtain ⟨before, v, reply, hcycles, he, -, -⟩ := p.cycles_of_refused decode busy cancel hend
  have := hall (v, reply) (by simp [hcycles])
  simp [he] at this

theorem ending_of_refused {past : List (Option α)} {t u : Nat} {reply : Reply}
    {replies : List Reply} {before after : List (Nat × Reply)}
    (hcycles : (p.runFrom decode busy cancel past t replies).cycles replies =
      before ++ (u, reply) :: after) (he : p.expires cancel u reply = true) :
    after = [] ∧
      (p.runFrom decode busy cancel past t replies).ending = .over (p.settled u reply) true := by
  have hmem : (u, reply) ∈ (p.runFrom decode busy cancel past t replies).cycles replies := by
    simp [hcycles]
  rcases hend : (p.runFrom decode busy cancel past t replies).ending with v | ⟨v, _ | _⟩
  · have := (p.cycles_of_due decode busy cancel hend).2 _ hmem
    simp [he] at this
  · have := (p.cycles_of_cancelled decode busy cancel hend).2 _ hmem
    simp [he] at this
  · obtain ⟨others, w, last, hlast, -, hv, hothers⟩ :=
      p.cycles_of_refused decode busy cancel hend
    rw [hcycles] at hlast
    rcases List.eq_nil_or_concat after with rfl | ⟨rest, c, rfl⟩
    · obtain ⟨-, hc⟩ := List.append_inj' hlast rfl
      simp only [List.cons.injEq, Prod.mk.injEq, and_true] at hc
      obtain ⟨rfl, rfl⟩ := hc
      exact ⟨rfl, by rw [hv]⟩
    · -- the refused cycle would be one of those before the last, none of which is refused
      rw [List.concat_eq_append, ← List.cons_append, ← List.append_assoc] at hlast
      obtain ⟨hsame, -⟩ := List.append_inj' hlast rfl
      have := hothers (u, reply) (by simp [← hsame])
      simp [he] at this

theorem contract_runFrom (replies : List Reply) :
    Contract p decode cancel replies (p.runFrom decode busy cancel [] 0 replies) := by
  have hleaves := p.leavesLast_runFrom decode busy cancel [] 0 replies
  constructor
  case begins => exact p.begins_runFrom decode busy cancel replies
  case requests => exact p.requests_runFrom decode busy cancel [] 0 replies
  case handed => exact p.handed_runFrom decode busy cancel [] 0 replies
  case refused =>
    intro before u reply after hcycles he
    obtain ⟨hafter, hend⟩ := p.ending_of_refused decode busy cancel hcycles he
    refine ⟨hafter, hend, ?_⟩
    rw [Run.LeavesLast, hend] at hleaves
    exact hleaves
  case unrefused =>
    intro hall u location hmem
    obtain ⟨v, unauthorized, hend, hlast⟩ := hleaves.mem_farewell hmem rfl
    rcases mem_farewell hlast with h | ⟨rfl, -⟩
    · simp at h
    · exact p.ending_ne_refused decode busy cancel hall v hend
  case cancelled =>
    intro u hmem
    obtain ⟨v, unauthorized, hend, hlast⟩ := hleaves.mem_farewell hmem rfl
    rcases mem_farewell hlast with h | ⟨-, h⟩
    · simp only [Prod.mk.injEq, Act.exit.injEq] at h
      obtain ⟨rfl, rfl⟩ := h
      exact ⟨hend, (p.cycles_of_cancelled decode busy cancel hend).1⟩
    · simp at h
  case endless =>
    intro hnone hall
    rcases hend : (p.runFrom decode busy cancel [] 0 replies).ending with u | ⟨u, _ | _⟩
    · rw [Run.LeavesLast, hend] at hleaves
      have hlen := (p.cycles_of_due decode busy cancel hend).1
      have hle := p.length_requests_runFrom_le decode busy cancel [] 0 replies
      rw [Run.cycles, List.length_zip] at hlen
      exact ⟨⟨u, rfl⟩, hleaves, by omega⟩
    · obtain ⟨c, hc, -⟩ := (p.cycles_of_cancelled decode busy cancel hend).1
      simp [hnone] at hc
    · exact absurd hend (p.ending_ne_refused decode busy cancel hall u)

/-- Every run of a poller keeps to its contract: for all replies, however long its handler takes
over each payload, and whenever it is cancelled. -/
theorem run_keeps_contract (replies : List Reply) :
    Contract p decode cancel replies (p.run decode busy cancel replies) :=
  (p.contract_runFrom decode busy cancel replies).follow_log 0 (startedEvent p)

/- One payload after failures of every sort, then a refusal, after which a reply is left over. -/
example :
    let decode := fun s => if s = "3" then some (some 3) else none
    let r := (Poller.make "/x" 100 anyEndpoint).run decode (fun _ => 7) none
      [.after 50 (.error (.status 500)), .never, .after 20 (.ok "x"), .after 100 (.ok "3"),
        .after 5 (.error .unauthorized), .after 0 (.ok "4")]
    r.handed = [some 3] ∧ r.requests = [0, 150, 350, 470, 677] ∧ r.ending = .over 682 true := by
  decide +kernel

end Poller
end PeerWatch.Poll
