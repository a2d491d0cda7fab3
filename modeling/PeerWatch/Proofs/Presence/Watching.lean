import PeerWatch.Proofs.Poll.Contract
import PeerWatch.Proofs.Presence.InStep
import PeerWatch.Proofs.Presence.Schedule

/-!
# What is promised of watching

The acts of the poller, the calls that reports lead to and the resets of the title follow each other
in any order that the page allows. Whatever the replies are, whenever polling is cancelled and
whenever the title is reset, the page shows exactly the payloads that were delivered and announces
their news once.
-/

namespace PeerWatch.Presence

open PeerWatch.Cue (MailSound Notifier UnreadTitle maxUnread)
open PeerWatch.Poll (Cancellation Dealt Poller Reply Run)

/-- The payloads that are delivered in the cycles of a run, in order. -/
def payloadsOf (p : Poller) (cancel : Option Cancellation) (replies : List Reply)
    (r : Run ContactList) : List (Option ContactList) :=
  (r.cycles replies).filterMap fun c => p.delivered ContactList.decode? cancel c.1 c.2

/-- What is promised of moves on a page `w` that are made while a poller runs: of the page that they
lead to and of what was done. -/
structure Announces (w : Watcher) (already : Nat) (r : Run ContactList)
    (payloads : List (Option ContactList)) (moves : List Move) (s : Stage)
    (acts : List WatchAct) : Prop where
  /-- List, notifications, title and sound are what the moves so far make of them. -/
  inStep : InStep w already moves s acts
  /-- Only delivered payloads were applied, in their order and without a gap. -/
  reports : reportsOf moves <+: payloads
  /-- With no call left to be made, the notifier got one notification for every contact with new
  messages in every payload, each was counted, and the sound was played once for every payload that
  has any. -/
  announced : s.pending = [] →
    let changes := (w.roster.applyAll (reportsOf moves)).2
    s.watcher.notifier =
        w.notifier.map (notifyAll ((newsOf changes).map NewMessages.notification)) ∧
      (callsOf moves).count .count = (newsOf changes).length ∧
      acts.countP WatchAct.isPlay =
        if w.sound.isSome then changes.countP (·.any Change.isNews) else 0
  /-- Whatever the poller does next after a payload, and be it to notice that it is cancelled, finds
  all calls for the payload made. -/
  finished : ∀ first a rest, moves = first ++ .poll a :: rest →
    callsOf first = (w.roster.applyAll (reportsOf first)).2.flatMap alertsOf
  /-- The calls that are left can be made, whatever happened since the payload was applied. -/
  able : ∃ after more, s.follow? (s.pending.map .fire) = some (⟨after, []⟩, more)
  /-- When the poller has done everything, all payloads are applied and no call is left. -/
  whole : pollsOf moves = r.acts.events → s.pending = [] ∧ reportsOf moves = payloads

variable {w : Watcher} {already : Nat} {moves : List Move} {s : Stage} {acts : List WatchAct}

/-- The poller only goes on when no call is left. -/
theorem pending_of_poll {s s' : Stage} {first rest : List Move} {a : Poll.Act ContactList}
    (h : s.follow? (first ++ .poll a :: rest) = some (s', acts)) :
    ∃ before done, s.follow? first = some (before, done) ∧ before.pending = [] := by
  rw [Stage.follow?_append] at h
  cases hf : s.follow? first with
  | none => simp [hf] at h
  | some before =>
      refine ⟨before.1, before.2, rfl, ?_⟩
      by_contra hp
      simp [hf, Stage.follow?, Stage.step?, hp] at h

/-- The promises hold of all moves that a page allows, for a run that hands over the delivered
payloads and ends with none of them in the hands of the handler. -/
theorem announces_of_follow? {r : Run ContactList} {payloads : List (Option ContactList)}
    (hw : ∀ t ∈ w.title, t.unread = min already maxUnread) (hhanded : r.handed = payloads)
    (hdealt : Dealt r.acts) (hf : Stage.follow? ⟨w, []⟩ moves = some (s, acts))
    (hpolls : pollsOf moves <+: r.acts.events) : Announces w already r payloads moves s acts := by
  have hstep := InStep.follow hw hf
  constructor
  case inStep => exact hstep
  case reports =>
    rw [← hhanded]
    exact hpolls.filterMap _
  case announced => exact hstep.announced
  case finished =>
    rintro first a rest rfl
    obtain ⟨before, done, hfirst, hp⟩ := pending_of_poll hf
    rw [← (InStep.follow hw hfirst).calls, hp, List.append_nil]
  case able => exact ⟨_, _, Stage.follow?_fireAll s.watcher s.pending⟩
  case whole =>
    intro hall
    constructor
    · by_contra hp
      obtain ⟨report, hlast⟩ := hstep.waits hp
      exact hdealt report (hall ▸ hlast)
    · rw [← hhanded, reportsOf, hall]
      rfl

theorem handed_run (p : Poller) (busy : List (Option ContactList) → Nat)
    (cancel : Option Cancellation) (replies : List Reply) :
    (p.run ContactList.decode? busy cancel replies).handed =
      payloadsOf p cancel replies (p.run ContactList.decode? busy cancel replies) :=
  ((p.contract_runFrom ContactList.decode? busy cancel replies).follow_log 0
    (Poll.startedEvent p)).handed

/-- A page that is watched keeps its promises, in any order of the poller's acts, the calls that
its payloads lead to and resets: for all replies, whenever polling is cancelled, whoever takes the
calls, and whether or not the title had counted some messages before. And a cycle that delivers
nothing leaves list, notifier, title and sound alone, resets apart. -/
theorem watching_announces (url : String) (period : Nat)
    (busy : List (Option ContactList) → Nat) (cancel : Option Cancellation)
    (replies : List Reply) (roster : Roster) (notifier : Option Notifier)
    (sound : Option MailSound) (base : Option String) (already : Nat) :
    let p := Watcher.poller url period
    let w : Watcher := ⟨roster, notifier, sound, base.map fun b => ⟨b, min already maxUnread⟩⟩
    let r := p.run ContactList.decode? busy cancel replies
    (∀ moves s acts, Stage.follow? ⟨w, []⟩ moves = some (s, acts) →
      pollsOf moves <+: r.acts.events →
      Announces w already r (payloadsOf p cancel replies r) moves s acts) ∧
    (∀ past t reply, p.delivered ContactList.decode? cancel t reply = none →
      ∀ (s : Stage) moves s' acts, s.pending = [] → s.follow? moves = some (s', acts) →
      pollsOf moves <+: (p.turn ContactList.decode? busy cancel past t reply).acts.events →
      s' = ⟨{ s.watcher with title := s.watcher.title.map (resetBy moves) }, []⟩ ∧
        callsOf moves = [] ∧ acts.countP WatchAct.isPlay = 0) := by
  intro p w r
  constructor
  · intro moves s acts hf hpolls
    have hw : ∀ t ∈ w.title, t.unread = min already maxUnread := by
      cases base <;> simp [w]
    exact announces_of_follow? hw (handed_run p busy cancel replies)
      (p.dealt_run ContactList.decode? busy cancel replies) hf hpolls
  · intro past t reply hnone s moves s' acts hp hf hpolls
    have hturn := p.handed_turn ContactList.decode? busy cancel past t reply
    have hempty : (p.turn ContactList.decode? busy cancel past t reply).handed = [] := by
      rw [hturn, hnone]
      split <;> rfl
    have hreports : reportsOf moves = [] := by
      have hprefix := hpolls.filterMap Poll.Act.handedOver?
      rw [← Run.handed, hempty] at hprefix
      exact List.prefix_nil.1 hprefix
    exact Stage.follow?_of_no_report hp hreports hf

/-- Two contacts with new messages, of which the first is counted before the title is reset and the
second after it; and on any other page a failed cycle, during which the title is reset. -/
theorem watching_announces_two_contacts :
    let p := Watcher.poller "/x" 100
    let cancel : Option Cancellation := some ⟨150, false⟩
    let w : Watcher := ⟨Roster.start none, some (Notifier.start .granted (.channel true)),
      some ⟨.vorbis⟩, some ⟨"Home", 0⟩⟩
    let list : ContactList := ⟨[("bob", ⟨none, none, "", 2, "", true⟩),
      ("carol", ⟨none, none, "", 1, "", true⟩)]⟩
    let body := "\x7b\"contacts\":\x7b\"bob\":\x7b\"messages\":2,\"newmessages\":1\x7d," ++
      "\"carol\":\x7b\"messages\":1,\"newmessages\":1\x7d\x7d\x7d"
    let failure : Reply := .after 5 (.error (.status 500))
    let replies : List Reply := [.after 20 (.ok body), failure]
    let r := p.run ContactList.decode? (fun _ => 7) cancel replies
    let calls := (alertsOf (w.roster.apply (some list)).2).map Move.fire
    let moves := (r.acts.events.take 6).map .poll ++ calls.take 3 ++ [.trigger .focus]
      ++ calls.drop 3 ++ (r.acts.events.drop 6).map .poll
    let failed := (p.turn ContactList.decode? (fun _ => 7) cancel [] 0 failure).acts.events.map
      Move.poll ++ [.trigger .blur]
    (∃ s acts, Stage.follow? ⟨w, []⟩ moves = some (s, acts) ∧ pollsOf moves = r.acts.events ∧
      unseen 0 moves = 1 ∧ Announces w 0 r (payloadsOf p cancel replies r) moves s acts) ∧
    (p.delivered ContactList.decode? cancel 0 failure = none ∧
      ∃ s acts, Stage.follow? ⟨{ w with title := some ⟨"Home", 5⟩ }, []⟩ failed = some (s, acts) ∧
        s = ⟨w, []⟩ ∧ callsOf failed = []) := by
  intro p cancel w list body failure replies r calls moves failed
  have hpromised := watching_announces "/x" 100 (fun _ => 7) cancel replies (Roster.start none)
    (some (Notifier.start .granted (.channel true))) (some ⟨.vorbis⟩) (some "Home") 0
  constructor
  · have hmade : (Stage.follow? ⟨w, []⟩ moves).isSome := by decide +kernel
    have hpolls : pollsOf moves = r.acts.events := by decide +kernel
    obtain ⟨⟨s, acts⟩, hf⟩ := Option.isSome_iff_exists.1 hmade
    have hunseen : unseen 0 moves = 1 := by decide +kernel
    exact ⟨s, acts, hf, hpolls, hunseen,
      hpromised.1 moves s acts hf (hpolls ▸ List.prefix_rfl)⟩
  · have hnone : p.delivered ContactList.decode? cancel 0 failure = none := by decide +kernel
    have hmade : (Stage.follow? ⟨{ w with title := some ⟨"Home", 5⟩ }, []⟩ failed).isSome := by
      decide +kernel
    have hpolls : pollsOf failed <+:
        (p.turn ContactList.decode? (fun _ => 7) cancel [] 0 failure).acts.events := by
      decide +kernel
    obtain ⟨⟨s, acts⟩, hf⟩ := Option.isSome_iff_exists.1 hmade
    obtain ⟨hs, hcalls, -⟩ := hpromised.2 [] 0 failure hnone _ failed s acts rfl hf hpolls
    exact ⟨hnone, s, acts, hf, hs, hcalls⟩

/-- What a watcher has come to when it was run: it shows all payloads, its notifier got one
notification for every contact with new messages in them, and the sound was played once for every
payload that has any. -/
theorem Watcher.run_announces (url : String) (period : Nat) (cancel : Option Cancellation)
    (triggers : Time.Timeline Cue.Trigger) (replies : List Reply) (roster : Roster)
    (notifier : Option Notifier) (sound : Option MailSound) (base : Option String) :
    let p := poller url period
    let w : Watcher := ⟨roster, notifier, sound, base.map UnreadTitle.start⟩
    let payloads :=
      payloadsOf p cancel replies (p.run ContactList.decode? (fun _ => 0) cancel replies)
    let changes := (roster.applyAll payloads).2
    let result := w.run url period cancel triggers replies
    result.1.roster = (roster.applyAll payloads).1 ∧
      result.1.notifier =
        notifier.map (notifyAll ((newsOf changes).map NewMessages.notification)) ∧
      result.2.1.events.countP WatchAct.isPlay =
        if sound.isSome then changes.countP (·.any Change.isNews) else 0 := by
  intro p w payloads changes result
  obtain ⟨moves, acts, hf, hpolls, hacts⟩ := w.run_eq_follow? url period cancel triggers replies
  have hw : ∀ t ∈ w.title, t.unread = min 0 maxUnread := by
    cases base <;> simp [w, UnreadTitle.start]
  have hkept := announces_of_follow? hw (handed_run p (fun _ => 0) cancel replies)
    (p.dealt_run ContactList.decode? (fun _ => 0) cancel replies) hf (hpolls ▸ List.prefix_rfl)
  obtain ⟨-, hreports⟩ := hkept.whole hpolls
  obtain ⟨hnotifier, -, hplays⟩ := hkept.announced rfl
  have hroster := hkept.inStep.roster
  have hopening : (w.opening url period).countP WatchAct.isPlay = 0 := by
    cases hs : w.sound <;>
      simp [opening, hs, List.countP_map, Function.comp_def, WatchAct.isPlay]
  rw [hreports] at hnotifier hplays hroster
  refine ⟨hroster, hnotifier, ?_⟩
  show (w.run url period cancel triggers replies).2.1.events.countP WatchAct.isPlay = _
  rw [hacts, List.countP_append, hopening, Nat.zero_add]
  exact hplays

end PeerWatch.Presence
