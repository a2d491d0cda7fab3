import Mathlib.Data.List.Basic
import PeerWatch.Cue.Notification

/-!
# What arrives at a listener

A notifier is asked again and again to notify or to show something, and at some time nobody listens
any more. What arrives does so once and in the order of the calls. The notifier tells of what it sent
with permission, and counts that; it does not know whether somebody still listens.
-/

namespace PeerWatch.Cue

/-- What happens to a notifier. -/
inductive NotifierCall
  | notify (n : Notification)
  | «show» (n : Notification)
  /-- The listener goes away. -/
  | close
  deriving DecidableEq, Repr

/-- What a call has led to. -/
structure CallEffect where
  call : NotifierCall
  /-- The answer of a call that gives one. -/
  told : Option Bool
  /-- What arrived at the listener, in order. -/
  arrived : List Notification
  deriving DecidableEq, Repr

namespace Notifier

def perform (s : Notifier) : NotifierCall → Notifier × Option Bool
  | .notify n =>
    let (after, told) := s.notify n
    (after, some told)
  | .show n => (s.show n, none)
  | .close => (s.close, none)

def performAll (s : Notifier) : List NotifierCall → Notifier × List CallEffect
  | [] => (s, [])
  | call :: rest =>
    let (after, told) := s.perform call
    let (last, effects) := after.performAll rest
    (last, ⟨call, told, after.received.drop s.received.length⟩ :: effects)

end Notifier

/-! ## What a call should lead to -/

namespace NotifierCall

def isNotify : NotifierCall → Bool
  | .notify _ => true
  | _ => false

/-- The notification that a call hands to the channel, if any. -/
def sent? (permission : Permission) : NotifierCall → Option Notification
  | .notify n => if permission = .granted then some n else none
  | .show n => some n
  | .close => none

def answer? (permission : Permission) : NotifierCall → Option Bool
  | .notify _ => some (permission = .granted)
  | _ => none

/-- What a call leads to, depending on whether somebody listens. -/
def effect (permission : Permission) (listening : Bool) (call : NotifierCall) : CallEffect where
  call := call
  told := call.answer? permission
  arrived := if listening then (call.sent? permission).toList else []

end NotifierCall

namespace CallEffect

/-- The call is a notification, and was told to be shown. -/
def notified (e : CallEffect) : Bool := e.told = some true

/-- The call is a notification, and it arrived. -/
def reached (e : CallEffect) : Bool := e.call.isNotify && ! e.arrived.isEmpty

end CallEffect

/-! ## One call -/

variable {s : Notifier} {listening : Bool} {call : NotifierCall} {permission : Permission}

namespace Notifier

theorem show_channel (h : s.outlet = .channel listening) (n : Notification) :
    s.show n = { s with received := s.received ++ if listening then [n] else [] } := by
  obtain ⟨_, outlet, received, _, _⟩ := s
  obtain rfl : outlet = .channel listening := h
  cases listening with
  | true => rfl
  | false =>
      rw [if_neg Bool.false_ne_true, List.append_nil]
      rfl

theorem close_channel (h : s.outlet = .channel listening) :
    s.close = { s with outlet := .channel false } := by
  unfold close
  rw [h]

theorem notify_granted (h : s.permission = .granted) (n : Notification) :
    s.notify n = ({ s.show n with sent := (s.show n).sent + 1 }, true) := by
  unfold notify
  rw [if_pos h]

theorem notify_refused (h : s.permission ≠ .granted) (n : Notification) :
    s.notify n = ({ s with logs := s.logs ++ [suppressedEvent n] }, false) := by
  unfold notify
  rw [if_neg h]

/-- What a call makes of a notifier that is bound to a channel. -/
structure Performed (s : Notifier) (listening : Bool) (call : NotifierCall) (after : Notifier)
    (told : Option Bool) : Prop where
  told : told = call.answer? s.permission
  received : after.received = s.received ++ (call.effect s.permission listening).arrived
  sent : after.sent = s.sent + [call.effect s.permission listening].countP (·.notified)
  permission : after.permission = s.permission
  outlet : after.outlet = .channel (listening && call ≠ .close)

theorem performed_notify (h : s.outlet = .channel listening) (n : Notification) :
    Performed s listening (.notify n) (s.notify n).1 (some (s.notify n).2) := by
  by_cases hgranted : s.permission = .granted
  · rw [notify_granted hgranted, show_channel h]
    constructor
    case told => simp [NotifierCall.answer?, hgranted]
    case received => simp [NotifierCall.effect, NotifierCall.sent?, hgranted]
    case sent =>
      simp [NotifierCall.effect, NotifierCall.answer?, CallEffect.notified, hgranted]
    case permission => rfl
    case outlet => simpa using h
  · rw [notify_refused hgranted]
    constructor
    case told => simp [NotifierCall.answer?, hgranted]
    case received => simp [NotifierCall.effect, NotifierCall.sent?, hgranted]
    case sent =>
      simp [NotifierCall.effect, NotifierCall.answer?, CallEffect.notified, hgranted]
    case permission => rfl
    case outlet => simpa using h

theorem performed_show (h : s.outlet = .channel listening) (n : Notification) :
    Performed s listening (.show n) (s.show n) none := by
  rw [show_channel h]
  constructor
  case told => rfl
  case received => rfl
  case sent => rfl
  case permission => rfl
  case outlet => simpa using h

theorem performed_close (h : s.outlet = .channel listening) :
    Performed s listening .close s.close none := by
  rw [close_channel h]
  constructor
  case told => rfl
  case received => simp [NotifierCall.effect, NotifierCall.sent?]
  case sent => rfl
  case permission => rfl
  case outlet => simp

theorem performed (h : s.outlet = .channel listening) (call : NotifierCall) :
    Performed s listening call (s.perform call).1 (s.perform call).2 := by
  cases call with
  | notify n => exact performed_notify h n
  | «show» n => exact performed_show h n
  | close => exact performed_close h

/-! ## All calls -/

theorem performAll_cons (h : s.outlet = .channel listening) (call : NotifierCall)
    (rest : List NotifierCall) :
    s.performAll (call :: rest) =
      let later := (s.perform call).1.performAll rest
      (later.1, call.effect s.permission listening :: later.2) := by
  have hcall := performed h call
  have hdrop : (s.perform call).1.received.drop s.received.length =
      (call.effect s.permission listening).arrived := by
    rw [hcall.received, List.drop_left]
  have hopen : s.performAll (call :: rest) =
      (((s.perform call).1.performAll rest).1,
        ⟨call, (s.perform call).2, (s.perform call).1.received.drop s.received.length⟩ ::
          ((s.perform call).1.performAll rest).2) := rfl
  rw [hopen, hdrop, hcall.told]
  rfl

theorem effects_unheard (h : s.outlet = .channel false) (calls : List NotifierCall) :
    (s.performAll calls).2 = calls.map (·.effect s.permission false) := by
  induction calls generalizing s with
  | nil => rfl
  | cons call calls ih =>
      have hcall := performed h call
      rw [performAll_cons h, List.map_cons, ← hcall.permission]
      exact congrArg _ (ih hcall.outlet)

/-- The effects of calls that somebody listens to at first: from the first close on, nothing
arrives. -/
theorem effects_heard (h : s.outlet = .channel true) (calls : List NotifierCall) :
    (s.performAll calls).2 =
      (calls.takeWhile (· ≠ .close)).map (·.effect s.permission true) ++
        (calls.dropWhile (· ≠ .close)).map (·.effect s.permission false) := by
  induction calls generalizing s with
  | nil => rfl
  | cons call calls ih =>
      have hcall := performed h call
      rw [performAll_cons h]
      by_cases hclose : call = .close
      · subst hclose
        have hrest := effects_unheard (s := (s.perform .close).1) hcall.outlet calls
        rw [hcall.permission] at hrest
        simp only [hrest]
        rfl
      · have houtlet : (s.perform call).1.outlet = .channel true := by
          rw [hcall.outlet]
          simp [hclose]
        have hrest := ih houtlet
        rw [hcall.permission] at hrest
        simp only [hrest]
        rw [List.takeWhile_cons_of_pos (by simpa using hclose),
          List.dropWhile_cons_of_pos (by simpa using hclose)]
        rfl

/-- What arrives and what is counted is the sum of what the single calls lead to. -/
theorem performAll_sums (h : s.outlet = .channel listening) (calls : List NotifierCall) :
    (s.performAll calls).1.received =
        s.received ++ (s.performAll calls).2.flatMap (·.arrived) ∧
      (s.performAll calls).1.sent = s.sent + (s.performAll calls).2.countP (·.notified) := by
  induction calls generalizing s listening with
  | nil => exact ⟨(List.append_nil _).symm, rfl⟩
  | cons call calls ih =>
      have hcall := performed h call
      obtain ⟨hreceived, hsent⟩ := ih hcall.outlet
      rw [hcall.received, List.append_assoc] at hreceived
      rw [hcall.sent, List.countP_singleton] at hsent
      rw [performAll_cons h, List.flatMap_cons, List.countP_cons]
      refine ⟨hreceived, ?_⟩
      rw [hsent]
      omega

end Notifier

/-! ## Answers and deliveries -/

namespace NotifierCall

theorem notified_effect_iff :
    (call.effect permission listening).notified = true ↔
      permission = .granted ∧ call.isNotify = true := by
  cases call <;> simp [effect, answer?, isNotify, CallEffect.notified]

theorem reached_effect_heard (permission : Permission) (call : NotifierCall) :
    (call.effect permission true).reached = (call.effect permission true).notified := by
  cases call with
  | notify n =>
      by_cases h : permission = .granted <;>
        simp [effect, answer?, sent?, isNotify, CallEffect.reached, CallEffect.notified, h]
  | «show» n => rfl
  | close => rfl

theorem reached_effect_unheard (permission : Permission) (call : NotifierCall) :
    (call.effect permission false).reached = false := by
  simp [effect, CallEffect.reached]

theorem flatMap_arrived_heard (permission : Permission) (calls : List NotifierCall) :
    (calls.map (·.effect permission true)).flatMap (·.arrived) =
      calls.filterMap (·.sent? permission) := by
  rw [List.flatMap_map, List.filterMap_eq_flatMap_toList]
  rfl

theorem flatMap_arrived_unheard (permission : Permission) (calls : List NotifierCall) :
    (calls.map (·.effect permission false)).flatMap (·.arrived) = [] := by
  rw [List.flatMap_map, List.flatMap_eq_nil_iff]
  intro _ _
  rfl

end NotifierCall

/-- A notification is asked for with permission when nobody listens any more. -/
def NotifiesUnheard (permission : Permission) (calls : List NotifierCall) : Prop :=
  permission = .granted ∧ ∃ call ∈ calls.dropWhile (· ≠ .close), call.isNotify = true

instance (permission : Permission) (calls : List NotifierCall) :
    Decidable (NotifiesUnheard permission calls) := inferInstanceAs (Decidable (_ ∧ _))

theorem not_notifiesUnheard_iff {calls : List NotifierCall} :
    ¬ NotifiesUnheard permission calls ↔
      ∀ call ∈ calls.dropWhile (· ≠ .close), (call.effect permission false).notified = false := by
  unfold NotifiesUnheard
  simp only [← Bool.not_eq_true, NotifierCall.notified_effect_iff]
  constructor
  · rintro hnone call hcall ⟨hgranted, hnotify⟩
    exact hnone ⟨hgranted, call, hcall, hnotify⟩
  · rintro hnone ⟨hgranted, call, hcall, hnotify⟩
    exact hnone call hcall ⟨hgranted, hnotify⟩

/-- Every call that somebody listens to brings its notification to the listener, if it is shown
whatever the permission or allowed; after the first close nothing arrives. So what arrives does so
once and in the order of the calls. The answers of a channel's notifier and its count follow the
permission alone: they tell what has arrived if and only if no notification is asked for with
permission when nobody listens any more. -/
theorem answers_fit_deliveries_iff (permission : Permission) (calls : List NotifierCall) :
    let run := (Notifier.start permission (.channel true)).performAll calls
    run.2 = (calls.takeWhile (· ≠ .close)).map (·.effect permission true) ++
        (calls.dropWhile (· ≠ .close)).map (·.effect permission false) ∧
      run.1.received = run.2.flatMap (·.arrived) ∧
      run.1.received = (calls.takeWhile (· ≠ .close)).filterMap (·.sent? permission) ∧
      ((∀ e ∈ run.2, e.notified = e.reached) ↔ ¬ NotifiesUnheard permission calls) ∧
      (run.1.sent = run.2.countP (·.reached) ↔ ¬ NotifiesUnheard permission calls) := by
  intro run
  have heffects : run.2 = (calls.takeWhile (· ≠ .close)).map (·.effect permission true) ++
      (calls.dropWhile (· ≠ .close)).map (·.effect permission false) :=
    Notifier.effects_heard rfl calls
  obtain ⟨hreceived, hsent⟩ :=
    Notifier.performAll_sums (s := .start permission (.channel true)) rfl calls
  have hreceived' : run.1.received = run.2.flatMap (·.arrived) := hreceived
  have hsent' : run.1.sent = run.2.countP (·.notified) := hsent.trans (Nat.zero_add _)
  refine ⟨heffects, hreceived', ?_, ?_, ?_⟩
  · rw [hreceived', heffects, List.flatMap_append, NotifierCall.flatMap_arrived_heard,
      NotifierCall.flatMap_arrived_unheard, List.append_nil]
  · rw [heffects, not_notifiesUnheard_iff, List.forall_mem_append, List.forall_mem_map,
      List.forall_mem_map]
    simp only [NotifierCall.reached_effect_heard, NotifierCall.reached_effect_unheard]
    exact and_iff_right fun _ _ => trivial
  · have hearly : ((calls.takeWhile (· ≠ .close)).map (·.effect permission true)).countP
          (·.reached) =
        ((calls.takeWhile (· ≠ .close)).map (·.effect permission true)).countP (·.notified) := by
      rw [List.countP_map, List.countP_map]
      apply List.countP_congr
      intro call _
      simp only [Function.comp_apply, NotifierCall.reached_effect_heard]
    have hlate : ((calls.dropWhile (· ≠ .close)).map (·.effect permission false)).countP
        (·.reached) = 0 := by
      rw [List.countP_map, List.countP_eq_zero]
      intro call _
      simp [NotifierCall.reached_effect_unheard]
    rw [hsent', heffects, List.countP_append, List.countP_append, hearly, hlate,
      not_notifiesUnheard_iff, Nat.add_left_cancel_iff, List.countP_map, List.countP_eq_zero]
    simp only [Function.comp_apply, Bool.not_eq_true]

/-- The notifier tells of a notification and counts it that nobody got any more. -/
theorem notification_told_without_listener :
    let run := (Notifier.start .granted (.channel true)).performAll
      [.close, .notify (.make "t" "b" "x" none)]
    run.2.map (·.told) = [none, some true] ∧ run.1.received = [] ∧ run.1.sent = 1 ∧
      ¬ (∀ e ∈ run.2, e.notified = e.reached) ∧ run.1.sent ≠ run.2.countP (·.reached) := by
  decide

end PeerWatch.Cue
