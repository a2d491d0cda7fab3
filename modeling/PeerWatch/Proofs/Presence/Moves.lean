import Mathlib.Data.List.DropRight
import PeerWatch.Presence.Stage

/-!
# What one move does to the page

A move changes little, and what it leaves alone is as important as what it changes. All that a move
can do is said in `step_cases`; the lemmas before it say what calls and resets do to the page.
-/

namespace PeerWatch.Presence

open PeerWatch.Cue (Notification Notifier Trigger UnreadTitle)

/-! ## Parts of the page -/

/-- Whether the sound is played. -/
def WatchAct.isPlay : WatchAct → Bool
  | .player .play => true
  | _ => false

/-- Notifications passed on in order, without what the notifier tells of them. -/
def notifyAll (notes : List Notification) (s : Notifier) : Notifier :=
  notes.foldl (fun s n => (s.notify n).1) s

@[simp] theorem notifyAll_nil (s : Notifier) : notifyAll [] s = s := rfl

theorem notifyAll_append (first rest : List Notification) (s : Notifier) :
    notifyAll (first ++ rest) s = notifyAll rest (notifyAll first s) := List.foldl_append

namespace Watcher

variable (w : Watcher) (a : Alert) (t : Trigger)

/-- A call reaches the notifier or the title, if there is one, and nothing else. -/
theorem fire_eq :
    (w.fire a).1 =
      { w with
        notifier := w.notifier.map (notifyAll a.notification?.toList)
        title := if a = .count then w.title.map (·.add 1) else w.title } := by
  obtain ⟨roster, notifier, sound, title⟩ := w
  cases a with
  | notify n => cases notifier <;> simp [fire, announce, Alert.notification?, notifyAll]
  | count => cases title <;> cases notifier <;> simp [fire, countUnread, Alert.notification?]
  | play => cases notifier <;> simp [fire, Alert.notification?]
  | note e => cases notifier <;> simp [fire, Alert.notification?]

theorem countP_isPlay_fire :
    (w.fire a).2.countP WatchAct.isPlay = if a = .play ∧ w.sound.isSome then 1 else 0 := by
  cases a with
  | notify n =>
      cases h : w.notifier with
      | none => simp [fire, announce, h]
      | some s =>
          have hrecorded : ((if (s.notify n).2 then [WatchAct.record .notification] else []).countP
              WatchAct.isPlay) = 0 := by
            split <;> simp [WatchAct.isPlay]
          simp only [fire, announce, h, List.countP_append, List.countP_map, hrecorded]
          simp [Function.comp_def, WatchAct.isPlay]
  | count => cases h : w.title <;> simp [fire, countUnread, h, WatchAct.isPlay]
  | play => cases h : w.sound <;> simp [fire, h, WatchAct.isPlay]
  | note e => simp [fire, WatchAct.isPlay]

theorem reset_eq : (w.reset t).1 = { w with title := w.title.map UnreadTitle.reset } := by
  cases h : w.title with
  | none =>
      simp only [reset, h, Option.map_none]
      rw [← h]
  | some title => simp [reset, h, UnreadTitle.handle]

theorem countP_isPlay_reset : (w.reset t).2.countP WatchAct.isPlay = 0 := by
  cases h : w.title <;> simp [reset, h, WatchAct.isPlay]

end Watcher

/-! ## One move -/

namespace Stage

variable {s s' : Stage} {m : Move} {acts : List WatchAct}

/-- All that a move can do. The poller moves on when no call is left to be made: it applies a
report, which leaves new calls, or it changes nothing. A call is made in its turn. A reset comes at
any time. -/
theorem step_cases (h : s.step? m = some (s', acts)) :
    (∃ report, m = .poll (.handler report) ∧ s.pending = [] ∧
      s' = ⟨{ s.watcher with roster := (s.watcher.roster.apply report).1 },
        alertsOf (s.watcher.roster.apply report).2⟩ ∧
      acts = [.poll (.handler report)]) ∨
    (∃ a, m = .poll a ∧ a.handedOver? = none ∧ s.pending = [] ∧ s' = s ∧
      (acts = [.poll a] ∨ acts = [.request s.watcher.screen])) ∨
    (∃ a, m = .fire a ∧ s.pending = a :: s'.pending ∧ s'.watcher = (s.watcher.fire a).1 ∧
      acts = (s.watcher.fire a).2) ∨
    (∃ t, m = .trigger t ∧ s' = ⟨(s.watcher.reset t).1, s.pending⟩ ∧
      acts = (s.watcher.reset t).2) := by
  cases m with
  | poll a =>
      by_cases hp : s.pending = []
      · have hs : (⟨s.watcher, []⟩ : Stage) = s := by rw [← hp]
        cases a <;> simp [step?, hp, Watcher.take, hs] at h <;> obtain ⟨rfl, rfl⟩ := h <;>
          simp [Poll.Act.handedOver?, hp]
      · simp [step?, hp] at h
  | fire a =>
      refine .inr (.inr (.inl ?_))
      cases hp : s.pending with
      | nil => simp [step?, hp] at h
      | cons first rest =>
          by_cases ha : a = first
          · subst ha
            simp [step?, hp] at h
            obtain ⟨rfl, rfl⟩ := h
            exact ⟨a, rfl, rfl, rfl, rfl⟩
          · simp [step?, hp, ha] at h
  | trigger t =>
      simp [step?] at h
      obtain ⟨rfl, rfl⟩ := h
      exact .inr (.inr (.inr ⟨t, rfl, rfl, rfl⟩))

/-! ## Many moves -/

theorem follow?_append (s : Stage) (first rest : List Move) :
    s.follow? (first ++ rest) =
      (s.follow? first).bind fun r =>
        (r.1.follow? rest).map fun r' => (r'.1, r.2 ++ r'.2) := by
  induction first generalizing s with
  | nil => simp [follow?]
  | cons m first ih =>
      rw [List.cons_append, follow?, follow?]
      cases hm : s.step? m with
      | none => rfl
      | some r =>
          simp only [Option.bind_eq_bind, Option.bind_some, ih]
          cases hf : r.1.follow? first with
          | none => rfl
          | some r' =>
              cases hr : r'.1.follow? rest <;> simp [hr]

theorem follow?_concat {s s' : Stage} {moves : List Move} {m : Move} {acts : List WatchAct}
    (h : s.follow? (moves ++ [m]) = some (s', acts)) :
    ∃ before done last, s.follow? moves = some (before, done) ∧
      before.step? m = some (s', last) ∧ acts = done ++ last := by
  rw [follow?_append] at h
  cases hs : s.follow? moves with
  | none => simp [hs] at h
  | some before =>
      cases hm : before.1.step? m with
      | none => simp [hs, follow?, hm] at h
      | some after =>
          simp [hs, follow?, hm] at h
          obtain ⟨rfl, rfl⟩ := h
          exact ⟨before.1, before.2, after.2, rfl, hm, rfl⟩

/-- The calls that are left can all be made, one after the other. -/
theorem follow?_fireAll (w : Watcher) (calls : List Alert) :
    follow? ⟨w, calls⟩ (calls.map .fire) =
      some (⟨(w.fireAll calls).1, []⟩, (w.fireAll calls).2) := by
  induction calls generalizing w with
  | nil => rfl
  | cons a calls ih => simp [follow?, step?, ih, Watcher.fireAll]

end Stage

/-! ## What is among the moves -/

namespace Move

/-- The act of the poller that a move is. -/
def poll? : Move → Option (Poll.Act ContactList)
  | .poll a => some a
  | _ => none

/-- The call that a move makes. -/
def fired? : Move → Option Alert
  | .fire a => some a
  | _ => none

/-- Whether a move resets the title. -/
def isReset : Move → Bool
  | .trigger _ => true
  | _ => false

end Move

/-- The acts of the poller among moves. -/
def pollsOf (moves : List Move) : List (Poll.Act ContactList) := moves.filterMap Move.poll?

/-- The reports among moves. -/
def reportsOf (moves : List Move) : List (Option ContactList) :=
  (pollsOf moves).filterMap Poll.Act.handedOver?

/-- The calls that are made by moves. -/
def callsOf (moves : List Move) : List Alert := moves.filterMap Move.fired?

/-- The number of times that new messages were counted since the last reset, before which there were
some already. -/
def unseen (already : Nat) (moves : List Move) : Nat :=
  (if moves.any Move.isReset then 0 else already) +
    (callsOf (moves.rtakeWhile fun m => !m.isReset)).count .count

section Append

variable (moves others : List Move)

@[simp] theorem pollsOf_append : pollsOf (moves ++ others) = pollsOf moves ++ pollsOf others :=
  List.filterMap_append

@[simp] theorem reportsOf_append :
    reportsOf (moves ++ others) = reportsOf moves ++ reportsOf others := by
  simp [reportsOf]

@[simp] theorem callsOf_append : callsOf (moves ++ others) = callsOf moves ++ callsOf others :=
  List.filterMap_append

end Append

@[simp] theorem pollsOf_poll (a : Poll.Act ContactList) : pollsOf [.poll a] = [a] := rfl

@[simp] theorem pollsOf_fire (a : Alert) : pollsOf [.fire a] = [] := rfl

@[simp] theorem pollsOf_trigger (t : Trigger) : pollsOf [.trigger t] = [] := rfl

@[simp] theorem callsOf_poll (a : Poll.Act ContactList) : callsOf [.poll a] = [] := rfl

@[simp] theorem callsOf_fire (a : Alert) : callsOf [.fire a] = [a] := rfl

@[simp] theorem callsOf_trigger (t : Trigger) : callsOf [.trigger t] = [] := rfl

@[simp] theorem reportsOf_handler (report : Option ContactList) :
    reportsOf [.poll (.handler report)] = [report] := rfl

@[simp] theorem reportsOf_fire (a : Alert) : reportsOf [.fire a] = [] := rfl

@[simp] theorem reportsOf_trigger (t : Trigger) : reportsOf [.trigger t] = [] := rfl

theorem reportsOf_poll {a : Poll.Act ContactList} (h : a.handedOver? = none) :
    reportsOf [.poll a] = [] := by
  simp [reportsOf, h]

@[simp] theorem pollsOf_map_fire (calls : List Alert) : pollsOf (calls.map .fire) = [] := by
  simp [pollsOf, List.filterMap_map, Function.comp_def, Move.poll?]

theorem unseen_concat_trigger (already : Nat) (moves : List Move) (t : Trigger) :
    unseen already (moves ++ [.trigger t]) = 0 := by
  simp [unseen, Move.isReset, callsOf]

theorem unseen_concat (already : Nat) (moves : List Move) {m : Move} (h : m.isReset = false) :
    unseen already (moves ++ [m]) = unseen already moves + (callsOf [m]).count .count := by
  simp [unseen, h]
  omega

end PeerWatch.Presence
