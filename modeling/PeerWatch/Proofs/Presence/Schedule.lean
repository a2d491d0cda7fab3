import PeerWatch.Presence.Watcher
import PeerWatch.Proofs.Poll.Contract
import PeerWatch.Proofs.Presence.Moves

/-!
# The moves of a run

A watcher that is run makes all calls of a report at once. This is one of the orders in which the
moves on the page can be made: `run_eq_follow?` gives its moves, among which are all acts of the
poller.
-/

namespace PeerWatch.Presence

open PeerWatch.Cue (Trigger)
open PeerWatch.Poll (Run Stays farewell)
open PeerWatch.Time (Timeline)

/-- The act of the poller that an event is. -/
def WatchEvent.poll? : WatchEvent → Option (Poll.Act ContactList)
  | .poll a => some a
  | .trigger _ => none

/-- The acts of the poller among events. -/
def pollsIn (events : Timeline WatchEvent) : List (Poll.Act ContactList) :=
  events.events.filterMap WatchEvent.poll?

@[simp] theorem pollsIn_cons_poll (t : Nat) (a : Poll.Act ContactList)
    (events : Timeline WatchEvent) : pollsIn ((t, .poll a) :: events) = a :: pollsIn events := rfl

@[simp] theorem pollsIn_cons_trigger (t : Nat) (x : Trigger) (events : Timeline WatchEvent) :
    pollsIn ((t, .trigger x) :: events) = pollsIn events := rfl

/-! ## Events as moves -/

theorem Watcher.step_eq_follow? (w : Watcher) (e : WatchEvent) :
    ∃ moves, Stage.follow? ⟨w, []⟩ moves = some (⟨(w.step e).1, []⟩, (w.step e).2) ∧
      pollsOf moves = e.poll?.toList := by
  cases e with
  | trigger t =>
      refine ⟨[.trigger t], ?_, rfl⟩
      simp [Stage.follow?, Stage.step?, Watcher.step]
  | poll a =>
      refine ⟨.poll a :: (w.take a).1.pending.map .fire, ?_, ?_⟩
      · have hcalls := Stage.follow?_fireAll (w.take a).1.watcher (w.take a).1.pending
        simp [Stage.follow?, Stage.step?, hcalls, Watcher.step]
      · show a :: pollsOf ((w.take a).1.pending.map .fire) = [a]
        rw [pollsOf_map_fire]

theorem Watcher.follow_eq_follow? (w : Watcher) (events : Timeline WatchEvent) :
    ∃ moves, Stage.follow? ⟨w, []⟩ moves =
        some (⟨(w.follow events).1, []⟩, (w.follow events).2.events) ∧
      pollsOf moves = pollsIn events := by
  induction events generalizing w with
  | nil => exact ⟨[], rfl, rfl⟩
  | cons e events ih =>
      obtain ⟨first, hfirst, hpolls⟩ := w.step_eq_follow? e.2
      obtain ⟨rest, hrest, hothers⟩ := ih (w.step e.2).1
      refine ⟨first ++ rest, ?_, ?_⟩
      · rw [Stage.follow?_append, hfirst, Option.bind_some, hrest]
        simp [Watcher.follow, Timeline.events, Timeline.allAt, Function.comp_def]
      · rw [pollsOf_append, hpolls, hothers]
        cases he : e.2.poll? <;> simp [pollsIn, Timeline.events, he]

/-! ## Events of a run -/

/-- Triggers between the acts of a poller leave them in their order. -/
theorem pollsIn_interleave (triggers : Timeline Trigger)
    (acts : Timeline (Poll.Act ContactList)) :
    pollsIn (Timeline.interleave (triggers.map fun (t, x) => (t, WatchEvent.trigger x))
      (acts.map fun (t, a) => (t, WatchEvent.poll a))) = acts.events := by
  unfold Timeline.interleave
  induction triggers generalizing acts with
  | nil => simp [pollsIn, Timeline.events, List.filterMap_map, Function.comp_def, WatchEvent.poll?]
  | cons x triggers ih =>
      induction acts with
      | nil => simpa using ih []
      | cons a acts iha =>
          by_cases hle : x.1 ≤ a.1
          · simpa [hle] using ih (a :: acts)
          · simpa [hle, Timeline.events] using iha

/-- No act of the poller is lost after its exit if it exits with its last act only. -/
theorem pollsIn_upTo {events : Timeline WatchEvent}
    (h : ∀ a ∈ (pollsIn events).dropLast, a.isExit = false) :
    pollsIn (events.upTo Watcher.isLast) = pollsIn events := by
  induction events with
  | nil => rfl
  | cons e events ih =>
      obtain ⟨t, e⟩ := e
      cases e with
      | trigger x => simpa [Timeline.upTo, Watcher.isLast] using ih h
      | poll a =>
          rw [pollsIn_cons_poll] at h ⊢
          by_cases hexit : a.isExit = true
          · have hnone : pollsIn events = [] := by
              by_contra hne
              have := h a (by simp [List.dropLast_cons_of_ne_nil hne])
              simp [hexit] at this
            rw [hnone]
            simp [Timeline.upTo, Watcher.isLast, hexit]
            rfl
          · have hlater : ∀ b ∈ (pollsIn events).dropLast, b.isExit = false := by
              intro b hb
              cases hp : pollsIn events with
              | nil => simp [hp] at hb
              | cons c rest => exact h b (by rw [hp] at hb ⊢; simp [hb])
            simpa [Timeline.upTo, Watcher.isLast, hexit] using ih hlater

theorem isExit_of_leavesLast {r : Run ContactList} (h : r.LeavesLast) :
    ∀ a ∈ r.acts.events.dropLast, a.isExit = false := by
  have hstays {acts : Timeline (Poll.Act ContactList)} (hs : Stays acts) :
      ∀ a ∈ acts.events, a.isExit = false := by
    intro a ha
    have := hs a ha
    cases a <;> simp_all [Poll.Act.isExit, Poll.Act.leaves]
  unfold Run.LeavesLast at h
  split at h
  · exact fun a ha => hstays h a (List.dropLast_subset _ ha)
  · next t unauthorized he =>
    obtain ⟨before, hb, hacts⟩ := h
    intro a ha
    rw [hacts, Timeline.events, List.map_append, List.dropLast_append_of_ne_nil] at ha
    · rw [List.mem_append] at ha
      rcases ha with ha | ha
      · exact hstays hb a ha
      · cases unauthorized <;> simp [farewell, Timeline.allAt] at ha
        simp [ha, Poll.Act.isExit]
    · cases unauthorized <;> simp [farewell, Timeline.allAt]

/-- What a watcher does when it is run is one order of moves with all acts of the poller. -/
theorem Watcher.run_eq_follow? (w : Watcher) (url : String) (period : Nat)
    (cancel : Option Poll.Cancellation) (triggers : Timeline Trigger)
    (replies : List Poll.Reply) :
    ∃ moves acts,
      Stage.follow? ⟨w, []⟩ moves =
        some (⟨(w.run url period cancel triggers replies).1, []⟩, acts) ∧
      pollsOf moves = ((poller url period).run ContactList.decode? (fun _ => 0) cancel
        replies).acts.events ∧
      (w.run url period cancel triggers replies).2.1.events = w.opening url period ++ acts := by
  have hexit := isExit_of_leavesLast
    ((poller url period).leavesLast_run ContactList.decode? (fun _ => 0) cancel replies)
  obtain ⟨moves, hmoves, hpolls⟩ := w.follow_eq_follow? _
  refine ⟨moves, _, hmoves, ?_, ?_⟩
  · rw [hpolls, pollsIn_upTo, pollsIn_interleave]
    rw [pollsIn_interleave]
    exact hexit
  · simp [run, Timeline.events, Timeline.allAt, Function.comp_def]

end PeerWatch.Presence
