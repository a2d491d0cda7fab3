import PeerWatch.Proofs.Presence.Moves

/-!
# List, notifications, title and sound in step

The four things that a report touches are updated at different moments. What they have come to is
told here from the moves that were made: `InStep` holds at the start and is kept by every move, so
it holds whenever the page is looked at.
-/

namespace PeerWatch.Presence

open PeerWatch.Cue (Notification Notifier Trigger UnreadTitle maxUnread)

/-! ## The calls for reports -/

/-- The new messages that the changes of reports tell of, in order. -/
def newsOf (changes : List (List Change)) : List NewMessages :=
  changes.flatten.filterMap Change.news?

theorem alertsOf_notifications (changes : List Change) :
    (alertsOf changes).filterMap Alert.notification? =
      (changes.filterMap Change.news?).map NewMessages.notification := by
  have hend : (if changes.any Change.isNews then [Alert.play] else []).filterMap
      Alert.notification? = [] := by
    split <;> rfl
  rw [alertsOf, List.filterMap_append, hend, List.append_nil]
  clear hend
  induction changes with
  | nil => rfl
  | cons c changes ih =>
      rw [List.flatMap_cons, List.filterMap_append, ih]
      cases c <;> simp [Change.alerts, Change.news?, Alert.notification?, List.filterMap_cons]

theorem alertsOf_count (changes : List Change) :
    (alertsOf changes).count .count = (changes.filterMap Change.news?).length := by
  have hend : (if changes.any Change.isNews then [Alert.play] else []).count .count = 0 := by
    split <;> simp
  rw [alertsOf, List.count_append, hend, Nat.add_zero]
  clear hend
  induction changes with
  | nil => rfl
  | cons c changes ih =>
      rw [List.flatMap_cons, List.count_append, ih]
      cases c <;> simp [Change.alerts, Change.news?, List.filterMap_cons, Nat.add_comm]

theorem alertsOf_play (changes : List Change) :
    (alertsOf changes).count .play = if changes.any Change.isNews then 1 else 0 := by
  have hchange : (changes.flatMap Change.alerts).count .play = 0 := by
    rw [List.count_eq_zero, List.mem_flatMap]
    rintro ⟨c, -, hc⟩
    cases c <;> simp [Change.alerts] at hc
  rw [alertsOf, List.count_append, hchange, Nat.zero_add]
  split <;> simp

theorem flatMap_alertsOf_notifications (changes : List (List Change)) :
    (changes.flatMap alertsOf).filterMap Alert.notification? =
      (newsOf changes).map NewMessages.notification := by
  induction changes with
  | nil => rfl
  | cons first changes ih =>
      rw [List.flatMap_cons, List.filterMap_append, ih, alertsOf_notifications]
      simp [newsOf]

theorem flatMap_alertsOf_count (changes : List (List Change)) :
    (changes.flatMap alertsOf).count .count = (newsOf changes).length := by
  induction changes with
  | nil => rfl
  | cons first changes ih =>
      rw [List.flatMap_cons, List.count_append, ih, alertsOf_count]
      simp [newsOf]

theorem flatMap_alertsOf_play (changes : List (List Change)) :
    (changes.flatMap alertsOf).count .play = changes.countP (·.any Change.isNews) := by
  induction changes with
  | nil => rfl
  | cons first changes ih =>
      rw [List.flatMap_cons, List.count_append, ih, alertsOf_play, List.countP_cons]
      omega

theorem Roster.applyAll_concat (r : Roster) (reports : List (Option ContactList))
    (report : Option ContactList) :
    r.applyAll (reports ++ [report]) =
      (((r.applyAll reports).1.apply report).1,
        (r.applyAll reports).2 ++ [((r.applyAll reports).1.apply report).2]) := by
  induction reports generalizing r with
  | nil => rfl
  | cons first reports ih => simp [applyAll, ih]

/-! ## In step -/

/-- What the page has come to, and what was done to it, after moves from a page `w` whose title had
counted some messages already. -/
structure InStep (w : Watcher) (already : Nat) (moves : List Move) (s : Stage)
    (acts : List WatchAct) : Prop where
  /-- The list is the one that all reports lead to, one after the other. -/
  roster : s.watcher.roster = (w.roster.applyAll (reportsOf moves)).1
  /-- The calls that were made, and then those that are left, are the calls of every report in
  order. -/
  calls : callsOf moves ++ s.pending = (w.roster.applyAll (reportsOf moves)).2.flatMap alertsOf
  /-- While calls are left, the poller has done nothing since the report that they belong to. -/
  waits : s.pending ≠ [] → ∃ report, (pollsOf moves).getLast? = some (.handler report)
  /-- The notifier got exactly the notifications of the calls that were made. -/
  notifier : s.watcher.notifier =
    w.notifier.map (notifyAll ((callsOf moves).filterMap Alert.notification?))
  /-- The title shows what was counted since the last reset, up to the largest count. -/
  title : s.watcher.title = w.title.map fun t => ⟨t.base, min (unseen already moves) maxUnread⟩
  sound : s.watcher.sound = w.sound
  /-- The sound, if there is one, was played whenever a call asked for it. -/
  plays : acts.countP WatchAct.isPlay = if w.sound.isSome then (callsOf moves).count .play else 0

variable {w : Watcher} {already : Nat} {moves : List Move} {s s' : Stage}
  {done acts : List WatchAct} {m : Move}

theorem InStep.start (h : ∀ t ∈ w.title, t.unread = min already maxUnread) :
    InStep w already [] ⟨w, []⟩ [] := by
  have htitle : w.title = w.title.map fun t => ⟨t.base, min (unseen already []) maxUnread⟩ := by
    cases ht : w.title with
    | none => rfl
    | some t => simp [unseen, callsOf, ← h t (by simp [ht])]
  constructor
  case roster => rfl
  case calls => rfl
  case waits => simp
  case notifier => cases w.notifier <;> simp [callsOf]
  case title => exact htitle
  case sound => rfl
  case plays => simp [callsOf]

theorem InStep.report (h : InStep w already moves s done) (hp : s.pending = [])
    (report : Option ContactList) :
    InStep w already (moves ++ [.poll (.handler report)])
      ⟨{ s.watcher with roster := (s.watcher.roster.apply report).1 },
        alertsOf (s.watcher.roster.apply report).2⟩
      (done ++ [.poll (.handler report)]) := by
  have hmade := h.calls
  rw [hp, List.append_nil] at hmade
  constructor
  case roster => rw [reportsOf_append, reportsOf_handler, Roster.applyAll_concat, h.roster]
  case calls =>
    rw [reportsOf_append, reportsOf_handler, Roster.applyAll_concat, h.roster]
    simp [hmade]
  case waits => exact fun _ => ⟨report, by simp⟩
  case notifier => simpa using h.notifier
  case title =>
    rw [unseen_concat already moves rfl]
    exact h.title
  case sound => exact h.sound
  case plays => simpa [WatchAct.isPlay] using h.plays

theorem InStep.idle (h : InStep w already moves s done) (hp : s.pending = [])
    {a : Poll.Act ContactList} (ha : a.handedOver? = none)
    (hplays : acts.countP WatchAct.isPlay = 0) :
    InStep w already (moves ++ [.poll a]) s (done ++ acts) := by
  constructor
  case roster => simpa [reportsOf_poll ha] using h.roster
  case calls => simpa [reportsOf_poll ha] using h.calls
  case waits => exact fun hne => absurd hp hne
  case notifier => simpa using h.notifier
  case title =>
    rw [unseen_concat already moves rfl]
    exact h.title
  case sound => exact h.sound
  case plays => simpa [hplays] using h.plays

theorem InStep.call (h : InStep w already moves s done) {a : Alert} {rest : List Alert}
    (hp : s.pending = a :: rest) :
    InStep w already (moves ++ [.fire a]) ⟨(s.watcher.fire a).1, rest⟩
      (done ++ (s.watcher.fire a).2) := by
  have hplays := s.watcher.countP_isPlay_fire a
  rw [Watcher.fire_eq]
  constructor
  case roster => simpa using h.roster
  case calls => simpa [hp] using h.calls
  case waits =>
    intro _
    obtain ⟨report, hlast⟩ := h.waits (by simp [hp])
    exact ⟨report, by simpa using hlast⟩
  case notifier =>
    show s.watcher.notifier.map (notifyAll a.notification?.toList) = _
    rw [h.notifier]
    cases a <;> cases w.notifier <;>
      simp [Alert.notification?, notifyAll_append, List.filterMap_cons]
  case title =>
    show (if a = .count then s.watcher.title.map (·.add 1) else s.watcher.title) = _
    rw [h.title, unseen_concat already moves rfl]
    cases w.title <;> cases a <;> simp [UnreadTitle.add]
    omega
  case sound => exact h.sound
  case plays =>
    rw [List.countP_append, hplays, h.plays, h.sound]
    cases w.sound <;> cases a <;> simp

theorem InStep.reset (h : InStep w already moves s done) (t : Trigger) :
    InStep w already (moves ++ [.trigger t]) ⟨(s.watcher.reset t).1, s.pending⟩
      (done ++ (s.watcher.reset t).2) := by
  rw [Watcher.reset_eq]
  constructor
  case roster => simpa using h.roster
  case calls => simpa using h.calls
  case waits =>
    intro hne
    obtain ⟨report, hlast⟩ := h.waits hne
    exact ⟨report, by simpa using hlast⟩
  case notifier => simpa using h.notifier
  case title =>
    rw [unseen_concat_trigger, h.title]
    cases w.title <;> simp [UnreadTitle.reset]
  case sound => exact h.sound
  case plays => simpa [Watcher.countP_isPlay_reset] using h.plays

/-- One move keeps a page in step. -/
theorem InStep.step (h : InStep w already moves s done) (hm : s.step? m = some (s', acts)) :
    InStep w already (moves ++ [m]) s' (done ++ acts) := by
  rcases Stage.step_cases hm with ⟨report, rfl, hp, rfl, rfl⟩ | ⟨a, rfl, ha, hp, rfl, hacts⟩ |
    ⟨a, rfl, hp, hs, rfl⟩ | ⟨t, rfl, rfl, rfl⟩
  · exact h.report hp report
  · have hplays : acts.countP WatchAct.isPlay = 0 := by
      rcases hacts with rfl | rfl <;> simp [WatchAct.isPlay]
    exact h.idle hp ha hplays
  · have hs' : s' = ⟨(s.watcher.fire a).1, s'.pending⟩ := by rw [← hs]
    rw [hs']
    exact h.call hp
  · exact h.reset t

/-- A page stays in step, whatever moves are made. -/
theorem InStep.follow (h : ∀ t ∈ w.title, t.unread = min already maxUnread)
    (hf : Stage.follow? ⟨w, []⟩ moves = some (s, acts)) : InStep w already moves s acts := by
  induction moves using List.reverseRecOn generalizing s acts with
  | nil =>
      simp [Stage.follow?] at hf
      obtain ⟨rfl, rfl⟩ := hf
      exact InStep.start h
  | append_singleton moves m ih =>
      obtain ⟨before, done, last, hbefore, hm, rfl⟩ := Stage.follow?_concat hf
      exact (ih hbefore).step hm

/-- With no call left, all the news of the reports were announced: the notifier got one notification
for each of them in order, each was counted, and the sound was played once for every report that has
some. -/
theorem InStep.announced (h : InStep w already moves s acts) (hp : s.pending = []) :
    let changes := (w.roster.applyAll (reportsOf moves)).2
    s.watcher.notifier =
        w.notifier.map (notifyAll ((newsOf changes).map NewMessages.notification)) ∧
      (callsOf moves).count .count = (newsOf changes).length ∧
      acts.countP WatchAct.isPlay =
        if w.sound.isSome then changes.countP (·.any Change.isNews) else 0 := by
  intro changes
  have hcalls : callsOf moves = changes.flatMap alertsOf := by
    rw [← h.calls, hp, List.append_nil]
  refine ⟨?_, ?_, ?_⟩
  · rw [h.notifier, hcalls, flatMap_alertsOf_notifications]
  · rw [hcalls, flatMap_alertsOf_count]
  · rw [h.plays, hcalls, flatMap_alertsOf_play]

/-- A title after the resets among moves. -/
def resetBy (moves : List Move) (t : UnreadTitle) : UnreadTitle :=
  if moves.any Move.isReset then t.reset else t

/-- Without a report nothing changes but the title, and the title only by resets. -/
theorem Stage.follow?_of_no_report (hp : s.pending = []) (hr : reportsOf moves = [])
    (hf : s.follow? moves = some (s', acts)) :
    s' = ⟨{ s.watcher with title := s.watcher.title.map (resetBy moves) }, []⟩ ∧
      callsOf moves = [] ∧ acts.countP WatchAct.isPlay = 0 := by
  induction moves using List.reverseRecOn generalizing s' acts with
  | nil =>
      simp [Stage.follow?] at hf
      obtain ⟨rfl, rfl⟩ := hf
      have htitle : s.watcher.title.map (resetBy []) = s.watcher.title := by
        cases s.watcher.title <;> rfl
      exact ⟨by rw [htitle, ← hp], rfl, rfl⟩
  | append_singleton moves m ih =>
      obtain ⟨before, done, last, hbefore, hm, rfl⟩ := Stage.follow?_concat hf
      rw [reportsOf_append, List.append_eq_nil_iff] at hr
      obtain ⟨hbefore, hcalls, hplays⟩ := ih hr.1 hbefore
      rcases Stage.step_cases hm with ⟨report, rfl, -, -, -⟩ | ⟨a, rfl, -, -, rfl, hlast⟩ |
        ⟨a, rfl, hpending, -, -⟩ | ⟨t, rfl, rfl, rfl⟩
      · simp at hr
      · have hquiet : last.countP WatchAct.isPlay = 0 := by
          rcases hlast with rfl | rfl <;> simp [WatchAct.isPlay]
        have hsame : resetBy (moves ++ [.poll a]) = resetBy moves := by
          funext t
          simp [resetBy, Move.isReset]
        exact ⟨by rw [hsame, hbefore], by simp [hcalls], by simp [hplays, hquiet]⟩
      · simp [hbefore] at hpending
      · refine ⟨?_, by simp [hcalls], by simp [hplays, Watcher.countP_isPlay_reset]⟩
        rw [Watcher.reset_eq, hbefore]
        cases s.watcher.title <;> cases hany : moves.any Move.isReset <;>
          simp [resetBy, hany, Move.isReset, UnreadTitle.reset]

end PeerWatch.Presence
