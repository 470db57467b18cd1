import ReaderWriter.Proofs.Script.Leaving

/-!
# The lock drains

Between two steps somebody holds an access if anybody waits.  If whoever waits does nothing else,
every task that leaves makes the accesses held and the tasks waiting one fewer, in whatever order
they leave, until the lock is idle.  On the way each of those who waited is let in once.

The number of accesses held and tasks waiting is that of the requests less that of the returns, and
nobody asks for anything while tasks only leave.
-/

namespace ReaderWriter

variable {ε : Type}

theorem countP_gives (history : List (Event ε)) :
    history.countP Event.gives =
      history.countP (Event.returns .shared) + history.countP (Event.returns .exclusive) := by
  induction history with
  | nil => rfl
  | cons event earlier ih =>
      simp only [List.countP_cons, ih]
      cases event with
      | released task mode => cases mode <;> simp [Event.gives, Event.returns] <;> omega
      | _ => simp [Event.gives, Event.returns]

/-- Nobody asks for anything, so whoever waits no longer was let in. -/
theorem GivesBack.countP_grantsTo {s later : Scene ε} {count : Nat}
    (hgives : GivesBack s.history later.history count) (hs : s.Answers) (hlater : later.Answers)
    {task : Nat} {point target : Point} (hat : s.At task point) (htarget : later.At task target)
    (mode : Mode) :
    later.history.countP (Event.grantsTo task mode) + (target.awaits mode).toNat =
      s.history.countP (Event.grantsTo task mode) + (point.awaits mode).toNat := by
  obtain ⟨events, hevents, hquiet, _⟩ := hgives
  have hnone : events.countP (Event.requestsOf task mode) = 0 := by
    rw [List.countP_eq_zero]
    intro event hevent
    have hevent := hquiet event hevent
    cases event <;> simp_all [Event.requests, Event.requestsOf]
  have hrequests : later.history.countP (Event.requestsOf task mode) =
      s.history.countP (Event.requestsOf task mode) := by
    rw [hevents, List.countP_append, hnone, Nat.zero_add]
  have hbefore := hs task point hat mode
  have hafter := hlater task target htarget mode
  omega

namespace Script

/-- The accesses that the tasks hold. -/
def accessesHeld (m : State) : Nat :=
  ((view m).map (·.held.length)).sum

def tasksWaiting (m : State) : Nat :=
  (view m).countP (·.waits)

/-- The task waits for an access of the kind. -/
def waitsFor (m : State) (task : Nat) (mode : Mode) : Bool :=
  m.waiters.contains task && (m.tasks[task]?).any (·.point.awaits mode)

variable {s : Script} {m : State} {steps leaves : List Step}

theorem Balanced.accessesHeld_eq (hm : Balanced m) :
    accessesHeld m = m.lock.activeReaders + m.lock.writersInside := by
  have hview : (view m).map (·.held.length) =
      m.tasks.map fun t => t.own.holding.outermostFirst.length := by
    apply List.ext_getElem?
    intro index
    simp only [List.getElem?_map, view_getElem?, Option.map_map]
    rfl
  have hsum := sum_map_eq_sum_range
    (f := fun t : Task Hand => t.own.holding.outermostFirst.length) (l := m.tasks)
    (g := fun task => held m.history task .shared + held m.history task .exclusive) (by
      intro task t htask
      rw [hm.held_eq htask, hm.held_eq htask]
      exact length_eq_counts _)
  obtain ⟨hshared, hexclusive⟩ := hm.sum_held
  rw [accessesHeld, hview, hsum, Finset.sum_add_distrib, hshared, hexclusive]

/-- Between two steps the tasks that wait are those that stand in a call that waits. -/
theorem contains_eq_waits (s : Script) (steps : List Step) {task : Nat} {t : Task Hand}
    (htask : (s.after steps).tasks[task]? = some t) :
    (s.after steps).waiters.contains task = t.point.waits := by
  cases hcontains : (s.after steps).waiters.contains task with
  | false =>
      rw [(s.after_free steps htask hcontains).1]
      rfl
  | true =>
      obtain ⟨wait, hat⟩ := s.after_waits steps hcontains
      have hpoint : t.point = .waiting wait :=
        Option.some.inj ((Machine.scene_at htask).symm.trans hat)
      rw [hpoint]
      rfl

theorem waitsFor_eq (s : Script) (steps : List Step) {task : Nat} {t : Task Hand}
    (htask : (s.after steps).tasks[task]? = some t) (mode : Mode) :
    waitsFor (s.after steps) task mode = t.point.awaits mode := by
  rw [waitsFor, s.contains_eq_waits steps htask, htask]
  cases hpoint : t.point <;> simp [Point.waits, Point.awaits, hpoint]

theorem tasksWaiting_eq (s : Script) (steps : List Step) :
    tasksWaiting (s.after steps) = (s.after steps).scene.points.countP Point.waits := by
  have hview : (view (s.after steps)).map (·.waits) =
      (s.after steps).tasks.map (·.point.waits) := by
    apply List.ext_getElem?
    intro index
    simp only [List.getElem?_map, view_getElem?, Option.map_map]
    cases htask : (s.after steps).tasks[index]? with
    | none => rfl
    | some t => exact congrArg some (s.contains_eq_waits steps htask)
  have hcount := congrArg (List.countP id) hview
  rw [List.countP_map, List.countP_map] at hcount
  rw [tasksWaiting, Machine.scene, List.countP_map]
  exact hcount

/-- The accesses held and the tasks waiting are the requests less the returns. -/
theorem held_add_waiting (hstyle : s.style ≠ .raw) (steps : List Step) :
    accessesHeld (s.after steps) + tasksWaiting (s.after steps) +
        (s.after steps).history.countP Event.gives =
      (s.after steps).history.countP Event.requests := by
  have hm := s.reaches_after steps
  have hbalanced := hm.balanced hstyle
  have hanswered := (hm.run.counted (Scene.start_counted _ _)).answered
  have hreaders := hbalanced.accounts.readers
  have hwriters := hbalanced.accounts.writers
  have hadmits := Scene.countP_admits (s.after steps).history
  have hgives := countP_gives (s.after steps).history
  rw [hbalanced.accessesHeld_eq, tasksWaiting_eq]
  simp only [Machine.scene] at hanswered hreaders hwriters ⊢
  omega

/-- If anybody waits, somebody holds an access. -/
theorem accessesHeld_pos (hstyle : s.style ≠ .raw) (steps : List Step)
    (hwaiting : 0 < tasksWaiting (s.after steps)) : 0 < accessesHeld (s.after steps) := by
  have hm := s.reaches_after steps
  rw [tasksWaiting_eq] at hwaiting
  obtain ⟨point, hmem, hwaits⟩ := List.countP_pos_iff.mp hwaiting
  obtain ⟨task, hat⟩ := List.mem_iff_getElem?.mp hmem
  cases point with
  | waiting wait =>
      have htaken : (s.after steps).lock.exclusive = true :=
        hm.run.taken_of_stuck (s.after_stuck steps) hat
      rw [(hm.balanced hstyle).accessesHeld_eq]
      by_cases hempty : (s.after steps).lock.activeReaders = 0
      · rw [Lock.writersInside_of_writer htaken hempty]
        omega
      · omega
  | _ => simp [Point.waits] at hwaits

theorem exists_canLeave (hstyle : s.style ≠ .raw) (hfree : Unburdened (s.after steps))
    (hsome : 0 < accessesHeld (s.after steps) + tasksWaiting (s.after steps)) :
    ∃ name, s.CanLeave (s.after steps) name := by
  have hheld : 0 < accessesHeld (s.after steps) := by
    by_contra hnot
    exact hnot (accessesHeld_pos hstyle steps (by omega))
  obtain ⟨count, hcount, hpos⟩ := List.exists_mem_ne_zero_of_sum_ne_zero (Nat.ne_of_gt hheld)
  obtain ⟨task, hmem, rfl⟩ := List.mem_map.mp hcount
  obtain ⟨index, hindex⟩ := List.mem_iff_getElem?.mp hmem
  have hseen := hindex
  rw [view_getElem?] at hseen
  obtain ⟨t, htask, rfl⟩ := Option.map_eq_some_iff.mp hseen
  have hholds : t.own.holding.outermostFirst ≠ [] := List.ne_nil_of_length_pos (Nat.pos_of_ne_zero hpos)
  obtain ⟨name, hname⟩ := (s.reaches_after steps).attended.named index t htask (.inr hholds)
  refine ⟨name, index, _, hname, hindex, hholds, ?_⟩
  by_contra hwaits
  exact hholds (hfree index t htask (Bool.eq_true_of_not_eq_false hwaits)).1

/-! ## Leaving one after the other -/

/-- After some steps, further ones that hand a `leave` each to a task that can leave. -/
inductive Leaves (s : Script) : List Step → List Step → Prop
  | nobody (steps : List Step) : Leaves s steps []
  | next {steps leaves : List Step} {name : String} (value : Int)
      (hcan : s.CanLeave (s.after steps) name)
      (hleaves : Leaves s (steps ++ [leaveStep name value]) leaves) :
      Leaves s steps (leaveStep name value :: leaves)

theorem Leaves.givesBack (hleaves : s.Leaves steps leaves) (hstyle : s.style ≠ .raw)
    (hfree : Unburdened (s.after steps)) :
    Unburdened (s.after (steps ++ leaves)) ∧
      GivesBack (s.after steps).history (s.after (steps ++ leaves)).history leaves.length := by
  induction hleaves with
  | nobody steps =>
      rw [List.append_nil]
      exact ⟨hfree, .refl _⟩
  | @next steps leaves name value hcan _ ih =>
      obtain ⟨hnext, hfirst⟩ := hfree.leave hstyle hcan value
      obtain ⟨hlast, hrest⟩ := ih hnext
      rw [List.append_assoc, List.singleton_append] at hlast hrest
      refine ⟨hlast, ?_⟩
      rw [List.length_cons, Nat.add_comm]
      exact hfirst.trans hrest

theorem Leaves.total (hleaves : s.Leaves steps leaves) (hstyle : s.style ≠ .raw)
    (hfree : Unburdened (s.after steps)) :
    accessesHeld (s.after (steps ++ leaves)) + tasksWaiting (s.after (steps ++ leaves)) +
        leaves.length =
      accessesHeld (s.after steps) + tasksWaiting (s.after steps) := by
  obtain ⟨events, hevents, hquiet, hcount⟩ := (hleaves.givesBack hstyle hfree).2
  have hbefore := held_add_waiting hstyle steps
  have hafter := held_add_waiting hstyle (steps ++ leaves)
  have hrequests : events.countP Event.requests = 0 := by
    rw [List.countP_eq_zero]
    intro event hevent
    simp [hquiet event hevent]
  rw [hevents, List.countP_append, List.countP_append, hcount, hrequests] at hafter
  omega

/-- There are as many tasks to leave, one after the other, as there are accesses held and tasks
waiting. -/
theorem exists_leaves (hstyle : s.style ≠ .raw) {count : Nat} (hfree : Unburdened (s.after steps))
    (hcount : count ≤ accessesHeld (s.after steps) + tasksWaiting (s.after steps)) :
    ∃ leaves, s.Leaves steps leaves ∧ leaves.length = count := by
  induction count generalizing steps with
  | zero => exact ⟨[], .nobody steps, rfl⟩
  | succ count ih =>
      obtain ⟨name, hcan⟩ := exists_canLeave hstyle hfree (by omega)
      have honce := Leaves.total (.next 0 hcan (.nobody _)) hstyle hfree
      rw [List.length_singleton] at honce
      obtain ⟨leaves, hleaves, hlength⟩ := ih (hfree.leave hstyle hcan 0).1 (by omega)
      exact ⟨_, .next 0 hcan hleaves, by rw [List.length_cons, hlength]⟩

/-! ## Progress -/

/-- What becomes of the accesses and of those who wait when tasks leave one after the other. -/
structure Drained (s : Script) (steps leaves : List Step) : Prop where
  /-- Each task that left makes the accesses held and the tasks waiting one fewer. -/
  total : accessesHeld (s.after (steps ++ leaves)) + tasksWaiting (s.after (steps ++ leaves)) +
      leaves.length =
    accessesHeld (s.after steps) + tasksWaiting (s.after steps)
  goesOn : 0 < accessesHeld (s.after (steps ++ leaves)) + tasksWaiting (s.after (steps ++ leaves)) →
    ∃ name, s.CanLeave (s.after (steps ++ leaves)) name
  /-- Who waited and waits no longer was granted the access once, and nobody else was granted one. -/
  granted : ∀ task mode,
    (eventsSince (s.after steps) (s.after (steps ++ leaves))).countP (Event.grantsTo task mode) +
        (waitsFor (s.after (steps ++ leaves)) task mode).toNat =
      (waitsFor (s.after steps) task mode).toNat
  /-- In the end the lock is idle and nobody waits. -/
  emptied : leaves.length = accessesHeld (s.after steps) + tasksWaiting (s.after steps) →
    (s.after (steps ++ leaves)).lock.isIdle = true ∧ tasksWaiting (s.after (steps ++ leaves)) = 0 ∧
      ∀ task mode, waitsFor (s.after (steps ++ leaves)) task mode = false

theorem waitsFor_beyond {steps : List Step} {task : Nat} (hbeyond : s.names.length ≤ task)
    (mode : Mode) : waitsFor (s.after steps) task mode = false := by
  have hnone : (s.after steps).tasks[task]? = none := by
    rw [List.getElem?_eq_none_iff, (s.reaches_after steps).tasks_length]
    exact hbeyond
  simp [waitsFor, hnone]

theorem Leaves.granted (hleaves : s.Leaves steps leaves) (hstyle : s.style ≠ .raw)
    (hfree : Unburdened (s.after steps)) (task : Nat) (mode : Mode) :
    (eventsSince (s.after steps) (s.after (steps ++ leaves))).countP (Event.grantsTo task mode) +
        (waitsFor (s.after (steps ++ leaves)) task mode).toNat =
      (waitsFor (s.after steps) task mode).toNat := by
  have hgives := (hleaves.givesBack hstyle hfree).2
  have hbefore := s.reaches_after steps
  have hafter := s.reaches_after (steps ++ leaves)
  obtain ⟨events, hevents, _⟩ := (hleaves.givesBack hstyle hfree).2
  have hsince : (eventsSince (s.after steps) (s.after (steps ++ leaves))).countP
        (Event.grantsTo task mode) + (s.after steps).history.countP (Event.grantsTo task mode) =
      (s.after (steps ++ leaves)).history.countP (Event.grantsTo task mode) := by
    rw [eventsSince_of_append hevents, List.countP_reverse, hevents, List.countP_append]
  by_cases hlt : task < s.names.length
  · obtain ⟨t, htask⟩ : ∃ t, (s.after steps).tasks[task]? = some t :=
      ⟨_, List.getElem?_eq_getElem (hbefore.tasks_length ▸ hlt)⟩
    obtain ⟨u, hu⟩ : ∃ u, (s.after (steps ++ leaves)).tasks[task]? = some u :=
      ⟨_, List.getElem?_eq_getElem (hafter.tasks_length ▸ hlt)⟩
    have hcount := hgives.countP_grantsTo (hbefore.run.answers (Scene.start_answers _ _))
      (hafter.run.answers (Scene.start_answers _ _)) (Machine.scene_at htask) (Machine.scene_at hu)
      mode
    rw [waitsFor_eq s steps htask, waitsFor_eq s (steps ++ leaves) hu]
    simp only [Machine.scene] at hcount
    omega
  · have hbeyond := Nat.not_lt.mp hlt
    have hnone : (s.after (steps ++ leaves)).history.countP (Event.grantsTo task mode) = 0 := by
      refine ((hafter.balanced hstyle).attributed.countP_eq_zero ?_ mode).1
      rw [hafter.run.points_length]
      simpa [Scene.start] using hbeyond
    rw [waitsFor_beyond hbeyond, waitsFor_beyond hbeyond]
    omega

theorem Leaves.drained (hleaves : s.Leaves steps leaves) (hstyle : s.style ≠ .raw)
    (hfree : Unburdened (s.after steps)) : Drained s steps leaves := by
  have htotal := hleaves.total hstyle hfree
  constructor
  · exact htotal
  · exact exists_canLeave hstyle (hleaves.givesBack hstyle hfree).1
  · exact hleaves.granted hstyle hfree
  · intro hall
    have hbalanced := (s.reaches_after (steps ++ leaves)).balanced hstyle
    have hheld := hbalanced.accessesHeld_eq
    have hnobody : tasksWaiting (s.after (steps ++ leaves)) = 0 := by omega
    refine ⟨?_, hnobody, ?_⟩
    · have hempty : (s.after (steps ++ leaves)).lock.activeReaders = 0 := by omega
      have hfreed : (s.after (steps ++ leaves)).lock.exclusive = false := by
        by_contra htaken
        have hinside := Lock.writersInside_of_writer (Bool.eq_true_of_not_eq_false htaken) hempty
        omega
      simp [Snapshot.isIdle, hempty, hfreed]
    · intro task mode
      cases htask : (s.after (steps ++ leaves)).tasks[task]? with
      | none => simp [waitsFor, htask]
      | some t =>
          rw [tasksWaiting_eq, List.countP_eq_zero] at hnobody
          have hidle := hnobody t.point (List.mem_of_getElem? (Machine.scene_at htask))
          rw [waitsFor_eq s _ htask]
          cases hpoint : t.point with
          | waiting wait => simp [hpoint, Point.waits] at hidle
          | _ => rfl

/-- If anybody waits, somebody holds an access.  As long as whoever waits does nothing else, the
tasks that can leave empty the lock one after the other, in any order. -/
theorem progress (hstyle : s.style ≠ .raw) (steps : List Step) :
    (0 < tasksWaiting (s.after steps) → 0 < accessesHeld (s.after steps)) ∧
      (Unburdened (s.after steps) →
        (∀ leaves, s.Leaves steps leaves → Drained s steps leaves) ∧
          ∃ leaves, s.Leaves steps leaves ∧
            leaves.length = accessesHeld (s.after steps) + tasksWaiting (s.after steps)) := by
  refine ⟨accessesHeld_pos hstyle steps, ?_⟩
  intro hfree
  refine ⟨?_, exists_leaves hstyle hfree le_rfl⟩
  intro leaves hleaves
  exact hleaves.drained hstyle hfree

theorem progress_queuedWriter :
    queuedWriter.style ≠ .raw ∧ Unburdened (queuedWriter.after (queuedWriter.steps.take 4)) ∧
      (queuedWriter.after (queuedWriter.steps.take 4 ++
        [leaveStep "b" 0, leaveStep "c" 0, leaveStep "a" 0])).lock.isIdle = true := by
  have hstyle : queuedWriter.style ≠ .raw := by decide
  have hfree : Unburdened (queuedWriter.after (queuedWriter.steps.take 4)) := by decide +kernel
  have hleaves : queuedWriter.Leaves (queuedWriter.steps.take 4)
      [leaveStep "b" 0, leaveStep "c" 0, leaveStep "a" 0] :=
    .next 0 ⟨1, ⟨[.shared], false⟩, by decide, by decide +kernel, by decide, rfl⟩ <|
      .next 0 ⟨2, ⟨[.exclusive], false⟩, by decide, by decide +kernel, by decide, rfl⟩ <|
        .next 0 ⟨0, ⟨[.shared], false⟩, by decide, by decide +kernel, by decide, rfl⟩ <|
          .nobody _
  have htotal : 3 = accessesHeld (queuedWriter.after (queuedWriter.steps.take 4)) +
      tasksWaiting (queuedWriter.after (queuedWriter.steps.take 4)) := by
    decide +kernel
  have hdrained := ((progress hstyle (queuedWriter.steps.take 4)).2 hfree).1 _ hleaves
  exact ⟨hstyle, hfree, (hdrained.emptied htotal).1⟩

/-- A reader that waits is woken and handed its next command at the same time, and waits again. -/
def orderedAhead : Script where
  policy := .readerPreference
  style := .closure
  names := ["a", "b"]
  steps := [
    [.hand "a" (some (.enter .exclusive))],
    [.hand "b" (some (.enter .shared))],
    [.wake ["b"], .hand "b" (some (.enter .exclusive))]]

/-- It is not enough that whoever waits holds nothing: once the reader is let in it begins the
command that it was handed, and waits again. -/
theorem leave_not_always_fewer :
    ¬ ∀ s : Script, s.style ≠ .raw → ∀ steps : List Step,
      (∀ task ∈ view (s.after steps), task.waits = true → task.held = []) →
      ∀ (name : String) (value : Int), s.CanLeave (s.after steps) name →
        accessesHeld (s.after (steps ++ [leaveStep name value])) +
            tasksWaiting (s.after (steps ++ [leaveStep name value])) + 1 =
          accessesHeld (s.after steps) + tasksWaiting (s.after steps) := by
  intro hall
  have hleaves : orderedAhead.CanLeave (orderedAhead.after orderedAhead.steps) "a" :=
    ⟨0, ⟨[.exclusive], false⟩, by decide, by decide +kernel, by decide, rfl⟩
  have hfewer := hall orderedAhead (by decide) orderedAhead.steps (by decide +kernel) "a" 0 hleaves
  have hsame : accessesHeld (orderedAhead.after (orderedAhead.steps ++ [leaveStep "a" 0])) +
      tasksWaiting (orderedAhead.after (orderedAhead.steps ++ [leaveStep "a" 0])) =
    accessesHeld (orderedAhead.after orderedAhead.steps) +
      tasksWaiting (orderedAhead.after orderedAhead.steps) := by
    decide +kernel
  omega

end Script

end ReaderWriter
