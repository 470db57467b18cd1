import ReaderWriter.Proofs.Waiting
import ReaderWriter.Proofs.Script.Fairness
import ReaderWriter.Proofs.Script.Holding
import ReaderWriter.Script.Text

/-!
# Waking tasks for no reason

Whoever is parked in the course of a script waits for a condition that does not hold yet.  So at the
end of a step nobody who waits could go on, and a step that only wakes tasks comes to nothing: each
task that is woken looks at its condition, finds it as before and is parked again on its channel.

During such a step each task is on its channel or has a turn coming, as often as it was parked
before.
-/

namespace ReaderWriter.Script

/-- The task stands in a wait on the channel. -/
def standsOn (m : State) (task : Nat) (channel : Channel) : Bool :=
  match m.tasks[task]? with
  | some { point := .waiting wait, .. } => wait.channel = channel
  | _ => false

/-- The tasks that have a turn, the running one first. -/
def due (m : State) : List Nat :=
  m.running.toList ++ m.ready

/-- Tasks were woken for no reason, and some of them looked at their conditions. -/
structure Stirred (m later : State) : Prop where
  lock : later.lock = m.lock
  shared : later.shared = m.shared
  tasks : later.tasks = m.tasks
  history : ∃ turns : List Nat, later.history = turns.map .turn ++ m.history
  counts : ∀ channel task,
    (later.waiters.on channel).count task +
        (if standsOn m task channel then (due later).count task else 0) =
      (m.waiters.on channel).count task
  due : ∀ task ∈ due later, ∃ channel, task ∈ m.waiters.on channel

namespace Stirred

variable {m later next : State}

theorem refl (hrest : m.running = none ∧ m.ready = []) : Stirred m m := by
  have hdue : Script.due m = [] := by
    unfold Script.due
    rw [hrest.1, hrest.2]
    rfl
  constructor
  · rfl
  · rfl
  · rfl
  · exact ⟨[], rfl⟩
  · intro channel task
    simp [hdue]
  · simp [hdue]

theorem standsOn_of_mem (hparked : m.scene.Parked) {channel : Channel} {task : Nat}
    (hmem : task ∈ m.waiters.on channel) (other : Channel) :
    standsOn m task other = decide (channel = other) := by
  obtain ⟨wait, hat, hchannel, _⟩ := hparked channel task hmem
  obtain ⟨⟨point, own⟩, htask, hpoint⟩ := Machine.scene_at_iff.mp hat
  subst hpoint
  simp [standsOn, htask, hchannel]

theorem mem_of_mem (hstirred : Stirred m later) {channel : Channel} {task : Nat}
    (hmem : task ∈ later.waiters.on channel) : task ∈ m.waiters.on channel := by
  have hcounts := hstirred.counts channel task
  have hpos := List.count_pos_iff.mpr hmem
  apply List.count_pos_iff.mp
  omega

theorem wake (hparked : m.scene.Parked) (hstirred : Stirred m later) {task : Nat}
    (hcontains : later.waiters.contains task = true) : Stirred m (later.wake task) := by
  obtain ⟨parkedOn, hmem⟩ := Waiters.contains_iff.mp hcontains
  have hold := hstirred.mem_of_mem hmem
  have hdue (other : Nat) :
      (Script.due (later.wake task)).count other =
        (Script.due later).count other + [task].count other := by
    unfold Script.due Machine.wake
    rw [← List.append_assoc, List.count_append]
  constructor
  · exact hstirred.lock
  · exact hstirred.shared
  · exact hstirred.tasks
  · exact hstirred.history
  · intro channel other
    have hcounts := hstirred.counts channel other
    rw [hdue]
    unfold Machine.wake
    rw [Waiters.on_remove, List.count_erase]
    by_cases hother : task = other
    · subst other
      have hstands := standsOn_of_mem hparked hold channel
      by_cases hchannel : parkedOn = channel
      · subst channel
        have hpos := List.count_pos_iff.mpr hmem
        simp [hstands] at hcounts ⊢
        omega
      · -- a task that stands on one channel is not parked on the other one
        have helsewhere : (m.waiters.on channel).count task = 0 := by
          apply List.count_eq_zero.mpr
          intro hbeside
          have hsame := standsOn_of_mem hparked hbeside channel
          rw [hstands] at hsame
          simp [hchannel] at hsame
        simp [hstands, hchannel] at hcounts ⊢
        omega
    · simp [hother] at hcounts ⊢
      exact hcounts
  · intro other hother
    have hcases : other ∈ Script.due later ∨ other = task := by
      unfold Script.due Machine.wake at hother
      unfold Script.due
      simp at hother ⊢
      tauto
    rcases hcases with hbefore | rfl
    · exact hstirred.due other hbefore
    · exact ⟨parkedOn, hold⟩

theorem act (hparked : m.scene.Parked) (hstirred : Stirred m later) {task : Nat} {t : Task Hand}
    (hrunning : later.running = some task) (htask : later.tasks[task]? = some t) :
    Stirred m (later.act program task t) := by
  have hdue : Script.due later = task :: later.ready := by
    unfold Script.due
    rw [hrunning]
    rfl
  obtain ⟨parkedOn, hmem⟩ := hstirred.due task (by simp [hdue])
  obtain ⟨wait, hat, hchannel, hblocks⟩ := hparked parkedOn task hmem
  have hpoint : t.point = .waiting wait := by
    rw [hstirred.tasks] at htask
    exact Option.some.inj ((Machine.scene_at htask).symm.trans hat)
  have hlater : later.lock.Blocks wait := by
    rw [hstirred.lock]
    exact hblocks
  have hact : later.act program task t = later.park task t.own wait := by
    simp only [Machine.act, hpoint]
    rw [Lock.recheck_of_blocks hlater]
    rfl
  have htasks : (later.park task t.own wait).tasks = later.tasks := by
    obtain ⟨hlt, hget⟩ := List.getElem?_eq_some_iff.mp htask
    have hsame : ({ point := .waiting wait, own := t.own } : Task Hand) = later.tasks[task] := by
      rw [hget, ← hpoint]
    unfold Machine.park
    rw [hsame]
    exact List.set_getElem_self hlt
  have hafter : Script.due (later.park task t.own wait) = later.ready := rfl
  rw [hact]
  constructor
  · exact hstirred.lock
  · exact hstirred.shared
  · exact htasks.trans hstirred.tasks
  · exact hstirred.history
  · intro channel other
    have hcounts := hstirred.counts channel other
    rw [hdue, List.count_cons] at hcounts
    rw [hafter]
    unfold Machine.park
    rw [hchannel]
    have hstands := standsOn_of_mem hparked hmem channel
    by_cases hsame : channel = parkedOn
    · subst channel
      rw [Waiters.on_park_self, List.count_append, List.count_singleton]
      by_cases hother : task = other
      · subst other
        simp [hstands] at hcounts ⊢
        omega
      · simp [hother] at hcounts ⊢
        exact hcounts
    · rw [Waiters.on_park_of_ne _ _ hsame]
      by_cases hother : task = other
      · subst other
        simp [hstands, Ne.symm hsame] at hcounts ⊢
        exact hcounts
      · simp [hother] at hcounts ⊢
        exact hcounts
  · intro other hother
    apply hstirred.due other
    rw [hdue]
    exact List.mem_cons_of_mem _ hother

theorem step (hparked : m.scene.Parked) (hstirred : Stirred m later)
    (hstep : later.step program = some next) : Stirred m next := by
  rcases Machine.step_cases hstep with
    ⟨hrunning, c, hchoice, rfl⟩ | ⟨task, hrunning, hnone, rfl⟩ | ⟨task, t, hrunning, htask, rfl⟩
  · have hperm : (Script.due (later.begin c)).Perm (Script.due later) := by
      unfold Script.due Machine.begin Machine.record
      rw [hrunning]
      exact choose?_perm hchoice
    obtain ⟨turns, hturns⟩ := hstirred.history
    constructor
    · exact hstirred.lock
    · exact hstirred.shared
    · exact hstirred.tasks
    · refine ⟨c.task :: turns, ?_⟩
      unfold Machine.begin Machine.record
      rw [hturns]
      rfl
    · intro channel task
      rw [hperm.count_eq]
      exact hstirred.counts channel task
    · intro task hmem
      exact hstirred.due task (hperm.mem_iff.mp hmem)
  · -- a task that has a turn was parked, so there is such a task
    obtain ⟨parkedOn, hmem⟩ := hstirred.due task (by simp [Script.due, hrunning])
    obtain ⟨wait, hat, _, _⟩ := hparked parkedOn task hmem
    rw [hstirred.tasks] at hnone
    simp [Scene.At, Machine.scene, hnone] at hat
  · exact hstirred.act hparked hrunning htask

/-- When everybody has looked again, each task is parked where it was. -/
theorem perm_of_rest (hstirred : Stirred m later)
    (hrest : later.running = none ∧ later.ready = []) (channel : Channel) :
    (later.waiters.on channel).Perm (m.waiters.on channel) := by
  have hdue : Script.due later = [] := by
    unfold Script.due
    rw [hrest.1, hrest.2]
    rfl
  rw [List.perm_iff_count]
  intro task
  have hcounts := hstirred.counts channel task
  simpa [hdue] using hcounts

theorem eventsSince_turns (hstirred : Stirred m later) :
    ∀ event ∈ eventsSince m later, ∃ task, event = .turn task := by
  obtain ⟨turns, hturns⟩ := hstirred.history
  rw [eventsSince_of_append hturns]
  intro event hmem
  obtain ⟨task, _, hevent⟩ : ∃ task ∈ turns, .turn task = event := by simpa using hmem
  exact ⟨task, hevent.symm⟩

theorem view_eq (hstirred : Stirred m later)
    (hparked : ∀ channel, (later.waiters.on channel).Perm (m.waiters.on channel)) :
    view later = view m := by
  have hcontains (task : Nat) : later.waiters.contains task = m.waiters.contains task := by
    rw [Bool.eq_iff_iff, Waiters.contains_iff, Waiters.contains_iff]
    constructor
    · intro ⟨channel, hmem⟩
      exact ⟨channel, (hparked channel).mem_iff.mp hmem⟩
    · intro ⟨channel, hmem⟩
      exact ⟨channel, (hparked channel).mem_iff.mpr hmem⟩
  unfold view
  rw [hstirred.tasks]
  simp only [hcontains]

end Stirred

/-! ## The end of a step -/

theorem Reaches.present {s : Script} {m : State} (hm : s.Reaches m) : m.Present := by
  refine hm.keeps ?_ ?_ ?_ ?_
  · intro m next name command? hpresent hhand task wait hat
    rw [hand_scene hhand] at hat
    obtain ⟨index, t, command, _, _, _, _, _, _, rfl⟩ := hand_eq_ok_iff.mp hhand
    rcases hpresent task wait hat with hparked | hready | hruns
    · exact .inl hparked
    · exact .inr (.inl (List.mem_append_left _ hready))
    · exact .inr (.inr hruns)
  · intro m next name hpresent hwake
    obtain ⟨index, _, rfl⟩ := wake_cases hwake
    exact hpresent.wake index
  · intro task wait hat
    rw [start_scene] at hat
    simp [Scene.start, Scene.At, List.getElem?_replicate] at hat
  · intro m next hpresent hstep
    exact hpresent.step hstep

theorem Reaches.parked {s : Script} {m : State} (hm : s.Reaches m) : m.scene.Parked :=
  hm.run.parked (Scene.start_parked _ _)

theorem Reaches.suits {s : Script} {m : State} (hm : s.Reaches m) {task : Nat} {wait : Wait}
    (hat : m.scene.At task (.waiting wait)) : wait.Suits s.policy := by
  have hsuits := hm.run.suited (Scene.start_suited _ _) task wait hat
  rw [hm.run.policy] at hsuits
  exact hsuits

/-- What blocks a task is an access that is held or a ticket that is not completed. -/
theorem Reaches.awaits {s : Script} {m : State} (hm : s.Reaches m) {task : Nat} {wait : Wait}
    (hat : m.scene.At task (.waiting wait)) (hblocks : m.lock.Blocks wait) :
    wait.Awaits m.history task := by
  have hsuits := hm.suits hat
  cases hpolicy : s.policy with
  | readerPreference =>
      rw [hpolicy] at hsuits
      exact hm.accounts.awaits hsuits hblocks
  | fairTicket => exact (hm.ticketed hpolicy).awaits hm.accounts hat hblocks

/-- A step that only wakes tasks: what is answered and where the tasks come to rest. -/
structure Undisturbed (m : State) (answer : Answer) (later : State) : Prop where
  /-- Tasks took turns, and nothing else happened. -/
  events : ∀ event ∈ answer.events, ∃ task, event = .turn task
  silent : ∀ name, answer.events.filterMap (eventText? name) = []
  snapshot : answer.snapshot = m.lock.toSnapshot
  views : answer.tasks = view m
  tasks : later.tasks = m.tasks
  parked : ∀ channel, (later.waiters.on channel).Perm (m.waiters.on channel)

theorem respond_wake_undisturbed (s : Script) (steps : List Step) (names : List String) :
    Undisturbed (s.after steps) (s.respond (s.after steps) [.wake names]).1
      (s.respond (s.after steps) [.wake names]).2 := by
  have hparked := (s.reaches_after steps).parked
  have hordered : Stirred (s.after steps) (s.giveOut (s.after steps) [.wake names]).1 := by
    apply carryOut_wake_keeps
    · intro m next name hstirred hwake
      obtain ⟨index, hcontains, rfl⟩ := wake_cases hwake
      exact hstirred.wake hparked hcontains
    · exact Stirred.refl (s.after_rest steps)
  have hstirred : Stirred (s.after steps)
      ((s.giveOut (s.after steps) [.wake names]).1.settleDown program) := by
    apply iterate_keeps _ _ hordered
    intro m next hstirred hstep
    exact hstirred.step hparked hstep
  have hfits := (s.reaches_giveOut steps [.wake names]).fits
  have hrest := hfits.settleDown (program_descends s.style)
  have hperm := hstirred.perm_of_rest hrest
  constructor
  · exact hstirred.eventsSince_turns
  · intro name
    apply List.filterMap_eq_nil_iff.mpr
    intro event hevent
    obtain ⟨task, rfl⟩ := hstirred.eventsSince_turns event hevent
    rfl
  · exact congrArg Lock.toSnapshot hstirred.lock
  · exact hstirred.view_eq hperm
  · exact hstirred.tasks
  · exact hperm

/-- Whoever is parked waits for a condition that does not hold yet.  At the end of a step everybody
who waits is parked and could not go on, and a step that only wakes tasks changes nothing. -/
theorem no_lost_wakeup (s : Script) :
    (∀ m, s.Reaches m → ∀ channel task, task ∈ m.waiters.on channel →
      ∃ wait, m.scene.At task (.waiting wait) ∧ wait.channel = channel ∧
        wait.Suits s.policy ∧ wait.Awaits m.history task) ∧
    ∀ steps,
      (∀ task wait, (s.after steps).scene.At task (.waiting wait) →
        task ∈ (s.after steps).waiters.on wait.channel ∧
          (s.after steps).lock.recheck wait =
            { lock := (s.after steps).lock, waits := some wait }) ∧
      ∀ names, Undisturbed (s.after steps) (s.respond (s.after steps) [.wake names]).1
        (s.respond (s.after steps) [.wake names]).2 := by
  constructor
  · intro m hm channel task hmem
    obtain ⟨wait, hat, hchannel, hblocks⟩ := hm.parked channel task hmem
    exact ⟨wait, hat, hchannel, hm.suits hat, hm.awaits hat hblocks⟩
  · intro steps
    have hm := s.reaches_after steps
    refine ⟨?_, s.respond_wake_undisturbed steps⟩
    intro task wait hat
    have hmem : task ∈ (s.after steps).waiters.on wait.channel := by
      obtain ⟨hrunning, hready⟩ := s.after_rest steps
      rcases hm.present task wait hat with hparked | hready' | hruns
      · exact hparked
      · rw [hready] at hready'
        simp at hready'
      · rw [hrunning] at hruns
        contradiction
    obtain ⟨parked, hparkedAt, _, hblocks⟩ := hm.parked _ _ hmem
    have hsame : parked = wait := by
      simpa using hparkedAt.symm.trans hat
    rw [hsame] at hblocks
    exact ⟨hmem, Lock.recheck_of_blocks hblocks⟩

theorem no_lost_wakeup_queuedWriter :
    (queuedWriter.after (queuedWriter.steps.take 4)).waiters = { released := [2], writerDone := [0] } ∧
      (queuedWriter.respond (queuedWriter.after (queuedWriter.steps.take 4))
        [.wake ["c", "a"]]).2.waiters.on .writerDone = [0] := by
  have hwaiters :
      (queuedWriter.after (queuedWriter.steps.take 4)).waiters =
        { released := [2], writerDone := [0] } := by
    decide +kernel
  have hspurious := ((no_lost_wakeup queuedWriter).2 (queuedWriter.steps.take 4)).2 ["c", "a"]
  have hperm := hspurious.parked .writerDone
  rw [hwaiters] at hperm
  exact ⟨hwaiters, List.perm_singleton.mp hperm⟩

end ReaderWriter.Script
