import ReaderWriter.Proofs.Script.Exclusion
import ReaderWriter.Proofs.Script.Turns
import ReaderWriter.Proofs.Serving

/-!
# First come, first served

If a script under tickets hands out one command after the other, or only looks, and leaves no choice
to picks, the accesses are granted in the order in which they were asked for, readers and writers
mixed.

A scripted task that is let in comes to rest.  One that panics goes on after each access that it
gives back, but only the last one can wake anybody.
-/

namespace ReaderWriter.Script

/-- A step that hands one command to one task, or only looks. -/
def Plain (step : Step) : Prop :=
  step = [] ∨ ∃ name command?, step = [.hand name command?]

namespace Hand

theorem granted_rests (mode : Mode) (h : Hand) (data : List Int) :
    (granted mode h data).next = none := by
  unfold granted
  split <;> rfl

theorem released_rests {h : Hand} (hlast : h.holding.leave.innermost? = none) (mode : Mode)
    (data : List Int) : (released mode h data).next = none := by
  unfold released
  simp only
  split
  · rfl
  · simp [unwind, hlast, finish]
  · rfl
  · rfl

/-- Bare calls keep no account. -/
theorem granted_untracked {h : Hand} (huntracked : h.holding = .untracked) (mode : Mode)
    (data : List Int) : (granted mode h data).own.holding = .untracked := by
  unfold granted
  split
  · exact huntracked
  · simp [finish, huntracked, Holding.enter]

theorem released_untracked {h : Hand} (huntracked : h.holding = .untracked) (mode : Mode)
    (data : List Int) : (released mode h data).own.holding = .untracked := by
  unfold released
  simp only
  split
  · simp [finish, huntracked, Holding.leave]
  · rw [unwind_holding]
    simp [huntracked, Holding.leave]
  · exact huntracked
  · simp [finish, huntracked, Holding.leave]

end Hand

variable {s : Script} {m : State}

theorem act_untracked (huntracked : ∀ t ∈ m.tasks, t.own.holding = .untracked) {task : Nat}
    {t : Task Hand} (htask : m.tasks[task]? = some t) :
    ∀ u ∈ (m.act program task t).tasks, u.own.holding = .untracked := by
  have hown := huntracked t (List.mem_of_getElem? htask)
  have hset : ∀ u : Task Hand, u.own.holding = .untracked →
      ∀ other ∈ m.tasks.set task u, other.own.holding = .untracked := by
    intro u hu other hmem
    rcases List.mem_or_eq_of_mem_set hmem with hold | rfl
    · exact huntracked other hold
    · exact hu
  have hacts := Machine.acts program m task t
  generalize m.act program task t = next at hacts ⊢
  cases hacts with
  | resumes hpoint =>
      rw [Machine.react_tasks]
      exact hset _ ((Hand.resume_holding _ _).trans hown)
  | parks hlooks hblocks => exact hset _ hown
  | enters hlooks hchannel henters =>
      rw [Machine.react_tasks]
      exact hset _ (Hand.granted_untracked hown _ _)
  | returns hpoint hrelease =>
      rw [Machine.react_tasks, Machine.foldl_notify_tasks]
      exact hset _ (Hand.released_untracked hown _ _)
  | misuses hpoint hrelease =>
      rw [Machine.react_tasks]
      exact hset _ hown

theorem Reaches.untracked (hm : s.Reaches m) (hstyle : s.style = .raw) :
    ∀ t ∈ m.tasks, t.own.holding = .untracked := by
  let P : State → Prop := fun m => ∀ t ∈ m.tasks, t.own.holding = .untracked
  have hkept : P m := by
    refine hm.keeps ?_ ?_ ?_ ?_
    · intro m next name command? huntracked hhand
      obtain ⟨index, t, command, _, _, htask, _, _, _, rfl⟩ := hand_eq_ok_iff.mp hhand
      intro u hu
      rcases List.mem_or_eq_of_mem_set hu with hold | rfl
      · exact huntracked u hold
      · exact huntracked t (List.mem_of_getElem? htask)
    · intro m next name huntracked hwake
      obtain ⟨index, _, rfl⟩ := wake_cases hwake
      exact huntracked
    · intro t ht
      obtain ⟨name, _, rfl⟩ : ∃ name ∈ s.names, _ = t := List.mem_map.mp ht
      simp [hstyle, Holding.empty]
    · intro m next huntracked hstep
      rcases Machine.step_cases hstep with ⟨_, c, _, rfl⟩ | ⟨_, _, _, rfl⟩ | ⟨task, t, _, htask, rfl⟩
      · exact huntracked
      · exact huntracked
      · exact act_untracked huntracked htask
  exact hkept

/-- A release that wakes others leaves nobody inside. -/
theorem Balanced.length_le_one (hm : Balanced m) {task : Nat} {t : Task Hand}
    (htask : m.tasks[task]? = some t) {mode : Mode} {r : Release}
    (hrelease : m.lock.release? mode = some r) (hwakes : r.notified ≠ []) :
    t.own.holding.outermostFirst.length ≤ 1 := by
  obtain ⟨hshared, hexclusive⟩ := hm.held_le task
  rw [hm.held_eq htask] at hshared hexclusive
  have hwriters := m.lock.writersInside_le_one
  rw [length_eq_counts]
  cases mode with
  | shared =>
      rcases Lock.release?_shared_cases hrelease with ⟨hlast, _⟩ | ⟨_, rfl⟩
      · have hnone : m.lock.writersInside = 0 := Lock.writersInside_of_readers (by omega)
        omega
      · exact absurd rfl hwakes
  | exclusive =>
      obtain ⟨⟨_, hempty⟩, _⟩ := Lock.release?_exclusive_cases hrelease
      omega

theorem Reaches.released_rests (hm : s.Reaches m) {task : Nat} {t : Task Hand}
    (htask : m.tasks[task]? = some t) {mode : Mode} {r : Release}
    (hrelease : m.lock.release? mode = some r) (hwakes : r.notified ≠ []) (data : List Int) :
    (Hand.released mode t.own data).next = none := by
  apply Hand.released_rests
  by_cases hstyle : s.style = .raw
  · rw [hm.untracked hstyle t (List.mem_of_getElem? htask)]
    rfl
  · have hone := (hm.balanced hstyle).length_le_one htask hrelease hwakes
    rw [Holding.innermost?_eq_getLast?, List.getLast?_eq_none_iff, ← List.length_eq_zero_iff,
      Holding.length_leave]
    omega

/-! ## Along a script of plain steps -/

/-- The machine is on its way to serve a line, without picks. -/
structure OnCourse (s : Script) (m : State) : Prop where
  reached : s.Reaches m
  picks : m.picks = []
  serves : m.Serves

theorem OnCourse.step (hm : OnCourse s m) {next : State} (hstep : m.step program = some next) :
    OnCourse s next := by
  refine ⟨hm.reached.step hstep, Machine.step_picks hm.picks hstep, ?_⟩
  apply hm.serves.step hm.reached.accounts hm.reached.parked hm.picks Hand.granted_rests ?_ hstep
  intro task t mode r htask _ hrelease hwakes
  exact hm.reached.released_rests htask hrelease hwakes m.shared

/-- At rest nobody is woken, and a task that is handed a command does not wait. -/
theorem OnCourse.hand {steps : List Step} (hm : OnCourse s (s.after steps)) {next : State}
    {name : String} {command? : Option Command}
    (hhand : s.hand (s.after steps) name command? = .ok next) : OnCourse s next := by
  have hreached := s.reaches_giveOut steps [.hand name command?]
  rw [giveOut_hand hhand] at hreached
  have hscene := hand_scene hhand
  obtain ⟨hrunning, hready⟩ := s.after_rest steps
  obtain ⟨index, t, command, _, _, htask, hfree, _, _, rfl⟩ := hand_eq_ok_iff.mp hhand
  refine ⟨hreached, hm.picks, ?_⟩
  obtain ⟨line, woken, mover, hserving⟩ := hm.serves
  have hdue := hserving.due
  rw [hrunning, hready] at hdue
  have hnone : woken.inOrder = [] := (List.append_eq_nil_iff.mp hdue.symm).2
  refine ⟨line, woken, some index, ?_, ?_, ?_⟩
  · rw [hscene]
    exact hserving.inLine
  · simp [hrunning, hready, hnone]
  · intro task hmover
    obtain rfl := Option.some.inj hmover
    refine ⟨hnone, ?_⟩
    intro wait hat
    have hpoint := (s.after_free steps htask hfree).1
    rw [hscene] at hat
    have hwaits := Option.some.inj ((Machine.scene_at htask).symm.trans hat)
    rw [hpoint] at hwaits
    contradiction

theorem after_onCourse (hpolicy : s.policy = .fairTicket) (hpicks : s.picks = [])
    {steps : List Step} (hplain : ∀ step ∈ steps, Plain step) : OnCourse s (s.after steps) := by
  induction steps using List.reverseRecOn with
  | nil =>
      refine ⟨s.reaches_after [], hpicks, [], {}, none, ?_, rfl, by simp⟩
      change s.start.scene.InLine [] {}
      rw [start_scene, hpolicy]
      exact Scene.InLine.start _
  | append_singleton steps step ih =>
      have hm := ih (fun earlier hmem => hplain earlier (List.mem_append_left _ hmem))
      have hordered : OnCourse s (s.giveOut (s.after steps) step).1 := by
        rcases hplain step (by simp) with rfl | ⟨name, command?, rfl⟩
        · exact hm
        · cases hhand : s.hand (s.after steps) name command? with
          | error reason =>
              simp only [giveOut, giveOrder, carryOut, hhand, List.foldl_cons, List.foldl_nil]
              exact hm
          | ok next =>
              rw [giveOut_hand hhand]
              exact hm.hand hhand
      rw [after_append_singleton]
      exact iterate_keeps (fun _ _ hcourse hstep => hcourse.step hstep) _ hordered

/-- Under tickets, without batches, spurious wake-ups or picks, the accesses granted so far are the
first that were asked for, in their order. -/
theorem first_come_first_served (hpolicy : s.policy = .fairTicket) (hpicks : s.picks = [])
    {steps : List Step} (hplain : ∀ step ∈ steps, Plain step) :
    FirstServed (s.after steps).history.reverse := by
  have hcourse := after_onCourse hpolicy hpicks hplain
  obtain ⟨line, woken, mover, hserving⟩ := hcourse.serves
  exact hserving.inLine.firstServed (hcourse.reached.ticketed hpolicy).lawful

/-- The queued writer again, with one command at a time and a look in between. -/
def oneByOne : Script :=
  { queuedWriter with
    steps := [.hand "a" (some (.enter .shared))] :: [.hand "b" (some (.enter .shared))] :: [] ::
      queuedWriter.steps.drop 1 }

theorem first_come_first_served_oneByOne :
    oneByOne.policy = .fairTicket ∧ oneByOne.picks = [] ∧
      (∀ step ∈ oneByOne.steps.take 7, Plain step) ∧
      grants (oneByOne.after (oneByOne.steps.take 7)).history.reverse =
        [(0, .shared), (1, .shared), (2, .exclusive)] := by
  have hpolicy : oneByOne.policy = .fairTicket := rfl
  have hpicks : oneByOne.picks = [] := rfl
  have hplain : ∀ step ∈ oneByOne.steps.take 7, Plain step := by
    intro step hstep
    simp only [oneByOne, queuedWriter, List.drop_succ_cons, List.drop_zero, List.take_succ_cons,
      List.take_zero, List.mem_cons, List.not_mem_nil, or_false] at hstep
    rcases hstep with rfl | rfl | rfl | rfl | rfl | rfl | rfl
    case inr.inr.inl => exact .inl rfl
    all_goals exact .inr ⟨_, _, rfl⟩
  have hserved := (first_come_first_served hpolicy hpicks hplain).served
  -- the first reader has asked again, behind the writer
  have hrequests : requests (oneByOne.after (oneByOne.steps.take 7)).history.reverse =
      [(0, .shared), (1, .shared), (2, .exclusive), (0, .shared)] := by
    decide +kernel
  have hcount : (grants (oneByOne.after (oneByOne.steps.take 7)).history.reverse).length = 3 := by
    decide +kernel
  refine ⟨hpolicy, hpicks, hplain, ?_⟩
  rw [List.prefix_iff_eq_take.mp hserved, hrequests, hcount]
  rfl

end ReaderWriter.Script
