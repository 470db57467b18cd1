import ReaderWriter.Proofs.Script.Course
import ReaderWriter.Proofs.Translation

/-!
# Critical sections and guards

A task holds its accesses as calls inside of calls or as guards in a row, according to the style of
the script.  The guards are the calls read from the outermost one on: what is entered last is left
first in both, and a panic gives back the same accesses in the same order.  So a script that does
not look at its data does the same in both styles, whatever is asked for and however it is nested.
-/

namespace ReaderWriter.Script

namespace Holding

/-- The guards of a task that holds the same accesses. -/
def asGuards : Holding → Holding
  | .sections nested => .guards nested.reverse
  | .guards taken => .guards taken
  | .untracked => .untracked

theorem asGuards_outermostFirst (h : Holding) : h.asGuards.outermostFirst = h.outermostFirst := by
  cases h <;> rfl

theorem asGuards_innermost? (h : Holding) : h.asGuards.innermost? = h.innermost? := by
  rw [innermost?_eq_getLast?, innermost?_eq_getLast?, asGuards_outermostFirst]

theorem asGuards_enter (mode : Mode) (h : Holding) :
    (h.enter mode).asGuards = h.asGuards.enter mode := by
  cases h with
  | sections nested => simp [enter, asGuards]
  | guards taken => rfl
  | untracked => rfl

theorem asGuards_leave (h : Holding) : h.leave.asGuards = h.asGuards.leave := by
  cases h with
  | sections nested => simp [leave, asGuards, List.dropLast_reverse]
  | guards taken => rfl
  | untracked => rfl

end Holding

namespace Hand

def asGuards (h : Hand) : Hand :=
  { h with holding := h.holding.asGuards }

theorem asGuards_unwind (h : Hand) (message : String) (data : List Int) :
    h.asGuards.unwind message data = (h.unwind message data).mapOwn asGuards := by
  unfold unwind
  rw [asGuards, Holding.asGuards_innermost?]
  cases h.holding.innermost? <;> rfl

theorem asGuards_resume (h : Hand) (data : List Int) :
    h.asGuards.resume data = (h.resume data).mapOwn asGuards := by
  obtain ⟨holding, command, handed⟩ := h
  cases handed with
  | none => rfl
  | some command =>
      cases command with
      | leave value =>
          simp only [resume, asGuards, Holding.asGuards_innermost?]
          cases holding.innermost? <;> rfl
      | panic message => exact asGuards_unwind { holding, command := some (.panic message) } _ data
      | _ => rfl

theorem asGuards_granted (mode : Mode) (h : Hand) (data : List Int) :
    granted mode h.asGuards data = (granted mode h data).mapOwn asGuards := by
  unfold granted
  simp only [asGuards, ← Holding.asGuards_enter]
  split <;> rfl

theorem asGuards_released (mode : Mode) (h : Hand) (data : List Int) :
    released mode h.asGuards data = (released mode h data).mapOwn asGuards := by
  unfold released
  simp only [asGuards, ← Holding.asGuards_leave]
  split
  · rfl
  · exact asGuards_unwind { h with holding := h.holding.leave } _ data
  · rfl
  · rfl

end Hand

theorem program_translates : program.Translates program Hand.asGuards where
  resume := Hand.asGuards_resume
  granted := Hand.asGuards_granted
  released := Hand.asGuards_released
  misused _ _ _ := rfl
  remaining point h := by
    simp only [program, Hand.remaining, Hand.asGuards, Holding.asGuards_outermostFirst]

/-! ## Scripts in both styles -/

/-- The command looks at the data or changes it, and takes a guard for that. -/
def Command.needsGuard : Command → Bool
  | .get => true
  | .push _ => true
  | .clear => true
  | _ => false

def Order.needsGuard : Order → Bool
  | .hand _ (some command) => command.needsGuard
  | _ => false

/-- No command takes a guard that not every style has. -/
def Guardless (steps : List Step) : Prop :=
  ∀ step ∈ steps, ∀ order ∈ step, order.needsGuard = false

instance (steps : List Step) : Decidable (Guardless steps) := by
  unfold Guardless
  infer_instance

def styled (s : Script) (style : Style) : Script :=
  { s with style }

theorem asGuards_objection? {command : Command} (hfree : command.needsGuard = false)
    (holding : Holding) :
    command.objection? .guard holding.asGuards = command.objection? .closure holding := by
  cases command with
  | leave value => simp only [Command.objection?, Holding.asGuards_innermost?]
  | panic message => simp only [Command.objection?, Holding.asGuards_innermost?]
  | get => cases hfree
  | push value => cases hfree
  | clear => cases hfree
  | _ => rfl

/-- The second state is the first one with guards for its sections. -/
def Restyled (m second : State) : Prop :=
  second = m.mapOwn Hand.asGuards

variable {s : Script} {m second : State} {step : Step}

theorem Restyled.hand (hm : Restyled m second) (name : String) {command? : Option Command}
    (hfree : (Order.hand name command?).needsGuard = false) :
    BothOutcomes Restyled ((s.styled .closure).hand m name command?)
      ((s.styled .guard).hand second name command?) := by
  have hnames : (s.styled .closure).names = (s.styled .guard).names := rfl
  have hwaiters : m.waiters = second.waiters := (congrArg Machine.waiters hm).symm
  cases hindex : (s.styled .guard).names.idxOf? name with
  | none => exact hand_both_of_unknown (hnames ▸ hindex) hindex command?
  | some index =>
      have hsecond : second.tasks[index]? = m.tasks[index]?.map (Task.mapOwn Hand.asGuards) :=
        hm ▸ m.mapOwn_tasks_getElem? Hand.asGuards index
      cases htask : m.tasks[index]? with
      | none =>
          rw [htask] at hsecond
          exact .inl ⟨.badStep, by simp [Script.hand, hnames, hindex, htask],
            by simp [Script.hand, hindex, hsecond]⟩
      | some t =>
          rw [htask] at hsecond
          refine hand_both_of_alike (hnames ▸ hindex) hindex (hwaiters ▸ rfl) htask hsecond rfl ?_
          rintro command rfl
          refine ⟨(asGuards_objection? hfree t.own.holding).symm, ?_⟩
          obtain rfl := hm
          simp only [Restyled, Machine.mapOwn, List.map_set]
          rfl

theorem Restyled.wake (hm : Restyled m second) (name : String) :
    BothOutcomes Restyled ((s.styled .closure).wake m name)
      ((s.styled .guard).wake second name) := by
  obtain rfl := hm
  have hnames : (s.styled .closure).names = (s.styled .guard).names := rfl
  cases hindex : (s.styled .guard).names.idxOf? name with
  | none => exact wake_both_of_unknown (hnames ▸ hindex) hindex
  | some index => exact wake_both (hnames ▸ hindex) hindex rfl rfl

theorem Restyled.giveOut (hm : Restyled m second)
    (hfree : ∀ order ∈ step, order.needsGuard = false) :
    BothGiven Restyled ((s.styled .closure).giveOut m step)
      ((s.styled .guard).giveOut second step) := by
  refine giveOut_both ?_ ?_ hm
  · intro m second name hm
    exact hm.wake name
  · intro m second name command? hmem hm
    exact hm.hand name (hfree _ hmem)

theorem Restyled.view (hm : Restyled m second) : Script.view second = Script.view m := by
  obtain rfl := hm
  simp only [Script.view, Machine.mapOwn, List.zipIdx_map, List.map_map]
  refine List.map_congr_left fun entry _ => ?_
  obtain ⟨t, index⟩ := entry
  simp only [Function.comp, Prod.map, Task.mapOwn, Hand.asGuards, Holding.asGuards_outermostFirst,
    id]

/-- A step is answered in the same way, and the states stay alike. -/
theorem Restyled.respond (hm : Restyled m second)
    (hfree : ∀ order ∈ step, order.needsGuard = false) :
    ((s.styled .closure).respond m step).1 = ((s.styled .guard).respond second step).1 ∧
      Restyled ((s.styled .closure).respond m step).2 ((s.styled .guard).respond second step).2 := by
  obtain ⟨hordered, hignored⟩ := hm.giveOut (s := s) hfree
  have hlater : Restyled ((s.styled .closure).respond m step).2
      ((s.styled .guard).respond second step).2 := by
    unfold Restyled at hordered ⊢
    simp only [Script.respond, hordered]
    exact Machine.mapOwn_settleDown _ program_translates
  have hanswer : ∀ (s : Script) (m : State), (s.respond m step).1 =
      { events := eventsSince m (s.respond m step).2
        tasks := Script.view (s.respond m step).2
        snapshot := (s.respond m step).2.lock.toSnapshot
        ignored := (s.giveOut m step).2 } := fun _ _ => rfl
  refine ⟨?_, hlater⟩
  rw [hanswer, hanswer, hlater.view, hignored, hlater, hm]
  rfl

theorem Restyled.respondAll (hm : Restyled m second) {steps : List Step} (hfree : Guardless steps) :
    ((s.styled .closure).respondAll m steps).1 = ((s.styled .guard).respondAll second steps).1 ∧
      Restyled ((s.styled .closure).respondAll m steps).2
        ((s.styled .guard).respondAll second steps).2 := by
  induction steps generalizing m second with
  | nil => exact ⟨rfl, hm⟩
  | cons step steps ih =>
      obtain ⟨hanswer, hnext⟩ := hm.respond (s := s) (hfree step List.mem_cons_self)
      obtain ⟨hanswers, hlast⟩ := ih hnext fun later hlater =>
        hfree later (List.mem_cons_of_mem _ hlater)
      exact ⟨congrArg₂ List.cons hanswer hanswers, hlast⟩

/-- As long as nobody looks at the data, critical sections and guards are the same lock: every step
has the same events, and leaves the same tasks with the same accesses and the same bookkeeping. -/
theorem closures_are_guards (hfree : Guardless s.steps) :
    (s.styled .closure).run = (s.styled .guard).run := by
  have hstart : Restyled (s.styled .closure).start (s.styled .guard).start := by
    simp [Restyled, start, styled, Machine.mapOwn, Holding.empty, Task.mapOwn, Hand.asGuards,
      Holding.asGuards]
  obtain ⟨hanswers, hlast⟩ := hstart.respondAll (s := s) hfree
  unfold Restyled at hlast
  exact congrArg₂ Outcome.mk hanswers (congrArg Machine.shared hlast).symm

/-- A task panics inside of two accesses while a writer waits for it, and other orders are refused. -/
def nestedPanic : Script where
  policy := .readerPreference
  style := .raw
  names := ["a", "b"]
  steps := [
    [.hand "a" (some (.enter .shared)), .hand "b" (some (.leave 0))],
    [.hand "a" (some (.enter .shared)), .hand "b" (some (.enter .exclusive))],
    [.hand "b" (some (.panic "blocked")), .wake ["b"]],
    [.hand "a" (some (.panic "dropped"))],
    [.hand "b" (some (.leave 1))]]
  preempt := true

theorem closures_are_guards_nestedPanic :
    Guardless nestedPanic.steps ∧
      (nestedPanic.styled .closure).run.answers.map (·.tasks.map TaskView.held) =
        [[[.shared], []], [[.shared, .shared], []], [[.shared, .shared], []], [[], [.exclusive]],
          [[], []]] := by
  have hfree : Guardless nestedPanic.steps := by decide
  rw [closures_are_guards hfree]
  refine ⟨hfree, ?_⟩
  decide +kernel

/-- A look at the data takes a guard. -/
example :
    let s := { nestedPanic with
      steps := [[.hand "a" (some (.enter .shared))], [.hand "a" (some .get)]] }
    (s.styled .closure).run ≠ (s.styled .guard).run := by
  decide +kernel

end ReaderWriter.Script
