import ReaderWriter.Proofs.Alike
import ReaderWriter.Proofs.Script.Turns

/-!
# Scripts without batches

If a step gives out at most one order, a command is handed to a task only while all tasks are at
rest, and is begun before anything else happens to it.  So at the end of a step no task has a
command in hand, not even one that waits.
-/

namespace ReaderWriter.Script

/-- No step gives out more than one order. -/
def Unbatched (steps : List Step) : Prop :=
  ∀ step ∈ steps, step.length ≤ 1

instance (steps : List Step) : Decidable (Unbatched steps) :=
  inferInstanceAs (Decidable (∀ step ∈ steps, step.length ≤ 1))

theorem Unbatched.cases {steps : List Step} (hsteps : Unbatched steps) {step : Step}
    (hstep : step ∈ steps) : step = [] ∨ ∃ order, step = [order] := by
  have hlength := hsteps step hstep
  cases step with
  | nil => exact .inl rfl
  | cons order orders =>
      cases orders with
      | nil => exact .inr ⟨order, rfl⟩
      | cons second orders => simp at hlength

/-- What the start has, what the one command of a step and all wake-ups keep, and every move. -/
theorem Unbatched.after_keeps {s : Script} {P : State → Prop} {steps : List Step}
    (hsteps : Unbatched steps) (hstart : P s.start)
    (hhand : ∀ given next name command?, P (s.after given) →
      s.hand (s.after given) name command? = .ok next → P next)
    (hwake : ∀ m next name, P m → s.wake m name = .ok next → P next)
    (hmoves : ∀ m next, s.Reaches m → P m → m.step program = some next → P next) :
    P (s.after steps) := by
  induction steps using List.reverseRecOn with
  | nil => exact hstart
  | append_singleton steps step ih =>
      have hm := ih (fun earlier hmem => hsteps earlier (List.mem_append_left _ hmem))
      have hordered : P (s.giveOut (s.after steps) step).1 := by
        have hlast : step ∈ steps ++ [step] := by simp
        rcases hsteps.cases hlast with rfl | ⟨order, rfl⟩
        · exact hm
        · cases order with
          | wake names => exact carryOut_wake_keeps hwake names hm
          | hand name command? =>
              exact carryOut_keeps hm (fun next => hhand steps next name command? hm) name
      rw [after_append_singleton]
      have hboth : s.Reaches ((s.giveOut (s.after steps) step).1.settleDown program) ∧
          P ((s.giveOut (s.after steps) step).1.settleDown program) := by
        refine iterate_keeps (P := fun m => s.Reaches m ∧ P m) ?_ _
          ⟨s.reaches_giveOut steps step, hordered⟩
        rintro m next ⟨hm, hkept⟩ hstep
        exact ⟨hm.step hstep, hmoves m next hm hkept hstep⟩
      exact hboth.2

namespace Hand

/-- A command that was handed over is begun before the task calls the lock. -/
def Prompt (point : Point) (h : Hand) : Prop :=
  point ≠ .outside → h.handed = none

theorem program_prompt : program.Preserves Prompt := by
  constructor
  case resume =>
    intro h data _ _
    exact h.resume_handed data
  case waits =>
    intro l lock point wait h hlooks hprompt _
    exact hprompt hlooks.not_outside
  case granted =>
    intro wait h data hprompt _
    exact (granted_handed wait.mode h data).trans (hprompt (by simp))
  case released =>
    intro mode h data hprompt _
    exact (released_handed mode h data).trans (hprompt (by simp))
  case misused =>
    intro mode h data hprompt _
    exact hprompt (by simp)

end Hand

variable {s : Script} {steps : List Step}

theorem Unbatched.prompt (hsteps : Unbatched steps) : (s.after steps).Sound Hand.Prompt := by
  refine hsteps.after_keeps ?_ ?_ ?_ ?_
  · intro t ht
    obtain ⟨name, _, rfl⟩ : ∃ name ∈ s.names, _ = t := List.mem_map.mp ht
    exact fun _ => rfl
  · intro given next name command? hprompt hhand
    obtain ⟨index, t, command, _, _, htask, hfree, _, _, rfl⟩ := hand_eq_ok_iff.mp hhand
    apply hprompt.set index
    intro hcalls
    exact absurd (s.after_free given htask hfree).1 hcalls
  · intro m next name hprompt hwake
    obtain ⟨index, _, rfl⟩ := wake_cases hwake
    exact hprompt
  · intro m next _ hprompt hstep
    exact hprompt.step_of_preserves Hand.program_prompt hstep

/-- Between two steps no task has a command in hand. -/
theorem Unbatched.unhanded (hsteps : Unbatched steps) {task : Nat} {t : Task Hand}
    (htask : (s.after steps).tasks[task]? = some t) : t.own.handed = none := by
  rcases s.after_cases steps htask with ⟨_, hnone⟩ | ⟨wait, hpoint, _⟩
  · exact hnone
  · exact hsteps.prompt t (List.mem_of_getElem? htask) (by simp [hpoint])

/-! ## A task at rest that is handed a command -/

/-- The task at rest is handed a command. -/
def handing (m : State) (task : Nat) (idle : Hand) (command : Command) : State :=
  { m with
    tasks := m.tasks.set task { own := { idle with handed := some command } }
    ready := m.ready ++ [task] }

/-- The machine with other tasks, and another one that runs. -/
def staged (m : State) (tasks : List (Task Hand)) (running : Option Nat) : State :=
  { m with tasks, running }

/-- The task runs and stands before a call. -/
def calling (m : State) (task : Nat) (own : Hand) (call : Call) : State :=
  staged m (m.tasks.set task { point := .before call, own }) (some task)

/-- With nobody else ready the task comes to stand before the call that the command makes. -/
theorem handing_leads {m : State} {task : Nat} {idle own : Hand} {command : Command} {call : Call}
    {counts : Event Note → Bool} (hrest : m.running = none ∧ m.ready = [])
    (htask : task < m.tasks.length) (hturn : counts (.turn task) = false)
    (hresume : program.resume { idle with handed := some command } m.shared =
      { own, shared := m.shared, next := some call }) :
    Machine.Leads program counts (handing m task idle command) (calling m task own call) := by
  obtain ⟨lock, shared, tasks, ready, running, waiters, picks, preempt, history⟩ := m
  obtain ⟨rfl, rfl⟩ : running = none ∧ ready = [] := hrest
  refine (Machine.Leads.begin rfl rfl hturn).trans ?_
  refine .trans (.of_step (by simp [Machine.step, handing, htask, Machine.act]; rfl) (.refl _)) ?_
  rw [hresume]
  refine (Machine.Leads.approach rfl rfl hturn _ _).trans (.of_alike ?_)
  simp only [calling, staged, Machine.record, List.set_set, List.map_nil, List.reverse_nil,
    List.nil_append]
  exact .refl _

end ReaderWriter.Script
