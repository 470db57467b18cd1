import ReaderWriter.Proofs.Congruence
import ReaderWriter.Proofs.Rest

/-!
# Machines with other numbers for their tasks

What a machine does depends on the order in which its tasks are ready or parked, and not on their
numbers.  A machine mirrors another one along an injective renaming if it has the same tasks under
their new names, and maybe others beside them that have no turn.  Then the two take the same steps,
and record the same events up to the names.
-/

namespace ReaderWriter

variable {σ δ ε : Type}

/-- A choice is made by the places of the tasks, whatever their names are. -/
theorem choose?_map (f : Nat → Nat) (ready picks : List Nat) :
    choose? (ready.map f) picks =
      (choose? ready picks).map fun c => ⟨f c.task, c.others.map f, c.picks⟩ := by
  match ready, picks with
  | [], _ => rfl
  | [_], _ => rfl
  | _ :: _ :: _, [] => rfl
  | first :: second :: ready, pick :: picks =>
      have hname : ∀ index, ((first :: second :: ready).map f).getD index (f first) =
          f ((first :: second :: ready).getD index first) := by
        intro index
        rw [List.getD_eq_getElem?_getD, List.getD_eq_getElem?_getD, List.getElem?_map,
          Option.getD_map]
      have hlength : ((first :: second :: ready).map f).length = (first :: second :: ready).length :=
        List.length_map _
      have hothers := List.eraseIdx_map f (first :: second :: ready)
        (pick % (first :: second :: ready).length)
      simp only [List.map_cons] at hname hlength hothers ⊢
      simp only [choose?, Option.map_some, hname, hlength, hothers]

namespace Machine

/-- The machine has the tasks of the other one under new names, and maybe more. -/
structure Mirrors (f : Nat → Nat) (m other : Machine σ δ ε) : Prop where
  lock : m.lock = other.lock
  shared : m.shared = other.shared
  picks : m.picks = other.picks
  preempt : m.preempt = other.preempt
  running : m.running = other.running.map f
  ready : m.ready = other.ready.map f
  parked : ∀ channel, m.waiters.on channel = (other.waiters.on channel).map f
  tasks : ∀ task, m.tasks[f task]? = other.tasks[task]?
  history : m.history = other.history.map (Event.rename f)

namespace Mirrors

variable {f : Nat → Nat} {m other : Machine σ δ ε} {task : Nat}

variable (hf : f.Injective)
include hf

theorem set (hm : Mirrors f m other) (task : Nat) (t : Task σ) (second : Nat) :
    (m.tasks.set (f task) t)[f second]? = (other.tasks.set task t)[second]? := by
  by_cases hsame : task = second
  · subst hsame
    rw [List.getElem?_set_self', List.getElem?_set_self', hm.tasks]
  · rw [List.getElem?_set_ne (fun heq => hsame (hf heq)), List.getElem?_set_ne hsame, hm.tasks]

theorem wake (hm : Mirrors f m other) (task : Nat) :
    Mirrors f (m.wake (f task)) (other.wake task) := by
  refine ⟨hm.lock, hm.shared, hm.picks, hm.preempt, hm.running, ?_, ?_, hm.tasks, hm.history⟩
  · simp [Machine.wake, hm.ready]
  · intro channel
    simp only [Machine.wake, Waiters.on_remove, hm.parked]
    exact (List.map_erase hf _).symm

theorem congruence : Congruence f (Mirrors f : Machine σ δ ε → Machine σ δ ε → Prop) := by
  constructor
  case same_lock => exact fun hm => hm.lock
  case same_shared => exact fun hm => hm.shared
  case with_lock =>
    intro m other lock hm
    exact ⟨rfl, hm.shared, hm.picks, hm.preempt, hm.running, hm.ready, hm.parked, hm.tasks,
      hm.history⟩
  case with_shared =>
    intro m other shared hm
    exact ⟨hm.lock, rfl, hm.picks, hm.preempt, hm.running, hm.ready, hm.parked, hm.tasks,
      hm.history⟩
  case record =>
    intro m other events hm
    refine ⟨hm.lock, hm.shared, hm.picks, hm.preempt, hm.running, hm.ready, hm.parked, hm.tasks, ?_⟩
    simp [Machine.record, hm.history]
  case notify =>
    intro m other channel hm
    refine ⟨hm.lock, hm.shared, hm.picks, hm.preempt, hm.running, ?_, ?_, hm.tasks, hm.history⟩
    · simp [Machine.notify, hm.ready, hm.parked]
    · intro second
      by_cases hsame : second = channel
      · subst hsame
        simp [Machine.notify]
      · simp only [Machine.notify, Waiters.on_clear_of_ne _ hsame]
        exact hm.parked second
  case rest =>
    intro m other task own hm
    exact ⟨hm.lock, hm.shared, hm.picks, hm.preempt, rfl, hm.ready, hm.parked, hm.set hf task _,
      hm.history⟩
  case approach =>
    intro m other task own call hm
    have htasks := hm.set hf task { point := .before call, own }
    unfold Machine.approach
    simp only [hm.preempt]
    split
    · exact ⟨hm.lock, hm.shared, hm.picks, rfl, rfl, by simp [hm.ready], hm.parked, htasks,
        hm.history⟩
    · exact ⟨hm.lock, hm.shared, hm.picks, rfl, hm.running, hm.ready, hm.parked, htasks, hm.history⟩
  case park =>
    intro m other task own wait hm
    refine ⟨hm.lock, hm.shared, hm.picks, hm.preempt, rfl, hm.ready, ?_, hm.set hf task _,
      hm.history⟩
    intro channel
    by_cases hsame : channel = wait.channel
    · subst hsame
      simp [Machine.park, hm.parked]
    · simp only [Machine.park, Waiters.on_park_of_ne _ _ hsame]
      exact hm.parked channel

/-- The machine takes the steps of the other one. -/
theorem step (p : Program σ δ ε) (hm : Mirrors f m other) :
    (m.step p = none ∧ other.step p = none) ∨
      ∃ next second, m.step p = some next ∧ other.step p = some second ∧ Mirrors f next second := by
  unfold Machine.step
  cases hrunning : other.running with
  | some task =>
      have hruns := hm.running
      rw [hrunning, Option.map_some] at hruns
      rw [hruns]
      simp only [hm.tasks]
      right
      cases other.tasks[task]? with
      | some t => exact ⟨_, _, rfl, rfl, (congruence hf).act p task t hm⟩
      | none =>
          exact ⟨_, _, rfl, rfl, hm.lock, hm.shared, hm.picks, hm.preempt, rfl, hm.ready, hm.parked,
            hm.tasks, hm.history⟩
  | none =>
      have hruns := hm.running
      rw [hrunning, Option.map_none] at hruns
      rw [hruns]
      simp only [hm.ready, hm.picks, choose?_map]
      cases choose? other.ready other.picks with
      | none => exact .inl ⟨rfl, rfl⟩
      | some c =>
          right
          have hbegun : Mirrors f
              { m with running := some (f c.task), ready := c.others.map f, picks := c.picks }
              { other with running := some c.task, ready := c.others, picks := c.picks } :=
            ⟨hm.lock, hm.shared, rfl, hm.preempt, rfl, rfl, hm.parked, hm.tasks, hm.history⟩
          exact ⟨_, _, rfl, rfl, (congruence hf).record [.turn c.task] hbegun⟩

theorem iterate (p : Program σ δ ε) (hm : Mirrors f m other) (moves : Nat) :
    Mirrors f (ReaderWriter.iterate (Machine.step p) moves m)
      (ReaderWriter.iterate (Machine.step p) moves other) := by
  induction moves generalizing m other with
  | zero => exact hm
  | succ moves ih =>
      rcases hm.step hf p with ⟨hnone, hends⟩ | ⟨next, second, hstep, hsecond, hnext⟩
      · simp only [ReaderWriter.iterate, hnone, hends]
        exact hm
      · simp only [ReaderWriter.iterate, hstep, hsecond]
        exact ih hnext

/-- Both come to rest in the same way, however many moves each is allowed. -/
theorem rests (p : Program σ δ ε) (hm : Mirrors f m other) {moves more : Nat}
    (hrest : (ReaderWriter.iterate (Machine.step p) moves m).step p = none)
    (hends : (ReaderWriter.iterate (Machine.step p) more other).step p = none) :
    Mirrors f (ReaderWriter.iterate (Machine.step p) moves m)
      (ReaderWriter.iterate (Machine.step p) more other) := by
  have hboth := hm.iterate hf p moves
  rcases hboth.step hf p with ⟨_, hnone⟩ | ⟨next, _, hstep, _, _⟩
  · rw [iterate_eq_of_eq_none hends hnone]
    exact hboth
  · rw [hrest] at hstep
    cases hstep

end Mirrors

end Machine

end ReaderWriter
