import ReaderWriter.Proofs.Balance
import ReaderWriter.Proofs.Script.Holding

/-!
# Mutual exclusion

Outside of raw style each task gives back exactly the accesses that it was granted, the innermost
one first.  So what it keeps account of is what the history grants it, and the lock agrees with the
tasks: it counts the shared accesses that they hold, and is taken by a writer exactly when one of
them holds an exclusive access.  An access that is given back is always there, whether its task
leaves or panics.
-/

namespace ReaderWriter

namespace Script

namespace Holding

theorem count_enter {h : Holding} (htracked : h ≠ .untracked) (mode other : Mode) :
    (h.enter mode).outermostFirst.count other =
      h.outermostFirst.count other + if mode = other then 1 else 0 := by
  rw [outermostFirst_enter mode htracked, List.count_append, List.count_singleton]
  simp

theorem count_leave {h : Holding} {mode : Mode} (hmode : h.innermost? = some mode)
    (other : Mode) :
    h.outermostFirst.count other =
      h.leave.outermostFirst.count other + if mode = other then 1 else 0 := by
  rw [innermost?_eq_getLast?] at hmode
  obtain ⟨outer, houter⟩ := List.getLast?_eq_some_iff.mp hmode
  rw [outermostFirst_leave, houter, List.dropLast_concat, List.count_append,
    List.count_singleton]
  simp

end Holding

namespace Hand

theorem unwind_holding (h : Hand) (message : String) (data : List Int) :
    (h.unwind message data).own.holding = h.holding := by
  unfold unwind
  cases h.holding.innermost? <;> rfl

theorem resume_holding (h : Hand) (data : List Int) :
    (h.resume data).own.holding = h.holding := by
  unfold resume
  simp only
  split
  · rfl
  · rfl
  · cases h.holding.innermost? <;> rfl
  · exact unwind_holding _ _ data
  · rfl
  · rfl
  · rfl
  · rfl

theorem granted_holding {h : Hand} (hcommand : ∀ call, h.command ≠ some (.call call))
    (mode : Mode) (data : List Int) :
    (granted mode h data).own.holding = h.holding.enter mode := by
  unfold granted
  split
  · next call hcall => exact absurd hcall (hcommand call)
  · rfl

theorem released_holding {h : Hand} (hcommand : ∀ call, h.command ≠ some (.call call))
    (mode : Mode) (data : List Int) :
    (released mode h data).own.holding = h.holding.leave := by
  unfold released
  simp only
  split
  · rfl
  · exact unwind_holding _ _ data
  · next call hcall => exact absurd hcall (hcommand call)
  · rfl

end Hand

/-- The accesses of one kind that a task keeps account of, wherever it stands. -/
def Hand.kept (_ : Point) (h : Hand) (mode : Mode) : Nat :=
  h.holding.outermostFirst.count mode

theorem program_balances : program.Balances Hand.kept (fun point h => h.Tracked point) := by
  constructor
  · intro h data mode _
    exact congrArg (·.outermostFirst.count mode) (h.resume_holding data)
  · intro l lock point wait h mode _ _
    rfl
  · intro l lock point wait h data mode _ htracked
    have hholding := Hand.granted_holding htracked.command wait.mode data
    exact (congrArg (·.outermostFirst.count mode) hholding).trans
      (Holding.count_enter htracked.tracked wait.mode mode)
  · intro h data returned mode htracked
    have hholding := Hand.released_holding htracked.command returned data
    have hcount := Holding.count_leave (htracked.innermost returned rfl) mode
    rwa [← hholding] at hcount

/-! ## Tasks against the history -/

/-- What a task keeps account of is what it was granted and has not given back. -/
def Matched (history : List (Event Note)) (task : Nat) (h : Hand) : Prop :=
  ∀ mode, h.holding.outermostFirst.count mode + history.countP (Event.returnsFrom task mode) =
    history.countP (Event.grantsTo task mode)

/-- Every task keeps account of its accesses, and none was given back that nobody held. -/
structure Faithful (m : State) : Prop where
  matched : ∀ task t, m.tasks[task]? = some t → Matched m.history task t.own
  sound : ∀ task mode, .misused task mode ∉ m.history

/-! ## The balance of a machine -/

theorem length_eq_counts (modes : List Mode) :
    modes.length = modes.count .shared + modes.count .exclusive := by
  induction modes with
  | nil => rfl
  | cons mode modes ih => cases mode <;> simp <;> omega

structure Balanced (m : State) : Prop extends Faithful m where
  accounts : m.scene.Accounts
  attributed : m.scene.Attributed
  tracked : ∀ t ∈ m.tasks, t.own.Tracked t.point

namespace Balanced

variable {m : State}

/-- What the tasks keep account of is a balance of the machine. -/
theorem machine (hm : Balanced m) : m.Balanced Hand.kept := by
  refine ⟨hm.accounts, hm.attributed, ?_, hm.sound⟩
  intro task t htask mode
  have hmatched := hm.matched task t htask mode
  unfold Hand.kept
  omega

theorem of_machine (hm : m.Balanced Hand.kept) (htracked : ∀ t ∈ m.tasks, t.own.Tracked t.point) :
    Balanced m := by
  refine ⟨⟨?_, hm.sound⟩, hm.accounts, hm.attributed, htracked⟩
  intro task t htask mode
  have haccounted := hm.accounted task t htask mode
  unfold Hand.kept at haccounted
  omega

theorem held_eq (hm : Balanced m) {task : Nat} {t : Task Hand} (htask : m.tasks[task]? = some t)
    (mode : Mode) : held m.history task mode = t.own.holding.outermostFirst.count mode :=
  hm.machine.held_eq htask mode

theorem countP_returnsFrom_le (hm : Balanced m) (task : Nat) (mode : Mode) :
    m.history.countP (Event.returnsFrom task mode) ≤
      m.history.countP (Event.grantsTo task mode) :=
  hm.machine.owned task mode

theorem sum_held (hm : Balanced m) :
    ∑ task ∈ Finset.range m.tasks.length, held m.history task .shared = m.lock.activeReaders ∧
    ∑ task ∈ Finset.range m.tasks.length, held m.history task .exclusive =
      m.lock.writersInside := by
  have hsum := hm.accounts.sum_held hm.attributed hm.countP_returnsFrom_le
  simpa [Machine.scene] using hsum

theorem lt_of_held (hm : Balanced m) {task : Nat} {mode : Mode}
    (hheld : 0 < held m.history task mode) : task < m.tasks.length := by
  have hlt := hm.attributed.lt_of_held hheld
  simpa [Machine.scene] using hlt

theorem held_le (hm : Balanced m) (task : Nat) :
    held m.history task .shared ≤ m.lock.activeReaders ∧
      held m.history task .exclusive ≤ m.lock.writersInside :=
  hm.accounts.held_le hm.attributed hm.countP_returnsFrom_le task

theorem release?_isSome_of_before (hm : Balanced m) {task : Nat} {t : Task Hand} {mode : Mode}
    (htask : m.tasks[task]? = some t) (hpoint : t.point = .before (.release mode)) :
    (m.lock.release? mode).isSome :=
  hm.machine.release?_of_before program_balances htask (hm.tracked t (List.mem_of_getElem? htask))
    hpoint

theorem step (hm : Balanced m) {style : Style} (hstyle : style ≠ .raw) {next : State}
    (hfits : m.Sound (Hand.Fits style)) (hstep : m.step program = some next) :
    Balanced next := by
  have hnext := (hfits.step (program_descends style) hstep).1
  exact .of_machine (hm.machine.step program_balances hm.tracked hstep)
    (fun t ht => hnext t ht hstyle)

end Balanced

theorem start_balanced {s : Script} (hstyle : s.style ≠ .raw) : Balanced s.start := by
  have htasks : ∀ (task : Nat) (t : Task Hand), s.start.tasks[task]? = some t →
      t.own.holding = .empty s.style := by
    intro task t ht
    obtain ⟨name, _, rfl⟩ : ∃ name ∈ s.names, _ = t :=
      List.mem_map.mp (List.mem_of_getElem? ht)
    rfl
  refine ⟨⟨?_, ?_⟩, ?_, ?_, ?_⟩
  · intro task t ht mode
    rw [htasks task t ht]
    cases s.style <;> simp [Holding.empty, Holding.outermostFirst, start]
  · intro task mode
    simp [start]
  · rw [start_scene]
    exact Scene.start_accounts _ _
  · rw [start_scene]
    exact Scene.start_attributed _ _
  · intro t ht
    exact s.start_fits t ht hstyle

/-- A command that is handed over changes nothing about the accesses. -/
theorem Balanced.hand {s : Script} {m next : State} {name : String} {command? : Option Command}
    (hm : Balanced m) (hstyle : s.style ≠ .raw) (hnext : next.Sound (Hand.Fits s.style))
    (hhand : s.hand m name command? = .ok next) : Balanced next := by
  have hscene := hand_scene hhand
  obtain ⟨index, t, command, _, _, htask, _, _, _, rfl⟩ := hand_eq_ok_iff.mp hhand
  refine ⟨⟨?_, hm.sound⟩, hscene ▸ hm.accounts, hscene ▸ hm.attributed,
    fun t ht => hnext t ht hstyle⟩
  intro other u hu
  by_cases hother : index = other
  · subst other
    rw [List.getElem?_set_self'] at hu
    obtain ⟨_, _, rfl⟩ := Option.map_eq_some_iff.mp hu
    exact hm.matched index t htask
  · rw [List.getElem?_set_ne hother] at hu
    exact hm.matched other u hu

theorem Reaches.balanced {s : Script} {m : State} (hm : s.Reaches m) (hstyle : s.style ≠ .raw) :
    Balanced m := by
  let P : State → Prop := fun m => Balanced m ∧ m.Sound (Hand.Fits s.style)
  have hboth : P m := by
    refine hm.keeps ?_ ?_ ⟨start_balanced hstyle, s.start_fits⟩ ?_
    · rintro m next name command? ⟨hbalanced, hfits⟩ hhand
      have hnext := hand_fits hfits hhand
      exact ⟨hbalanced.hand hstyle hnext hhand, hnext⟩
    · rintro m next name ⟨hbalanced, hfits⟩ hwake
      obtain ⟨index, _, rfl⟩ := wake_cases hwake
      have hmove := Scene.Move.wake m.scene index
      exact ⟨⟨⟨hbalanced.matched, hbalanced.sound⟩, hbalanced.accounts.move hmove,
        hbalanced.attributed.move hmove, hbalanced.tracked⟩, hfits⟩
    · rintro m next ⟨hbalanced, hfits⟩ hstep
      exact ⟨hbalanced.step hstyle hfits hstep, (hfits.step (program_descends s.style) hstep).1⟩
  exact hboth.1

/-! ## The exclusion law -/

/-- The lock agrees with the accesses that the tasks hold.  An access is held from the section that
grants it to the section that gives it back. -/
structure Exclusion (m : State) : Prop where
  readers : m.lock.activeReaders =
    ∑ task ∈ Finset.range m.tasks.length, held m.history task .shared
  taken : m.lock.exclusive = true ↔ ∃ task mode, 0 < held m.history task mode
  writer : ∀ task, 0 < held m.history task .exclusive →
    held m.history task .exclusive = 1 ∧ held m.history task .shared = 0 ∧
      ∀ other, other ≠ task → ∀ mode, held m.history other mode = 0
  /-- Nobody gives back what it was not granted. -/
  returned : ∀ task mode, m.history.countP (Event.returnsFrom task mode) ≤
    m.history.countP (Event.grantsTo task mode)
  account : ∀ (task : Nat) (t : Task Hand), m.tasks[task]? = some t → ∀ mode,
    held m.history task mode = t.own.holding.outermostFirst.count mode
  /-- The access that a task is about to give back is there. -/
  returnable : ∀ (task : Nat) (t : Task Hand) (mode : Mode), m.tasks[task]? = some t →
    t.point = .before (.release mode) → (m.lock.release? mode).isSome
  unmisused : ∀ task mode, .misused task mode ∉ m.history

namespace Balanced

variable {m : State}

theorem exists_held_of_taken (hm : Balanced m) (htaken : m.lock.exclusive = true) :
    ∃ task mode, 0 < held m.history task mode :=
  hm.accounts.exists_held_of_taken hm.attributed hm.countP_returnsFrom_le htaken

theorem taken_of_held (hm : Balanced m) {task : Nat} {mode : Mode}
    (hheld : 0 < held m.history task mode) : m.lock.exclusive = true := by
  obtain ⟨hreaders, hwriters⟩ := hm.held_le task
  cases mode with
  | shared => exact hm.accounts.group (by change 0 < m.lock.activeReaders; omega)
  | exclusive =>
      by_contra hfree
      have hnone := Lock.writersInside_of_free (Bool.eq_false_of_not_eq_true hfree)
      omega

theorem held_pair_le (hm : Balanced m) {task other : Nat} (hother : other ≠ task) {mode : Mode}
    (htask : 0 < held m.history task mode) (hholds : 0 < held m.history other mode) :
    held m.history task mode + held m.history other mode ≤
      ∑ task ∈ Finset.range m.tasks.length, held m.history task mode := by
  have hmem := Finset.mem_range.mpr (hm.lt_of_held htask)
  have hotherMem := Finset.mem_range.mpr (hm.lt_of_held hholds)
  rw [← Finset.add_sum_erase _ _ hmem]
  apply Nat.add_le_add_left
  exact Finset.single_le_sum (f := fun task => held m.history task mode)
    (fun _ _ => Nat.zero_le _) (Finset.mem_erase.mpr ⟨hother, hotherMem⟩)

/-- Beside a writer nothing is held. -/
theorem alone_of_writer (hm : Balanced m) {task : Nat}
    (hheld : 0 < held m.history task .exclusive) :
    held m.history task .exclusive = 1 ∧ held m.history task .shared = 0 ∧
      ∀ other, other ≠ task → ∀ mode, held m.history other mode = 0 := by
  have hone := m.lock.writersInside_le_one
  have hwriter := (hm.held_le task).2
  have hempty : m.lock.activeReaders = 0 := by
    by_contra hreaders
    have hnone := Lock.writersInside_of_readers (Nat.pos_of_ne_zero hreaders)
    omega
  refine ⟨by omega, ?_, ?_⟩
  · have hreader := (hm.held_le task).1
    omega
  · intro other hother mode
    have hreader := (hm.held_le other).1
    cases mode with
    | shared => omega
    | exclusive =>
        -- two tasks with a writer would exceed the sum
        have hsum := hm.sum_held.2
        by_contra hsome
        have hpair := hm.held_pair_le hother hheld (Nat.pos_of_ne_zero hsome)
        omega

theorem exclusion (hm : Balanced m) : Exclusion m := by
  constructor
  · exact hm.sum_held.1.symm
  · constructor
    · exact hm.exists_held_of_taken
    · rintro ⟨task, mode, hheld⟩
      exact hm.taken_of_held hheld
  · intro task hheld
    exact hm.alone_of_writer hheld
  · exact hm.countP_returnsFrom_le
  · intro task t htask mode
    exact hm.held_eq htask mode
  · intro task t mode htask hpoint
    exact hm.release?_isSome_of_before htask hpoint
  · exact hm.sound

end Balanced

theorem giveOut_lock (s : Script) (m : State) (step : Step) :
    (s.giveOut m step).1.lock = m.lock := by
  refine giveOut_keeps (P := fun next => next.lock = m.lock) ?_ ?_ rfl step
  · intro before next name command? hlock hhand
    exact (congrArg Scene.lock (hand_scene hhand)).trans hlock
  · intro before next name hlock hwake
    obtain ⟨index, _, rfl⟩ := wake_cases hwake
    exact hlock

/-- With closures or guards the lock excludes under both policies, and it is idle, read by a group
or written by one, going from one phase only to its neighbours. -/
theorem mutual_exclusion {s : Script} (hstyle : s.style ≠ .raw) {m : State}
    (hm : s.Reaches m) :
    Exclusion m ∧ s.start.lock.phase = .idle ∧
      (∀ next, m.step program = some next →
        next.lock.phase = m.lock.phase ∨ Phase.Step m.lock.phase next.lock.phase) ∧
      ∀ step, (s.giveOut m step).1.lock = m.lock := by
  have hbalanced := hm.balanced hstyle
  refine ⟨hbalanced.exclusion, rfl, ?_, s.giveOut_lock m⟩
  intro next hstep
  exact Machine.step_phase hbalanced.accounts hstep

theorem mutual_exclusion_queuedWriter :
    queuedWriter.style ≠ .raw ∧
      ∑ task ∈ Finset.range 3,
        held (queuedWriter.after (queuedWriter.steps.take 2)).history task .shared = 2 := by
  have hstyle : queuedWriter.style ≠ .raw := by decide
  have hm := queuedWriter.reaches_after (queuedWriter.steps.take 2)
  have hexclusion := (mutual_exclusion hstyle hm).1
  have hreaders :
      (queuedWriter.after (queuedWriter.steps.take 2)).lock.activeReaders = 2 := by
    decide +kernel
  have htasks : (queuedWriter.after (queuedWriter.steps.take 2)).tasks.length = 3 := by
    decide +kernel
  have hsum := hexclusion.readers
  rw [htasks, hreaders] at hsum
  exact ⟨hstyle, hsum.symm⟩

end Script

end ReaderWriter
