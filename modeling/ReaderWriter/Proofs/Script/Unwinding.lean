import ReaderWriter.Proofs.Script.Leaving
import ReaderWriter.Proofs.Script.Single

/-!
# A panic gives back what leaving would

A task that panics gives back all its accesses in one step of the script, and a task that leaves
gives back one in each.  A nest of accesses is one writer's or only holds readers.  Of several
readers only the last one to leave can wake anybody, so the tasks that wait notice neither how many
steps it took nor that the task was about to panic.

What tells the two apart is the log of the task itself: its turns, and that it left or panicked.
-/

namespace ReaderWriter.Script

open Machine

/-- An event that does not tell how the task came to give its accesses back. -/
def shows (task : Nat) : Event Note → Bool
  | .turn other => other ≠ task
  | .noted other (.left ..) => other ≠ task
  | .noted other (.panicked _) => other ≠ task
  | _ => true

def panicStep (name : String) (message : String) : Step :=
  [.hand name (some (.panic message))]

/-- A command to give back accesses, the innermost one at least. -/
def Command.departs : Command → Bool
  | .leave _ => true
  | .panic _ => true
  | _ => false

/-- The task runs and stands before a release, on its way through a command. -/
def poised (m : State) (task : Nat) (holding : Holding) (command : Command) (mode : Mode) : State :=
  staged m
    (m.tasks.set task
      { point := .before (.release mode), own := { holding, command := some command } })
    (some task)

/-- The lock after a release, and the tasks that this has made ready. -/
def vacated (m : State) (task : Nat) (mode : Mode) (r : Release) : State :=
  r.notified.foldl notify ({ m with lock := r.lock }.record
    (r.traces.map (Event.traced task) ++ [Event.released task mode]))

/-- The task has given its innermost access back and is at rest. -/
def freed (m : State) (task : Nat) (holding : Holding) (mode : Mode) (r : Release) : State :=
  staged (vacated m task mode r) (m.tasks.set task { own := { holding := holding.leave } }) none

theorem vacated_shared (m : State) (task : Nat) (mode : Mode) (r : Release) :
    (vacated m task mode r).shared = m.shared :=
  foldl_notify_shared _ _

theorem shows_turn (task : Nat) : shows task (.turn task) = false := by
  simp [shows]

theorem foldl_notify_staged (m : State) (tasks : List (Task Hand)) (running : Option Nat)
    (channels : List Channel) :
    channels.foldl notify (staged m tasks running) =
      staged (channels.foldl notify m) tasks running :=
  List.foldl_hom (fun m => staged m tasks running) (fun _ _ => rfl)

section Departing

variable {m : State} {task : Nat} {idle : Hand} {holding : Holding} {command : Command}
  {mode : Mode} {r : Release}

/-- A task that is to give an access back is on its way to do so. -/
theorem departing_leads (hrest : m.running = none ∧ m.ready = []) (htask : task < m.tasks.length)
    (hcommand : command.departs = true) (hmode : idle.holding.innermost? = some mode) :
    Leads program (shows task) (handing m task idle command)
      (poised m task idle.holding command mode) := by
  refine handing_leads hrest htask (shows_turn task) ?_
  cases command with
  | leave value => simp [program, Hand.resume, hmode]
  | panic message => simp [program, Hand.resume, Hand.unwind, hmode]
  | _ => cases hcommand

/-- A release that can be made is followed by what the command has to do then. -/
theorem poised_leads (hrelease : m.lock.release? mode = some r) (htask : task < m.tasks.length) :
    Leads program (shows task) (poised m task holding command mode)
      ((staged (vacated m task mode r) (poised m task holding command mode).tasks (some task)).react
        task (program.released mode { holding, command := some command } m.shared)) := by
  have hlock : (poised m task holding command mode).lock.release? mode = some r := hrelease
  have htasks : (poised m task holding command mode).tasks[task]? = some
      { point := .before (.release mode), own := { holding, command := some command } } := by
    simp [poised, staged, htask]
  have hrunning : (poised m task holding command mode).running = some task := rfl
  refine .of_step ?_ (.refl _)
  simp only [step, hrunning, htasks, act, giveBack, hlock, foldl_notify_shared]
  rw [vacated, ← foldl_notify_staged, record_append]
  rfl

/-- The task is at rest if its release leaves it nothing to do. -/
theorem poised_leads_freed (hrelease : m.lock.release? mode = some r)
    (htask : task < m.tasks.length) (note : Note) (hnote : shows task (.noted task note) = false)
    (hreleased : program.released mode { holding, command := some command } m.shared =
      { own := { holding := holding.leave }, shared := m.shared, notes := [note] }) :
    Leads program (shows task) (poised m task holding command mode)
      (freed m task holding mode r) := by
  refine (poised_leads hrelease htask).trans (.of_alike ?_)
  rw [hreleased]
  constructor
  · simp only [react, rest, record, poised, staged, freed, withHistory, List.set_set, vacated_shared]
  · simp [react, rest, record, staged, freed, hnote]

/-- The task stands before its next release if there is one, with nobody else ready. -/
theorem poised_leads_poised (hready : m.ready = []) (hrelease : m.lock.release? mode = some r)
    (hsilent : r.notified = []) (htask : task < m.tasks.length) {next : Mode}
    (hreleased : program.released mode { holding, command := some command } m.shared =
      { own := { holding := holding.leave, command := some command }
        shared := m.shared
        next := some (.release next) }) :
    Leads program (shows task) (poised m task holding command mode)
      (poised (freed m task holding mode r) task holding.leave command next) := by
  refine (poised_leads hrelease htask).trans ?_
  let left : State :=
    staged (vacated m task mode r) (poised m task holding command mode).tasks (some task)
  have hquiet : left.ready = [] := by
    change (vacated m task mode r).ready = []
    rw [vacated, hsilent]
    exact hready
  have hshared : m.shared = left.shared := (vacated_shared m task mode r).symm
  have hreact : left.react task
      { own := { holding := holding.leave, command := some command }
        shared := m.shared
        next := some (.release next) } =
      left.approach task { holding := holding.leave, command := some command } (.release next) := by
    rw [hshared]
    rfl
  rw [hreleased, hreact]
  refine (Leads.approach rfl hquiet (shows_turn task) _ _).trans (.of_alike ?_)
  simp only [left, poised, staged, freed, List.set_set]
  exact .refl _

/-! ## Two commands to the same end -/

theorem leave_leads (hrest : m.running = none ∧ m.ready = []) (htask : task < m.tasks.length)
    (hmode : idle.holding.innermost? = some mode) (hrelease : m.lock.release? mode = some r)
    (value : Int) :
    Leads program (shows task) (handing m task idle (.leave value))
      (freed m task idle.holding mode r) := by
  refine (departing_leads hrest htask rfl hmode).trans ?_
  exact poised_leads_freed hrelease htask (.left mode value) (by simp [shows]) rfl

theorem panic_leads_of_last (hrest : m.running = none ∧ m.ready = []) (htask : task < m.tasks.length)
    (hmode : idle.holding.innermost? = some mode) (hrelease : m.lock.release? mode = some r)
    (hlast : idle.holding.leave.innermost? = none) (message : String) :
    Leads program (shows task) (handing m task idle (.panic message))
      (freed m task idle.holding mode r) := by
  refine (departing_leads hrest htask rfl hmode).trans ?_
  refine poised_leads_freed hrelease htask (.panicked message) (by simp [shows]) ?_
  simp [program, Hand.released, Hand.unwind, hlast, Hand.finish]

/-- As long as there is more to give back, a panic goes on as if it began after the release. -/
theorem panic_leads_of_more (hrest : m.running = none ∧ m.ready = []) (htask : task < m.tasks.length)
    (hmode : idle.holding.innermost? = some mode) (hrelease : m.lock.release? mode = some r)
    (hsilent : r.notified = []) {next : Mode} (hmore : idle.holding.leave.innermost? = some next)
    (message : String) :
    Leads program (shows task) (handing m task idle (.panic message))
      (poised (freed m task idle.holding mode r) task idle.holding.leave (.panic message) next) := by
  refine (departing_leads hrest htask rfl hmode).trans ?_
  refine poised_leads_poised hrest.2 hrelease hsilent htask ?_
  simp [program, Hand.released, Hand.unwind, hmore]

end Departing

/-! ## Steps of a script -/

/-- The named task does not wait, and these are the accesses that it holds. -/
structure Bears (s : Script) (m : State) (name : String) (index : Nat) (held : List Mode) :
    Prop where
  named : s.names.idxOf? name = some index
  seen : (view m)[index]? = some { held, waits := false }

section Bears

variable {s : Script} {steps : List Step} {name : String} {index : Nat} {held : List Mode}

theorem Bears.exists_idle (hbears : Bears s (s.after steps) name index held) :
    ∃ idle : Hand, (s.after steps).tasks[index]? = some { own := idle } ∧ idle.handed = none ∧
      idle.holding.outermostFirst = held ∧ (s.after steps).waiters.contains index = false := by
  have hseen := hbears.seen
  rw [view_getElem?, Option.map_eq_some_iff] at hseen
  obtain ⟨⟨point, own⟩, htask, hview⟩ := hseen
  simp only [TaskView.mk.injEq] at hview
  obtain ⟨hpoint, hhanded⟩ := s.after_free steps htask hview.2
  obtain rfl : point = .outside := hpoint
  exact ⟨own, htask, hhanded, hview.1, hview.2⟩

/-- A command to give accesses back is carried out. -/
theorem Bears.hand (hbears : Bears s (s.after steps) name index held) (hstyle : s.style ≠ .raw)
    (hheld : held ≠ []) {idle : Hand} (htask : (s.after steps).tasks[index]? = some { own := idle })
    (command : Command) (hcommand : command.departs = true) :
    s.hand (s.after steps) name (some command) = .ok (handing (s.after steps) index idle command) := by
  obtain ⟨same, hsame, hhanded, hholding, hwaits⟩ := hbears.exists_idle
  obtain rfl : same = idle := congrArg Task.own (Option.some.inj (hsame.symm.trans htask))
  have hinnermost : same.holding.innermost?.isSome = true := by
    rw [Holding.innermost?_eq_getLast?, hholding, List.getLast?_isSome]
    exact hheld
  refine hand_eq_ok_iff.mpr ⟨index, _, command, hbears.named, rfl, htask, hwaits, hhanded, ?_, rfl⟩
  cases hcase : s.style with
  | raw => exact absurd hcase hstyle
  | _ =>
      cases command with
      | leave value => exact if_pos hinnermost
      | panic message => exact if_pos hinnermost
      | _ => cases hcommand

theorem Bears.after_command (hbears : Bears s (s.after steps) name index held)
    (hstyle : s.style ≠ .raw) (hheld : held ≠ []) {idle : Hand}
    (htask : (s.after steps).tasks[index]? = some { own := idle }) (command : Command)
    (hcommand : command.departs = true) :
    s.after (steps ++ [[.hand name (some command)]]) =
      (handing (s.after steps) index idle command).settleDown program := by
  rw [after_append_singleton, giveOut_hand (hbears.hand hstyle hheld htask command hcommand)]

theorem Bears.carried (hbears : Bears s (s.after steps) name index held)
    (hstyle : s.style ≠ .raw) (hheld : held ≠ []) (command : Command)
    (hcommand : command.departs = true) :
    (s.respond (s.after steps) [.hand name (some command)]).1.ignored = [] := by
  obtain ⟨idle, htask, _⟩ := hbears.exists_idle
  simp [respond, giveOut, giveOrder, carryOut, hbears.hand hstyle hheld htask command hcommand]

/-- A task holds one access as a writer, or only reads. -/
theorem length_le_one_of_writer {m : State} (hm : Balanced m) {t : Task Hand}
    (htask : m.tasks[index]? = some t) (hwriter : .exclusive ∈ t.own.holding.outermostFirst) :
    t.own.holding.outermostFirst.length ≤ 1 := by
  have hheld : 0 < held m.history index .exclusive := by
    rw [hm.held_eq htask]
    exact List.count_pos_iff.mpr hwriter
  obtain ⟨hone, hnone, _⟩ := hm.alone_of_writer hheld
  rw [hm.held_eq htask] at hone hnone
  rw [length_eq_counts, hone, hnone]

/-- The innermost access can be given back, and nobody notices unless it is the last one. -/
theorem exists_release (hstyle : s.style ≠ .raw) {t : Task Hand}
    (htask : (s.after steps).tasks[index]? = some t) (hheld : t.own.holding.outermostFirst ≠ []) :
    ∃ mode r, t.own.holding.innermost? = some mode ∧
      (s.after steps).lock.release? mode = some r ∧
      (1 < t.own.holding.outermostFirst.length → r.notified = []) := by
  have hm := (s.reaches_after steps).balanced hstyle
  obtain ⟨mode, hmode⟩ : ∃ mode, t.own.holding.innermost? = some mode := by
    rw [Holding.innermost?_eq_getLast?]
    exact ⟨_, List.getLast?_eq_some_getLast hheld⟩
  have hmem : mode ∈ t.own.holding.outermostFirst := by
    rw [Holding.innermost?_eq_getLast?] at hmode
    exact List.mem_of_getLast? hmode
  obtain ⟨r, hrelease⟩ := Option.isSome_iff_exists.mp
    (hm.machine.release?_isSome htask (List.count_pos_iff.mpr hmem))
  refine ⟨mode, r, hmode, hrelease, ?_⟩
  intro hmany
  have hreads : .exclusive ∉ t.own.holding.outermostFirst := by
    intro hwriter
    have hone := length_le_one_of_writer hm htask hwriter
    omega
  obtain rfl : mode = .shared := by
    cases mode with
    | shared => rfl
    | exclusive => exact absurd hmem hreads
  have hreaders := (hm.held_le index).1
  rw [hm.held_eq htask] at hreaders
  rw [length_eq_counts, List.count_eq_zero.mpr hreads] at hmany
  rcases Lock.release?_shared_cases hrelease with ⟨hlast, _⟩ | ⟨_, rfl⟩
  · omega
  · rfl

/-- Who has nothing to do stays at rest while the others go on. -/
theorem idle_stays {m : State} (hm : s.Reaches m) {idle : Hand}
    (htask : m.tasks[index]? = some { own := idle }) (hhanded : idle.handed = none) (moves : Nat) :
    (iterate (Machine.step program) moves m).tasks[index]? = some { own := idle } := by
  have hboth : s.Reaches (iterate (Machine.step program) moves m) ∧
      (iterate (Machine.step program) moves m).tasks[index]? = some { own := idle } := by
    refine iterate_keeps (P := fun m : State =>
      s.Reaches m ∧ m.tasks[index]? = some { own := idle }) ?_ moves ⟨hm, htask⟩
    rintro m next ⟨hm, htask⟩ hstep
    refine ⟨hm.step hstep, ?_⟩
    rcases step_cases hstep with ⟨_, c, _, rfl⟩ | ⟨_, _, _, rfl⟩ | ⟨task, t, hrunning, ht, rfl⟩
    · exact htask
    · exact htask
    · have hne : index ≠ task := by
        rintro rfl
        obtain rfl : t = { own := idle } := Option.some.inj (ht.symm.trans htask)
        have howed := hm.attended.booked.lt_owed hrunning ht
        simp [Hand.owed, hhanded] at howed
      rw [act_tasks_of_ne program m t hne]
      exact htask
  exact hboth.2

/-- Leaving gives the innermost access back and leaves the task at rest. -/
theorem Bears.leave (hbears : Bears s (s.after steps) name index held) (hstyle : s.style ≠ .raw)
    (hheld : held ≠ []) (value : Int) :
    Bears s (s.after (steps ++ [leaveStep name value])) name index held.dropLast := by
  obtain ⟨idle, htask, hhanded, rfl, _⟩ := hbears.exists_idle
  obtain ⟨mode, r, hmode, hrelease, _⟩ := exists_release hstyle htask hheld
  have hlt := (List.getElem?_eq_some_iff.mp htask).1
  have hafter := hbears.after_command hstyle hheld htask (.leave value) rfl
  obtain ⟨moves, halike⟩ := leave_leads (s.after_rest steps) hlt hmode hrelease value
  let departing := handing (s.after steps) index idle (.leave value)
  have hreaches : s.Reaches (iterate (Machine.step program) moves departing) := by
    refine ⟨steps, leaveStep name value, moves, ?_⟩
    rw [midway, leaveStep, giveOut_hand (hbears.hand hstyle hheld htask _ rfl)]
  have hidle : (iterate (Machine.step program) moves departing).tasks[index]? =
      some { own := { holding := idle.holding.leave } } := by
    rw [← halike.tasks]
    exact List.getElem?_set_self hlt
  have hends : iterate (Machine.step program) (departing.work program)
      (iterate (Machine.step program) moves departing) =
      s.after (steps ++ [leaveStep name value]) := by
    have hrest := s.step_after_eq_none (steps ++ [leaveStep name value])
    rw [leaveStep, hafter] at hrest
    rw [leaveStep, hafter, ← iterate_add, Nat.add_comm, iterate_add]
    exact iterate_of_eq_none hrest moves
  have hstays := idle_stays hreaches hidle rfl (departing.work program)
  rw [hends] at hstays
  refine ⟨hbears.named, ?_⟩
  rw [view_getElem?, hstays, Option.map_some, Holding.outermostFirst_leave]
  have hfree : (s.after (steps ++ [leaveStep name value])).waiters.contains index = false := by
    by_contra hparked
    obtain ⟨wait, hat⟩ := s.after_waits _ (Bool.eq_true_of_not_eq_false hparked)
    have hpoint := (scene_at hstays).symm.trans hat
    simp at hpoint
  rw [hfree]

/-! ## A panic and as many departures -/

/-- If there is more to give back, a panic ends as if it had begun after leaving once. -/
theorem Bears.panic_after_leave (hbears : Bears s (s.after steps) name index held)
    (hstyle : s.style ≠ .raw) (hmany : 1 < held.length) (message : String) (value : Int) :
    Alike (shows index) (s.after (steps ++ [panicStep name message]))
      (s.after (steps ++ [leaveStep name value] ++ [panicStep name message])) := by
  have hheld : held ≠ [] := List.ne_nil_of_length_pos (by omega)
  have hleft := hbears.leave hstyle hheld value
  have hmore : held.dropLast ≠ [] := by
    apply List.ne_nil_of_length_pos
    rw [List.length_dropLast]
    omega
  obtain ⟨idle, htask, hhanded, rfl, _⟩ := hbears.exists_idle
  obtain ⟨mode, r, hmode, hrelease, hquiet⟩ := exists_release hstyle htask hheld
  have hsilent := hquiet hmany
  have hlt := (List.getElem?_eq_some_iff.mp htask).1
  -- leaving once comes to rest where the panic has made its first release
  have hfreed : Alike (shows index) (s.after (steps ++ [leaveStep name value]))
      (freed (s.after steps) index idle.holding mode r) := by
    have hleads := leave_leads (s.after_rest steps) hlt hmode hrelease value
    have hrest := s.step_after_eq_none (steps ++ [leaveStep name value])
    have hends : (iterate (Machine.step program) 0
        (freed (s.after steps) index idle.holding mode r)).step program = none := by
      refine (step_eq_none_iff program _).mpr ⟨rfl, ?_⟩
      change (vacated (s.after steps) index mode r).ready = []
      rw [vacated, hsilent]
      exact (s.after_rest steps).2
    rw [leaveStep, hbears.after_command hstyle hheld htask _ rfl] at hrest ⊢
    exact hleads.rest (.of_alike (.refl _)) hrest hends
  obtain ⟨left, hleftTask, _, hholding, _⟩ := hleft.exists_idle
  have hlocked : left.holding = idle.holding.leave := by
    rw [← hfreed.tasks] at hleftTask
    change ((s.after steps).tasks.set index _)[index]? = _ at hleftTask
    rw [List.getElem?_set_self hlt] at hleftTask
    exact (congrArg (fun t => t.own.holding) (Option.some.inj hleftTask)).symm
  obtain ⟨next, hnext⟩ : ∃ next, idle.holding.leave.innermost? = some next := by
    rw [← hlocked, Holding.innermost?_eq_getLast?, hholding]
    exact ⟨_, List.getLast?_eq_some_getLast hmore⟩
  have hpanics := panic_leads_of_more (s.after_rest steps) hlt hmode hrelease hsilent hnext message
  have hrest := s.step_after_eq_none (steps ++ [panicStep name message])
  have hends := s.step_after_eq_none (steps ++ [leaveStep name value] ++ [panicStep name message])
  unfold panicStep at hrest hends ⊢
  rw [hbears.after_command hstyle hheld htask _ rfl] at hrest ⊢
  rw [hleft.after_command hstyle hmore hleftTask _ rfl] at hends ⊢
  refine hpanics.rest ?_ hrest hends
  have hleftLt := (List.getElem?_eq_some_iff.mp hleftTask).1
  refine (departing_leads (s.after_rest _) hleftLt rfl (hlocked ▸ hnext)).trans (.of_alike ?_)
  rw [hlocked]
  refine hfreed.congr (f := fun m => poised m index idle.holding.leave (.panic message) next) ?_
  exact ⟨[], rfl, fun _ => rfl⟩

/-- The last access of a task: it does not matter whether it leaves or panics. -/
theorem Bears.panic_of_last (hbears : Bears s (s.after steps) name index held)
    (hstyle : s.style ≠ .raw) (hone : held.length = 1) (message : String) (value : Int) :
    Alike (shows index) (s.after (steps ++ [panicStep name message]))
      (s.after (steps ++ [leaveStep name value])) := by
  have hheld : held ≠ [] := List.ne_nil_of_length_pos (by omega)
  obtain ⟨idle, htask, hhanded, rfl, _⟩ := hbears.exists_idle
  obtain ⟨mode, r, hmode, hrelease, _⟩ := exists_release hstyle htask hheld
  have hlt := (List.getElem?_eq_some_iff.mp htask).1
  have hlast : idle.holding.leave.innermost? = none := by
    rw [Holding.innermost?_eq_getLast?, Holding.outermostFirst_leave, List.getLast?_eq_none_iff,
      ← List.length_eq_zero_iff, List.length_dropLast, hone]
  have hrest := s.step_after_eq_none (steps ++ [panicStep name message])
  have hends := s.step_after_eq_none (steps ++ [leaveStep name value])
  unfold panicStep leaveStep at *
  rw [hbears.after_command hstyle hheld htask _ rfl] at hrest hends ⊢
  rw [hbears.after_command hstyle hheld htask _ rfl]
  exact (panic_leads_of_last (s.after_rest steps) hlt hmode hrelease hlast message).rest
    (leave_leads (s.after_rest steps) hlt hmode hrelease value) hrest hends

theorem Bears.panic_alike (hbears : Bears s (s.after steps) name index held)
    (hstyle : s.style ≠ .raw) (hheld : held ≠ []) (message : String) {values : List Int}
    (hvalues : values.length = held.length) :
    Alike (shows index) (s.after (steps ++ [panicStep name message]))
      (s.after (steps ++ values.map (leaveStep name))) := by
  induction values generalizing steps held with
  | nil => exact absurd (List.length_eq_zero_iff.mp hvalues.symm) hheld
  | cons value values ih =>
      cases values with
      | nil => exact hbears.panic_of_last hstyle hvalues.symm message value
      | cons second values =>
          have hmany : 1 < held.length := by
            rw [← hvalues]
            simp
          have hleft := hbears.leave hstyle hheld value
          have hlength : (second :: values).length = held.dropLast.length := by
            rw [List.length_dropLast, ← hvalues]
            rfl
          have hmore : held.dropLast ≠ [] := List.ne_nil_of_length_pos (by simp [← hlength])
          have hrest := (hbears.panic_after_leave hstyle hmany message value).trans
            (ih hleft hmore hlength)
          rw [List.append_assoc] at hrest
          exact hrest

theorem Bears.leaves (hbears : Bears s (s.after steps) name index held) (hstyle : s.style ≠ .raw)
    {values : List Int} (hvalues : values.length = held.length) :
    Bears s (s.after (steps ++ values.map (leaveStep name))) name index [] ∧
      ∀ answer ∈ (s.respondAll (s.after steps) (values.map (leaveStep name))).1,
        answer.ignored = [] := by
  induction values generalizing steps held with
  | nil =>
      obtain rfl := List.length_eq_zero_iff.mp hvalues.symm
      simpa [respondAll] using hbears
  | cons value values ih =>
      have hheld : held ≠ [] := List.ne_nil_of_length_pos (by simp [← hvalues])
      have hlength : values.length = held.dropLast.length := by
        rw [List.length_dropLast, ← hvalues]
        rfl
      obtain ⟨hends, hcarried⟩ := ih (hbears.leave hstyle hheld value) hlength
      have hsame : (s.respond (s.after steps) (leaveStep name value)).2 =
          s.after (steps ++ [leaveStep name value]) :=
        (s.respondAll_append_singleton s.start steps _).symm
      rw [List.append_assoc] at hends
      refine ⟨hends, ?_⟩
      intro answer hanswer
      rw [List.map_cons, respondAll_cons, hsame] at hanswer
      rcases List.mem_cons.mp hanswer with rfl | hanswer
      · exact hbears.carried hstyle hheld _ rfl
      · exact hcarried answer hanswer

end Bears

/-- From a state two lists of steps come to the same end, and only what the task itself logged tells
which of the two it was. -/
structure EndAlike (s : Script) (m : State) (task : Nat) (steps others : List Step) : Prop where
  lock : (s.respondAll m steps).2.lock = (s.respondAll m others).2.lock
  waiters : (s.respondAll m steps).2.waiters = (s.respondAll m others).2.waiters
  /-- Among what is the same about the tasks are the accesses that they hold. -/
  tasks : (s.respondAll m steps).2.tasks = (s.respondAll m others).2.tasks
  data : (s.respondAll m steps).2.shared = (s.respondAll m others).2.shared
  picks : (s.respondAll m steps).2.picks = (s.respondAll m others).2.picks
  events : ((s.respondAll m steps).1.flatMap (·.events)).filter (shows task) =
    ((s.respondAll m others).1.flatMap (·.events)).filter (shows task)
  carried : ∀ answer ∈ (s.respondAll m steps).1 ++ (s.respondAll m others).1, answer.ignored = []

theorem endAlike_of_alike {s : Script} {m : State} {task : Nat} {steps others : List Step}
    (halike : Alike (shows task) (s.respondAll m steps).2 (s.respondAll m others).2)
    (hcarried : ∀ answer ∈ (s.respondAll m steps).1 ++ (s.respondAll m others).1,
      answer.ignored = []) : EndAlike s m task steps others := by
  have hhistory := halike.history
  rw [respondAll_history, respondAll_history, List.filter_append, List.filter_append,
    List.append_cancel_right_eq, List.filter_reverse, List.filter_reverse,
    List.reverse_inj] at hhistory
  exact ⟨halike.lock.symm, halike.waiters.symm, halike.tasks.symm, halike.shared.symm,
    halike.picks.symm, hhistory, hcarried⟩

/-- A panic gives back all accesses of its task, to the same end as leaving them one by one. -/
theorem panic_releases_like_leaving {s : Script} (hstyle : s.style ≠ .raw) {steps : List Step}
    {name : String} {index : Nat} {held : List Mode}
    (hbears : Bears s (s.after steps) name index held) (hheld : held ≠ []) (message : String)
    {values : List Int} (hvalues : values.length = held.length) :
    EndAlike s (s.after steps) index [panicStep name message] (values.map (leaveStep name)) ∧
      Bears s (s.after (steps ++ [panicStep name message])) name index [] := by
  have halike := hbears.panic_alike hstyle hheld message hvalues
  obtain ⟨hends, hleaves⟩ := hbears.leaves hstyle hvalues
  constructor
  · rw [after_append, after_append] at halike
    refine endAlike_of_alike halike ?_
    intro answer hanswer
    rcases List.mem_append.mp hanswer with hpanics | hanswer
    · obtain rfl := List.mem_singleton.mp hpanics
      exact hbears.carried hstyle hheld _ rfl
    · exact hleaves answer hanswer
  · refine ⟨hbears.named, ?_⟩
    have hseen := hends.seen
    rw [view_getElem?, halike.tasks, halike.waiters] at hseen
    rw [view_getElem?]
    exact hseen

/-- A reader reads again while a writer and a second reader wait for it. -/
def nestedRead : Script where
  policy := .fairTicket
  style := .guard
  names := ["a", "b", "c"]
  steps := [
    [.hand "a" (some (.enter .shared))],
    [.hand "a" (some (.enter .shared))],
    [.hand "b" (some (.enter .exclusive))],
    [.hand "c" (some (.enter .shared))]]
  picks := [1, 0, 1]
  preempt := true

theorem panic_releases_like_leaving_nestedRead :
    Bears nestedRead (nestedRead.after nestedRead.steps) "a" 0 [.shared, .shared] ∧
      EndAlike nestedRead (nestedRead.after nestedRead.steps) 0 [panicStep "a" "stop"]
        ([1, 2].map (leaveStep "a")) := by
  have hbears : Bears nestedRead (nestedRead.after nestedRead.steps) "a" 0 [.shared, .shared] :=
    ⟨by decide, by decide⟩
  exact ⟨hbears, (panic_releases_like_leaving (by decide) hbears (by decide) "stop" rfl).1⟩

end ReaderWriter.Script
