import ReaderWriter.Proofs.Schedule
import ReaderWriter.Proofs.Script.Agreement
import ReaderWriter.Proofs.Script.Leaving
import ReaderWriter.Proofs.Script.Reentrance
import ReaderWriter.Proofs.Script.Serving
import ReaderWriter.Proofs.Script.Single

/-!
# Writers and the order in which they are woken

Under tickets, in a script without batches that only asks for exclusive access, at most one task at a
time can do anything.  While the task that was handed a command is under way, everybody else waits
behind a taken resource or another ticket.  Once it has given the resource back it is at rest, and of
the writers that it has woken only the owner of the next ticket does not go on waiting.

So the tasks have one course to take, whatever the schedule.
-/

namespace ReaderWriter.Script

/-- The command asks for shared access. -/
def Command.reads : Command → Bool
  | .enter .shared => true
  | .call (.acquire .shared) => true
  | _ => false

def Order.reads : Order → Bool
  | .hand _ (some command) => command.reads
  | _ => false

/-- Only exclusive accesses are asked for. -/
def Writing (steps : List Step) : Prop :=
  ∀ step ∈ steps, ∀ order ∈ step, order.reads = false

instance (steps : List Step) : Decidable (Writing steps) := by
  unfold Writing
  infer_instance

namespace Hand

/-- The task has not asked for shared access and was not told to, and outside of the lock it has
nothing in hand. -/
structure Writes (point : Point) (h : Hand) : Prop where
  waits : ∀ wait, point = .waiting wait → wait.mode = .exclusive
  asks : point ≠ .before (.acquire .shared)
  handed : ∀ command, h.handed = some command → command.reads = false
  command : point = .outside → h.command = none

theorem unwind_command (h : Hand) (message : String) (data : List Int)
    (hpoint : (h.unwind message data).point = .outside) :
    (h.unwind message data).own.command = none := by
  unfold unwind at hpoint ⊢
  split
  · next mode hmode => simp [hmode, Reaction.point] at hpoint
  · rfl

theorem resume_command (h : Hand) (data : List Int)
    (hpoint : (h.resume data).point = .outside) : (h.resume data).own.command = none := by
  cases hhanded : h.handed with
  | none => simp [resume, hhanded, finish]
  | some command =>
      cases command with
      | leave value =>
          simp only [resume, hhanded] at hpoint ⊢
          cases hinner : h.holding.innermost? with
          | none => rfl
          | some mode => simp [hinner, Reaction.point] at hpoint
      | panic message =>
          simp only [resume, hhanded] at hpoint ⊢
          exact unwind_command _ message data hpoint
      | enter mode => simp [resume, hhanded, Reaction.point] at hpoint
      | call call => simp [resume, hhanded, Reaction.point] at hpoint
      | _ => simp [resume, hhanded, finish]

theorem granted_command (mode : Mode) (h : Hand) (data : List Int) :
    (granted mode h data).own.command = none := by
  unfold granted
  split <;> rfl

theorem released_command (mode : Mode) (h : Hand) (data : List Int)
    (hpoint : (released mode h data).point = .outside) :
    (released mode h data).own.command = none := by
  unfold released at hpoint ⊢
  simp only at hpoint ⊢
  split
  · rfl
  · next message hpanics =>
      simp only [hpanics] at hpoint ⊢
      exact unwind_command _ message data hpoint
  · rfl
  · rfl

theorem program_writes : program.Preserves Writes := by
  constructor
  case resume =>
    intro h data hwrites
    refine ⟨fun wait hwaits => absurd hwaits (Reaction.point_ne_waiting _ wait), ?_, ?_,
      h.resume_command data⟩
    · intro hasks
      rcases asked_of_resume hasks with hhanded | hhanded
      · exact absurd (hwrites.handed _ hhanded) (by simp [Command.reads])
      · exact absurd (hwrites.handed _ hhanded) (by simp [Command.reads])
    · intro command hhanded
      have hnone : (h.resume data).own.handed = none := h.resume_handed data
      exact absurd (hnone.symm.trans hhanded) (by simp)
  case waits =>
    intro l lock point wait h hlooks hwrites
    refine ⟨?_, by simp, hwrites.handed, by simp⟩
    rintro _ ⟨⟩
    cases hlooks with
    | arrives mode =>
        rw [Lock.arrive_wait_mode]
        cases mode with
        | exclusive => rfl
        | shared => exact absurd rfl hwrites.asks
    | again => exact hwrites.waits wait rfl
    | passes hdone => exact absurd (hwrites.waits _ rfl) (by simp [Wait.mode])
  case granted =>
    intro wait h data hwrites
    have hpoint : (program.granted wait.mode h data).point = .outside :=
      granted_point wait.mode h data
    refine ⟨by simp [hpoint], by simp [hpoint], ?_, fun _ => granted_command wait.mode h data⟩
    intro command hhanded
    exact hwrites.handed command ((granted_handed wait.mode h data).symm.trans hhanded)
  case released =>
    intro mode h data hwrites
    refine ⟨fun wait hwaits => absurd hwaits (Reaction.point_ne_waiting _ wait),
      released_point_ne mode h data _, ?_, released_command mode h data⟩
    intro command hhanded
    exact hwrites.handed command ((released_handed mode h data).symm.trans hhanded)
  case misused =>
    intro mode h data hwrites
    exact ⟨fun wait hwaits => absurd hwaits (Reaction.point_ne_waiting _ wait),
      by simp [program, misused, finish, Reaction.point], hwrites.handed, fun _ => rfl⟩

end Hand

/-! ## One task at a time -/

/-- The task has nothing to do, or waits for a condition that does not hold. -/
def Still (l : Lock) (t : Task Hand) : Prop :=
  match t.point with
  | .outside => t.own.handed = none ∧ t.own.command = none
  | .before _ => False
  | .waiting wait => l.Blocks wait

variable {s : Script} {m : State} {task : Nat} {t : Task Hand}

theorem Still.idles (hstill : Still m.lock t) (htask : m.tasks[task]? = some t) :
    m.Idles program task t := by
  rcases t with ⟨point, holding, command, handed⟩
  cases point with
  | before call => exact hstill.elim
  | waiting wait => exact Machine.idles_of_blocks htask rfl hstill
  | outside =>
      obtain ⟨rfl, rfl⟩ : handed = none ∧ command = none := hstill
      rcases List.getElem?_eq_some_iff.mp htask with ⟨hlt, hget⟩
      refine ⟨rfl, rfl, ?_, rfl⟩
      change m.tasks.set task { own := { holding } } = m.tasks
      rw [← hget, List.set_getElem_self]

/-- Everybody but the mover is still. -/
def StillBut (l : Lock) (tasks : List (Task Hand)) (mover : Nat) : Prop :=
  ∀ (task : Nat) (t : Task Hand), tasks[task]? = some t → task ≠ mover → Still l t

/-- The script is on its way with at most one task that is not still. -/
structure Solo (s : Script) (m : State) : Prop where
  reached : s.Reaches m
  prompt : m.Sound Hand.Prompt
  writes : m.Sound Hand.Writes
  lone : ∃ mover, StillBut m.lock m.tasks mover

theorem Solo.idleBut (hm : Solo s m) : ∃ mover, m.IdleBut program mover := by
  rcases hm.lone with ⟨mover, hstill⟩
  refine ⟨mover, ?_⟩
  intro task t htask hne
  exact (hstill task t htask hne).idles htask

/-- Under tickets whoever waits has one, if nobody has asked for shared access. -/
theorem Solo.exists_ticket (hm : Solo s m) (hfair : s.policy = .fairTicket)
    (htask : m.tasks[task]? = some t) {wait : Wait} (hpoint : t.point = .waiting wait) :
    ∃ ticket, wait = .writerEntry (some ticket) := by
  have hat : m.scene.At task (.waiting wait) := hpoint ▸ Machine.scene_at htask
  have hsuits := hm.reached.suits hat
  have hmode := (hm.writes t (List.mem_of_getElem? htask)).waits wait hpoint
  rw [hfair] at hsuits
  exact hsuits.exists_ticket hmode

theorem Still.mono {l lock : Lock} (hstill : Still l t)
    (hblocks : ∀ wait, t.point = .waiting wait → l.Blocks wait → lock.Blocks wait) :
    Still lock t := by
  unfold Still at hstill ⊢
  split
  · next hpoint => simpa only [hpoint] using hstill
  · next call hpoint => simp only [hpoint] at hstill
  · next wait hpoint =>
      simp only [hpoint] at hstill
      exact hblocks wait hpoint hstill

/-- The mover goes on, and whoever was blocked stays so. -/
theorem StillBut.set {l lock : Lock} {tasks : List (Task Hand)} {mover : Nat}
    (hstill : StillBut l tasks mover) (hblocks : ∀ wait, l.Blocks wait → lock.Blocks wait)
    (u : Task Hand) : StillBut lock (tasks.set mover u) mover := by
  intro task t htask hne
  rw [List.getElem?_set_ne (Ne.symm hne)] at htask
  exact (hstill task t htask hne).mono (fun wait _ => hblocks wait)

/-- The mover has given the resource back and is at rest.  Of those who wait only the owner of the
ticket being served does not go on waiting. -/
theorem Solo.lone_of_wakes (hm : Solo s m) (hfair : s.policy = .fairTicket) {mover : Nat}
    (hstill : StillBut m.lock m.tasks mover) {lock : Lock} {u : Task Hand} (hrests : Still lock u) :
    ∃ other, StillBut lock (m.tasks.set mover u) other := by
  let Owns (owner : Nat) : Prop :=
    m.scene.At owner (.waiting (.writerEntry (some lock.nowServing)))
  -- a condition that holds now belongs to the owner of the ticket being served
  have hothers : ∀ other, (∀ owner, Owns owner → owner = other) →
      StillBut lock (m.tasks.set mover u) other := by
    intro other honly task t htask hne
    by_cases hmover : mover = task
    · subst hmover
      rcases List.getElem?_eq_some_iff.mp htask with ⟨_, hget⟩
      rw [List.getElem_set_self] at hget
      exact hget ▸ hrests
    · rw [List.getElem?_set_ne hmover] at htask
      refine (hstill task t htask (Ne.symm hmover)).mono ?_
      intro wait hpoint _
      rcases hm.exists_ticket hfair htask hpoint with ⟨ticket, rfl⟩
      by_contra hfree
      have hserved : lock.nowServing = ticket := by
        by_contra hlater
        exact hfree (.inr hlater)
      subst hserved
      have hat := Machine.scene_at htask
      rw [hpoint] at hat
      exact hne (honly task hat)
  by_cases howner : ∃ owner, Owns owner
  · rcases howner with ⟨owner, howns⟩
    exact ⟨owner, hothers owner fun _ hother =>
      (hm.reached.ticketed hfair).owner_unique hother howns⟩
  · exact ⟨mover, hothers mover fun owner howns => absurd ⟨owner, howns⟩ howner⟩

theorem Still.of_rests {l : Lock} {r : React} (hnext : r.next = none)
    (hhanded : r.own.handed = none) (hcommand : r.own.command = none) :
    Still l { point := r.point, own := r.own } := by
  have hpoint : r.point = .outside := by simp [Reaction.point, hnext]
  simp only [Still, hpoint]
  exact ⟨hhanded, hcommand⟩

/-- While the mover is under way it keeps the others blocked.  The release that unblocks somebody is
the last thing that it does. -/
theorem Solo.act (hm : Solo s m) (hfair : s.policy = .fairTicket)
    (htask : m.tasks[task]? = some t) :
    ∃ mover, StillBut (m.act program task t).lock (m.act program task t).tasks mover := by
  rcases hm.lone with ⟨mover, hstill⟩
  by_cases hmover : task = mover
  · subst hmover
    have hacts := Machine.acts program m task t
    generalize m.act program task t = next at hacts ⊢
    cases hacts with
    | resumes hpoint =>
        rw [Machine.react_lock, Machine.react_tasks]
        exact ⟨task, hstill.set (fun _ hblocks => hblocks) _⟩
    | @parks lock wait hlooks hblocks =>
        exact ⟨task, hstill.set (fun other => (hlooks.blocks_iff other).mpr) _⟩
    | @enters lock wait hlooks hchannel henters =>
        rw [Machine.react_lock, Machine.react_tasks]
        refine ⟨task, hstill.set ?_ _⟩
        intro other hblocks
        exact ((hlooks.blocks_iff other).mpr hblocks).enter hchannel henters
    | @returns mode r hpoint hrelease =>
        rw [Machine.react_lock, Machine.react_tasks, Machine.foldl_notify_lock,
          Machine.foldl_notify_tasks]
        by_cases hwakes : r.notified = []
        · refine ⟨task, hstill.set ?_ _⟩
          intro wait hblocks
          exact Lock.Blocks.release hblocks hrelease (by simp [hwakes])
        · have hnext : (program.released mode t.own m.shared).next = none :=
            hm.reached.released_rests htask hrelease hwakes m.shared
          have hpoint' : (program.released mode t.own m.shared).point = .outside := by
            simp [Reaction.point, hnext]
          have hhanded := hm.prompt t (List.mem_of_getElem? htask) (by simp [hpoint])
          refine hm.lone_of_wakes hfair hstill (.of_rests hnext ?_ ?_)
          · exact (Hand.released_handed mode t.own m.shared).trans hhanded
          · exact Hand.released_command mode t.own m.shared hpoint'
    | misuses hpoint hrelease =>
        rw [Machine.react_lock, Machine.react_tasks]
        exact ⟨task, hstill.set (fun _ hblocks => hblocks) _⟩
  · -- somebody was woken in vain
    have hidles := (hstill task t htask hmover).idles htask
    rw [hidles.lock, hidles.tasks]
    exact ⟨mover, hstill⟩

theorem Solo.step (hm : Solo s m) (hfair : s.policy = .fairTicket) {next : State}
    (hstep : m.step program = some next) : Solo s next := by
  refine ⟨hm.reached.step hstep, hm.prompt.step_of_preserves Hand.program_prompt hstep,
    hm.writes.step_of_preserves Hand.program_writes hstep, ?_⟩
  rcases Machine.step_cases hstep with ⟨_, c, _, rfl⟩ | ⟨_, _, _, rfl⟩ | ⟨task, t, _, htask, rfl⟩
  · exact hm.lone
  · exact hm.lone
  · exact hm.act hfair htask

/-! ## Between two steps -/

variable {steps : List Step} {step : Step}

/-- At rest everybody is still. -/
theorem Solo.still (hm : Solo s (s.after steps)) (htask : (s.after steps).tasks[task]? = some t) :
    Still (s.after steps).lock t := by
  have hwrites := hm.writes t (List.mem_of_getElem? htask)
  rcases s.after_cases steps htask with ⟨hpoint, hnone⟩ | ⟨wait, hpoint, hblocks⟩
  · simp only [Still, hpoint]
    exact ⟨hnone, hwrites.command hpoint⟩
  · simp only [Still, hpoint]
    exact hblocks

theorem Solo.hand (hm : Solo s (s.after steps)) {next : State} {name : String}
    {command? : Option Command} (hreads : (Order.hand name command?).reads = false)
    (hhand : s.hand (s.after steps) name command? = .ok next) : Solo s next := by
  have hreached := s.reaches_giveOut steps [.hand name command?]
  rw [giveOut_hand hhand] at hreached
  rcases hand_eq_ok_iff.mp hhand with ⟨index, t, command, _, rfl, htask, hfree, _, _, rfl⟩
  have hpoint := (s.after_free steps htask hfree).1
  have hown := hm.writes t (List.mem_of_getElem? htask)
  refine ⟨hreached, ?_, ?_, index, ?_⟩
  · refine hm.prompt.set index ?_
    intro hcalls
    exact absurd hpoint hcalls
  · refine hm.writes.set index ⟨hown.waits, hown.asks, ?_, hown.command⟩
    rintro _ ⟨⟩
    exact hreads
  · have hstill : StillBut (s.after steps).lock (s.after steps).tasks index :=
      fun _ _ htask _ => hm.still htask
    exact hstill.set (fun _ hblocks => hblocks) _

theorem Solo.giveOut (hm : Solo s (s.after steps)) (hsingle : step.length ≤ 1)
    (hreads : ∀ order ∈ step, order.reads = false) : Solo s (s.giveOut (s.after steps) step).1 := by
  have hreached := s.reaches_giveOut steps step
  have hone : Unbatched [step] := by simpa [Unbatched] using hsingle
  rcases hone.cases List.mem_cons_self with rfl | ⟨order, rfl⟩
  · exact hm
  · cases order with
    | hand name command? =>
        refine carryOut_keeps hm ?_ name
        intro next hhand
        exact hm.hand (hreads _ List.mem_cons_self) hhand
    | wake names =>
        let P : State → Prop := fun next =>
          next.tasks = (s.after steps).tasks ∧ next.lock = (s.after steps).lock
        have hsame : P (s.giveOut (s.after steps) [.wake names]).1 := by
          refine carryOut_wake_keeps ?_ names ⟨rfl, rfl⟩
          intro next later name hnext hwake
          rcases wake_cases hwake with ⟨index, _, rfl⟩
          exact hnext
        refine ⟨hreached, ?_, ?_, ?_⟩
        · unfold Machine.Sound
          rw [hsame.1]
          exact hm.prompt
        · unfold Machine.Sound
          rw [hsame.1]
          exact hm.writes
        · rw [hsame.1, hsame.2]
          exact hm.lone

/-- The steps give out one order each, and under tickets only ask for exclusive access. -/
structure Writers (s : Script) (steps : List Step) : Prop where
  fair : s.policy = .fairTicket
  single : Unbatched steps
  writing : Writing steps

namespace Writers

theorem init {more : List Step} (hsteps : Writers s (steps ++ more)) : Writers s steps :=
  ⟨hsteps.fair, fun earlier hmem => hsteps.single earlier (List.mem_append_left _ hmem),
    fun earlier hmem => hsteps.writing earlier (List.mem_append_left _ hmem)⟩

theorem solo (hsteps : Writers s steps) : Solo s (s.after steps) := by
  induction steps using List.reverseRecOn with
  | nil =>
      refine ⟨s.reaches_after [], ?_, ?_, 0, ?_⟩
      · intro t ht
        rcases List.mem_map.mp ht with ⟨name, _, rfl⟩
        exact fun _ => rfl
      · intro t ht
        rcases List.mem_map.mp ht with ⟨name, _, rfl⟩
        exact ⟨by simp, by simp, by simp, fun _ => rfl⟩
      · intro task t htask _
        rcases List.mem_map.mp (List.mem_of_getElem? htask) with ⟨name, _, rfl⟩
        exact ⟨rfl, rfl⟩
  | append_singleton steps step ih =>
      have hordered := (ih hsteps.init).giveOut (hsteps.single step (by simp))
        (hsteps.writing step (by simp))
      rw [after_append_singleton]
      exact iterate_keeps (fun _ _ hm hstep => hm.step hsteps.fair hstep) _ hordered

theorem idle (hsteps : Writers s steps) (task : Nat) (t : Task Hand)
    (htask : (s.after steps).tasks[task]? = some t) : (s.after steps).Idles program task t :=
  (hsteps.solo.still htask).idles htask

/-- The tasks take the one course that the orders of the step leave them. -/
theorem path (hsteps : Writers s (steps ++ [step])) :
    Relation.ReflTransGen (Machine.Advances program) (s.giveOut (s.after steps) step).1.core
      (s.after (steps ++ [step])).core := by
  have hordered := hsteps.init.solo.giveOut (hsteps.single step (by simp))
    (hsteps.writing step (by simp))
  rw [after_append_singleton]
  exact Machine.iterate_core (fun _ => Solo.idleBut)
    (fun _ _ hm hstep => hm.step hsteps.fair hstep) hordered _

end Writers

end ReaderWriter.Script
