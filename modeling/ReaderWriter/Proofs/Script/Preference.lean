import ReaderWriter.Proofs.Script.Agreement
import ReaderWriter.Proofs.Script.Occupying
import ReaderWriter.Proofs.Script.Writers

/-!
# Readers that overlap

Without tickets a writer waits for as long as readers overlap, however many of them come and go.  A
step in which a writer is let in ends with that writer inside: whoever is let in to write held
nothing before, so it cannot have been told to leave, and as long as it is inside nobody else goes
on.  So if there are readers inside after a step, no writer was let in at any moment of it, and
every read that was asked for in it was granted.

When the last reader leaves, everybody who waits is woken, and the first writer to look is let in
and keeps out the others.
-/

namespace ReaderWriter.Script

variable {s : Script} {m later next : State} {task writer : Nat} {t : Task Hand} {wait : Wait}

/-! ## A step of readers -/

/-- Since the earlier state nobody was let in to write, and no reader waits. -/
structure Preferring (m later : State) : Prop where
  writes : ∃ events, later.history = events ++ m.history ∧
    ∀ task, .granted task .exclusive ∉ events
  waits : ∀ task wait, later.scene.At task (.waiting wait) → wait.mode = .exclusive

theorem Preferring.writersInside_eq_zero (hpreferring : Preferring m later) (hm : s.Reaches m)
    (hlater : s.Reaches later) (hreaders : 0 < m.lock.activeReaders) :
    later.lock.writersInside = 0 := by
  obtain ⟨events, hhistory, hnone⟩ := hpreferring.writes
  have hle : later.lock.writersInside ≤ m.lock.writersInside :=
    hm.accounts.writersInside_le hlater.accounts hhistory hnone
  rw [Lock.writersInside_of_readers hreaders] at hle
  exact Nat.le_zero.mp hle

theorem Preferring.extend (hpreferring : Preferring m later) (events : List (Event Note))
    (hhistory : next.history = events ++ later.history)
    (hnone : ∀ task, .granted task .exclusive ∉ events)
    (hwaits : ∀ task wait, next.scene.At task (.waiting wait) → wait.mode = .exclusive) :
    Preferring m next := by
  obtain ⟨before, hbefore, hquiet⟩ := hpreferring.writes
  refine ⟨⟨events ++ before, ?_, ?_⟩, hwaits⟩
  · rw [hhistory, hbefore, List.append_assoc]
  · intro task hmem
    rcases List.mem_append.mp hmem with hmem | hmem
    · exact hnone task hmem
    · exact hquiet task hmem

theorem Preferring.act (hpreferring : Preferring m later) (hm : s.Reaches m)
    (hlater : s.Reaches later) (hpolicy : s.policy = .readerPreference) (hstyle : s.style ≠ .raw)
    (hreaders : 0 < m.lock.activeReaders) (htask : later.tasks[task]? = some t) :
    Preferring m (later.act program task t) ∨ Occupied (later.act program task t) task := by
  have hnone := hpreferring.writersInside_eq_zero hm hlater hreaders
  have hwaits : ∀ other wait, (later.act program task t).scene.At other (.waiting wait) →
      wait.mode = .exclusive := by
    intro other wait hat
    by_cases hne : other = task
    · subst hne
      obtain ⟨lock, hlooks, hblocks⟩ := (Machine.act_parks program htask hat).looks
      have hsuits := hlater.suits_of_looks htask hlooks
      rw [hpolicy] at hsuits
      exact Lock.exclusive_of_blocks hsuits hnone ((hlooks.blocks_iff wait).mp hblocks)
    · obtain ⟨u, hu, hpoint⟩ := Machine.scene_at_iff.mp hat
      rw [Machine.act_tasks_of_ne program later t hne] at hu
      exact hpreferring.waits other wait (hpoint ▸ Machine.scene_at hu)
  rcases later.act_grants program task t with ⟨wait, hletsIn⟩ | ⟨events, hhistory, hgrants⟩
  · obtain ⟨events, hhistory, hgrants, _⟩ := hletsIn.events
    cases hmode : wait.mode with
    | exclusive => exact .inr (occupied_of_letsIn hlater hstyle htask hletsIn hmode)
    | shared =>
        refine .inl (hpreferring.extend _ hhistory (fun other hmem => ?_) hwaits)
        rw [← mem_grants, hgrants, hmode] at hmem
        simp at hmem
  · refine .inl (hpreferring.extend _ hhistory (fun other hmem => ?_) hwaits)
    rw [← mem_grants, hgrants] at hmem
    simp at hmem

theorem Preferring.step (hpreferring : Preferring m later) (hm : s.Reaches m)
    (hlater : s.Reaches later) (hpolicy : s.policy = .readerPreference) (hstyle : s.style ≠ .raw)
    (hreaders : 0 < m.lock.activeReaders) (hstep : later.step program = some next) :
    Preferring m next ∨ ∃ writer, Occupied next writer := by
  rcases Machine.step_cases hstep with
    ⟨_, c, _, rfl⟩ | ⟨_, _, _, rfl⟩ | ⟨task, t, _, htask, rfl⟩
  · exact .inl (hpreferring.extend [.turn c.task] rfl (by simp) hpreferring.waits)
  · exact .inl (hpreferring.extend [] rfl (by simp) hpreferring.waits)
  · exact (hpreferring.act hm hlater hpolicy hstyle hreaders htask).imp_right fun hoccupied =>
      ⟨task, hoccupied⟩

/-- The task was told to read, and is still to ask. -/
def AsksToRead (t : Task Hand) : Prop :=
  t.point = .outside ∧ t.own.handed = some (.enter .shared) ∨ t.point = .before (.acquire .shared)

/-- The task is about to ask for a read, or was granted one since the earlier state. -/
def Advances (m later : State) (task : Nat) : Prop :=
  (∃ t, later.tasks[task]? = some t ∧ AsksToRead t) ∨
  ∃ events, later.history = events ++ m.history ∧ .granted task .shared ∈ events

theorem Advances.act (hpreferring : Preferring m later) (hm : s.Reaches m)
    (hlater : s.Reaches later) (hpolicy : s.policy = .readerPreference)
    (hreaders : 0 < m.lock.activeReaders) (htask : later.tasks[task]? = some t)
    (hasks : AsksToRead t) : Advances m (later.act program task t) task := by
  rcases hasks with ⟨houtside, hhanded⟩ | hpoint
  · rw [act_of_outside later task houtside]
    refine .inl ⟨_, Machine.react_tasks_self htask _, .inr ?_⟩
    simp [Hand.resume, hhanded, Reaction.point]
  · obtain ⟨before, hbefore, _⟩ := hpreferring.writes
    rcases Machine.act_arrives program htask hpoint with ⟨_, hletsIn⟩ | ⟨hblocks, _⟩
    · obtain ⟨events, hhistory, hgrants, _⟩ := hletsIn.events
      refine .inr ⟨events ++ before, ?_, ?_⟩
      · rw [hhistory, hbefore, List.append_assoc]
      · rw [later.lock.arrive_wait_mode] at hgrants
        exact List.mem_append_left _ (mem_grants.mp (hgrants ▸ List.mem_singleton_self _))
    · have hsuits := Scene.arrive_suits later.lock .shared
      rw [hlater.policy, hpolicy] at hsuits
      have hmode := Lock.exclusive_of_blocks hsuits
        (hpreferring.writersInside_eq_zero hm hlater hreaders) hblocks
      exact absurd ((later.lock.arrive_wait_mode .shared).symm.trans hmode) (by simp)

theorem Advances.step (hadvances : Advances m later task) (hpreferring : Preferring m later)
    (hm : s.Reaches m) (hlater : s.Reaches later) (hpolicy : s.policy = .readerPreference)
    (hreaders : 0 < m.lock.activeReaders) (hstep : later.step program = some next) :
    Advances m next task := by
  rcases hadvances with ⟨t, htask, hasks⟩ | ⟨events, hhistory, hgranted⟩
  · rcases Machine.step_cases hstep with
      ⟨_, c, _, rfl⟩ | ⟨_, _, _, rfl⟩ | ⟨mover, u, _, hmover, rfl⟩
    · exact .inl ⟨t, htask, hasks⟩
    · exact .inl ⟨t, htask, hasks⟩
    · by_cases hne : task = mover
      · subst hne
        obtain rfl : t = u := Option.some.inj (htask.symm.trans hmover)
        exact .act hpreferring hm hlater hpolicy hreaders htask hasks
      · exact .inl ⟨t, (Machine.act_tasks_of_ne program later u hne).trans htask, hasks⟩
  · obtain ⟨more, hmore⟩ := (Machine.run_step hstep).history_suffix
    refine .inr ⟨more ++ events, ?_, List.mem_append_right _ hgranted⟩
    rw [List.append_assoc, ← hhistory]
    exact hmore.symm

/-! ## To the end of a step -/

variable {steps : List Step} {step : Step}

theorem Reaches.waits_exclusive (hpolicy : s.policy = .readerPreference)
    (hreaders : 0 < (s.after steps).lock.activeReaders)
    (hat : (s.after steps).scene.At task (.waiting wait)) : wait.mode = .exclusive := by
  have hsuits := (s.reaches_after steps).suits hat
  rw [hpolicy] at hsuits
  exact Lock.exclusive_of_blocks hsuits (Lock.writersInside_of_readers hreaders)
    (s.after_stuck steps task wait hat)

section ReaderStep

variable (hpolicy : s.policy = .readerPreference) (hstyle : s.style ≠ .raw)
    (hreaders : 0 < (s.after steps).lock.activeReaders)
    (hafter : 0 < (s.after (steps ++ [step])).lock.activeReaders)
include hpolicy hstyle hreaders hafter

/-- If readers are inside before a step and after it, they were preferred all the time. -/
theorem midway_preferring (moves : Nat) :
    Preferring (s.after steps) (s.midway steps step moves) := by
  have hm := s.reaches_after steps
  have hgiven : Preferring (s.after steps) (s.giveOut (s.after steps) step).1 := by
    refine ⟨⟨[], s.giveOut_history _ step, by simp⟩, fun task wait hat => ?_⟩
    rw [Scene.At, giveOut_points] at hat
    exact Reaches.waits_exclusive hpolicy hreaders hat
  have hphases : Preferring (s.after steps) (s.midway steps step moves) ∨
      ∃ writer, Occupied (s.midway steps step moves) writer := by
    refine midway_keeps (P := fun later => Preferring (s.after steps) later ∨
      ∃ writer, Occupied later writer) (.inl hgiven) ?_ moves
    rintro later next hlater (hpreferring | ⟨writer, hoccupied⟩) hstep
    · exact hpreferring.step hm hlater hpolicy hstyle hreaders hstep
    · exact .inr ⟨writer, (hoccupied.step hlater hpolicy hstyle hstep).1⟩
  -- a writer that was let in would still be inside at the end, where there are readers
  refine hphases.resolve_right ?_
  rintro ⟨writer, hoccupied⟩
  exact absurd (hoccupied.after_midway hpolicy hstyle) hafter.ne'

theorem midway_advances
    (hgiven : Advances (s.after steps) (s.giveOut (s.after steps) step).1 task) (moves : Nat) :
    Advances (s.after steps) (s.midway steps step moves) task := by
  induction moves with
  | zero => exact hgiven
  | succ moves ih =>
      rw [midway_succ]
      cases hstep : (s.midway steps step moves).step program with
      | none => rwa [iterate_of_eq_none hstep]
      | some next =>
          have hnext : iterate (Machine.step program) 1 (s.midway steps step moves) = next :=
            iterate_succ_of_eq_some hstep
          rw [hnext]
          exact ih.step (midway_preferring hpolicy hstyle hreaders hafter moves)
            (s.reaches_after steps) (s.reaches_midway steps step moves) hpolicy hreaders hstep

/-- No writer is let in at any time of such a step. -/
theorem writes_refused :
    ∀ task, .granted task .exclusive ∉ (s.respond (s.after steps) step).1.events := by
  have hend := midway_preferring hpolicy hstyle hreaders hafter
    ((s.giveOut (s.after steps) step).1.work program)
  rw [midway_work] at hend
  obtain ⟨events, hhistory, hnone⟩ := hend.writes
  intro task hgranted
  rw [respond_events, eventsSince_of_append hhistory, List.mem_reverse] at hgranted
  exact hnone task hgranted

/-- A task that is told to read in a step of readers is granted the read in that step. -/
theorem read_granted_of_preferring {name : String} {index : Nat}
    (hindex : s.names.idxOf? name = some index)
    (hfree : (s.after steps).waiters.contains index = false)
    (hstep : step = [.hand name (some (.enter .shared))]) :
    (s.respond (s.after steps) step).1.ignored = [] ∧
      .granted index .shared ∈ (s.respond (s.after steps) step).1.events := by
  obtain ⟨hnamed, _⟩ := List.idxOf?_eq_some_iff.mp hindex
  have hlt : index < (s.after steps).tasks.length :=
    hnamed.trans_eq (s.reaches_after steps).tasks_length.symm
  have htask := List.getElem?_eq_getElem hlt
  obtain ⟨houtside, hunhanded⟩ := s.after_free steps htask hfree
  have hallowed : ∀ holding, (Command.enter .shared).objection? s.style holding = none := by
    intro holding
    cases hkind : s.style <;> simp_all [Command.objection?]
  have hhand := hand_eq_ok_iff.mpr ⟨index, _, .enter .shared, hindex, rfl, htask, hfree, hunhanded,
    hallowed _, rfl⟩
  constructor
  · have hignored :
        (s.respond (s.after steps) step).1.ignored = (s.giveOut (s.after steps) step).2 :=
      rfl
    rw [hignored, hstep]
    simp [giveOut, giveOrder, carryOut, hhand]
  · have hgiven : Advances (s.after steps) (s.giveOut (s.after steps) step).1 index := by
      rw [hstep, giveOut_hand hhand]
      exact .inl ⟨_, List.getElem?_set_self hlt, .inl ⟨houtside, rfl⟩⟩
    have hend := midway_advances hpolicy hstyle hreaders hafter hgiven
      ((s.giveOut (s.after steps) step).1.work program)
    rw [midway_work] at hend
    rcases hend with ⟨t, htask, hasks⟩ | ⟨events, hhistory, hgranted⟩
    · rcases s.after_cases (steps ++ [step]) htask with ⟨hrests, hnone⟩ | ⟨wait, hwaits, _⟩
      · simp [AsksToRead, hrests, hnone] at hasks
      · simp [AsksToRead, hwaits] at hasks
    · rw [respond_events, eventsSince_of_append hhistory]
      exact List.mem_reverse.mpr hgranted

end ReaderStep

/-! ## The last reader leaves -/

/-- No order of the step asks for an access. -/
def Unasking (step : Step) : Prop :=
  ∀ order ∈ step, order.reads = false ∧ order.writes = false

instance (step : Step) : Decidable (Unasking step) := by
  unfold Unasking
  infer_instance

/-- The task does not ask for an access and was not told to. -/
structure Hand.Refrains (point : Point) (h : Hand) : Prop where
  asks : ∀ mode, point ≠ .before (.acquire mode)
  told : point = .outside → ∀ command, h.handed = some command →
    command.reads = false ∧ command.writes = false

theorem Hand.Refrains.of_none {point : Point} {h : Hand} (hhanded : h.handed = none)
    (hasks : ∀ mode, point ≠ .before (.acquire mode)) : h.Refrains point :=
  ⟨hasks, fun _ command hcommand => absurd (hhanded.symm.trans hcommand) (by simp)⟩

theorem Hand.Refrains.resume {h : Hand} (hrefrains : h.Refrains .outside) (data : List Int) :
    (h.resume data).own.Refrains (h.resume data).point := by
  refine .of_none (h.resume_handed data) fun mode hpoint => ?_
  rcases asked_of_resume hpoint with hhanded | hhanded
  · obtain ⟨hreads, hwrites⟩ := hrefrains.told rfl _ hhanded
    cases mode <;> simp [Command.reads, Command.writes] at hreads hwrites
  · obtain ⟨hreads, hwrites⟩ := hrefrains.told rfl _ hhanded
    cases mode <;> simp [Command.reads, Command.writes] at hreads hwrites

/-- Since the earlier state nobody has asked for an access or was granted one. -/
structure Lull (m later : State) : Prop where
  grants : ∃ events, later.history = events ++ m.history ∧ grants events = []
  waits : ∀ task wait, later.scene.At task (.waiting wait) ↔ m.scene.At task (.waiting wait)
  refrains : later.Sound fun point h => h.Refrains point

theorem act_refrains (hm : s.Reaches m) (hstyle : s.style ≠ .raw)
    (hrefrains : m.Sound fun point h => h.Refrains point) (htask : m.tasks[task]? = some t)
    (hletsIn : ∀ wait, ¬ m.LetsIn program task t wait (m.act program task t)) :
    (m.act program task t).Sound fun point h => h.Refrains point := by
  have hmem := List.mem_of_getElem? htask
  have hown := hrefrains t hmem
  have hidle := (hm.entitled hstyle t hmem).idle
  have hacts := Machine.acts program m task t
  unfold Machine.Sound
  generalize m.act program task t = next at hacts hletsIn ⊢
  cases hacts with
  | resumes hpoint =>
      rw [Machine.react_tasks]
      exact hrefrains.set task ((hpoint ▸ hown).resume m.shared)
  | parks hlooks hblocks => exact hrefrains.set task ⟨by simp, by simp⟩
  | enters hlooks hchannel henters =>
      exact absurd (Machine.letsIn_enters program hlooks hchannel henters) (hletsIn _)
  | @returns mode r hpoint hrelease =>
      rw [Machine.react_tasks, Machine.foldl_notify_tasks]
      have hnone := (t.own.released_handed mode m.shared).trans (hidle _ hpoint)
      exact hrefrains.set task (.of_none hnone (Hand.released_point_ne mode t.own m.shared))
  | @misuses mode hpoint hrelease =>
      rw [Machine.react_tasks]
      have hnone : (Hand.misused mode t.own m.shared).own.handed = none := hidle _ hpoint
      exact hrefrains.set task (.of_none hnone
        (by simp [program, Hand.misused, Hand.finish, Reaction.point]))

theorem Reaches.again_of_looks (hm : s.Reaches m) (hpolicy : s.policy = .readerPreference)
    (htask : m.tasks[task]? = some t) {lock : Lock} (hlooks : m.lock.Looks t.point lock wait)
    (hasks : ∀ mode, t.point ≠ .before (.acquire mode)) : t.point = .waiting wait := by
  generalize hpoint : t.point = point at hlooks hasks
  cases hlooks with
  | arrives mode => exact absurd rfl (hasks mode)
  | again wait => rfl
  | passes hdone =>
      have hsuits := hm.suits (hpoint ▸ Machine.scene_at htask)
      rw [hpolicy] at hsuits
      exact hsuits.elim

/-- A lull goes on until somebody who waits is let in. -/
theorem Lull.act (hlull : Lull m later) (hlater : s.Reaches later)
    (hpolicy : s.policy = .readerPreference) (hstyle : s.style ≠ .raw)
    (htask : later.tasks[task]? = some t) :
    Lull m (later.act program task t) ∨
      ∃ wait, later.LetsIn program task t wait (later.act program task t) ∧
        m.scene.At task (.waiting wait) := by
  have hasks := (hlull.refrains t (List.mem_of_getElem? htask)).asks
  by_cases hletsIn : ∃ wait, later.LetsIn program task t wait (later.act program task t)
  · obtain ⟨wait, hletsIn⟩ := hletsIn
    obtain ⟨lock, hlooks, _⟩ := hletsIn.looks
    have hpoint := hlater.again_of_looks hpolicy htask hlooks hasks
    exact .inr ⟨wait, hletsIn, (hlull.waits task wait).mp (hpoint ▸ Machine.scene_at htask)⟩
  · left
    obtain ⟨events, hhistory, hgrants⟩ := (later.act_grants program task t).resolve_left hletsIn
    obtain ⟨before, hbefore, hnone⟩ := hlull.grants
    refine ⟨⟨events ++ before, ?_, by simp [hgrants, hnone]⟩, fun other wait => ?_,
      act_refrains hlater hstyle hlull.refrains htask fun wait h => hletsIn ⟨wait, h⟩⟩
    · rw [hhistory, hbefore, List.append_assoc]
    · rw [← hlull.waits]
      by_cases hne : other = task
      · subst hne
        constructor
        · intro hat
          obtain ⟨lock, hlooks, _⟩ := (Machine.act_parks program htask hat).looks
          exact hlater.again_of_looks hpolicy htask hlooks hasks ▸ Machine.scene_at htask
        · intro hat
          have hpoint : t.point = .waiting wait := by
            simpa using (Machine.scene_at htask).symm.trans hat
          obtain ⟨parked, hparks⟩ :=
            (Machine.act_looks program htask (.inr ⟨wait, hpoint⟩)).resolve_left hletsIn
          obtain ⟨lock, hlooks, _⟩ := hparks.looks
          obtain rfl : wait = parked := by
            simpa [hpoint] using hlater.again_of_looks hpolicy htask hlooks hasks
          exact hparks.stands
      · rw [Machine.scene_at_iff, Machine.scene_at_iff, Machine.act_tasks_of_ne program later t hne]

/-- The writer waited in the earlier state, and is the only one that was granted anything since. -/
structure Succeeds (m later : State) (writer : Nat) : Prop where
  waited : ∃ wait, m.scene.At writer (.waiting wait) ∧ wait.mode = .exclusive
  occupied : Occupied later writer
  grants : ∃ events, later.history = events ++ m.history ∧ grants events = [(writer, .exclusive)]

theorem Succeeds.move (hsucceeds : Succeeds m later writer) (hlater : s.Reaches later)
    (hpolicy : s.policy = .readerPreference) (hstyle : s.style ≠ .raw)
    (hstep : later.step program = some next) : Succeeds m next writer := by
  obtain ⟨hoccupied, events, hhistory, hnone⟩ :=
    hsucceeds.occupied.step hlater hpolicy hstyle hstep
  obtain ⟨before, hbefore, hgrants⟩ := hsucceeds.grants
  refine ⟨hsucceeds.waited, hoccupied, events ++ before, ?_, by simp [hnone, hgrants]⟩
  rw [hhistory, hbefore, List.append_assoc]

theorem Lull.move (hlull : Lull m later) (hlater : s.Reaches later)
    (hwriters : ∀ task wait, m.scene.At task (.waiting wait) → wait.mode = .exclusive)
    (hpolicy : s.policy = .readerPreference) (hstyle : s.style ≠ .raw)
    (hstep : later.step program = some next) :
    Lull m next ∨ ∃ writer, Succeeds m next writer := by
  obtain ⟨before, hbefore, hnone⟩ := hlull.grants
  rcases Machine.step_cases hstep with
    ⟨_, c, _, rfl⟩ | ⟨_, _, _, rfl⟩ | ⟨task, t, _, htask, rfl⟩
  · refine .inl ⟨⟨.turn c.task :: before, ?_, ?_⟩, hlull.waits, hlull.refrains⟩
    · exact congrArg (.turn c.task :: ·) hbefore
    · simpa [Event.grant?] using hnone
  · exact .inl ⟨⟨before, hbefore, hnone⟩, hlull.waits, hlull.refrains⟩
  · refine (hlull.act hlater hpolicy hstyle htask).imp_right ?_
    rintro ⟨wait, hletsIn, hat⟩
    have hmode := hwriters task wait hat
    obtain ⟨events, hhistory, hgrants, _⟩ := hletsIn.events
    refine ⟨task, ⟨wait, hat, hmode⟩, occupied_of_letsIn hlater hstyle htask hletsIn hmode,
      events ++ before, ?_, ?_⟩
    · rw [hhistory, hbefore, List.append_assoc]
    · rw [grants_append, hgrants, hnone, hmode]
      rfl

theorem giveOut_lull (hasks : Unasking step) :
    Lull (s.after steps) (s.giveOut (s.after steps) step).1 := by
  have hbefore : (s.after steps).Sound fun point h => h.Refrains point := by
    intro t ht
    obtain ⟨task, htask⟩ := List.mem_iff_getElem?.mp ht
    rcases s.after_cases steps htask with ⟨hrests, hnone⟩ | ⟨wait, hwaits, _⟩
    · exact .of_none hnone (by simp [hrests])
    · exact ⟨by simp [hwaits], by simp [hwaits]⟩
  refine ⟨⟨[], s.giveOut_history _ step, rfl⟩, fun task wait => ?_, ?_⟩
  · unfold Scene.At
    rw [giveOut_points]
  · refine giveOut_keeps_of_mem (P := fun m => m.Sound fun point h => h.Refrains point) ?_ ?_
      hbefore
    · intro m next name hrefrains hwake
      obtain ⟨_, _, rfl⟩ := wake_cases hwake
      exact hrefrains
    · intro m next name command? hmem hrefrains hhand
      obtain ⟨index, t, command, _, rfl, htask, _, _, _, rfl⟩ := hand_eq_ok_iff.mp hhand
      refine hrefrains.set index ⟨(hrefrains t (List.mem_of_getElem? htask)).asks, ?_⟩
      rintro _ other hother
      obtain rfl : command = other := by simpa using hother
      exact hasks _ hmem

/-- When the last reader leaves, one of the writers that wait is granted its access, and nobody
else. -/
theorem writer_granted_at_last (hpolicy : s.policy = .readerPreference) (hstyle : s.style ≠ .raw)
    (hreaders : 0 < (s.after steps).lock.activeReaders) (hasks : Unasking step)
    (hlast : (s.after (steps ++ [step])).lock.activeReaders = 0)
    (hat : (s.after steps).scene.At task (.waiting wait)) :
    ∃ writer wait, (s.after steps).scene.At writer (.waiting wait) ∧ wait.mode = .exclusive ∧
      grants (s.respond (s.after steps) step).1.events = [(writer, .exclusive)] := by
  have hphases : Lull (s.after steps) (s.after (steps ++ [step])) ∨
      ∃ writer, Succeeds (s.after steps) (s.after (steps ++ [step])) writer := by
    rw [← midway_work]
    refine midway_keeps (P := fun later => Lull (s.after steps) later ∨
      ∃ writer, Succeeds (s.after steps) later writer) (.inl (giveOut_lull hasks)) ?_ _
    rintro later next hlater (hlull | ⟨writer, hsucceeds⟩) hstep
    · exact hlull.move hlater (fun _ _ => Reaches.waits_exclusive hpolicy hreaders) hpolicy hstyle
        hstep
    · exact .inr ⟨writer, hsucceeds.move hlater hpolicy hstyle hstep⟩
  rcases hphases with hlull | ⟨writer, ⟨parked, hparked, hmode⟩, _, events, hhistory, hgrants⟩
  · -- the resource is free, and nobody would wait for it
    have hm := s.reaches_after steps
    have hend := s.reaches_after (steps ++ [step])
    have htaken : (s.after (steps ++ [step])).lock.exclusive = true :=
      hend.run.taken_of_stuck (s.after_stuck _) ((hlull.waits task wait).mpr hat)
    obtain ⟨events, hhistory, hnone⟩ := hlull.grants
    have hle :
        (s.after (steps ++ [step])).lock.writersInside ≤ (s.after steps).lock.writersInside :=
      hm.accounts.writersInside_le hend.accounts hhistory fun other hmem => by
        simp [hnone, ← mem_grants] at hmem
    rw [Lock.writersInside_of_readers hreaders, Lock.writersInside_of_writer htaken hlast] at hle
    exact absurd hle (by simp)
  · refine ⟨writer, parked, hparked, hmode, ?_⟩
    rw [respond_events, eventsSince_of_append hhistory, grants_reverse, hgrants]
    rfl

/-! ## Readers without end -/

variable {more : List Step}

/-- Readers are inside before the next steps and after each of them. -/
def KeepsReading (s : Script) (steps more : List Step) : Prop :=
  ∀ before, before <+: more → 0 < (s.after (steps ++ before)).lock.activeReaders

instance (s : Script) (steps more : List Step) : Decidable (s.KeepsReading steps more) :=
  decidable_of_iff (∀ before ∈ more.inits, 0 < (s.after (steps ++ before)).lock.activeReaders)
    (by simp [KeepsReading])

/-- Readers go first in the next steps, and a writer only after the last of them. -/
structure Prefers (s : Script) (steps more : List Step) : Prop where
  /-- No writer is let in. -/
  writes : ∀ answer ∈ (s.respondAll (s.after steps) more).1,
    ∀ task, .granted task .exclusive ∉ answer.events
  /-- At no moment does a reader wait. -/
  waits : ∀ before step, before ++ [step] <+: more → ∀ moves task wait,
    (s.midway (steps ++ before) step moves).scene.At task (.waiting wait) → wait.mode = .exclusive
  /-- A task that does not wait is granted a read in the step in which it is told to. -/
  reads : ∀ before name index, before ++ [[.hand name (some (.enter .shared))]] <+: more →
    s.names.idxOf? name = some index →
    (s.after (steps ++ before)).waiters.contains index = false →
    (s.respond (s.after (steps ++ before)) [.hand name (some (.enter .shared))]).1.ignored = [] ∧
      .granted index .shared ∈
        (s.respond (s.after (steps ++ before)) [.hand name (some (.enter .shared))]).1.events
  /-- If somebody waits when the last reader leaves, one of the writers that wait is granted its
  access, and nobody else anything. -/
  last : ∀ step, Unasking step → (s.after (steps ++ more ++ [step])).lock.activeReaders = 0 →
    ∀ task wait, (s.after (steps ++ more)).scene.At task (.waiting wait) →
    ∃ writer parked, (s.after (steps ++ more)).scene.At writer (.waiting parked) ∧
      parked.mode = .exclusive ∧
      grants (s.respond (s.after (steps ++ more)) step).1.events = [(writer, .exclusive)]

theorem KeepsReading.around (hreading : s.KeepsReading steps more) {before : List Step}
    (hbegins : before ++ [step] <+: more) :
    0 < (s.after (steps ++ before)).lock.activeReaders ∧
      0 < (s.after (steps ++ before ++ [step])).lock.activeReaders := by
  refine ⟨hreading before (begins_of_append hbegins), ?_⟩
  rw [List.append_assoc]
  exact hreading _ hbegins

/-- Without tickets, readers that overlap go first for as long as they overlap, and when the last of
them leaves, one of the writers that wait follows in the same step. -/
theorem readers_first (hpolicy : s.policy = .readerPreference) (hstyle : s.style ≠ .raw)
    (hreading : s.KeepsReading steps more) : s.Prefers steps more := by
  constructor
  case writes =>
    intro answer hanswer
    obtain ⟨index, hindex⟩ := List.mem_iff_getElem?.mp hanswer
    rw [respondAll_getElem?, ← after_append, Option.map_eq_some_iff] at hindex
    obtain ⟨step, hstep, rfl⟩ := hindex
    obtain ⟨hreaders, hafter⟩ := hreading.around (take_append_of_getElem? hstep)
    exact writes_refused hpolicy hstyle hreaders hafter
  case waits =>
    intro before step hbegins moves
    obtain ⟨hreaders, hafter⟩ := hreading.around hbegins
    exact (midway_preferring hpolicy hstyle hreaders hafter moves).waits
  case reads =>
    intro before name index hbegins hindex hfree
    obtain ⟨hreaders, hafter⟩ := hreading.around hbegins
    exact read_granted_of_preferring hpolicy hstyle hreaders hafter hindex hfree rfl
  case last =>
    intro step hasks hlast task wait hat
    exact writer_granted_at_last hpolicy hstyle (hreading more (List.prefix_refl more)) hasks hlast
      hat

/-- Two readers take turns inside while two writers wait. -/
def overlappingReaders : Script where
  policy := .readerPreference
  style := .guard
  names := ["a", "b", "v", "w"]
  steps := [
    [.hand "a" (some (.enter .shared))],
    [.hand "v" (some (.enter .exclusive))],
    [.hand "w" (some (.enter .exclusive))],
    [.hand "b" (some (.enter .shared))],
    [.hand "a" (some (.panic "out"))],
    [.wake ["v", "w"]],
    [.hand "a" (some (.enter .shared))],
    [.hand "b" (some (.leave 0))],
    [.hand "a" (some (.leave 0))]]
  picks := [1]
  preempt := true

theorem readers_first_overlappingReaders :
    overlappingReaders.policy = .readerPreference ∧ overlappingReaders.style ≠ .raw ∧
      overlappingReaders.KeepsReading (overlappingReaders.steps.take 2)
        ((overlappingReaders.steps.take 8).drop 2) ∧
      overlappingReaders.Prefers (overlappingReaders.steps.take 2)
        ((overlappingReaders.steps.take 8).drop 2) ∧
      (overlappingReaders.after overlappingReaders.steps).lock.activeReaders = 0 ∧
      ∃ writer, grants (overlappingReaders.respond
        (overlappingReaders.after (overlappingReaders.steps.take 8))
        [.hand "a" (some (.leave 0))]).1.events = [(writer, .exclusive)] := by
  have hpolicy : overlappingReaders.policy = .readerPreference := rfl
  have hstyle : overlappingReaders.style ≠ .raw := by decide
  have hreading : overlappingReaders.KeepsReading (overlappingReaders.steps.take 2)
      ((overlappingReaders.steps.take 8).drop 2) := by
    decide +kernel
  have hprefers := readers_first hpolicy hstyle hreading
  have hlast : (overlappingReaders.after overlappingReaders.steps).lock.activeReaders = 0 := by
    decide +kernel
  have hwaits : (overlappingReaders.after (overlappingReaders.steps.take 8)).scene.points[2]? =
      some (.waiting (.writerEntry none)) := by
    decide +kernel
  obtain ⟨writer, _, _, _, hgrants⟩ :=
    hprefers.last [.hand "a" (some (.leave 0))] (by decide) hlast 2 _ hwaits
  exact ⟨hpolicy, hstyle, hreading, hprefers, hlast, writer, hgrants⟩

end ReaderWriter.Script
