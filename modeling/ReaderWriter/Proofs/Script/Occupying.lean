import ReaderWriter.Proofs.Granting
import ReaderWriter.Proofs.Script.Isolation
import ReaderWriter.Proofs.Script.Reentrance

/-!
# A writer that stays

Without tickets a writer that is let in held nothing before.  So nothing that it was told before can
make it leave, and as long as it is inside nobody else goes on.  It is there until the end of the
step.
-/

namespace ReaderWriter.Script

/-! ## What a task may have been told -/

theorem Holding.enter_ne_nil {h : Holding} (hheld : h.outermostFirst ≠ []) (mode : Mode) :
    (h.enter mode).outermostFirst ≠ [] := by
  cases h with
  | untracked => exact hheld
  | _ => simp [enter, outermostFirst]

/-- A task that holds nothing was told at most to ask for an access, and a task inside of a command
was not told anything else before it waits. -/
structure Hand.Entitled (point : Point) (h : Hand) : Prop where
  handed : ∀ command, h.handed = some command →
    (∃ mode, command = .enter mode) ∨ h.holding.outermostFirst ≠ []
  idle : ∀ call, point = .before call → h.handed = none

theorem Hand.Entitled.of_none {h : Hand} (hhanded : h.handed = none) (point : Point) :
    h.Entitled point := by
  constructor
  · simp [hhanded]
  · exact fun _ _ => hhanded

theorem program_entitled : program.Preserves fun point h => h.Entitled point := by
  constructor
  case resume => exact fun h data _ => .of_none (h.resume_handed data) _
  case waits => exact fun h hlooks hentitled => ⟨hentitled.handed, by simp⟩
  case granted =>
    intro wait h data hentitled
    refine ⟨fun command hhanded => ?_, fun call hpoint => ?_⟩
    · have hbefore :=
        hentitled.handed command ((h.granted_handed wait.mode data).symm.trans hhanded)
      refine hbefore.imp_right fun hheld => ?_
      change (Hand.granted wait.mode h data).own.holding.outermostFirst ≠ []
      unfold Hand.granted
      split
      · exact hheld
      · exact Holding.enter_ne_nil hheld wait.mode
    · exact absurd ((h.granted_point wait.mode data).symm.trans hpoint) (by simp)
  case released =>
    intro mode h data hentitled
    exact .of_none ((h.released_handed mode data).trans (hentitled.idle _ rfl)) _
  case misused =>
    intro mode h data hentitled
    have hnone : (Hand.misused mode h data).own.handed = none := hentitled.idle _ rfl
    exact .of_none hnone _

/-- Where bare calls are not known, every command but to enter takes an access. -/
theorem Command.cases_of_allowed {style : Style} (hstyle : style ≠ .raw) {command : Command}
    {holding : Holding} (hallowed : command.objection? style holding = none) :
    (∃ mode, command = .enter mode) ∨ holding.outermostFirst ≠ [] := by
  have hinner : holding.innermost?.isSome = true → holding.outermostFirst ≠ [] := by
    rw [Holding.innermost?_eq_getLast?]
    exact List.getLast?_isSome.mp
  have hwrite : holding.hasWriteGuard = true → holding.outermostFirst ≠ [] :=
    fun hguard => List.ne_nil_of_mem (Holding.exclusive_mem_of_hasWriteGuard hguard)
  cases command with
  | enter mode => exact .inl ⟨mode, rfl⟩
  | leave value =>
      exact .inr (hinner (by cases style <;> simp_all [objection?, Option.isSome_iff_ne_none]))
  | panic message =>
      exact .inr (hinner (by cases style <;> simp_all [objection?, Option.isSome_iff_ne_none]))
  | get => exact .inr (Holding.ne_nil_of_hasGuard (by cases style <;> simp_all [objection?]))
  | push value => exact .inr (hwrite (by cases style <;> simp_all [objection?]))
  | clear => exact .inr (hwrite (by cases style <;> simp_all [objection?]))
  | call call => cases style <;> simp_all [objection?]

variable {s : Script} {m later next : State} {task writer : Nat} {t : Task Hand} {wait : Wait}

theorem Reaches.entitled (hm : s.Reaches m) (hstyle : s.style ≠ .raw) :
    m.Sound fun point h => h.Entitled point := by
  refine hm.keeps_reached ?_ ?_ ?_ ?_
  · intro m next name command? hordered hentitled hhand
    obtain ⟨index, t, command, _, _, htask, _, _, hallowed, rfl⟩ := hand_eq_ok_iff.mp hhand
    refine hentitled.set index ⟨?_, ?_⟩
    · intro other hother
      obtain rfl : command = other := by simpa using hother
      exact Command.cases_of_allowed hstyle hallowed
    · intro call hpoint
      exact absurd (hpoint ▸ Machine.scene_at htask) (hordered.not_before index call)
  · intro m next name _ hentitled hwake
    obtain ⟨_, _, rfl⟩ := wake_cases hwake
    exact hentitled
  · intro t ht
    obtain ⟨name, _, rfl⟩ := List.mem_map.mp ht
    exact .of_none rfl _
  · intro m next _ hentitled hstep
    exact hentitled.step_of_preserves program_entitled hstep

/-! ## A writer that was let in -/

/-- A writer is inside, and is not about to leave before it is told to. -/
def Occupied (m : State) (writer : Nat) : Prop :=
  ∃ t, m.tasks[writer]? = some t ∧ .exclusive ∈ t.own.holding.outermostFirst ∧
    (∀ mode, t.point ≠ .before (.release mode)) ∧
    ∀ command, t.own.handed = some command → ∃ mode, command = .enter mode

theorem Occupied.writersInside_pos (hoccupied : Occupied m writer) (hm : Balanced m) :
    0 < m.lock.writersInside := by
  obtain ⟨t, htask, hholds, _⟩ := hoccupied
  have hle := (hm.held_le writer).2
  rw [hm.held_eq htask] at hle
  exact (List.count_pos_iff.mpr hholds).trans_le hle

theorem Occupied.not_letsIn (hoccupied : Occupied m writer) (hm : s.Reaches m)
    (hpolicy : s.policy = .readerPreference) (hstyle : s.style ≠ .raw)
    (htask : m.tasks[task]? = some t) : ¬ m.LetsIn program task t wait next := by
  intro hletsIn
  obtain ⟨lock, hlooks, henters, _⟩ := hletsIn.looks
  have hsuits := hm.suits_of_looks htask hlooks
  rw [hpolicy] at hsuits
  rw [hlooks.blocks_iff] at henters
  exact henters (Lock.blocks_of_writer hsuits (hoccupied.writersInside_pos (hm.balanced hstyle)))

theorem Hand.resume_point_ne {h : Hand}
    (htold : ∀ command, h.handed = some command → ∃ mode, command = .enter mode) (data : List Int)
    (mode : Mode) : (h.resume data).point ≠ .before (.release mode) := by
  cases hhanded : h.handed with
  | none => simp [resume, hhanded, finish, Reaction.point]
  | some command =>
      obtain ⟨asked, rfl⟩ := htold command hhanded
      simp [resume, hhanded, Reaction.point]

/-- The writer stays, and nobody else is let in. -/
theorem Occupied.act (hoccupied : Occupied m writer) (hm : s.Reaches m)
    (hpolicy : s.policy = .readerPreference) (hstyle : s.style ≠ .raw)
    (htask : m.tasks[task]? = some t) :
    Occupied (m.act program task t) writer ∧
      ∃ events, (m.act program task t).history = events ++ m.history ∧ grants events = [] := by
  have hnobody : ∀ {wait next}, ¬ m.LetsIn program task t wait next :=
    hoccupied.not_letsIn hm hpolicy hstyle htask
  refine ⟨?_, (m.act_grants program task t).resolve_left fun ⟨_, hletsIn⟩ => hnobody hletsIn⟩
  obtain ⟨u, hu, hholds, hstays, htold⟩ := hoccupied
  by_cases hne : writer = task
  · subst hne
    obtain rfl : u = t := Option.some.inj (hu.symm.trans htask)
    obtain ⟨hlt, _⟩ := List.getElem?_eq_some_iff.mp htask
    have hacts := Machine.acts program m writer u
    generalize m.act program writer u = next at hacts ⊢
    cases hacts with
    | resumes hpoint =>
        refine ⟨_, Machine.react_tasks_self htask _, ?_, Hand.resume_point_ne htold m.shared, ?_⟩
        · change .exclusive ∈ (u.own.resume m.shared).own.holding.outermostFirst
          rw [Hand.resume_holding]
          exact hholds
        · intro command hhanded
          exact absurd ((u.own.resume_handed m.shared).symm.trans hhanded) (by simp)
    | parks hlooks hblocks => exact ⟨_, List.getElem?_set_self hlt, hholds, by simp, htold⟩
    | enters hlooks hchannel henters =>
        exact (hnobody (Machine.letsIn_enters program hlooks hchannel henters)).elim
    | returns hpoint hrelease => exact absurd hpoint (hstays _)
    | misuses hpoint hrelease => exact absurd hpoint (hstays _)
  · exact ⟨u, (Machine.act_tasks_of_ne program m t hne).trans hu, hholds, hstays, htold⟩

theorem Occupied.step (hoccupied : Occupied m writer) (hm : s.Reaches m)
    (hpolicy : s.policy = .readerPreference) (hstyle : s.style ≠ .raw)
    (hstep : m.step program = some next) :
    Occupied next writer ∧ ∃ events, next.history = events ++ m.history ∧ grants events = [] := by
  rcases Machine.step_cases hstep with
    ⟨_, c, _, rfl⟩ | ⟨_, _, _, rfl⟩ | ⟨task, t, _, htask, rfl⟩
  · exact ⟨hoccupied, [.turn c.task], rfl, rfl⟩
  · exact ⟨hoccupied, [], rfl, rfl⟩
  · exact hoccupied.act hm hpolicy hstyle htask

theorem occupied_of_letsIn (hm : s.Reaches m) (hstyle : s.style ≠ .raw)
    (htask : m.tasks[task]? = some t) (hletsIn : m.LetsIn program task t wait next)
    (hmode : wait.mode = .exclusive) : Occupied next task := by
  have hbalanced := hm.balanced hstyle
  have hmem := List.mem_of_getElem? htask
  obtain ⟨hlt, _⟩ := List.getElem?_eq_some_iff.mp htask
  obtain ⟨lock, hlooks, henters, _⟩ := hletsIn.looks
  rw [hlooks.blocks_iff] at henters
  have hfree := Lock.not_blocks_exclusive hmode henters
  -- the resource is free, so the task holds nothing that it could have been told to leave
  have hnone : t.own.holding.outermostFirst = [] := by
    by_contra hheld
    obtain ⟨kind, hkind⟩ := List.exists_mem_of_ne_nil _ hheld
    have hholds : 0 < held m.history task kind := by
      rw [hbalanced.held_eq htask]
      exact List.count_pos_iff.mpr hkind
    exact absurd (hfree.symm.trans (hbalanced.taken_of_held hholds)) (by simp)
  refine ⟨_, (congrArg (·[task]?) hletsIn.tasks).trans (List.getElem?_set_self hlt), ?_, ?_, ?_⟩
  · have htracked := hbalanced.tracked t hmem
    have hholding := Hand.granted_holding htracked.command wait.mode m.shared
    change .exclusive ∈ (Hand.granted wait.mode t.own m.shared).own.holding.outermostFirst
    rw [hholding, Holding.outermostFirst_enter _ htracked.tracked, hmode]
    simp
  · intro mode hpoint
    exact absurd ((t.own.granted_point wait.mode m.shared).symm.trans hpoint) (by simp)
  · intro command hhanded
    have hbefore : t.own.handed = some command :=
      (t.own.granted_handed wait.mode m.shared).symm.trans hhanded
    exact ((hm.entitled hstyle t hmem).handed command hbefore).resolve_right (not_not_intro hnone)

variable {steps : List Step} {step : Step} {moves : Nat}

/-- A writer that was let in is there at the end of the step. -/
theorem Occupied.after_midway (hoccupied : Occupied (s.midway steps step moves) writer)
    (hpolicy : s.policy = .readerPreference) (hstyle : s.style ≠ .raw) :
    (s.after (steps ++ [step])).lock.activeReaders = 0 := by
  obtain ⟨more, hmore⟩ := s.iterate_midway steps step moves
  have hboth := iterate_keeps (P := fun later => s.Reaches later ∧ Occupied later writer)
    (fun later next hlater hstep =>
      ⟨hlater.1.step hstep, (hlater.2.step hlater.1 hpolicy hstyle hstep).1⟩)
    more ⟨s.reaches_midway steps step moves, hoccupied⟩
  rw [hmore] at hboth
  exact (Lock.writersInside_pos_iff.mp
    (hboth.2.writersInside_pos (hboth.1.balanced hstyle))).2

end ReaderWriter.Script
