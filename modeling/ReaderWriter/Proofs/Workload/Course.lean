import ReaderWriter.Proofs.Acting
import ReaderWriter.Workload.Run

/-!
# The course of a workload

A workload leads its machine from the start by steps of the machine and, when nobody can run, by
waking the next sleeper.  What the start has and what both keep holds in every state that is
reached.  In particular each of these states lies on a run of scenes from the start, and the workers
stay in their places and keep their roles.
-/

namespace ReaderWriter.Workload

variable {c : Config} {chance : Chance} {m next : State}

/-- The state is seen in the course of the workload. -/
def Reaches (c : Config) (chance : Chance) (m : State) : Prop :=
  ∃ moves, iterate (step c chance) moves (start c chance) = m

/-- A sleeper has woken up and is the only ready worker. -/
def roused (m : State) (sleeper : Sleeper) : State :=
  { m with
    shared := { m.shared with
      clock := sleeper.wakeAt
      sleepers := m.shared.sleepers.erase sleeper }
    ready := [sleeper.worker] }

/-- A reader and a writer with two calls each. -/
def twoThreads : Config := { threads := 2, writers := 1, readerLoops := 2, writerLoops := 2 }

/-- The second draw is the first one of the reader. -/
def secondFails : Chance where
  swaps := [(0, 1)]
  draws := Draws.cycle #[some 3, none, some 0]
  picks := [1]
  preempt := true

theorem mem_of_earliest? {sleepers : List Sleeper} {sleeper : Sleeper}
    (hearliest : earliest? sleepers = some sleeper) : sleeper ∈ sleepers := by
  cases sleepers with
  | nil => simp [earliest?] at hearliest
  | cons first others =>
      have hbest : others.foldl (fun best s => if s.wakeAt < best.wakeAt then s else best) first ∈
          first :: others := by
        refine List.foldlRecOn others _ (List.mem_cons_self) ?_
        intro best hbest other hother
        split
        · exact List.mem_cons_of_mem _ hother
        · exact hbest
      exact Option.some.inj hearliest ▸ hbest

theorem earliest?_le {sleepers : List Sleeper} {sleeper other : Sleeper}
    (hearliest : earliest? sleepers = some sleeper) (hother : other ∈ sleepers) :
    sleeper.wakeAt ≤ other.wakeAt := by
  cases sleepers with
  | nil => simp at hother
  | cons first others =>
      obtain rfl := Option.some.inj hearliest
      have hleast : ∀ (others : List Sleeper) (best : Sleeper), ∀ other ∈ best :: others,
          (others.foldl (fun best s => if s.wakeAt < best.wakeAt then s else best) best).wakeAt ≤
            other.wakeAt := by
        intro others
        induction others with
        | nil => simp
        | cons second others ih =>
            intro best other hother
            have hbest := ih (if second.wakeAt < best.wakeAt then second else best)
            have hhead := hbest _ List.mem_cons_self
            rw [List.foldl_cons]
            rcases List.mem_cons.mp hother with rfl | hother
            · split at hhead <;> split <;> omega
            · rcases List.mem_cons.mp hother with rfl | hother
              · split at hhead <;> split <;> omega
              · exact hbest other (List.mem_cons_of_mem _ hother)
      exact hleast others first other hother

theorem wakeNext?_eq_none_iff : wakeNext? m = none ↔ m.shared.sleepers = [] := by
  unfold wakeNext?
  cases m.shared.sleepers <;> simp [earliest?]

/-- A step is one of the machine, or nobody can run and a sleeper wakes up. -/
theorem step_cases (hstep : step c chance m = some next) :
    m.step (program c chance.draws) = some next ∨
      (m.running = none ∧ m.ready = [] ∧
        ∃ sleeper, earliest? m.shared.sleepers = some sleeper ∧ next = roused m sleeper) := by
  unfold step at hstep
  split at hstep
  · next hmoves => exact .inl (hmoves.trans hstep)
  · next hmoves =>
      obtain ⟨hrunning, hready⟩ := (Machine.step_eq_none_iff _ _).mp hmoves
      obtain ⟨sleeper, hearliest, hroused⟩ := Option.map_eq_some_iff.mp hstep
      exact .inr ⟨hrunning, hready, sleeper, hearliest, hroused.symm⟩

theorem step_eq_none_iff :
    step c chance m = none ↔ m.running = none ∧ m.ready = [] ∧ m.shared.sleepers = [] := by
  have hmoves := Machine.step_eq_none_iff (program c chance.draws) m
  unfold step
  cases hstep : m.step (program c chance.draws) with
  | some next =>
      rw [hstep] at hmoves
      simp only [reduceCtorEq, false_iff] at hmoves ⊢
      exact fun hrest => hmoves ⟨hrest.1, hrest.2.1⟩
  | none =>
      rw [hstep] at hmoves
      obtain ⟨hrunning, hready⟩ := hmoves.mp rfl
      simp [wakeNext?_eq_none_iff, hrunning, hready]

theorem reaches_start (c : Config) (chance : Chance) : Reaches c chance (start c chance) :=
  ⟨0, rfl⟩

theorem Reaches.step (hm : Reaches c chance m) (hstep : step c chance m = some next) :
    Reaches c chance next := by
  obtain ⟨moves, rfl⟩ := hm
  exact ⟨moves + 1, iterate_succ_of_eq_some hstep⟩

/-- The induction over the course, in which the sleeper that wakes up is the next one to do so. -/
theorem Reaches.keeps_earliest {P : State → Prop} (hm : Reaches c chance m)
    (hstart : P (start c chance))
    (hmoves : ∀ m next, Reaches c chance m → P m →
      m.step (program c chance.draws) = some next → P next)
    (hwakes : ∀ m sleeper, P m → m.running = none → m.ready = [] → sleeper ∈ m.shared.sleepers →
      (∀ other ∈ m.shared.sleepers, sleeper.wakeAt ≤ other.wakeAt) → P (roused m sleeper)) :
    P m := by
  obtain ⟨moves, rfl⟩ := hm
  have hboth : Reaches c chance (iterate (Workload.step c chance) moves (start c chance)) ∧
      P (iterate (Workload.step c chance) moves (start c chance)) := by
    refine iterate_keeps (P := fun m => Reaches c chance m ∧ P m) ?_ moves
      ⟨reaches_start c chance, hstart⟩
    rintro m next ⟨hm, hkept⟩ hstep
    refine ⟨hm.step hstep, ?_⟩
    rcases step_cases hstep with hstep | ⟨hrunning, hready, sleeper, hearliest, rfl⟩
    · exact hmoves m next hm hkept hstep
    · exact hwakes m sleeper hkept hrunning hready (mem_of_earliest? hearliest)
        (fun _ hother => earliest?_le hearliest hother)
  exact hboth.2

theorem Reaches.keeps {P : State → Prop} (hm : Reaches c chance m) (hstart : P (start c chance))
    (hmoves : ∀ m next, Reaches c chance m → P m →
      m.step (program c chance.draws) = some next → P next)
    (hwakes : ∀ m sleeper, P m → m.running = none → m.ready = [] → sleeper ∈ m.shared.sleepers →
      P (roused m sleeper)) : P m :=
  hm.keeps_earliest hstart hmoves
    (fun m sleeper hkept hrunning hready hsleeper _ => hwakes m sleeper hkept hrunning hready hsleeper)

theorem reaches_finish (c : Config) (chance : Chance) : Reaches c chance (finish c chance) :=
  ⟨work c chance (start c chance), rfl⟩

/-! ## Scenes -/

theorem start_scene (c : Config) (chance : Chance) :
    (start c chance).scene = Scene.start c.policy (workers c chance.swaps).length := by
  simp [start, Machine.scene, Scene.start, Function.comp_def]

theorem Reaches.run (hm : Reaches c chance m) :
    Scene.Run (Scene.start c.policy (workers c chance.swaps).length) m.scene := by
  let P : State → Prop := fun m =>
    Scene.Run (Scene.start c.policy (workers c chance.swaps).length) m.scene
  have hstart : P (start c chance) := by
    change Scene.Run _ (start c chance).scene
    rw [start_scene]
  refine hm.keeps (P := P) hstart ?_ ?_
  · intro m next _ hrun hstep
    exact hrun.trans (Machine.run_step hstep)
  · intro m sleeper hrun _ _ _
    exact hrun

/-! ## The workers in their places -/

theorem swap_perm (roles : List Role) (i j : Nat) : (swap roles i j).Perm roles := by
  unfold swap
  split
  · next a b ha hb =>
      obtain ⟨hi, rfl⟩ := List.getElem?_eq_some_iff.mp ha
      obtain ⟨hj, rfl⟩ := List.getElem?_eq_some_iff.mp hb
      exact List.set_set_perm hi hj
  · exact .refl _

/-- The swaps lose no role. -/
theorem roles_perm (c : Config) (swaps : List (Nat × Nat)) :
    (roles c swaps).Perm
      (List.replicate c.writers .writer ++ List.replicate (c.threads - c.writers) .reader) := by
  refine List.foldlRecOn (motive := fun roles => List.Perm roles _) swaps _ (.refl _) ?_
  intro roles hroles pair _
  exact (swap_perm roles _ _).trans hroles

theorem roles_length (hvalid : c.Valid) (swaps : List (Nat × Nat)) :
    (roles c swaps).length = c.threads := by
  have hwriters := hvalid.2.1
  rw [(roles_perm c swaps).length_eq, List.length_append, List.length_replicate,
    List.length_replicate]
  omega

theorem count_roles (c : Config) (swaps : List (Nat × Nat)) :
    (roles c swaps).count .writer = c.writers ∧
      (roles c swaps).count .reader = c.threads - c.writers := by
  simp [(roles_perm c swaps).count_eq, List.count_replicate]

theorem workers_getElem? (c : Config) (swaps : List (Nat × Nat)) (index : Nat) :
    (workers c swaps)[index]? =
      (roles c swaps)[index]?.map fun role => { index, role, callsLeft := c.loops role } := by
  simp [workers, List.getElem?_zipIdx]
  rfl

theorem workers_map_index (c : Config) (swaps : List (Nat × Nat)) :
    (workers c swaps).map (·.index) = List.range (roles c swaps).length := by
  rw [workers, List.map_map, List.range_eq_range', ← List.zipIdx_map_snd]
  rfl

/-- The workers have their numbers, and the roles that they were given. -/
structure Placed (c : Config) (chance : Chance) (m : State) : Prop where
  tasks_length : m.tasks.length = (roles c chance.swaps).length
  place : ∀ (task : Nat) (t : Task Worker), m.tasks[task]? = some t →
    t.own.index = task ∧ (roles c chance.swaps)[task]? = some t.own.role

theorem granted_place (c : Config) (draws : Draws) (w : Worker) (site : Site) :
    (w.granted c draws site).own.index = w.index ∧ (w.granted c draws site).own.role = w.role := by
  unfold Worker.granted
  simp only
  split <;> exact ⟨rfl, rfl⟩

theorem resume_place (w : Worker) (site : Site) :
    (w.resume site).own.index = w.index ∧ (w.resume site).own.role = w.role := by
  unfold Worker.resume
  split
  · exact ⟨rfl, rfl⟩
  · split <;> exact ⟨rfl, rfl⟩

theorem Reaches.placed (hm : Reaches c chance m) : Placed c chance m := by
  let place : Worker → Nat × Role := fun w => (w.index, w.role)
  let P : State → Prop := fun m =>
    m.tasks.map (fun t => place t.own) = (workers c chance.swaps).map place
  have hplaces : P m := by
    refine hm.keeps (P := P) ?_ ?_ ?_
    · simp [P, start, place]
    · intro m next _ hm hstep
      refine (Machine.step_map_own place ?_ ?_ ?_ ?_ hstep).trans hm
      · exact fun own shared => Prod.ext (resume_place own shared).1 (resume_place own shared).2
      · exact fun _ own shared => Prod.ext (granted_place c chance.draws own shared).1
          (granted_place c chance.draws own shared).2
      · exact fun _ _ _ => rfl
      · exact fun _ _ _ => rfl
    · intro m sleeper hm _ _ _
      exact hm
  constructor
  · simpa [workers] using congrArg List.length hplaces
  · intro task t htask
    have hplace := congrArg (·[task]?) hplaces
    simp only [List.getElem?_map, htask, workers_getElem?, Option.map_some] at hplace
    cases hrole : (roles c chance.swaps)[task]? with
    | none => simp [hrole] at hplace
    | some role =>
        simp only [hrole, Option.map_some, Option.some.injEq, place, Prod.mk.injEq] at hplace
        exact ⟨hplace.1, hplace.2 ▸ rfl⟩

end ReaderWriter.Workload
