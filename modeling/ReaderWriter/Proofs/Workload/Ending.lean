import ReaderWriter.Proofs.Progress
import ReaderWriter.Proofs.Workload.Working

/-!
# Every workload ends

Each call of a worker goes on a bounded number of times, and each turn on the machine takes two
steps to come to rest.  A nap takes a turn off the machine and gives it back later, which is paid
for by the worker that begins to nap.  So every step lowers a rank, and a workload ends within the
steps that are allowed for it.

At the end nobody waits: whoever waits waits for somebody who is inside of the lock, and that worker
could still go on.
-/

namespace ReaderWriter.Workload

variable {c : Config} {chance : Chance} {m next : State} {bound : Nat}

/-- The steps that are left, if no more than so many turns are out. -/
def rank (c : Config) (chance : Chance) (bound : Nat) (m : State) : Nat :=
  (2 * bound + 4) * m.remaining (program c chance.draws) + 2 * m.ready.length +
    m.running.toList.length + 3 * m.shared.sleepers.length

/-- The turns that are out, those of sleepers included. -/
def turnsOut (m : State) : Nat :=
  m.turns + m.shared.sleepers.length

/-- Going on once pays for all turns that are out, and for a nap. -/
theorem rank_lt_of_remaining_lt (hturns : turnsOut next ≤ bound)
    (hless : next.remaining (program c chance.draws) < m.remaining (program c chance.draws))
    (hsleepers : next.shared.sleepers.length ≤ m.shared.sleepers.length + 1) :
    rank c chance bound next < rank c chance bound m := by
  have honce : (2 * bound + 4) * (next.remaining (program c chance.draws) + 1) ≤
      (2 * bound + 4) * m.remaining (program c chance.draws) :=
    Nat.mul_le_mul_left _ hless
  rw [Nat.mul_add] at honce
  unfold turnsOut Machine.turns at hturns
  unfold rank
  omega

theorem rank_lt_of_turn
    (hless : next.remaining (program c chance.draws) ≤ m.remaining (program c chance.draws))
    (hready : 2 * next.ready.length + next.running.toList.length +
        3 * next.shared.sleepers.length <
      2 * m.ready.length + m.running.toList.length + 3 * m.shared.sleepers.length) :
    rank c chance bound next < rank c chance bound m := by
  have hproduct : (2 * bound + 4) * next.remaining (program c chance.draws) ≤
      (2 * bound + 4) * m.remaining (program c chance.draws) :=
    Nat.mul_le_mul_left _ hless
  unfold rank
  omega

/-- The step leaves no more turns out, and lowers the rank. -/
structure Lowers (c : Config) (chance : Chance) (bound : Nat) (m next : State) : Prop where
  turns : turnsOut next ≤ bound
  rank : rank c chance bound next < rank c chance bound m

/-- A worker goes on, or its turn goes elsewhere. -/
theorem lowers_react {before : State} {task : Nat} {t : Task Worker} {r : React}
    (hrunning : before.running = some task) (htask : before.tasks[task]? = some t)
    (htasks : before.tasks = m.tasks) (hshared : before.shared = m.shared)
    (hturns : turnsOut before ≤ bound)
    (hless : r.own.remaining r.point < t.own.remaining t.point)
    (hspare : r.shared.sleepers.length + r.next.toList.length ≤ m.shared.sleepers.length + 1) :
    Lowers c chance bound m (before.react task r) := by
  have hout : turnsOut (before.react task r) ≤ bound := by
    have hafter := before.react_turns r hrunning
    unfold turnsOut at hturns ⊢
    rw [hshared] at hturns
    rw [Machine.react_shared]
    omega
  have hremaining := Machine.react_remaining (p := program c chance.draws) htask r
  have hsame : before.remaining (program c chance.draws) =
      m.remaining (program c chance.draws) := by
    rw [Machine.remaining_eq_sum, Machine.remaining_eq_sum, htasks]
  refine ⟨hout, rank_lt_of_remaining_lt hout ?_ ?_⟩
  · rw [program_remaining] at hremaining
    omega
  · rw [Machine.react_shared]
    omega

theorem Worker.remaining_of_looks {l lock : Lock} {point : Point} {wait : Wait}
    (hlooks : l.Looks point lock wait) (w : Worker) :
    w.remaining (.waiting wait) ≤ w.remaining point := by
  cases hlooks <;> simp only [Worker.remaining] <;> omega

theorem lowers_act (hm : Reaches c chance m) (hturns : turnsOut m ≤ bound) {task : Nat}
    {t : Task Worker} (hrunning : m.running = some task) (htask : m.tasks[task]? = some t) :
    Lowers c chance bound m (m.act (program c chance.draws) task t) := by
  have hfits := hm.fits t (List.mem_of_getElem? htask)
  have hacts := Machine.acts (program c chance.draws) m task t
  generalize m.act (program c chance.draws) task t = next at hacts ⊢
  cases hacts with
  | resumes hpoint =>
      have howed := hm.booked.lt_owed hrunning htask
      rw [hpoint] at hfits howed
      have hless : (t.own.resume m.shared).own.remaining (t.own.resume m.shared).point <
            t.own.remaining .outside ∧
          (t.own.resume m.shared).shared.sleepers.length +
            (t.own.resume m.shared).next.toList.length ≤ m.shared.sleepers.length + 1 := by
        rcases t.own.resume_cases hfits m.shared with
          ⟨hnaps, hleft, _, hresume⟩ | ⟨_, hend, _⟩ | ⟨hawake, hleft, _, hresume⟩
        · simp [hresume, Reaction.point, Worker.remaining, hnaps]
          omega
        · simp [Worker.owed, hend] at howed
        · simp [hresume, Reaction.point, Worker.remaining, hawake]
          omega
      rw [← hpoint] at hless
      exact lowers_react hrunning htask rfl rfl hturns hless.1 hless.2
  | @parks lock wait hlooks hblocks =>
      have hremaining : (({ m with lock }.record
            (m.lock.arrivalEvents task t.point)).park task t.own wait).remaining
              (program c chance.draws) + t.own.remaining t.point =
          m.remaining (program c chance.draws) + t.own.remaining (.waiting wait) :=
        Machine.sum_map_set (fun t : Task Worker => t.own.remaining t.point) htask
      have hwaits := Worker.remaining_of_looks hlooks t.own
      refine ⟨?_, rank_lt_of_turn (by omega) ?_⟩
      · unfold turnsOut Machine.turns at hturns ⊢
        rw [hrunning] at hturns
        cases hchannel : wait.channel <;>
          simp [Machine.park, Waiters.park, Machine.record, hchannel] at hturns ⊢ <;> omega
      · simp [Machine.park, Machine.record, hrunning]
  | @enters lock wait hlooks hchannel henters =>
      have hwaits := Worker.remaining_of_looks hlooks t.own
      obtain ⟨hawake, hleft⟩ : t.own.napping = false ∧ 0 < t.own.callsLeft := by
        cases hfits.of_looks hlooks with
        | waits hmode hawake hleft hsound => exact ⟨hawake, hleft⟩
      refine lowers_react (m := m) hrunning htask rfl rfl hturns ?_ ?_
      · rw [program_granted]
        rcases t.own.granted_cases c chance.draws m.shared with
          ⟨_, hown, hnext, _⟩ | ⟨_, hown, hnext, _⟩
        · simp [Reaction.point, hown, hnext, Worker.remaining] at hwaits ⊢
          omega
        · simp [Reaction.point, hown, hnext, Worker.remaining] at hwaits ⊢
          omega
      · rw [program_granted]
        rcases t.own.granted_cases c chance.draws m.shared with
          ⟨_, _, hnext, hsleepers⟩ | ⟨_, _, hnext, _, hsleepers⟩
        · simp [hnext, hsleepers]
        · simp [hnext, hsleepers]
  | @returns mode r hpoint hrelease =>
      rw [hpoint] at hfits
      have hless : (t.own.released m.shared).own.remaining (t.own.released m.shared).point <
            t.own.remaining (.before (.release mode)) ∧
          (t.own.released m.shared).shared.sleepers.length +
            (t.own.released m.shared).next.toList.length ≤ m.shared.sleepers.length + 1 := by
        obtain ⟨_, hawake, ⟨hone, hreleased⟩ | ⟨hmore, _, hreleased⟩⟩ :=
          t.own.released_cases hfits m.shared
        · simp [hreleased, Reaction.point, Worker.remaining, hone, hawake]
        · simp [hreleased, Reaction.point, Worker.remaining]
          omega
      rw [← hpoint] at hless
      refine lowers_react ?_ ?_ (Machine.foldl_notify_tasks _ _) (Machine.foldl_notify_shared _ _)
        ?_ hless.1 hless.2
      · exact (Machine.foldl_notify_running _ _).trans hrunning
      · rw [Machine.foldl_notify_tasks]
        exact htask
      · unfold turnsOut at hturns ⊢
        rw [Machine.foldl_notify_turns, Machine.foldl_notify_shared]
        exact hturns
  | misuses hpoint hrelease =>
      have hsome :=
        hm.balanced.release?_of_before (program_balances c chance.draws) htask hfits hpoint
      rw [hrelease] at hsome
      contradiction

theorem lowers_step (hm : Reaches c chance m) (hturns : turnsOut m ≤ bound)
    (hstep : step c chance m = some next) : Lowers c chance bound m next := by
  rcases step_cases hstep with hmoves | ⟨hrunning, hready, sleeper, hearliest, rfl⟩
  · rcases Machine.step_cases hmoves with
      ⟨hrunning, choice, hchoice, rfl⟩ | ⟨task, hrunning, _, rfl⟩ | ⟨task, t, hrunning, htask, rfl⟩
    · have hlength := (choose?_perm hchoice).length_eq
      rw [List.length_cons] at hlength
      refine ⟨?_, rank_lt_of_turn le_rfl ?_⟩
      · unfold turnsOut Machine.turns at hturns ⊢
        simp [Machine.begin, Machine.record, hrunning] at hturns ⊢
        omega
      · simp [Machine.begin, Machine.record, hrunning]
        omega
    · refine ⟨?_, rank_lt_of_turn le_rfl ?_⟩
      · unfold turnsOut Machine.turns at hturns ⊢
        simp only [Option.toList_none, List.length_nil]
        omega
      · simp [hrunning]
    · exact lowers_act hm hturns hrunning htask
  · have hsleeper := mem_of_earliest? hearliest
    have hlength := List.length_erase_of_mem hsleeper
    have hpos := List.length_pos_of_mem hsleeper
    refine ⟨?_, rank_lt_of_turn le_rfl ?_⟩
    · unfold turnsOut Machine.turns at hturns ⊢
      simp [roused, hrunning, hready, hlength] at hturns ⊢
      omega
    · simp [roused, hrunning, hready, hlength]
      omega

/-- The steps that are allowed for a workload suffice. -/
theorem finish_rests (c : Config) (chance : Chance) : step c chance (finish c chance) = none := by
  let bound := turnsOut (start c chance)
  have hrank : rank c chance bound (start c chance) ≤ work c chance (start c chance) := by
    have hbound : bound = (start c chance).turns := rfl
    unfold rank work Machine.work
    rw [hbound]
  refine step_iterate_eq_none (P := fun m => Reaches c chance m ∧ turnsOut m ≤ bound) ?_ _
    ⟨reaches_start c chance, le_rfl⟩ hrank
  rintro m next ⟨hm, hturns⟩ hstep
  have hlowers := lowers_step hm hturns hstep
  exact ⟨⟨hm.step hstep, hlowers.turns⟩, hlowers.rank⟩

/-! ## The end -/

/-- All workers have ended, nobody waits, and the lock is free. -/
structure Ended (m : State) : Prop where
  workers : ∀ t ∈ m.tasks, t.point = .outside ∧ t.own.callsLeft = 0 ∧ t.own.napping = false
  waiters : m.waiters = {}
  sleepers : m.shared.sleepers = []
  idle : m.lock.isIdle = true

section End

variable (hm : Reaches c chance m) (hrest : Workload.step c chance m = none)
include hm hrest

/-- A worker that has a turn left is parked. -/
theorem Reaches.waits_of_owed {task : Nat} {t : Task Worker} (htask : m.tasks[task]? = some t)
    (howed : 0 < t.own.owed t.point) :
    ∃ wait, t.point = .waiting wait ∧ m.lock.Blocks wait := by
  obtain ⟨hrunning, hready, hnobody⟩ := step_eq_none_iff.mp hrest
  have hcontains := hm.booked.contains_of_rest ⟨hrunning, hready⟩ htask
    (by simpa [nappers, hnobody] using howed)
  obtain ⟨channel, hmem⟩ := Waiters.contains_iff.mp hcontains
  obtain ⟨wait, hat, _, hblocks⟩ := hm.parked channel task hmem
  have hpoint : t.point = .waiting wait := Option.some.inj ((Machine.scene_at htask).symm.trans hat)
  exact ⟨wait, hpoint, hblocks⟩

/-- If anybody waited, somebody would be inside of the lock, and could still go on. -/
theorem Reaches.nobody_owed {task : Nat} {t : Task Worker} (htask : m.tasks[task]? = some t) :
    t.own.owed t.point = 0 := by
  by_contra howed
  have hstuck : m.scene.Stuck := by
    intro other wait hat
    obtain ⟨u, hu, hpoint⟩ := Machine.scene_at_iff.mp hat
    obtain ⟨same, hsame, hblocks⟩ := hm.waits_of_owed hrest hu (by simp [hpoint, Worker.owed])
    obtain rfl : wait = same := by simpa [hpoint] using hsame
    exact hblocks
  obtain ⟨wait, hpoint, _⟩ := hm.waits_of_owed hrest htask (Nat.pos_of_ne_zero howed)
  have htaken := hm.run.taken_of_stuck hstuck (hpoint ▸ Machine.scene_at htask)
  obtain ⟨holder, u, mode, hu, hholds⟩ := hm.balanced.exists_holder htaken
  have hfits := hm.fits u (List.mem_of_getElem? hu)
  have hgoes : 0 < u.own.owed u.point ∧ ∀ other, u.point ≠ .waiting other := by
    generalize u.point = point at hfits hholds ⊢
    cases hfits with
    | naps hnaps hleft hsound => simp [Worker.owed, hleft.ne']
    | leaves hmode hawake hleft hlast => simp [Worker.owed]
    | rests hawake hover => simp [Worker.holds, Worker.inside, hawake] at hholds
    | _ => simp [Worker.holds, Worker.inside] at hholds
  obtain ⟨other, hother, _⟩ := hm.waits_of_owed hrest hu hgoes.1
  exact hgoes.2 other hother

theorem Reaches.ended : Ended m := by
  have hworkers : ∀ (task : Nat) (t : Task Worker), m.tasks[task]? = some t →
      t.point = .outside ∧ t.own.callsLeft = 0 ∧ t.own.napping = false := by
    intro task t htask
    have hnone := hm.nobody_owed hrest htask
    have hfits := hm.fits t (List.mem_of_getElem? htask)
    generalize t.point = point at hnone hfits ⊢
    cases hfits with
    | rests hawake hover => exact ⟨rfl, by simpa [Worker.owed] using hnone, hawake⟩
    | naps hnaps hleft hsound => simp [Worker.owed, hleft.ne'] at hnone
    | _ => simp [Worker.owed] at hnone
  refine ⟨?_, ?_, (step_eq_none_iff.mp hrest).2.2, ?_⟩
  · intro t ht
    obtain ⟨task, htask⟩ := List.mem_iff_getElem?.mp ht
    exact hworkers task t htask
  · have hempty : ∀ channel, m.waiters.on channel = [] := by
      intro channel
      rw [List.eq_nil_iff_forall_not_mem]
      intro task hmem
      obtain ⟨wait, hat, _⟩ := hm.parked channel task hmem
      obtain ⟨t, htask, hpoint⟩ := Machine.scene_at_iff.mp hat
      have houtside := (hworkers task t htask).1
      rw [hpoint] at houtside
      contradiction
    have hreleased := hempty .released
    have hdone := hempty .writerDone
    cases hwaiters : m.waiters
    simp_all [Waiters.on]
  · apply hm.balanced.isIdle
    intro task t htask mode
    obtain ⟨hpoint, _, hawake⟩ := hworkers task t htask
    simp [Worker.holds, Worker.inside, hpoint, hawake]

end End

end ReaderWriter.Workload
