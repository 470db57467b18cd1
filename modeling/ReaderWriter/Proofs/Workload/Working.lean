import ReaderWriter.Proofs.Balance
import ReaderWriter.Proofs.Rest
import ReaderWriter.Proofs.Turns
import ReaderWriter.Proofs.Workload.Course

/-!
# What workers do

A worker rests, asks for access, waits, naps inside of the lock or leaves it.  It holds an access
while it naps and until it has left, and it has one turn as long as it has a call to finish, on the
machine or as a sleeper.  A worker that panicked leaves the lock and rests for good.
-/

namespace ReaderWriter.Workload

namespace Worker

/-- Where a worker can stand in its course. -/
inductive Fits : Point → Worker → Prop
  | rests {w : Worker} (hawake : w.napping = false) (hover : w.panicked = true → w.callsLeft = 0) :
      Fits .outside w
  | naps {w : Worker} (hnaps : w.napping = true) (hleft : 0 < w.callsLeft)
      (hsound : w.panicked = false) : Fits .outside w
  | asks {w : Worker} {mode : Mode} (hmode : mode = w.role.mode) (hawake : w.napping = false)
      (hleft : 0 < w.callsLeft) (hsound : w.panicked = false) : Fits (.before (.acquire mode)) w
  | waits {w : Worker} {wait : Wait} (hmode : wait.mode = w.role.mode) (hawake : w.napping = false)
      (hleft : 0 < w.callsLeft) (hsound : w.panicked = false) : Fits (.waiting wait) w
  | leaves {w : Worker} {mode : Mode} (hmode : mode = w.role.mode) (hawake : w.napping = false)
      (hleft : 0 < w.callsLeft) (hlast : w.panicked = true → w.callsLeft = 1) :
      Fits (.before (.release mode)) w

/-- The turns that a worker should have. -/
def owed (point : Point) (w : Worker) : Nat :=
  match point with
  | .outside => if w.callsLeft = 0 then 0 else 1
  | _ => 1

/-- The worker is inside of the lock. -/
def inside (point : Point) (w : Worker) : Bool :=
  match point with
  | .outside => w.napping
  | .before (.release _) => true
  | _ => false

def holds (point : Point) (w : Worker) (mode : Mode) : Nat :=
  if w.role.mode = mode then (w.inside point).toNat else 0

variable {c : Config} {draws : Draws} {w : Worker} {site : Site}

/-- A call that comes to look at its condition is one of a worker that goes on calling. -/
theorem Fits.of_looks {point : Point} (hfits : w.Fits point) {l lock : Lock} {wait : Wait}
    (hlooks : l.Looks point lock wait) : w.Fits (.waiting wait) := by
  cases hlooks with
  | arrives mode =>
      cases hfits with
      | asks hmode hawake hleft hsound =>
          exact .waits ((l.arrive_wait_mode mode).trans hmode) hawake hleft hsound
  | again => exact hfits
  | passes hdone =>
      cases hfits with
      | waits hmode hawake hleft hsound => exact .waits hmode hawake hleft hsound

/-- Whoever looks at a condition is not inside. -/
theorem inside_of_looks {point : Point} {l lock : Lock} {wait : Wait}
    (hlooks : l.Looks point lock wait) (w : Worker) : w.inside point = false := by
  cases hlooks <;> rfl

/-- A worker whose draw succeeds naps, and one whose draw fails is about to leave. -/
theorem granted_cases (c : Config) (draws : Draws) (w : Worker) (site : Site) :
    (draws site.draws = none ∧
      (w.granted c draws site).own = { w with callsLeft := 1, panicked := true } ∧
      (w.granted c draws site).next = some (.release w.role.mode) ∧
      (w.granted c draws site).shared.sleepers = site.sleepers) ∨
    (draws site.draws ≠ none ∧
      (w.granted c draws site).own = { w with napping := true } ∧
      (w.granted c draws site).next = none ∧
      ∃ wakeAt,
        (w.granted c draws site).shared.sleepers = site.sleepers ++ [⟨w.index, wakeAt⟩]) := by
  have hsleepers : (site.enter w.role).sleepers = site.sleepers := by
    cases hrole : w.role <;> simp [Site.enter]
  unfold granted
  simp only
  split
  · next hnone => exact .inl ⟨hnone, rfl, rfl, hsleepers⟩
  · next draw hdraw =>
      refine .inr ⟨by simp [hdraw], rfl, rfl, ?_⟩
      exact ⟨_, congrArg (· ++ [_]) hsleepers⟩

/-- A worker that naps is about to leave; one that rests ends, or goes on to its next call. -/
theorem resume_cases (hfits : w.Fits .outside) (site : Site) :
    (w.napping = true ∧ 0 < w.callsLeft ∧ w.panicked = false ∧
      w.resume site = { own := { w with napping := false }
                        shared := site
                        next := some (.release w.role.mode) }) ∨
    (w.napping = false ∧ w.callsLeft = 0 ∧ w.resume site = { own := w, shared := site }) ∨
    (w.napping = false ∧ 0 < w.callsLeft ∧ w.panicked = false ∧
      w.resume site = { own := w, shared := site, next := some (.acquire w.role.mode) }) := by
  cases hfits with
  | naps hnaps hleft hsound => exact .inl ⟨hnaps, hleft, hsound, by simp [resume, hnaps]⟩
  | rests hawake hover =>
      right
      by_cases hleft : w.callsLeft = 0
      · exact .inl ⟨hawake, hleft, by simp [resume, hawake, hleft]⟩
      · refine .inr ⟨hawake, Nat.pos_of_ne_zero hleft, ?_, by simp [resume, hawake, hleft]⟩
        by_contra hpanicked
        exact hleft (hover (by simpa using hpanicked))

/-- A worker that has left ends, or goes on to its next call. -/
theorem released_cases {mode : Mode} (hfits : w.Fits (.before (.release mode))) (site : Site) :
    mode = w.role.mode ∧ w.napping = false ∧
      ((w.callsLeft = 1 ∧
        w.released site = { own := { w with callsLeft := 0 }, shared := site }) ∨
      (1 < w.callsLeft ∧ w.panicked = false ∧
        w.released site = { own := { w with callsLeft := w.callsLeft - 1 }
                            shared := site
                            next := some (.acquire w.role.mode) })) := by
  cases hfits with
  | leaves hmode hawake hleft hlast =>
      refine ⟨hmode, hawake, ?_⟩
      by_cases hone : w.callsLeft = 1
      · exact .inl ⟨hone, by simp [released, hone]⟩
      · have hmore : w.callsLeft - 1 ≠ 0 := by omega
        refine .inr ⟨by omega, ?_, by simp [released, hmore]⟩
        by_contra hpanicked
        exact hone (hlast (by simpa using hpanicked))

end Worker

section Program

variable (c : Config) (draws : Draws) (mode : Mode)

@[simp] theorem program_resume : (program c draws).resume = Worker.resume := rfl

@[simp] theorem program_granted : (program c draws).granted mode = Worker.granted c draws := rfl

@[simp] theorem program_released : (program c draws).released mode = Worker.released := rfl

@[simp] theorem program_misused : (program c draws).misused mode = Worker.misused := rfl

@[simp] theorem program_remaining : (program c draws).remaining = Worker.remaining := rfl

end Program

theorem program_descends (c : Config) (draws : Draws) :
    (program c draws).Descends (fun point w => w.Fits point) := by
  constructor
  · intro w site hfits
    rw [program_resume]
    rcases w.resume_cases hfits site with
      ⟨hnaps, hleft, hsound, hresume⟩ | ⟨hawake, hend, hresume⟩ | ⟨hawake, hleft, hsound, hresume⟩
    · rw [hresume]
      refine ⟨.leaves rfl rfl hleft (by simp [hsound]), ?_⟩
      simp [Reaction.point, program, Worker.remaining, hnaps]
      omega
    · rw [hresume]
      exact ⟨.rests hawake (fun _ => hend), by simp [Reaction.point, program]⟩
    · rw [hresume]
      refine ⟨.asks rfl hawake hleft hsound, ?_⟩
      simp [Reaction.point, program, Worker.remaining, hawake]
      omega
  · intro w wait hfits
    cases hfits with
    | asks hmode hawake hleft hsound =>
        refine ⟨.waits hmode hawake hleft hsound, ?_⟩
        simp only [program, Worker.remaining]
        omega
  · intro w ticket hfits
    cases hfits with
    | waits hmode hawake hleft hsound => exact ⟨.waits hmode hawake hleft hsound, le_rfl⟩
  · intro w site wait hfits
    change (program c draws).Within _ (w.granted c draws site) (w.remaining (.waiting wait))
    cases hfits with
    | waits hmode hawake hleft hsound =>
        rcases w.granted_cases c draws site with
          ⟨_, hown, hnext, _⟩ | ⟨_, hown, hnext, _⟩
        · constructor
          · simp only [Reaction.point, hown, hnext]
            exact .leaves rfl hawake Nat.one_pos (fun _ => rfl)
          · simp [Reaction.point, hown, hnext, program, Worker.remaining]
            omega
        · constructor
          · simp only [Reaction.point, hown, hnext]
            exact .naps rfl hleft hsound
          · simp [Reaction.point, hown, hnext, program, Worker.remaining]
            omega
  · intro w site mode hfits
    change _ ∧ Worker.remaining _ _ < w.remaining (.before (.release mode))
    obtain ⟨_, hawake, ⟨hone, hreleased⟩ | ⟨hmore, hsound, hreleased⟩⟩ :=
      w.released_cases hfits site
    · have hreacts : (program c draws).released mode w site = _ := hreleased
      rw [hreacts]
      refine ⟨.rests hawake (fun _ => rfl), ?_⟩
      simp [Reaction.point, Worker.remaining, hone]
    · have hreacts : (program c draws).released mode w site = _ := hreleased
      rw [hreacts]
      refine ⟨.asks rfl hawake (Nat.sub_pos_of_lt hmore) hsound, ?_⟩
      simp [Reaction.point, Worker.remaining]
      omega
  · intro w site mode hfits
    cases hfits with
    | leaves hmode hawake hleft hlast =>
        refine ⟨.rests hawake (fun _ => rfl), ?_⟩
        simp [Reaction.point, program, Worker.misused, Worker.remaining]

/-- The workers that nap, in the order in which they began to. -/
def nappers (site : Site) : List Nat :=
  site.sleepers.map (·.worker)

theorem Worker.owed_calls (w : Worker) {point : Point} (hpoint : point ≠ .outside) :
    w.owed point = 1 := by
  cases point with
  | outside => exact absurd rfl hpoint
  | _ => rfl

theorem program_pays (c : Config) (draws : Draws) :
    (program c draws).Pays Worker.owed nappers
      (fun task point w => w.index = task ∧ w.Fits point) := by
  constructor
  · intro w point other hpoint hother
    rw [w.owed_calls hpoint, w.owed_calls hother]
  · rintro task w site ⟨rfl, hfits⟩ howed
    rw [program_resume]
    rcases w.resume_cases hfits site with
      ⟨_, hleft, _, hresume⟩ | ⟨_, hend, _⟩ | ⟨_, hleft, _, hresume⟩
    · rw [hresume]
      constructor
      · simp [Reaction.point, Worker.owed]
        omega
      · simp
    · simp [Worker.owed, hend] at howed
    · rw [hresume]
      constructor
      · simp [Reaction.point, Worker.owed]
        omega
      · simp
  · rintro task mode point w site hpoint ⟨rfl, hfits⟩
    have hleft : 0 < w.callsLeft := by
      cases hfits with
      | rests => exact absurd rfl hpoint
      | naps hnaps hleft hsound => exact hleft
      | asks hmode hawake hleft hsound => exact hleft
      | waits hmode hawake hleft hsound => exact hleft
      | leaves hmode hawake hleft hlast => exact hleft
    rw [program_granted]
    rcases w.granted_cases c draws site with
      ⟨_, hown, hnext, hsleepers⟩ | ⟨_, hown, hnext, _, hsleepers⟩
    · constructor
      · rw [w.owed_calls hpoint]
        simp [Reaction.point, hnext, Worker.owed, nappers, hsleepers]
      · simp [nappers, hsleepers]
    · constructor
      · rw [w.owed_calls hpoint]
        simp [Reaction.point, hown, hnext, Worker.owed, nappers, hsleepers, hleft.ne']
        omega
      · intro other hother
        simp [nappers, hsleepers, Ne.symm hother]
  · rintro task mode w site ⟨rfl, hfits⟩
    rw [program_released]
    obtain ⟨_, _, ⟨_, hreleased⟩ | ⟨hmore, _, hreleased⟩⟩ := w.released_cases hfits site
    · rw [hreleased]
      constructor
      · simp [Reaction.point, Worker.owed, Nat.add_comm]
      · simp
    · rw [hreleased]
      constructor
      · simp [Reaction.point, Worker.owed]
      · simp
  · rintro task mode w site ⟨rfl, hfits⟩
    constructor
    · simp [Reaction.point, Worker.misused, Worker.owed, Nat.add_comm]
    · simp [Worker.misused]

theorem program_balances (c : Config) (draws : Draws) :
    (program c draws).Balances Worker.holds (fun point w => w.Fits point) := by
  constructor
  · intro w site mode hfits
    rw [program_resume]
    rcases w.resume_cases hfits site with
      ⟨hnaps, _, _, hresume⟩ | ⟨hawake, _, hresume⟩ | ⟨hawake, _, _, hresume⟩
    · simp [hresume, Reaction.point, Worker.holds, Worker.inside, hnaps]
    · simp [hresume, Reaction.point]
    · simp [hresume, Reaction.point, Worker.holds, Worker.inside, hawake]
  · intro l lock point wait w mode hlooks hfits
    cases hlooks <;> simp [Worker.holds, Worker.inside]
  · intro l lock point wait w site mode hlooks hfits
    obtain ⟨hmode, hawake⟩ : wait.mode = w.role.mode ∧ w.napping = false := by
      cases hfits.of_looks hlooks with
      | waits hmode hawake hleft hsound => exact ⟨hmode, hawake⟩
    have hbefore : w.holds point mode = 0 := by
      simp [Worker.holds, Worker.inside_of_looks hlooks]
    rw [program_granted, hbefore, hmode]
    rcases w.granted_cases c draws site with ⟨_, hown, hnext, _⟩ | ⟨_, hown, hnext, _⟩
    · simp [Reaction.point, hown, hnext, Worker.holds, Worker.inside]
    · simp [Reaction.point, hown, hnext, Worker.holds, Worker.inside]
  · intro w site returned mode hfits
    obtain ⟨hmode, hawake, hcases⟩ := w.released_cases hfits site
    rw [program_released, hmode]
    rcases hcases with ⟨_, hreleased⟩ | ⟨_, _, hreleased⟩
    · simp [hreleased, Reaction.point, Worker.holds, Worker.inside, hawake]
    · simp [hreleased, Reaction.point, Worker.holds, Worker.inside]

/-! ## What holds throughout a workload -/

section Reaches

variable {c : Config} {chance : Chance} {m : State}

theorem start_tasks {task : Nat} {t : Task Worker}
    (htask : (start c chance).tasks[task]? = some t) :
    ∃ role, (roles c chance.swaps)[task]? = some role ∧
      t = { own := { index := task, role, callsLeft := c.loops role } } := by
  simp only [start, List.getElem?_map, workers_getElem?, Option.map_map, Option.map_eq_some_iff]
    at htask
  obtain ⟨role, hrole, rfl⟩ := htask
  exact ⟨role, hrole, rfl⟩

theorem Reaches.fits (hm : Reaches c chance m) : m.Sound (fun point w => w.Fits point) := by
  refine hm.keeps ?_ ?_ ?_
  · intro t ht
    obtain ⟨task, htask⟩ := List.mem_iff_getElem?.mp ht
    obtain ⟨role, _, rfl⟩ := start_tasks htask
    exact .rests rfl (by simp)
  · intro m next _ hfits hstep
    exact (hfits.step (program_descends c chance.draws) hstep).1
  · intro m sleeper hfits _ _ _
    exact hfits

theorem Reaches.parked (hm : Reaches c chance m) : m.scene.Parked :=
  hm.run.parked (Scene.start_parked _ _)

theorem Reaches.balanced (hm : Reaches c chance m) : m.Balanced Worker.holds := by
  refine hm.keeps ?_ ?_ ?_
  · refine ⟨?_, ?_, ?_, ?_⟩
    · rw [start_scene]
      exact Scene.start_accounts _ _
    · rw [start_scene]
      exact Scene.start_attributed _ _
    · intro task t htask mode
      obtain ⟨role, _, rfl⟩ := start_tasks htask
      simp [start, Worker.holds, Worker.inside]
    · simp [start]
  · intro m next hm hbalanced hstep
    exact hbalanced.step (program_balances c chance.draws) hm.fits hstep
  · intro m sleeper hbalanced _ _ _
    exact ⟨hbalanced.accounts, hbalanced.attributed, hbalanced.accounted, hbalanced.sound⟩

/-- At the start every worker that has a call to make is ready. -/
theorem start_booked (c : Config) (chance : Chance) :
    (start c chance).Booked Worker.owed nappers := by
  intro task
  have hnodup : (start c chance).ready.Nodup := by
    refine List.Nodup.sublist (List.filter_sublist.map _) ?_
    rw [workers_map_index]
    exact List.nodup_range
  have hready : task ∈ (start c chance).ready ↔
      ∃ role, (roles c chance.swaps)[task]? = some role ∧ c.loops role ≠ 0 := by
    simp only [start, List.mem_map, List.mem_filter, bne_iff_ne]
    constructor
    · rintro ⟨w, ⟨hw, hleft⟩, rfl⟩
      obtain ⟨place, hplace⟩ := List.mem_iff_getElem?.mp hw
      rw [workers_getElem?] at hplace
      obtain ⟨role, hrole, rfl⟩ := Option.map_eq_some_iff.mp hplace
      exact ⟨role, hrole, hleft⟩
    · rintro ⟨role, hrole, hleft⟩
      refine ⟨{ index := task, role, callsLeft := c.loops role }, ⟨?_, hleft⟩, rfl⟩
      apply List.mem_of_getElem? (i := task)
      rw [workers_getElem?, hrole]
      rfl
  have hturns : (start c chance).turnList = (start c chance).ready := by
    simp [Machine.turnList, start, Waiters.on]
  have hnobody : (nappers (start c chance).shared).count task = 0 := rfl
  rw [hturns, hnodup.count, hnobody]
  cases htask : (start c chance).tasks[task]? with
  | none =>
      have hnone : (roles c chance.swaps)[task]? = none := by
        simpa [start, workers_getElem?] using htask
      simp [Machine.owedTo, htask, hready, hnone]
  | some t =>
      obtain ⟨role, hrole, rfl⟩ := start_tasks htask
      by_cases hleft : c.loops role = 0
      · simp [Machine.owedTo, htask, hready, hrole, hleft, Worker.owed]
      · simp [Machine.owedTo, htask, hready, hrole, hleft, Worker.owed]

/-- A sleeper that wakes up takes its turn along. -/
theorem roused_booked (hbooked : m.Booked Worker.owed nappers) (hrunning : m.running = none)
    (hready : m.ready = []) {sleeper : Sleeper} (hsleeper : sleeper ∈ m.shared.sleepers) :
    (roused m sleeper).Booked Worker.owed nappers := by
  intro task
  have hbefore := hbooked task
  have hperm := ((List.perm_cons_erase hsleeper).map (·.worker)).count_eq task
  simp only [Machine.turnList, nappers, roused, hrunning, hready, List.map_cons, List.count_cons,
    List.count_append, Option.toList_none, List.count_nil] at hperm hbefore ⊢
  change _ = m.owedTo Worker.owed task
  omega

theorem Reaches.booked (hm : Reaches c chance m) : m.Booked Worker.owed nappers := by
  refine hm.keeps (start_booked c chance) ?_ ?_
  · intro m next hm hbooked hstep
    refine hbooked.step (program_pays c chance.draws) ?_ hstep
    intro task t htask
    exact ⟨(hm.placed.place task t htask).1, hm.fits t (List.mem_of_getElem? htask)⟩
  · intro m sleeper hbooked hrunning hready hsleeper
    exact roused_booked hbooked hrunning hready hsleeper

end Reaches

end ReaderWriter.Workload
