import ReaderWriter.Proofs.Workload.Moves

/-!
# The calls of a workload

The workers that entered the lock, in their order, are the callers of a run.  Each entry makes one
draw, so the draws that fail tell which workers panic, and when.  A worker whose draws all succeed
makes one call after the other until none is left; one whose draw fails makes no call after that.
The tallies and the counter count the callers.
-/

namespace ReaderWriter.Workload

variable {c : Config} {chance : Chance} {m next : State}

def caller? : Event Note → Option Nat
  | .noted task (.entered ..) => some task
  | _ => none

/-- The workers that entered, in the order of the events. -/
def callers (events : List (Event Note)) : List Nat :=
  events.filterMap caller?

/-- The worker with this number has the role. -/
def plays (c : Config) (chance : Chance) (role : Role) (worker : Nat) : Bool :=
  (roles c chance.swaps)[worker]? = some role

theorem Placed.plays_eq (hplaced : Placed c chance m) {task : Nat} {t : Task Worker}
    (htask : m.tasks[task]? = some t) (role : Role) :
    plays c chance role task = decide (t.own.role = role) := by
  simp [plays, (hplaced.place task t htask).2]

theorem caller?_ofNotes : OfNotes caller? := by
  intro event hevent
  cases event with
  | noted task note => exact absurd rfl (hevent task note)
  | _ => rfl

/-- What a worker has done, by the callers so far. -/
structure Fate (c : Config) (draws : Draws) (callers : List Nat) (index : Nat) (point : Point)
    (w : Worker) : Prop where
  most : callers.count index ≤ c.loops w.role
  made : w.panicked = false →
    callers.count index + w.callsLeft = c.loops w.role + (w.inside point).toNat
  spared : w.panicked = false → ∀ moment, callers[moment]? = some index → draws moment ≠ none
  struck : w.panicked = true → ∃ moment, callers[moment]? = some index ∧ draws moment = none ∧
    ∀ other, callers[other]? = some index → other = moment ∨ other < moment ∧ draws other ≠ none

namespace Fate

variable {draws : Draws} {calls : List Nat} {index : Nat} {point : Point} {w : Worker}

/-- Another worker enters. -/
theorem other (hfate : Fate c draws calls index point w) {caller : Nat} (hother : caller ≠ index) :
    Fate c draws (calls ++ [caller]) index point w := by
  have hsame : ∀ moment : Nat, (calls ++ [caller])[moment]? = some index ↔
      calls[moment]? = some index := by
    intro moment
    rw [List.getElem?_append]
    split
    · rfl
    · next hbeyond =>
        rw [List.getElem?_eq_none (Nat.not_lt.mp hbeyond), List.getElem?_singleton]
        split <;> simp [hother]
  have hcount : (calls ++ [caller]).count index = calls.count index := by
    simp [List.count_append, hother]
  constructor
  · rw [hcount]
    exact hfate.most
  · rw [hcount]
    exact hfate.made
  · intro hsound moment hmoment
    exact hfate.spared hsound moment ((hsame moment).mp hmoment)
  · intro hpanicked
    obtain ⟨moment, hmoment, hnone, hlast⟩ := hfate.struck hpanicked
    refine ⟨moment, (hsame moment).mpr hmoment, hnone, ?_⟩
    intro other hother
    exact hlast other ((hsame other).mp hother)

/-- The worker goes on without entering. -/
theorem moved (hfate : Fate c draws calls index point w) {target : Point} {u : Worker}
    (hrole : u.role = w.role) (hpanicked : u.panicked = w.panicked)
    (hmade : (u.inside target).toNat + w.callsLeft = (w.inside point).toNat + u.callsLeft) :
    Fate c draws calls index target u := by
  constructor
  · rw [hrole]
    exact hfate.most
  all_goals rw [hpanicked]
  · intro hsound
    have hbefore := hfate.made hsound
    rw [hrole]
    omega
  · exact hfate.spared
  · exact hfate.struck

/-- The worker enters, and its draw decides how it goes on. -/
theorem entered (hfate : Fate c draws calls index point w) (hsound : w.panicked = false)
    (hinside : w.inside point = false) (hleft : 0 < w.callsLeft) (site : Site)
    (hdraws : site.draws = calls.length) :
    Fate c draws (calls ++ [index]) index (w.granted c draws site).point
      (w.granted c draws site).own := by
  have hmade := hfate.made hsound
  rw [hinside, Bool.toNat_false, Nat.add_zero] at hmade
  have hmost : (calls ++ [index]).count index ≤ c.loops w.role := by
    simp only [List.count_append, List.count_cons_self, List.count_nil]
    omega
  have hlast : (calls ++ [index])[calls.length]? = some index := by simp
  have hcases : ∀ moment : Nat, (calls ++ [index])[moment]? = some index →
      moment = calls.length ∨ moment < calls.length ∧ draws moment ≠ none := by
    intro moment hmoment
    rw [List.getElem?_append] at hmoment
    split at hmoment
    · next hlt => exact .inr ⟨hlt, hfate.spared hsound moment hmoment⟩
    · next hbeyond =>
        have hfirst : moment - calls.length = 0 := by
          simpa [List.getElem?_singleton] using hmoment
        left
        omega
  rcases w.granted_cases c draws site with
    ⟨hnone, hown, hnext, _⟩ | ⟨hsome, hown, hnext, _⟩
  · rw [hown]
    refine ⟨hmost, by simp, by simp, ?_⟩
    intro _
    exact ⟨calls.length, hlast, hdraws ▸ hnone, hcases⟩
  · rw [hown, Reaction.point, hnext]
    refine ⟨hmost, ?_, ?_, by simp [hsound]⟩
    · intro _
      simp [List.count_append, Worker.inside]
      omega
    · intro _ moment hmoment
      rcases hcases moment hmoment with rfl | ⟨_, hearlier⟩
      · exact hdraws ▸ hsome
      · exact hearlier

end Fate

/-! ## The record of a run -/

/-- The site and the workers agree with the callers. -/
structure Recorded (c : Config) (chance : Chance) (m : State) : Prop where
  draws : m.shared.draws = (callers m.history.reverse).length
  counter : m.shared.counter = m.shared.writers.calls
  tallies : ∀ role, (m.shared.tally role).calls =
    .ofNat ((callers m.history.reverse).countP (plays c chance role))
  known : ∀ worker ∈ callers m.history.reverse, worker < m.tasks.length
  fates : ∀ (task : Nat) (t : Task Worker), m.tasks[task]? = some t →
    Fate c chance.draws (callers m.history.reverse) task t.point t.own

theorem start_recorded (c : Config) (chance : Chance) : Recorded c chance (start c chance) := by
  refine ⟨rfl, rfl, ?_, by simp [start, callers], ?_⟩
  · intro role
    cases role <;> rfl
  · intro task t htask
    obtain ⟨role, _, rfl⟩ := start_tasks htask
    refine ⟨by simp [start, callers], ?_, ?_, by simp⟩
    · intro _
      simp [start, callers, Worker.inside]
    · intro _ moment hmoment
      simp [start, callers] at hmoment

theorem enter_tally (site : Site) (role other : Role) :
    ((site.enter role).tally other).calls =
      (site.tally other).calls + if role = other then 1 else 0 := by
  cases role <;> cases other <;> simp [Site.enter, Site.tally, Tally.record]

theorem enter_counter {site : Site} (hcounter : site.counter = site.writers.calls) (role : Role) :
    (site.enter role).counter = (site.enter role).writers.calls := by
  cases role with
  | reader => exact hcounter
  | writer => exact congrArg (· + 1) hcounter

/-- Whether the draw fails or not, the call is recorded and one draw is made. -/
theorem granted_site (c : Config) (draws : Draws) (w : Worker) (site : Site) :
    (w.granted c draws site).shared.draws = site.draws + 1 ∧
      (w.granted c draws site).shared.counter = (site.enter w.role).counter ∧
      (w.granted c draws site).shared.readers = (site.enter w.role).readers ∧
      (w.granted c draws site).shared.writers = (site.enter w.role).writers := by
  have hdraws : (site.enter w.role).draws = site.draws := by
    cases hrole : w.role <;> rfl
  unfold Worker.granted
  simp only
  split <;> exact ⟨congrArg (· + 1) hdraws, rfl, rfl, rfl⟩

theorem callers_granted (c : Config) (draws : Draws) (w : Worker) (site : Site) (task : Nat) :
    callers ((w.granted c draws site).notes.map (.noted task)) = [task] := by
  unfold Worker.granted
  simp only
  split <;> rfl

/-- All workers have their fates after one of them has gone on. -/
theorem fates_set {calls later : List Nat} {task : Nat} {t u : Task Worker}
    (hfates : ∀ (task : Nat) (t : Task Worker), m.tasks[task]? = some t →
      Fate c chance.draws calls task t.point t.own)
    (htask : m.tasks[task]? = some t) (htasks : next.tasks = m.tasks.set task u)
    (hself : Fate c chance.draws later task u.point u.own)
    (hothers : ∀ other point w, other ≠ task → Fate c chance.draws calls other point w →
      Fate c chance.draws later other point w) :
    ∀ (task : Nat) (t : Task Worker), next.tasks[task]? = some t →
      Fate c chance.draws later task t.point t.own := by
  intro other v hv
  rw [htasks] at hv
  by_cases hother : task = other
  · subst hother
    obtain ⟨hlt, _⟩ := List.getElem?_eq_some_iff.mp htask
    rw [List.getElem?_set_self hlt] at hv
    exact Option.some.inj hv ▸ hself
  · rw [List.getElem?_set_ne hother] at hv
    exact hothers other v.point v.own (Ne.symm hother) (hfates other v hv)

namespace Recorded

/-- A worker goes on without entering. -/
theorem stays (hm : Recorded c chance m) {task : Nat} {t u : Task Worker}
    (htask : m.tasks[task]? = some t) (htasks : next.tasks = m.tasks.set task u)
    (hshared : next.shared = m.shared)
    (hcallers : callers next.history.reverse = callers m.history.reverse)
    (hrole : u.own.role = t.own.role) (hpanicked : u.own.panicked = t.own.panicked)
    (hmade : (u.own.inside u.point).toNat + t.own.callsLeft =
      (t.own.inside t.point).toNat + u.own.callsLeft) : Recorded c chance next := by
  constructor
  · rw [hcallers, hshared]
    exact hm.draws
  · rw [hshared]
    exact hm.counter
  · rw [hcallers, hshared]
    exact hm.tallies
  · rw [hcallers, htasks, List.length_set]
    exact hm.known
  · rw [hcallers]
    exact fates_set hm.fates htask htasks ((hm.fates task t htask).moved hrole hpanicked hmade)
      (fun _ _ _ _ hfate => hfate)

theorem enters (hm : Recorded c chance m) (hplaced : Placed c chance m) {task : Nat}
    {t : Task Worker} (htask : m.tasks[task]? = some t) (hsound : t.own.panicked = false)
    (hinside : t.own.inside t.point = false) (hleft : 0 < t.own.callsLeft)
    (htasks : next.tasks = m.tasks.set task
      ⟨(t.own.granted c chance.draws m.shared).point, (t.own.granted c chance.draws m.shared).own⟩)
    (hshared : next.shared = (t.own.granted c chance.draws m.shared).shared)
    (hcallers : callers next.history.reverse = callers m.history.reverse ++ [task]) :
    Recorded c chance next := by
  obtain ⟨hdraws, hcounter, hreaders, hwriters⟩ := granted_site c chance.draws t.own m.shared
  constructor
  · rw [hcallers, hshared, hdraws, hm.draws, List.length_append]
    rfl
  · rw [hshared, hcounter, hwriters]
    exact enter_counter hm.counter t.own.role
  · intro role
    have htally : next.shared.tally role = (m.shared.enter t.own.role).tally role := by
      rw [hshared]
      cases role with
      | reader => exact hreaders
      | writer => exact hwriters
    rw [hcallers, htally, enter_tally, hm.tallies, List.countP_append, UInt64.ofNat_add,
      List.countP_singleton, hplaced.plays_eq htask]
    by_cases hsame : t.own.role = role <;> simp [hsame]
  · rw [hcallers, htasks, List.length_set]
    intro worker hworker
    rcases List.mem_append.mp hworker with hearlier | hlast
    · exact hm.known worker hearlier
    · exact List.mem_singleton.mp hlast ▸ (List.getElem?_eq_some_iff.mp htask).1
  · rw [hcallers]
    refine fates_set hm.fates htask htasks ?_ ?_
    · exact (hm.fates task t htask).entered hsound hinside hleft m.shared hm.draws
    · intro other point w hother hfate
      exact hfate.other (Ne.symm hother)

theorem act (hm : Recorded c chance m) (hreached : Reaches c chance m) {task : Nat}
    {t : Task Worker} (htask : m.tasks[task]? = some t) :
    Recorded c chance (m.act (program c chance.draws) task t) := by
  cases hreached.moves htask with
  | stays htasks hshared hhistory hquiet hrole hpanicked hmade =>
      exact hm.stays htask htasks hshared (caller?_ofNotes.stays hhistory hquiet) hrole hpanicked
        hmade
  | enters hlooks hchannel henters htasks hshared hhistory hquiet =>
      obtain ⟨hsound, hleft⟩ : t.own.panicked = false ∧ 0 < t.own.callsLeft := by
        cases (hreached.fits t (List.mem_of_getElem? htask)).of_looks hlooks with
        | waits hmode hawake hleft hsound => exact ⟨hsound, hleft⟩
      refine hm.enters hreached.placed htask hsound (Worker.inside_of_looks hlooks t.own) hleft
        htasks hshared ((caller?_ofNotes.enters hhistory hquiet).trans ?_)
      exact congrArg (_ ++ ·) (callers_granted c chance.draws t.own m.shared task)

end Recorded

theorem Reaches.recorded (hm : Reaches c chance m) : Recorded c chance m := by
  refine hm.keeps (start_recorded c chance) ?_ ?_
  · intro m next hreached hm hstep
    rcases Machine.step_cases hstep with
      ⟨_, choice, _, rfl⟩ | ⟨_, _, _, rfl⟩ | ⟨task, t, _, htask, rfl⟩
    · have hcallers : callers (m.begin choice).history.reverse = callers m.history.reverse :=
        caller?_ofNotes.begins m choice
      refine ⟨?_, hm.counter, ?_, ?_, ?_⟩ <;> rw [hcallers]
      · exact hm.draws
      · exact hm.tallies
      · exact hm.known
      · exact hm.fates
    · exact ⟨hm.draws, hm.counter, hm.tallies, hm.known, hm.fates⟩
    · exact hm.act hreached htask
  · intro m sleeper hm _ _ _
    refine ⟨hm.draws, hm.counter, ?_, hm.known, hm.fates⟩
    intro role
    have htally : (roused m sleeper).shared.tally role = m.shared.tally role := by
      cases role <;> rfl
    rw [htally]
    exact hm.tallies role

end ReaderWriter.Workload
