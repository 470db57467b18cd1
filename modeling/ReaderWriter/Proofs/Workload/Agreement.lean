import ReaderWriter.Proofs.Reading
import ReaderWriter.Proofs.Workload.Course

/-!
# A workload without writers under both policies

If there are no writers, or none of them has a call to make, the writers rest for good and only
readers call the lock.  Such a workload takes the same course under both policies and ends with the
same outcome, up to the name of the policy in its report.
-/

namespace ReaderWriter.Workload

def Config.under (c : Config) (policy : Policy) : Config :=
  { c with policy }

/-- The same outcome with another policy in its report. -/
def Outcome.under (o : Outcome) (policy : Policy) : Outcome :=
  { o with result := o.result.map fun report => { report with policy } }

variable {c : Config} {chance : Chance} {m next : State}

namespace Worker

/-- A writer rests for good, and nobody else asks to write. -/
structure Reads (point : Point) (w : Worker) : Prop where
  waits : ∀ wait, point ≠ .waiting wait
  writes : point ≠ .before (.acquire .exclusive)
  writers : w.role = .writer → point = .outside ∧ w.callsLeft = 0 ∧ w.napping = false

/-- A reader may go on to any call that is not a request to write. -/
theorem Reads.of_reader {r : React} (hrole : r.own.role = .reader)
    (hnext : r.next ≠ some (.acquire .exclusive)) : Reads r.point r.own := by
  refine ⟨Reaction.point_ne_waiting r, ?_, ?_⟩
  · unfold Reaction.point
    cases hcall : r.next with
    | none => simp
    | some call =>
        rintro hpoint
        obtain rfl : call = .acquire .exclusive := by simpa using hpoint
        exact hnext hcall
  · simp [hrole]

theorem Reads.reader {point : Point} {w : Worker} (hreads : w.Reads point)
    (hpoint : point ≠ .outside) : w.role = .reader := by
  cases hrole : w.role with
  | reader => rfl
  | writer => exact absurd (hreads.writers hrole).1 hpoint

theorem Reads.resume {w : Worker} (hreads : w.Reads .outside) (site : Site) :
    (w.resume site).own.Reads (w.resume site).point := by
  cases hrole : w.role with
  | reader =>
      refine .of_reader ((resume_place w site).2.trans hrole) ?_
      unfold Worker.resume
      split
      · simp
      · split <;> simp [hrole, Role.mode]
  | writer =>
      obtain ⟨_, hleft, hawake⟩ := hreads.writers hrole
      have hrests : w.resume site = { own := w, shared := site } := by
        simp [Worker.resume, hawake, hleft]
      rw [hrests]
      exact hreads

end Worker

theorem program_reads (c : Config) (draws : Draws) : (program c draws).Reads Worker.Reads := by
  constructor
  case waits => exact fun wait w hreads => hreads.waits wait rfl
  case writes => exact fun w hreads => hreads.writes rfl
  case resume => exact fun w site hreads => hreads.resume site
  case granted =>
    intro mode w site hreads
    have hrole := (granted_place c draws w site).2.trans (hreads.reader (by simp))
    refine .of_reader hrole ?_
    change (w.granted c draws site).next ≠ _
    unfold Worker.granted
    simp only
    split <;> simp
  case released =>
    intro mode w site hreads
    have hrole := hreads.reader (by simp)
    refine .of_reader hrole ?_
    change (w.released site).next ≠ _
    unfold Worker.released
    simp only
    split <;> simp [hrole, Role.mode]
  case misused =>
    intro mode w site hreads
    exact .of_reader (hreads.reader (by simp)) (by simp [program, Worker.misused])

/-- Nobody has a call to make in which it writes. -/
theorem start_reading (hwriters : c.writers = 0 ∨ c.writerLoops = 0) (chance : Chance) :
    (start c chance).Reading Worker.Reads := by
  refine ⟨?_, ⟨0, rfl⟩, rfl, rfl⟩
  intro t ht
  obtain ⟨w, hw, rfl⟩ := List.mem_map.mp ht
  obtain ⟨index, hindex⟩ := List.mem_iff_getElem?.mp hw
  rw [workers_getElem?] at hindex
  obtain ⟨role, hrole, rfl⟩ := Option.map_eq_some_iff.mp hindex
  refine ⟨by simp, by simp, ?_⟩
  rintro rfl
  refine ⟨rfl, ?_, rfl⟩
  rcases hwriters with hnone | hloops
  · have hcount := (count_roles c chance.swaps).1
    rw [hnone, List.count_eq_zero] at hcount
    exact absurd (List.mem_of_getElem? hrole) hcount
  · exact hloops

theorem step_reading (hm : m.Reading Worker.Reads) (hstep : step c chance m = some next) :
    next.Reading Worker.Reads := by
  rcases step_cases hstep with hstep | ⟨_, _, sleeper, _, rfl⟩
  · exact hm.step (program_reads c chance.draws) hstep
  · exact ⟨hm.sound, hm.lock, hm.nobody, hm.untraced⟩

theorem wakeNext?_plain (m : State) : wakeNext? m.plain = (wakeNext? m).map Machine.plain := by
  have hshared : m.plain.shared = m.shared := rfl
  unfold wakeNext?
  rw [hshared]
  cases earliest? m.shared.sleepers <;> rfl

theorem step_plain (hm : m.Reading Worker.Reads) :
    step (c.under .readerPreference) chance m.plain = (step c chance m).map Machine.plain := by
  have hmoves := (hm.flows (program_reads c chance.draws)).plain_step
  have hprogram : program (c.under .readerPreference) chance.draws = program c chance.draws := rfl
  unfold step
  rw [hprogram, hmoves]
  cases m.step (program c chance.draws) with
  | none => exact wakeNext?_plain m
  | some next => rfl

theorem finish_plain (hwriters : c.writers = 0 ∨ c.writerLoops = 0) (chance : Chance) :
    finish (c.under .readerPreference) chance = (finish c chance).plain :=
  iterate_map (fun _ _ => step_reading) (fun _ => step_plain) _ (start_reading hwriters chance)

theorem result_plain (m : State) :
    result (c.under .readerPreference) m.plain =
      (result c m).map fun report => { report with policy := .readerPreference } := by
  have hpanicked : panicked m.plain = panicked m := rfl
  have hshared : m.plain.shared = m.shared := rfl
  unfold result
  rw [hpanicked, hshared]
  cases panicked m with
  | cons w behind => rfl
  | nil =>
      simp only
      split <;> rfl

theorem run_under (hwriters : c.writers = 0 ∨ c.writerLoops = 0) (chance : Chance) :
    run (c.under .readerPreference) chance = (run c chance).under .readerPreference := by
  have hfault : (c.under .readerPreference).fault? = c.fault? := rfl
  unfold run
  rw [hfault]
  cases c.fault? with
  | some fault => rfl
  | none =>
      have hreading : (finish c chance).Reading Worker.Reads :=
        iterate_keeps (fun _ _ => step_reading) _ (start_reading hwriters chance)
      simp only [finish_plain hwriters chance, result_plain, Outcome.under]
      rw [hreading.plain_eq]

end ReaderWriter.Workload
