import ReaderWriter.Proofs.Workload.Calls
import ReaderWriter.Proofs.Workload.Ending
import ReaderWriter.Workload.Journal

/-!
# What a workload amounts to

At the end of a run the callers tell everything.  If no draw fails, every worker is among them as
often as it has calls to make, and the report counts them all.  If draws fail, the workers that made
them have panicked, each at its last call; all others have made their calls, and the first of the
panicked ones by number is reported.
-/

namespace ReaderWriter.Workload

variable {c : Config} {chance : Chance}

theorem Draws.cycle_ne_none {draws : Array (Option Nat)} (hdraws : none ∉ draws) (moment : Nat) :
    Draws.cycle draws moment ≠ none := by
  unfold Draws.cycle
  split
  · simp
  · next hsome =>
      have hlt : moment % draws.size < draws.size := by
        apply Nat.mod_lt
        simpa [Array.isEmpty_iff_size_eq_zero, Nat.pos_iff_ne_zero] using hsome
      rw [Array.getD_eq_getD_getElem?, Array.getElem?_eq_getElem hlt, Option.getD_some]
      intro hnone
      exact hdraws (hnone ▸ Array.getElem_mem hlt)

theorem sum_map_ite {role : Role} {loops : Nat} (roles : List Role) :
    (roles.map fun other => if other = role then loops else 0).sum = roles.count role * loops := by
  induction roles with
  | nil => simp
  | cons other roles ih =>
      rw [List.map_cons, List.sum_cons, ih, List.count_cons]
      by_cases hsame : other = role
      · simp [hsame, Nat.add_mul, Nat.add_comm]
      · simp [hsame]

/-- If every worker has made its calls, each role has as many callers as its workers have calls. -/
theorem countP_plays {m : State} (hplaced : Placed c chance m) {calls : List Nat}
    (hcalls : ∀ (task : Nat) (t : Task Worker), m.tasks[task]? = some t →
      calls.count task = c.loops t.own.role) (role : Role) :
    calls.countP (plays c chance role) = (roles c chance.swaps).count role * c.loops role := by
  have hsplit : ∑ worker ∈ Finset.range (roles c chance.swaps).length,
      calls.countP (fun caller => caller == worker && plays c chance role worker) =
        calls.countP (plays c chance role) := by
    apply sum_countP
    intro caller _
    rw [Finset.sum_eq_single caller]
    · simp
    · intro worker _ hother
      simp [Ne.symm hother]
    · intro hbeyond
      have hnone : (roles c chance.swaps)[caller]? = none := by simpa using hbeyond
      simp [plays, hnone]
  rw [← hsplit, ← sum_map_ite]
  symm
  apply sum_map_eq_sum_range
  intro worker other hother
  obtain ⟨t, htask⟩ : ∃ t, m.tasks[worker]? = some t := by
    obtain ⟨hlt, _⟩ := List.getElem?_eq_some_iff.mp hother
    exact ⟨_, List.getElem?_eq_getElem (hplaced.tasks_length ▸ hlt)⟩
  have hrole : t.own.role = other :=
    Option.some.inj ((hplaced.place worker t htask).2.symm.trans hother)
  have hcount := hcalls worker t htask
  rw [hrole] at hcount
  by_cases hsame : other = role
  · subst hsame
    simp only [plays, hother, decide_true, Bool.and_true, if_true]
    exact hcount.symm
  · simp [plays, hother, hsame]

/-! ## The end of a run -/

theorem run_of_valid (hvalid : c.Valid) (chance : Chance) :
    run c chance =
      { result := result c (finish c chance)
        clock := (finish c chance).shared.clock
        events := (finish c chance).history.reverse
        workers := (finish c chance).tasks.map (·.own) } := by
  unfold run
  rw [(c.fault?_eq_none_iff).mpr hvalid]

/-- The workers that entered, in their order. -/
def Outcome.calls (o : Outcome) : List Nat :=
  callers o.events

theorem run_result (hvalid : c.Valid) : (run c chance).result = result c (finish c chance) := by
  rw [run_of_valid hvalid]

theorem run_calls (hvalid : c.Valid) :
    (run c chance).calls = callers (finish c chance).history.reverse := by
  rw [run_of_valid hvalid]
  rfl

theorem run_workers (hvalid : c.Valid) :
    (run c chance).workers = (finish c chance).tasks.map (·.own) := by
  rw [run_of_valid hvalid]

theorem exists_task (hvalid : c.Valid) {index : Nat} {w : Worker}
    (hworker : (run c chance).workers[index]? = some w) :
    ∃ t, (finish c chance).tasks[index]? = some t ∧ t.own = w := by
  rw [run_workers hvalid, List.getElem?_map] at hworker
  exact Option.map_eq_some_iff.mp hworker

theorem finish_ended (c : Config) (chance : Chance) : Ended (finish c chance) :=
  (reaches_finish c chance).ended (finish_rests c chance)

theorem finish_fate {task : Nat} {t : Task Worker}
    (htask : (finish c chance).tasks[task]? = some t) :
    Fate c chance.draws (callers (finish c chance).history.reverse) task t.point t.own :=
  (reaches_finish c chance).recorded.fates task t htask

/-- A worker that did not panic has made all its calls. -/
theorem finish_made {task : Nat} {t : Task Worker}
    (htask : (finish c chance).tasks[task]? = some t) (hsound : t.own.panicked = false) :
    (callers (finish c chance).history.reverse).count task = c.loops t.own.role := by
  obtain ⟨hpoint, hend, hawake⟩ :=
    (finish_ended c chance).workers t (List.mem_of_getElem? htask)
  have hmade := (finish_fate htask).made hsound
  simpa [hpoint, hend, hawake, Worker.inside] using hmade

/-- A worker whose draws succeed does not panic. -/
theorem finish_sound {task : Nat} {t : Task Worker}
    (htask : (finish c chance).tasks[task]? = some t)
    (hdraws : ∀ moment, (callers (finish c chance).history.reverse)[moment]? = some task →
      chance.draws moment ≠ none) : t.own.panicked = false := by
  by_contra hpanicked
  obtain ⟨moment, hcall, hnone, _⟩ := (finish_fate htask).struck (by simpa using hpanicked)
  exact hdraws moment hcall hnone

theorem mem_panicked {m : State} {w : Worker} :
    w ∈ panicked m ↔ ∃ (task : Nat) (t : Task Worker), m.tasks[task]? = some t ∧ t.own = w ∧
      w.panicked = true := by
  rw [panicked, List.mem_filter, List.mem_map]
  constructor
  · rintro ⟨⟨t, ht, hown⟩, hpanicked⟩
    obtain ⟨task, htask⟩ := List.mem_iff_getElem?.mp ht
    exact ⟨task, t, htask, hown, hpanicked⟩
  · rintro ⟨task, t, htask, hown, hpanicked⟩
    exact ⟨⟨t, List.mem_of_getElem? htask, hown⟩, hpanicked⟩

theorem result_of_panicked {m : State} {w : Worker} (hfirst : (panicked m).head? = some w) :
    result c m = .error (.workerPanicked w.name) := by
  obtain ⟨behind, hpanicked⟩ := List.head?_eq_some_iff.mp hfirst
  unfold result
  rw [hpanicked]

/-- If nobody panicked, no update is lost and the calls are reported. -/
theorem result_of_sound (hnobody : panicked (finish c chance) = []) :
    ∃ report, result c (finish c chance) = .ok report ∧
      report.readerCalls = (finish c chance).shared.readers.calls ∧
      report.writerCalls = (finish c chance).shared.writers.calls ∧
      report.finalCounter = report.writerCalls := by
  have hcounter := (reaches_finish c chance).recorded.counter
  unfold result
  rw [hnobody]
  simp only [if_pos hcounter]
  exact ⟨_, rfl, rfl, rfl, hcounter⟩

theorem result_error_iff :
    (∃ fault, result c (finish c chance) = .error fault) ↔
      ∃ w, w ∈ panicked (finish c chance) := by
  cases hpanicked : panicked (finish c chance) with
  | nil =>
      obtain ⟨report, hreport, _⟩ := result_of_sound hpanicked
      simp [hreport]
  | cons w behind =>
      have hfailed : result c (finish c chance) = .error (.workerPanicked w.name) :=
        result_of_panicked (by rw [hpanicked, List.head?_cons])
      simp [hfailed]

/-! ## Without failing draws -/

/-- The workload ends with all workers done and the lock free, and reports every call. -/
structure Completed (c : Config) (chance : Chance) : Prop where
  rests : step c chance (finish c chance) = none
  ended : Ended (finish c chance)
  threads : (run c chance).workers.length = c.threads
  writers : (run c chance).workers.countP (·.role = .writer) = c.writers
  report : ∃ report, (run c chance).result = .ok report ∧
    report.readerCalls.toNat = (c.threads - c.writers) * c.readerLoops ∧
    report.writerCalls.toNat = c.writers * c.writerLoops ∧
    report.finalCounter.toNat = c.writers * c.writerLoops

theorem workers_map_role (hvalid : c.Valid) (chance : Chance) :
    (run c chance).workers.map (·.role) = roles c chance.swaps := by
  have hplaced := (reaches_finish c chance).placed
  rw [run_workers hvalid]
  apply List.ext_getElem?
  intro index
  simp only [List.getElem?_map, Option.map_map]
  cases htask : (finish c chance).tasks[index]? with
  | some t => exact ((hplaced.place index t htask).2).symm
  | none =>
      have hbeyond : (roles c chance.swaps).length ≤ index := by
        rw [← hplaced.tasks_length]
        simpa using htask
      exact (List.getElem?_eq_none hbeyond).symm

/-- If nobody panics, the tally of each role counts the calls of all its workers. -/
theorem finish_tally (hsound : ∀ (task : Nat) (t : Task Worker),
      (finish c chance).tasks[task]? = some t → t.own.panicked = false) (role : Role) :
    ((finish c chance).shared.tally role).calls =
      .ofNat ((roles c chance.swaps).count role * c.loops role) := by
  have hreached := reaches_finish c chance
  rw [hreached.recorded.tallies, countP_plays hreached.placed]
  intro task t htask
  exact finish_made htask (hsound task t htask)

/-- If no draw fails, a workload ends whatever the schedule is, and its report counts every call. -/
theorem run_counts_every_call (hvalid : c.Valid) (hdraws : ∀ moment, chance.draws moment ≠ none)
    (hreads : (c.threads - c.writers) * c.readerLoops < 2 ^ 64)
    (hwrites : c.writers * c.writerLoops < 2 ^ 64) : Completed c chance := by
  have hsound : ∀ (task : Nat) (t : Task Worker), (finish c chance).tasks[task]? = some t →
      t.own.panicked = false :=
    fun task t htask => finish_sound htask (fun moment _ => hdraws moment)
  have hnobody : panicked (finish c chance) = [] := by
    rw [List.eq_nil_iff_forall_not_mem]
    intro w hw
    obtain ⟨task, t, htask, rfl, hpanicked⟩ := mem_panicked.mp hw
    rw [hsound task t htask] at hpanicked
    contradiction
  obtain ⟨hwriters, hreaders⟩ := count_roles c chance.swaps
  have hroles := workers_map_role hvalid chance
  refine ⟨finish_rests c chance, finish_ended c chance, ?_, ?_, ?_⟩
  · rw [← roles_length hvalid chance.swaps, ← hroles, List.length_map]
  · rw [← hwriters, ← hroles, List.count, List.countP_map]
    rfl
  · obtain ⟨report, hresult, hreader, hwriter, hfinal⟩ := result_of_sound hnobody
    have hread := finish_tally hsound .reader
    have hwrite := finish_tally hsound .writer
    rw [hreaders] at hread
    rw [hwriters] at hwrite
    have hreads : report.readerCalls.toNat = (c.threads - c.writers) * c.readerLoops := by
      rw [hreader]
      exact (congrArg UInt64.toNat hread).trans (UInt64.toNat_ofNat_of_lt' hreads)
    have hwrites : report.writerCalls.toNat = c.writers * c.writerLoops := by
      rw [hwriter]
      exact (congrArg UInt64.toNat hwrite).trans (UInt64.toNat_ofNat_of_lt' hwrites)
    exact ⟨report, (run_result hvalid).trans hresult, hreads, hwrites, hfinal ▸ hwrites⟩

theorem run_counts_every_call_twoThreads :
    Completed twoThreads
      { swaps := [(0, 1)], draws := Draws.cycle #[some 3], picks := [1], preempt := true } :=
  run_counts_every_call (by decide)
    (Draws.cycle_ne_none (show none ∉ #[some 3] by simp)) (by decide) (by decide)

/-! ## With failing draws -/

/-- The thread that runs the workload bears no worker's name. -/
theorem Worker.name_ne_mainThread (w : Worker) : w.name ≠ mainThread := by
  intro hname
  have hletters := congrArg String.toList hname
  cases hrole : w.role <;> simp [Worker.name, mainThread, Role.word, hrole] at hletters

theorem Outcome.workerEntries_thread (o : Outcome) {entry : Log.Entry}
    (hentry : entry ∈ o.workerEntries) : entry.thread ≠ mainThread := by
  obtain ⟨event, _, hlogged⟩ := List.mem_filterMap.mp hentry
  obtain ⟨record, _, rfl⟩ := Option.map_eq_some_iff.mp hlogged
  change (o.workers.map Worker.name).toArray.getD event.task "" ≠ mainThread
  rw [Array.getD_eq_getD_getElem?, List.getElem?_toArray, List.getElem?_map]
  cases o.workers[event.task]? with
  | none => decide
  | some w => exact w.name_ne_mainThread

/-- That thread logs the start, and then each worker that panicked by its number. -/
theorem Outcome.mainEntries_of_valid (hvalid : c.Valid) (o : Outcome) :
    o.mainEntries c = startedEntry c :: (o.workers.filter (·.panicked)).map panickedEntry := by
  have hworkers : o.workerEntries.filter (·.thread == mainThread) = [] := by
    rw [List.filter_eq_nil_iff]
    intro entry hentry
    simpa using o.workerEntries_thread hentry
  have hpanicked : ((o.workers.filter (·.panicked)).map panickedEntry).filter
      (·.thread == mainThread) = (o.workers.filter (·.panicked)).map panickedEntry := by
    rw [List.filter_eq_self]
    intro entry hentry
    obtain ⟨w, _, rfl⟩ := List.mem_map.mp hentry
    rfl
  have hjournal : o.journal c =
      startedEntry c :: (o.workerEntries ++ (o.workers.filter (·.panicked)).map panickedEntry) := by
    simp [Outcome.journal, (c.fault?_eq_none_iff).mpr hvalid]
  rw [Outcome.mainEntries, hjournal, List.filter_cons_of_pos (by rfl), List.filter_append,
    hworkers, hpanicked, List.nil_append]

theorem startedEntry_brief (c : Config) :
    (startedEntry c).brief =
      "main info: starting workload policy=" ++ c.policy.name ++ " threads=" ++
        toString c.threads ++ " writers=" ++ toString c.writers := by
  apply String.toList_injective
  simp [startedEntry, Log.Entry.brief, Log.Record.body, Log.Level.name, Log.Value.render,
    mainThread]

theorem panickedEntry_brief (w : Worker) :
    (panickedEntry w).brief = "main debug: worker panicked name=" ++ w.name := by
  apply String.toList_injective
  simp [panickedEntry, Log.Entry.brief, Log.Record.body, Log.Level.name, Log.Value.render,
    mainThread]

theorem head?_panicked {m : State} {index : Nat} {w : Worker}
    (hworker : (m.tasks.map (·.own))[index]? = some w) (hpanicked : w.panicked = true)
    (hfirst : ∀ (earlier : Nat) (v : Worker), earlier < index →
      (m.tasks.map (·.own))[earlier]? = some v → v.panicked = false) :
    (panicked m).head? = some w := by
  obtain ⟨hlt, hat⟩ := List.getElem?_eq_some_iff.mp hworker
  rw [panicked, List.head?_filter, List.find?_eq_some_iff_getElem]
  refine ⟨hpanicked, index, hlt, hat, ?_⟩
  intro earlier hearlier
  rw [hfirst earlier _ hearlier (List.getElem?_eq_getElem (hearlier.trans hlt))]
  rfl

/-- The workload ends with all workers done and the lock free, whichever draws fail.  A worker is
called by its role and its number, and is reported and logged under that name. -/
structure Survived (c : Config) (chance : Chance) : Prop where
  rests : step c chance (finish c chance) = none
  ended : Ended (finish c chance)
  /-- In every state the next call makes the draw of its own moment. -/
  drawn : ∀ m, Reaches c chance m → m.shared.draws = (callers m.history.reverse).length
  named : ∀ (index : Nat) (w : Worker), (run c chance).workers[index]? = some w →
    (roles c chance.swaps)[index]? = some w.role ∧
      w.name = (if w.role = .writer then "writer-" else "reader-") ++ toString index
  /-- Without a failing draw a worker makes all its calls. -/
  sound : ∀ (index : Nat) (w : Worker), (run c chance).workers[index]? = some w →
    (∀ moment, (run c chance).calls[moment]? = some index → chance.draws moment ≠ none) →
    w.panicked = false ∧ (run c chance).calls.count index = c.loops w.role
  /-- A call whose draw fails is the last one of its worker, and its first one that fails. -/
  struck : ∀ (moment index : Nat), (run c chance).calls[moment]? = some index →
    chance.draws moment = none → ∃ w, (run c chance).workers[index]? = some w ∧
      w.panicked = true ∧ (run c chance).calls.count index ≤ c.loops w.role ∧
      ∀ other, (run c chance).calls[other]? = some index →
        other = moment ∨ other < moment ∧ chance.draws other ≠ none
  failed : (∃ fault, (run c chance).result = .error fault) ↔
    ∃ w ∈ (run c chance).workers, w.panicked = true
  /-- The first panicked worker by number is the one that is reported. -/
  first : ∀ (index : Nat) (w : Worker), (run c chance).workers[index]? = some w →
    w.panicked = true →
    (∀ (earlier : Nat) (v : Worker), earlier < index →
      (run c chance).workers[earlier]? = some v → v.panicked = false) →
    (run c chance).result = .error (.workerPanicked w.name)
  /-- The thread that runs the workload logs the start, and one entry for each panicked worker in
  the order of their numbers. -/
  entries : (run c chance).mainEntries c =
    { thread := "main"
      record :=
        { level := .info
          target := "rw_fairness::workload"
          message := "starting workload"
          fields :=
            [ ("policy", .text c.policy.name),
              ("threads", .number c.threads),
              ("writers", .number c.writers) ] } } ::
      ((run c chance).workers.filter (·.panicked)).map fun w =>
        { thread := "main"
          record :=
            { level := .debug
              target := "rw_fairness::workload"
              message := "worker panicked"
              fields := [("name", .text w.name)] } }
  /-- These entries, one line each. -/
  lines : ((run c chance).mainEntries c).map Log.Entry.brief =
    ("main info: starting workload policy=" ++ c.policy.name ++ " threads=" ++
        toString c.threads ++ " writers=" ++ toString c.writers) ::
      ((run c chance).workers.filter (·.panicked)).map fun w =>
        "main debug: worker panicked name=" ++ w.name

/-- A failing draw belongs to the last call of a worker that panicked. -/
theorem finish_struck {moment index : Nat}
    (hcall : (callers (finish c chance).history.reverse)[moment]? = some index)
    (hnone : chance.draws moment = none) :
    ∃ t, (finish c chance).tasks[index]? = some t ∧ t.own.panicked = true ∧
      ∀ other, (callers (finish c chance).history.reverse)[other]? = some index →
        other = moment ∨ other < moment ∧ chance.draws other ≠ none := by
  have hknown := (reaches_finish c chance).recorded.known index (List.mem_of_getElem? hcall)
  have htask := List.getElem?_eq_getElem hknown
  have hfate := finish_fate htask
  have hpanicked : (finish c chance).tasks[index].own.panicked = true := by
    by_contra hsound
    exact hfate.spared (by simpa using hsound) moment hcall hnone
  refine ⟨_, htask, hpanicked, ?_⟩
  obtain ⟨last, _, _, hlast⟩ := hfate.struck hpanicked
  rcases hlast moment hcall with rfl | ⟨_, hsome⟩
  · exact hlast
  · exact absurd hnone hsome

/-- Whichever draws fail, a workload ends, only the workers that made them panic, each at its last
call, and the first of them by number is reported. -/
theorem run_survives_panics (hvalid : c.Valid) (chance : Chance) : Survived c chance := by
  constructor
  case rests => exact finish_rests c chance
  case ended => exact finish_ended c chance
  case drawn => exact fun m hm => hm.recorded.draws
  case named =>
    intro index w hw
    obtain ⟨t, htask, rfl⟩ := exists_task hvalid hw
    obtain ⟨hindex, hrole⟩ := (reaches_finish c chance).placed.place index t htask
    refine ⟨hrole, ?_⟩
    rw [Worker.name, hindex]
    cases t.own.role <;> rfl
  case sound =>
    intro index w hw hdraws
    obtain ⟨t, htask, rfl⟩ := exists_task hvalid hw
    rw [run_calls hvalid] at hdraws ⊢
    have hsound := finish_sound htask hdraws
    exact ⟨hsound, finish_made htask hsound⟩
  case struck =>
    intro moment index hcall hnone
    rw [run_calls hvalid] at hcall ⊢
    obtain ⟨t, htask, hpanicked, hlast⟩ := finish_struck hcall hnone
    refine ⟨t.own, ?_, hpanicked, (finish_fate htask).most, hlast⟩
    rw [run_workers hvalid, List.getElem?_map, htask]
    rfl
  case failed =>
    rw [run_result hvalid, run_workers hvalid, result_error_iff]
    simp only [panicked, List.mem_filter]
  case first =>
    intro index w hw hpanicked hfirst
    rw [run_workers hvalid] at hw hfirst
    rw [run_result hvalid]
    exact result_of_panicked (head?_panicked hw hpanicked hfirst)
  case entries => exact (run c chance).mainEntries_of_valid hvalid
  case lines =>
    rw [(run c chance).mainEntries_of_valid hvalid, List.map_cons, List.map_map,
      startedEntry_brief]
    exact congrArg _ (List.map_congr_left fun w _ => panickedEntry_brief w)

theorem run_survives_panics_twoThreads :
    Survived twoThreads secondFails ∧ (run twoThreads secondFails).calls = [1, 0, 1] ∧
      (run twoThreads secondFails).result = .error (.workerPanicked "reader-0") := by
  have hsurvived : Survived twoThreads secondFails := run_survives_panics (by decide) secondFails
  let reader : Worker := { index := 0, role := .reader, callsLeft := 0, panicked := true }
  have hreader : (run twoThreads secondFails).workers[0]? = some reader := by decide
  have hresult := hsurvived.first 0 reader hreader rfl
    (fun earlier _ hearlier => absurd hearlier (Nat.not_lt_zero earlier))
  have hname : reader.name = "reader-0" := by decide
  exact ⟨hsurvived, by decide, hname ▸ hresult⟩

end ReaderWriter.Workload
