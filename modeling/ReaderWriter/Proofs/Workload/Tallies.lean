import ReaderWriter.Proofs.Workload.Positions

/-!
# What the mean positions are made of

The mean position of a role is the sum of its positions divided by the number of its calls.  Sum
and number are tallied in words, so they are the true ones modulo `2 ^ 64`, and are the true ones
exactly if these fit.

In a run without panics the number of the calls is given by the configuration.  The sum depends on
the schedule, but the places of all calls together have a sum that does not, and the places of a
role are different.  This gives a limit: up to so many calls every sum fits, and a role with more
calls has a sum that does not, whatever the schedule is.
-/

namespace ReaderWriter.Workload

variable {c : Config} {chance : Chance} {m : State}

/-! ## True numbers and words -/

/-- The positions that the calls of a role received. -/
def positionsOf (role : Role) (visits : List Visit) : List Nat :=
  (visits.filter (·.role = role)).map (·.position.toNat)

/-- The number of the calls of a role and the sum of their positions, as words. -/
def tallyOf (role : Role) (visits : List Visit) : Tally where
  calls := .ofNat (callsBy role visits)
  positionSum := .ofNat (positionsOf role visits).sum

/-- The tally is the true number of the calls of a role and the true sum of their positions. -/
structure Tally.Exact (t : Tally) (role : Role) (visits : List Visit) : Prop where
  calls : t.calls.toNat = callsBy role visits
  positionSum : t.positionSum.toNat = (positionsOf role visits).sum

theorem length_positionsOf (role : Role) (visits : List Visit) :
    (positionsOf role visits).length = callsBy role visits := by
  rw [positionsOf, List.length_map, callsBy, List.countP_eq_length_filter]

theorem toNat_ofNat_eq_iff (n : Nat) : (UInt64.ofNat n).toNat = n ↔ n < 2 ^ 64 := by
  rw [UInt64.toNat_ofNat']
  exact Nat.mod_eq_iff_lt (by norm_num)

theorem tallyOf_exact_iff (role : Role) (visits : List Visit) :
    (tallyOf role visits).Exact role visits ↔
      callsBy role visits < 2 ^ 64 ∧ (positionsOf role visits).sum < 2 ^ 64 := by
  rw [← toNat_ofNat_eq_iff, ← toNat_ofNat_eq_iff]
  exact ⟨fun hexact => ⟨hexact.calls, hexact.positionSum⟩, fun ⟨hcalls, hsum⟩ => ⟨hcalls, hsum⟩⟩

theorem length_eq_callsBy_add (visits : List Visit) :
    visits.length = callsBy .reader visits + callsBy .writer visits := by
  induction visits using List.reverseRecOn with
  | nil => rfl
  | append_singleton visits v ih =>
      rw [List.length_append, List.length_singleton, callsBy_append_singleton,
        callsBy_append_singleton, ih]
      cases v.role <;> simp <;> omega

namespace Sequenced

variable {visits : List Visit} {site : Site} (hsequenced : Sequenced visits site)
include hsequenced

theorem positionsOf_eq_mod (role : Role) :
    positionsOf role visits = (places role visits).map (· % 2 ^ 64) := by
  apply map_filter_eq_map_places
  intro place v hvisit
  rw [(hsequenced.entered place v hvisit).1, UInt64.toNat_ofNat']

/-- The sum of words that wrapped is the word of the sum. -/
theorem tally_eq (role : Role) : site.tally role = tallyOf role visits := by
  -- A position wraps as the sum does, so the line may be longer than there are words.
  have hsum : UInt64.ofNat (places role visits).sum = .ofNat (positionsOf role visits).sum := by
    apply UInt64.toNat.inj
    rw [UInt64.toNat_ofNat', UInt64.toNat_ofNat', hsequenced.positionsOf_eq_mod,
      ← List.sum_nat_mod]
  rw [hsequenced.tallies, hsum, tallyOf]

theorem exact_iff (role : Role) :
    (site.tally role).Exact role visits ↔
      callsBy role visits < 2 ^ 64 ∧ (positionsOf role visits).sum < 2 ^ 64 := by
  rw [hsequenced.tally_eq]
  exact tallyOf_exact_iff role visits

theorem sum_positionsOf (hfits : visits.length ≤ 2 ^ 64) (role : Role) :
    (positionsOf role visits).sum = (places role visits).sum :=
  congrArg List.sum (hsequenced.positions_eq_places hfits role)

theorem sum_positionsOf_add (hfits : visits.length ≤ 2 ^ 64) :
    (positionsOf .reader visits).sum + (positionsOf .writer visits).sum =
      visits.length * (visits.length - 1) / 2 := by
  rw [hsequenced.sum_positionsOf hfits, hsequenced.sum_positionsOf hfits, sum_places_add]

end Sequenced

/-! ## The calls of a configuration -/

/-- The calls that a role makes if nobody panics. -/
def Config.calls (c : Config) : Role → Nat
  | .reader => (c.threads - c.writers) * c.readerLoops
  | .writer => c.writers * c.writerLoops

def Config.totalCalls (c : Config) : Nat :=
  c.calls .reader + c.calls .writer

/-- A worker that goes on adds a call of its role to the line, and itself to the callers, or
neither. -/
theorem Reaches.callsBy_act (hm : Reaches c chance m) {task : Nat} {t : Task Worker}
    (htask : m.tasks[task]? = some t) {role : Role}
    (hline : callsBy role (lineOf m) =
      (callers m.history.reverse).countP (plays c chance role)) :
    callsBy role (lineOf (m.act (program c chance.draws) task t)) =
      (callers (m.act (program c chance.draws) task t).history.reverse).countP
        (plays c chance role) := by
  have hmoves := hm.moves htask
  generalize m.act (program c chance.draws) task t = next at hmoves ⊢
  cases hmoves with
  | stays htasks hshared hhistory hquiet hrole hpanicked hmade =>
      have hvisits : lineOf next = lineOf m := visit?_ofNotes.stays hhistory hquiet
      have hcallers : callers next.history.reverse = callers m.history.reverse :=
        caller?_ofNotes.stays hhistory hquiet
      rw [hvisits, hcallers]
      exact hline
  | enters hlooks hchannel henters htasks hshared hhistory hquiet =>
      have hvisits : lineOf next = lineOf m ++ [m.shared.visit t.own.role] :=
        (visit?_ofNotes.enters hhistory hquiet).trans
          (congrArg (_ ++ ·) (visits_granted c chance.draws t.own m.shared task))
      have hcallers : callers next.history.reverse = callers m.history.reverse ++ [task] :=
        (caller?_ofNotes.enters hhistory hquiet).trans
          (congrArg (_ ++ ·) (callers_granted c chance.draws t.own m.shared task))
      have hrole : (m.shared.visit t.own.role).role = t.own.role := rfl
      rw [hvisits, hcallers, callsBy_append_singleton, List.countP_append, List.countP_singleton,
        hm.placed.plays_eq htask, hrole, hline]
      by_cases hsame : t.own.role = role <;> simp [hsame]

/-- The calls of a role in the line are those of its workers. -/
theorem Reaches.callsBy_lineOf (hm : Reaches c chance m) (role : Role) :
    callsBy role (lineOf m) = (callers m.history.reverse).countP (plays c chance role) := by
  -- The tallies agree with both numbers, but only modulo the size of a word.
  refine hm.keeps (P := fun m =>
    callsBy role (lineOf m) = (callers m.history.reverse).countP (plays c chance role)) rfl ?_ ?_
  · intro m next hreached hm hstep
    rcases Machine.step_cases hstep with
      ⟨_, choice, _, rfl⟩ | ⟨_, _, _, rfl⟩ | ⟨task, t, _, htask, rfl⟩
    · have hline : lineOf (m.begin choice) = lineOf m := visit?_ofNotes.begins m choice
      have hcallers : callers (m.begin choice).history.reverse = callers m.history.reverse :=
        caller?_ofNotes.begins m choice
      rw [hline, hcallers]
      exact hm
    · exact hm
    · exact hreached.callsBy_act htask hm
  · intro m sleeper hm _ _ _
    exact hm

section

variable (hsound : ∀ (task : Nat) (t : Task Worker), (finish c chance).tasks[task]? = some t →
  t.own.panicked = false)
include hsound

theorem finish_callsBy (role : Role) : callsBy role (lineOf (finish c chance)) = c.calls role := by
  have hreached := reaches_finish c chance
  obtain ⟨hwriters, hreaders⟩ := count_roles c chance.swaps
  rw [hreached.callsBy_lineOf, countP_plays hreached.placed]
  · cases role with
    | reader => rw [hreaders]; rfl
    | writer => rw [hwriters]; rfl
  · intro task t htask
    exact finish_made htask (hsound task t htask)

theorem length_lineOf : (lineOf (finish c chance)).length = c.totalCalls := by
  rw [length_eq_callsBy_add, finish_callsBy hsound, finish_callsBy hsound, Config.totalCalls]

/-- If there are no other calls, the positions of the readers are all positions. -/
theorem sum_positionsOf_readers (hfits : c.calls .reader ≤ 2 ^ 64) (halone : c.calls .writer = 0) :
    (positionsOf .reader (lineOf (finish c chance))).sum =
      c.calls .reader * (c.calls .reader - 1) / 2 := by
  have hlength := length_lineOf hsound
  rw [Config.totalCalls, halone, Nat.add_zero] at hlength
  have hnone : positionsOf .writer (lineOf (finish c chance)) = [] := by
    rw [← List.length_eq_zero_iff, length_positionsOf, finish_callsBy hsound, halone]
  have hsums := (reaches_finish c chance).sequenced.sum_positionsOf_add (hlength ▸ hfits)
  rw [hnone, List.sum_nil, Nat.add_zero, hlength] at hsums
  exact hsums

end

/-! ## The limit -/

/-- The most calls whose places have a sum that fits into a word. -/
def callLimit : Nat := 6074001000

theorem triangle_lt_iff (n : Nat) : n * (n - 1) / 2 < 2 ^ 64 ↔ n ≤ callLimit := by
  have hmono : ∀ {k n : Nat}, k ≤ n → k * (k - 1) / 2 ≤ n * (n - 1) / 2 := by
    intro k n hle
    exact Nat.div_le_div_right (Nat.mul_le_mul hle (Nat.sub_le_sub_right hle 1))
  constructor
  · intro hfits
    by_contra hmore
    have hleast := hmono (Nat.succ_le_of_lt (Nat.lt_of_not_le hmore))
    norm_num [callLimit] at hleast
    omega
  · intro hle
    have hmost := hmono hle
    norm_num [callLimit] at hmost
    omega

namespace Sequenced

variable {visits : List Visit} {site : Site} (hsequenced : Sequenced visits site)
include hsequenced

/-- Up to the limit the sum of either role fits, since the sum of both does. -/
theorem exact_of_le (hfew : visits.length ≤ callLimit) (role : Role) :
    (site.tally role).Exact role visits := by
  have hfits : visits.length ≤ 2 ^ 64 := hfew.trans (by decide)
  have htotal := (triangle_lt_iff visits.length).mpr hfew
  have hcalls := callsBy_le_length role visits
  rw [← sum_places_add] at htotal
  rw [hsequenced.exact_iff, hsequenced.sum_positionsOf hfits]
  constructor
  · exact (hcalls.trans hfew).trans_lt (by decide)
  · cases role <;> omega

/-- Beyond the limit not even the sum of the first places fits. -/
theorem not_exact_of_lt (hfits : visits.length ≤ 2 ^ 64) {role : Role}
    (hmany : callLimit < callsBy role visits) : ¬ (site.tally role).Exact role visits := by
  have hleast := le_sum_places role visits
  have hwraps := mt (triangle_lt_iff _).mp (Nat.not_le_of_lt hmany)
  rw [hsequenced.exact_iff, hsequenced.sum_positionsOf hfits]
  omega

end Sequenced

/-! ## The end of a run -/

theorem visits_run_events (hvalid : c.Valid) (chance : Chance) :
    visits (run c chance).events = lineOf (finish c chance) := by
  rw [run_of_valid hvalid, lineOf]

theorem finish_sound_of_run (hvalid : c.Valid)
    (hsound : ∀ w ∈ (run c chance).workers, w.panicked = false) {task : Nat} {t : Task Worker}
    (htask : (finish c chance).tasks[task]? = some t) : t.own.panicked = false := by
  rw [run_workers hvalid] at hsound
  exact hsound t.own (List.mem_map_of_mem (List.mem_of_getElem? htask))

/-- If no draw fails, nobody panics. -/
theorem run_sound (hvalid : c.Valid) (hdraws : ∀ moment, chance.draws moment ≠ none) :
    ∀ w ∈ (run c chance).workers, w.panicked = false := by
  intro w hw
  obtain ⟨index, hindex⟩ := List.mem_iff_getElem?.mp hw
  obtain ⟨t, htask, rfl⟩ := exists_task hvalid hindex
  exact finish_sound htask (fun moment _ => hdraws moment)

theorem means_of_result {report : Report} (hresult : result c m = .ok report) :
    report.readerMean = m.shared.readers.mean ∧ report.writerMean = m.shared.writers.mean := by
  unfold result at hresult
  split at hresult
  · contradiction
  · simp only at hresult
    split at hresult
    · cases hresult
      exact ⟨rfl, rfl⟩
    · contradiction

/-- What the tallies of a run without panics are worth. -/
structure Measured (c : Config) (chance : Chance) : Prop where
  throughout : ∀ m, Reaches c chance m → ∀ role, m.shared.tally role = tallyOf role (lineOf m)
  made : ∀ role, callsBy role (visits (run c chance).events) = c.calls role
  means : ∃ report, (run c chance).result = .ok report ∧
    report.readerMean = (tallyOf .reader (visits (run c chance).events)).mean ∧
    report.writerMean = (tallyOf .writer (visits (run c chance).events)).mean
  exact_iff : ∀ role,
    ((finish c chance).shared.tally role).Exact role (visits (run c chance).events) ↔
      c.calls role < 2 ^ 64 ∧ (positionsOf role (visits (run c chance).events)).sum < 2 ^ 64
  /-- What one role gains the other one loses. -/
  sums : c.totalCalls ≤ 2 ^ 64 →
    (positionsOf .reader (visits (run c chance).events)).sum +
      (positionsOf .writer (visits (run c chance).events)).sum =
        c.totalCalls * (c.totalCalls - 1) / 2
  /-- Up to the limit both tallies are exact. -/
  exact_of_le : c.totalCalls ≤ callLimit → ∀ role,
    ((finish c chance).shared.tally role).Exact role (visits (run c chance).events)
  /-- The tally of a role with more calls is not, as long as the positions are the places. -/
  not_exact_of_lt : c.totalCalls ≤ 2 ^ 64 → ∀ role, callLimit < c.calls role →
    ¬ ((finish c chance).shared.tally role).Exact role (visits (run c chance).events)

/-- Whatever the schedule is, the report divides the words of the true sums and numbers, and the
tallies are these themselves exactly if they fit. -/
theorem tallies_measured (hvalid : c.Valid)
    (hsound : ∀ w ∈ (run c chance).workers, w.panicked = false) : Measured c chance := by
  have hline := visits_run_events hvalid chance
  have hsequenced := (reaches_finish c chance).sequenced
  have htasks : ∀ (task : Nat) (t : Task Worker), (finish c chance).tasks[task]? = some t →
      t.own.panicked = false := fun _ _ htask => finish_sound_of_run hvalid hsound htask
  have hmade := finish_callsBy htasks
  have hlength := length_lineOf htasks
  constructor
  case throughout => exact fun m hm => hm.sequenced.tally_eq
  case made => exact hline ▸ hmade
  case means =>
    cases hresult : result c (finish c chance) with
    | ok report =>
        obtain ⟨hreaders, hwriters⟩ := means_of_result hresult
        rw [hline, ← hsequenced.tally_eq, ← hsequenced.tally_eq]
        exact ⟨report, (run_result hvalid).trans hresult, hreaders, hwriters⟩
    | error fault =>
        obtain ⟨w, hw⟩ := result_error_iff.mp ⟨fault, hresult⟩
        obtain ⟨task, t, htask, rfl, hpanicked⟩ := mem_panicked.mp hw
        rw [htasks task t htask] at hpanicked
        contradiction
  case exact_iff =>
    intro role
    rw [hline, hsequenced.exact_iff, hmade]
  case sums =>
    rw [hline, ← hlength]
    exact hsequenced.sum_positionsOf_add
  case exact_of_le =>
    rw [hline]
    exact fun hfew => hsequenced.exact_of_le (hlength ▸ hfew)
  case not_exact_of_lt =>
    rw [hline]
    intro hfits role hmany
    exact hsequenced.not_exact_of_lt (hlength ▸ hfits) (hmade role ▸ hmany)

theorem tallies_measured_twoThreads :
    twoThreads.Valid ∧ (∀ w ∈ (run twoThreads {}).workers, w.panicked = false) ∧
      ((finish twoThreads {}).shared.tally .reader).Exact .reader
        (visits (run twoThreads {}).events) := by
  have hvalid : twoThreads.Valid := by decide
  have hsound : ∀ w ∈ (run twoThreads {}).workers, w.panicked = false := by decide
  exact ⟨hvalid, hsound, (tallies_measured hvalid hsound).exact_of_le (by decide) .reader⟩

/-- Two readers whose calls together are just beyond the limit. -/
def manyCalls : Config where
  policy := .readerPreference
  threads := 2
  writers := 0
  readerLoops := 3037000501
  minSleepMs := 0
  maxSleepMs := 1

theorem tallies_not_always_exact :
    manyCalls.Valid ∧ manyCalls.readerLoops < 2 ^ 32 ∧ manyCalls.writerLoops < 2 ^ 32 ∧
      (∀ w ∈ (run manyCalls {}).workers, w.panicked = false) ∧
      (positionsOf .reader (visits (run manyCalls {}).events)).sum = 18446744083111501501 ∧
      ((finish manyCalls {}).shared.tally .reader).positionSum = 9401949885 ∧
      ¬ ((finish manyCalls {}).shared.tally .reader).Exact .reader
        (visits (run manyCalls {}).events) := by
  have hvalid : manyCalls.Valid := by decide
  have hsound : ∀ w ∈ (run manyCalls {}).workers, w.panicked = false :=
    run_sound hvalid (fun _ => Option.some_ne_none 0)
  have hsum : (positionsOf .reader (visits (run manyCalls {}).events)).sum =
      18446744083111501501 := by
    rw [visits_run_events hvalid, sum_positionsOf_readers
      (fun _ _ htask => finish_sound_of_run hvalid hsound htask) (by decide) (by decide)]
    rfl
  have hword : ((finish manyCalls {}).shared.tally .reader).positionSum = 9401949885 := by
    rw [(reaches_finish manyCalls {}).sequenced.tally_eq, ← visits_run_events hvalid, tallyOf, hsum]
    rfl
  refine ⟨hvalid, by decide, by decide, hsound, hsum, hword, ?_⟩
  intro hexact
  have hwrong := hexact.positionSum
  rw [hword, hsum] at hwrong
  exact absurd hwrong (by decide)

end ReaderWriter.Workload
