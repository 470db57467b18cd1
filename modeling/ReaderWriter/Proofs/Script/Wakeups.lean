import ReaderWriter.Proofs.Script.Writers

/-!
# Wake-ups do not tell on writers

Two scripts that are alike but for their picks, their preemptions and steps in between that only wake
tasks come to rest with the same core after each of their common steps, if they have one course to
take.  The queues hold the same tasks then, since they hold whoever waits, so the next order is carried
out for both or ignored for both.  All that tells the answers apart is the turns in vain.
-/

namespace ReaderWriter.Script

/-- What a plan has in one place: a step of the script, or a wake-up put in between. -/
inductive Entry where
  | own (step : Step)
  | inserted (names : List String)
  deriving DecidableEq, Repr

namespace Entry

def step : Entry → Step
  | own step => step
  | inserted names => [.wake names]

def own? : Entry → Option Step
  | own step => some step
  | inserted _ => none

end Entry

/-- The steps of the script that a plan is for. -/
def ownSteps (plan : List Entry) : List Step :=
  plan.filterMap Entry.own?

/-- The answers to these steps. -/
def ownAnswers (plan : List Entry) (answers : List Answer) : List Answer :=
  (plan.zip answers).filterMap fun x => x.1.own?.map fun _ => x.2

variable {s other : Script} {m : State} {task : Nat} {steps before given : List Step} {step : Step}

/-- The same tasks stand in the same way, and the same are parked on each channel. -/
structure Abreast (m second : State) : Prop where
  core : m.SameCore second
  parked : ∀ channel, (m.waiters.on channel).Perm (second.waiters.on channel)

theorem mem_parked_iff (s : Script) (steps : List Step) {channel : Channel} :
    task ∈ (s.after steps).waiters.on channel ↔
      ∃ t wait, (s.after steps).tasks[task]? = some t ∧ t.point = .waiting wait ∧
        wait.channel = channel := by
  have hparked := (s.reaches_after steps).parked
  constructor
  · intro hmem
    rcases hparked channel task hmem with ⟨wait, hat, hchannel, _⟩
    have hpoint : ∃ t, (s.after steps).tasks[task]? = some t ∧ t.point = .waiting wait := by
      simpa [Scene.At, Machine.scene] using hat
    rcases hpoint with ⟨t, htask, hpoint⟩
    exact ⟨t, wait, htask, hpoint, hchannel⟩
  · rintro ⟨t, wait, htask, hpoint, rfl⟩
    have hat := Machine.scene_at htask
    rw [hpoint] at hat
    rcases Waiters.contains_iff.mp (s.after_parked steps hat).1 with ⟨channel, hmem⟩
    rcases hparked channel task hmem with ⟨parked, hparkedAt, hchannel, _⟩
    obtain rfl : parked = wait := by simpa using hparkedAt.symm.trans hat
    exact hchannel ▸ hmem

/-- Nobody is parked twice. -/
theorem Unbatched.nodup_parked (hsingle : Unbatched steps) (channel : Channel) :
    ((s.after steps).waiters.on channel).Nodup := by
  refine List.nodup_iff_count_le_one.mpr ?_
  intro task
  have hbooked := (s.reaches_after steps).attended.booked task
  have howed : (s.after steps).owedTo Hand.owed task ≤ 1 := by
    cases htask : (s.after steps).tasks[task]? with
    | none => simp [Machine.owedTo, htask]
    | some t =>
        rw [Machine.owedTo_eq Hand.owed htask]
        have hnone := hsingle.unhanded htask
        cases hpoint : t.point <;> simp [Hand.owed, hnone]
  have hlisted : ((s.after steps).waiters.on channel).count task ≤
      (s.after steps).turnList.count task := by
    cases channel <;> simp [Machine.turnList, List.count_append] <;> omega
  simp only [List.count_nil] at hbooked
  omega

/-- At rest the queues hold whoever waits. -/
theorem abreast_of_core (hcore : (s.after before).SameCore (other.after given))
    (hsingle : Unbatched before) (hothers : Unbatched given) :
    Abreast (s.after before) (other.after given) := by
  refine ⟨hcore, ?_⟩
  intro channel
  refine (List.perm_ext_iff_of_nodup (hsingle.nodup_parked channel)
    (hothers.nodup_parked channel)).mpr ?_
  intro task
  rw [mem_parked_iff, mem_parked_iff, hcore.tasks]

namespace Abreast

variable {second : State}

theorem contains (hm : Abreast m second) (index : Nat) :
    m.waiters.contains index = second.waiters.contains index := by
  rw [Bool.eq_iff_iff, Waiters.contains_iff, Waiters.contains_iff]
  exact exists_congr fun channel => (hm.parked channel).mem_iff

theorem hand (hm : Abreast m second) (hnames : s.names = other.names)
    (hstyle : s.style = other.style) (name : String) (command? : Option Command) :
    BothOutcomes Abreast (s.hand m name command?) (other.hand second name command?) := by
  cases hindex : other.names.idxOf? name with
  | none => exact hand_both_of_unknown (hnames ▸ hindex) hindex command?
  | some index =>
      refine hand_both hstyle (hnames ▸ hindex) hindex (by rw [hm.core.tasks]) (hm.contains index)
        ?_ command?
      intro t
      refine ⟨⟨hm.core.lock, hm.core.shared, ?_, hm.core.history⟩, hm.parked⟩
      exact congrArg (fun tasks => tasks.set index t) hm.core.tasks

theorem wake (hm : Abreast m second) (hnames : s.names = other.names) (name : String) :
    BothOutcomes Abreast (s.wake m name) (other.wake second name) := by
  cases hindex : other.names.idxOf? name with
  | none => exact wake_both_of_unknown (hnames ▸ hindex) hindex
  | some index =>
      refine wake_both (hnames ▸ hindex) hindex (hm.contains index) ⟨?_, ?_⟩
      · exact ⟨hm.core.lock, hm.core.shared, hm.core.tasks, hm.core.history⟩
      · intro channel
        simp only [Machine.wake, Waiters.on_remove]
        exact (hm.parked channel).erase index

theorem giveOut (hm : Abreast m second) (hnames : s.names = other.names)
    (hstyle : s.style = other.style) (step : Step) :
    BothGiven Abreast (s.giveOut m step) (other.giveOut second step) := by
  refine giveOut_both ?_ ?_ hm
  · intro m second name hm
    exact hm.wake hnames name
  · intro m second name command? _ hm
    exact hm.hand hnames hstyle name command?

theorem view (hm : Abreast m second) : Script.view m = Script.view second := by
  simp only [Script.view, hm.core.tasks, hm.contains]

end Abreast

/-- The answer without the turns. -/
def Answer.untimed (a : Answer) : Answer :=
  { a with events := a.events.filter Event.happens }

/-- Turns have no text, so the answer reads the same without them. -/
theorem Answer.untimed_text (a : Answer) (name : Nat → String) :
    a.untimed.events.filterMap (eventText? name) = a.events.filterMap (eventText? name) := by
  rw [untimed, List.filterMap_filter]
  refine List.filterMap_congr ?_
  intro event _
  cases event <;> rfl

/-- Since they were at rest with the same core, both machines have recorded the same but turns. -/
theorem untimed_events {m second : State} (hbefore : m.SameCore second) (step next : Step)
    (hafter : (s.respond m step).2.SameCore (other.respond second next).2) :
    (s.respond m step).1.events.filter Event.happens =
      (other.respond second next).1.events.filter Event.happens := by
  have hhistory := hafter.history
  rw [s.respond_history, other.respond_history, List.filter_append, List.filter_append,
    hbefore.history] at hhistory
  have hevents := List.append_cancel_right hhistory
  rwa [List.filter_reverse, List.filter_reverse, List.reverse_inj] at hevents

/-- Whatever the schedules, a step is answered alike and leads to the same core. -/
theorem respond_untimed (hfirst : Writers s (before ++ [step]))
    (hsecond : Writers other (given ++ [step])) (hnames : s.names = other.names)
    (hstyle : s.style = other.style) (hcore : (s.after before).SameCore (other.after given)) :
    (s.respond (s.after before) step).1.untimed =
        (other.respond (other.after given) step).1.untimed ∧
      (s.after (before ++ [step])).SameCore (other.after (given ++ [step])) := by
  have hgiven := (abreast_of_core hcore hfirst.init.single hsecond.init.single).giveOut
    hnames hstyle step
  have hpath := hfirst.path
  rw [Machine.SameCore.iff_core_eq.mp hgiven.1.core] at hpath
  have hlater := Machine.SameCore.iff_core_eq.mpr
    (Machine.core_eq_of_idle hpath hsecond.path hfirst.idle hsecond.idle)
  have hends := abreast_of_core hlater hfirst.single hsecond.single
  refine ⟨?_, hlater⟩
  rw [after_append_singleton] at hlater hends
  rw [after_append_singleton] at hlater hends
  have hevents := untimed_events hcore step step hlater
  have hsnapshot := congrArg Lock.toSnapshot hlater.lock
  have hviews := hends.view
  have hignored := hgiven.2
  simp only [Answer.untimed, hevents]
  simp only [respond, hsnapshot, hviews, hignored]

/-- A step that only wakes tasks leaves the core as it is. -/
theorem after_wake_core (names : List String) (hsteps : Writers s (steps ++ [[.wake names]])) :
    (s.after (steps ++ [[.wake names]])).SameCore (s.after steps) := by
  have hordered : (s.giveOut (s.after steps) [.wake names]).1.SameCore (s.after steps) := by
    refine carryOut_wake_keeps (P := fun m => m.SameCore (s.after steps)) ?_ names (.refl _)
    intro m next name hcore hwake
    rcases wake_cases hwake with ⟨index, _, rfl⟩
    exact ⟨hcore.lock, hcore.shared, hcore.tasks, hcore.history⟩
  have hpath := hsteps.path
  rw [Machine.SameCore.iff_core_eq.mp hordered] at hpath
  exact Machine.SameCore.iff_core_eq.mpr
    (Machine.core_eq_of_idle hpath .refl hsteps.idle hsteps.init.idle)

/-! ## Wake-ups in between -/

theorem respondAll_planned {plan : List Entry} (hfirst : Writers s (before ++ ownSteps plan))
    (hsecond : Writers other (given ++ plan.map Entry.step)) (hnames : s.names = other.names)
    (hstyle : s.style = other.style) (hcore : (s.after before).SameCore (other.after given)) :
    (ownAnswers plan (other.respondAll (other.after given) (plan.map Entry.step)).1).map
        Answer.untimed =
        (s.respondAll (s.after before) (ownSteps plan)).1.map Answer.untimed ∧
      (other.after (given ++ plan.map Entry.step)).shared =
        (s.after (before ++ ownSteps plan)).shared := by
  induction plan generalizing before given with
  | nil => exact ⟨rfl, by simpa [ownSteps] using hcore.shared.symm⟩
  | cons entry plan ih =>
      have hothers : given ++ (entry :: plan).map Entry.step =
          given ++ [entry.step] ++ plan.map Entry.step := by simp
      have hlater := other.respond_after given entry.step
      rw [hothers] at hsecond ⊢
      cases entry with
      | own step =>
          have hown : ownSteps (.own step :: plan) = step :: ownSteps plan := rfl
          have hsplit : before ++ step :: ownSteps plan = before ++ [step] ++ ownSteps plan := by
            simp
          rw [hown, hsplit] at hfirst
          rcases respond_untimed hfirst.init hsecond.init hnames hstyle hcore with
            ⟨hanswer, hnext⟩
          have hrest := ih hfirst hsecond hnext
          have hcourse := s.respond_after before step
          rw [hown, hsplit, List.map_cons, respondAll_cons, respondAll_cons, hlater, hcourse]
          refine ⟨?_, hrest.2⟩
          rw [List.map_cons, ← hrest.1, hanswer]
          rfl
      | inserted names =>
          have hsame := (after_wake_core names hsecond.init).symm
          have hrest := ih hfirst hsecond (hcore.trans hsame)
          rw [List.map_cons, respondAll_cons, hlater]
          exact hrest

/-- Nobody notices the step: nothing happens in it, and it shows what was shown before. -/
structure Unnoticed (s : Script) (index : Nat) (answer : Answer) : Prop where
  silent : answer.events.filterMap (eventText? s.nameOf) = []
  first : index = 0 → answer.snapshot = s.start.lock.toSnapshot ∧ answer.tasks = view s.start
  later : ∀ earlier, index = earlier + 1 → ∃ shown, s.run.answers[earlier]? = some shown ∧
    answer.snapshot = shown.snapshot ∧ answer.tasks = shown.tasks

theorem unnoticed_wake {index : Nat} {names : List String}
    (hindex : s.steps[index]? = some [.wake names]) :
    ∃ answer, s.run.answers[index]? = some answer ∧ s.Unnoticed index answer := by
  have hundisturbed := s.respond_wake_undisturbed (s.steps.take index) names
  refine ⟨_, ?_, hundisturbed.silent s.nameOf, ?_, ?_⟩
  · rw [run_answers_getElem?, hindex]
    rfl
  · rintro rfl
    exact ⟨hundisturbed.snapshot, hundisturbed.views⟩
  · rintro earlier rfl
    have hlt : earlier < s.steps.length := by
      have hbound := (List.getElem?_eq_some_iff.mp hindex).1
      omega
    have hbefore := List.getElem?_eq_getElem hlt
    refine ⟨(s.respond (s.after (s.steps.take earlier)) s.steps[earlier]).1, ?_, ?_⟩
    · rw [run_answers_getElem?, hbefore]
      rfl
    · have hshown : s.after (s.steps.take (earlier + 1)) =
          (s.respond (s.after (s.steps.take earlier)) s.steps[earlier]).2 := by
        rw [List.take_add_one, hbefore]
        exact s.after_append_singleton _ _
      rw [hundisturbed.snapshot, hundisturbed.views, hshown]
      exact ⟨rfl, rfl⟩

/-- Under tickets, a script without batches that only asks for exclusive access is answered in the
same way whatever the picks, with and without preemption, and with any wake-ups put in between, which
nobody notices. -/
theorem writers_do_not_see_wakeups (hfair : s.policy = .fairTicket) (hsingle : Unbatched s.steps)
    (hwriting : Writing s.steps) {plan : List Entry} (hplan : ownSteps plan = s.steps)
    (picks : List Nat) (preempt : Bool) :
    let other := { s with steps := plan.map Entry.step, picks, preempt }
    (ownAnswers plan other.run.answers).map Answer.untimed = s.run.answers.map Answer.untimed ∧
      other.run.data = s.run.data ∧
      ∀ index names, plan[index]? = some (.inserted names) →
        ∃ answer, other.run.answers[index]? = some answer ∧ other.Unnoticed index answer := by
  intro other
  have hfirst : Writers s ([] ++ ownSteps plan) := by
    rw [List.nil_append, hplan]
    exact ⟨hfair, hsingle, hwriting⟩
  have hsecond : Writers other ([] ++ plan.map Entry.step) := by
    rw [List.nil_append]
    have hentries : ∀ step ∈ plan.map Entry.step,
        step ∈ s.steps ∨ ∃ names, step = [.wake names] := by
      intro step hstep
      rcases List.mem_map.mp hstep with ⟨entry, hentry, rfl⟩
      cases entry with
      | own step =>
          left
          rw [← hplan]
          exact List.mem_filterMap.mpr ⟨_, hentry, rfl⟩
      | inserted names => exact .inr ⟨names, rfl⟩
    refine ⟨hfair, ?_, ?_⟩
    · intro step hstep
      rcases hentries step hstep with hown | ⟨names, rfl⟩
      · exact hsingle step hown
      · exact Nat.le_refl 1
    · intro step hstep order horder
      rcases hentries step hstep with hown | ⟨names, rfl⟩
      · exact hwriting step hown order horder
      · obtain rfl : order = .wake names := List.mem_singleton.mp horder
        rfl
  have hcore : (s.after []).SameCore (other.after []) := ⟨rfl, rfl, rfl, rfl⟩
  have hnames : s.names = other.names := rfl
  have hstyle : s.style = other.style := rfl
  have hrun := respondAll_planned hfirst hsecond hnames hstyle hcore
  rw [List.nil_append, List.nil_append, hplan] at hrun
  refine ⟨hrun.1, hrun.2, ?_⟩
  intro index names hindex
  have hstep : other.steps[index]? = some [.wake names] := by
    change (plan.map Entry.step)[index]? = _
    rw [List.getElem?_map, hindex]
    rfl
  exact unnoticed_wake hstep

/-- Two writers wait behind one that panics. -/
def threeWriters : Script where
  policy := .fairTicket
  style := .guard
  names := ["a", "b", "c"]
  steps := [
    [.hand "a" (some (.enter .exclusive))],
    [.hand "b" (some (.enter .exclusive))],
    [.hand "c" (some (.enter .exclusive))],
    [.hand "a" (some (.panic "boom"))],
    [.hand "b" (some (.leave 1))]]

/-- The second writer is woken, so it is parked behind the third one. -/
def threeWritersPlan : List Entry :=
  (threeWriters.steps.take 3).map .own ++
    (.inserted ["b"] :: (threeWriters.steps.drop 3).map .own)

theorem writers_do_not_see_wakeups_threeWriters :
    let stirred := { threeWriters with
      steps := threeWritersPlan.map Entry.step, picks := [1, 0], preempt := true }
    (threeWriters.after (threeWriters.steps.take 3)).waiters.on .released = [1, 2] ∧
      (stirred.after (stirred.steps.take 4)).waiters.on .released = [2, 1] ∧
      (ownAnswers threeWritersPlan stirred.run.answers).map Answer.untimed =
        threeWriters.run.answers.map Answer.untimed ∧
      ∃ answer, stirred.run.answers[3]? = some answer ∧ stirred.Unnoticed 3 answer := by
  have hsingle : Unbatched threeWriters.steps := by decide
  have hwriting : Writing threeWriters.steps := by decide
  have hplan : ownSteps threeWritersPlan = threeWriters.steps := rfl
  have hlaw := writers_do_not_see_wakeups (s := threeWriters) rfl hsingle hwriting hplan [1, 0] true
  exact ⟨by decide +kernel, by decide +kernel, hlaw.1, hlaw.2.2 3 ["b"] rfl⟩

end ReaderWriter.Script
