import ReaderWriter.Proofs.Reading
import ReaderWriter.Proofs.Script.Turns

/-!
# A script under both policies

Only the lock of its start knows the policy of a script.  If no task of a script ever waits, the
states on its way under the policy without tickets are the plain views of the states on its way, so
the answers are the same except for the tickets and what the lock reports about them.

A script that never asks to write never makes a task wait and never takes a ticket, so both policies
give it the same answers.
-/

namespace ReaderWriter.Script

def under (s : Script) (policy : Policy) : Script :=
  { s with policy }

/-- No task waits as long as the steps of the script are carried out. -/
def NeverWaits (s : Script) : Prop :=
  ∀ before step, before ++ [step] <+: s.steps → ∀ moves, (s.midway before step moves).waiters = {}

/-- The answer without the tickets. -/
def Answer.plain (a : Answer) : Answer :=
  { a with events := untraced a.events, snapshot := a.snapshot.plain }

def Outcome.plain (o : Outcome) : Outcome :=
  { o with answers := o.answers.map Answer.plain }

variable {s : Script} {m : State} {step : Step}

/-! ## Orders -/

theorem overlooks_plain : Overlooks Machine.plain := fun _ _ _ _ => rfl

theorem eventsSince_plain {earlier later : State} {events : List (Event Note)}
    (hevents : later.history = events ++ earlier.history) :
    eventsSince earlier.plain later.plain = untraced (eventsSince earlier later) := by
  have hplain : later.plain.history = untraced events ++ earlier.plain.history := by
    simp [Machine.plain, hevents]
  rw [eventsSince_of_append hevents, eventsSince_of_append hplain, untraced_reverse]

theorem respond_plain (hm : (s.giveOut m step).1.Flows program) :
    s.respond m.plain step = (s.respond m step).map Answer.plain Machine.plain := by
  have hevents := eventsSince_plain (s.respond_history m step)
  simp only [respond, overlooks_plain.giveOut, Prod.map_fst, Prod.map_snd,
    hm.plain_settleDown] at hevents ⊢
  rw [hevents]
  rfl

/-! ## The course -/

theorem begins_of_append {before steps : List Step} {step : Step}
    (hbegins : before ++ [step] <+: steps) : before <+: steps :=
  (List.prefix_append before [step]).trans hbegins

theorem take_append_of_getElem? {steps : List Step} {index : Nat} {step : Step}
    (hstep : steps[index]? = some step) : steps.take index ++ [step] <+: steps := by
  have htake : steps.take (index + 1) = steps.take index ++ [step] := by
    rw [List.take_add_one, hstep]
    rfl
  rw [← htake]
  exact List.take_prefix _ _

theorem start_unhindered (s : Script) : s.start.Unhindered := by
  refine ⟨rfl, ?_⟩
  intro t ht wait
  obtain ⟨name, _, rfl⟩ := List.mem_map.mp ht
  simp

/-- Where nobody waits there is nobody to wake. -/
theorem wake_ne_ok (s : Script) (hnobody : m.waiters = {}) (name : String) (next : State) :
    s.wake m name ≠ .ok next := by
  intro hwake
  obtain ⟨index, hparked, _⟩ := wake_cases hwake
  rw [hnobody] at hparked
  simp [Waiters.contains] at hparked

theorem giveOut_unhindered (s : Script) (hm : m.Unhindered) (step : Step) :
    (s.giveOut m step).1.Unhindered := by
  refine giveOut_keeps (P := Machine.Unhindered) ?_ ?_ hm step
  · intro before next name command? hbefore hhand
    obtain ⟨index, t, command, _, _, htask, _, _, _, rfl⟩ := hand_eq_ok_iff.mp hhand
    have hpoint := hbefore.points t (List.mem_of_getElem? htask)
    exact ⟨hbefore.nobody, Machine.Sound.set (P := fun point _ => ∀ wait, point ≠ .waiting wait)
      hbefore.points index hpoint⟩
  · intro before next name hbefore hwake
    exact absurd hwake (s.wake_ne_ok hbefore.nobody name next)

theorem NeverWaits.after (hfree : s.NeverWaits) {before : List Step}
    (hbegins : before <+: s.steps) : (s.after before).Unhindered := by
  induction before using List.reverseRecOn with
  | nil => exact s.start_unhindered
  | append_singleton before step ih =>
      have hbefore := ih (begins_of_append hbegins)
      have hflows : (s.giveOut (s.after before) step).1.Flows program :=
        ⟨s.giveOut_unhindered hbefore step, hfree before step hbegins⟩
      rw [after_append_singleton]
      exact (hflows.later _).unhindered

theorem NeverWaits.flows (hfree : s.NeverWaits) {before : List Step} {step : Step}
    (hbegins : before ++ [step] <+: s.steps) :
    (s.giveOut (s.after before) step).1.Flows program := by
  have hbefore := hfree.after (begins_of_append hbegins)
  exact ⟨s.giveOut_unhindered hbefore step, hfree before step hbegins⟩

theorem midway_of_work_le (s : Script) (before : List Step) (step : Step) {moves : Nat}
    (hmoves : (s.giveOut (s.after before) step).1.work program ≤ moves) :
    s.midway before step moves = s.after (before ++ [step]) := by
  have hrest := s.step_after_eq_none (before ++ [step])
  obtain ⟨more, rfl⟩ := Nat.exists_eq_add_of_le hmoves
  rw [after_append_singleton] at hrest ⊢
  rw [midway, iterate_add]
  exact iterate_of_eq_none hrest more

/-- Each step comes to rest within its work. -/
theorem neverWaits_iff (s : Script) : s.NeverWaits ↔
    ∀ index (hindex : index < s.steps.length),
      ∀ moves < (s.giveOut (s.after (s.steps.take index)) s.steps[index]).1.work program + 1,
        (s.midway (s.steps.take index) s.steps[index] moves).waiters = {} := by
  constructor
  · intro hfree index hindex moves _
    exact hfree _ _ (take_append_of_getElem? (List.getElem?_eq_getElem hindex)) moves
  · intro hbounded before step hbegins moves
    obtain ⟨behind, hsteps⟩ := hbegins
    have htake : s.steps.take before.length = before := by simp [← hsteps]
    have hindex : before.length < s.steps.length := by simp [← hsteps]
    have hstep : s.steps[before.length] = step := by simp [← hsteps]
    have hearly := hbounded before.length hindex
    rw [htake, hstep] at hearly
    rcases Nat.lt_or_ge moves ((s.giveOut (s.after before) step).1.work program + 1) with hlt | hge
    · exact hearly moves hlt
    · have hlast := hearly _ (Nat.lt_succ_self _)
      rw [s.midway_of_work_le before step le_rfl] at hlast
      rw [s.midway_of_work_le before step (by omega)]
      exact hlast

instance (s : Script) : Decidable s.NeverWaits :=
  decidable_of_iff' _ s.neverWaits_iff

theorem NeverWaits.after_plain (hfree : s.NeverWaits) {before : List Step}
    (hbegins : before <+: s.steps) :
    (s.under .readerPreference).after before = (s.after before).plain := by
  induction before using List.reverseRecOn with
  | nil => rfl
  | append_singleton before step ih =>
      have hbefore := ih (begins_of_append hbegins)
      rw [after_append_singleton, after_append_singleton, hbefore]
      change ((s.giveOut (s.after before).plain step).1.settleDown program) = _
      rw [overlooks_plain.giveOut]
      exact (hfree.flows hbegins).plain_settleDown

theorem NeverWaits.midway_plain (hfree : s.NeverWaits) {before : List Step} {step : Step}
    (hbegins : before ++ [step] <+: s.steps) (moves : Nat) :
    (s.under .readerPreference).midway before step moves =
      (s.midway before step moves).plain := by
  have hbefore := hfree.after_plain (begins_of_append hbegins)
  unfold midway
  rw [hbefore]
  change iterate _ moves (s.giveOut (s.after before).plain step).1 = _
  rw [overlooks_plain.giveOut]
  exact (hfree.flows hbegins).plain_iterate moves

/-! ## The answers -/

/-- Runs compare answer by answer. -/
theorem run_answers_eq_map {other : Script} {f : Answer → Answer} (hsteps : other.steps = s.steps)
    (hanswer : ∀ before step, before ++ [step] <+: s.steps →
      (other.respond (other.after before) step).1 = f (s.respond (s.after before) step).1) :
    other.run.answers = s.run.answers.map f := by
  apply List.ext_getElem?
  intro index
  rw [List.getElem?_map, run_answers_getElem?, run_answers_getElem?, hsteps]
  cases hstep : s.steps[index]? with
  | none => rfl
  | some step => exact congrArg some (hanswer _ step (take_append_of_getElem? hstep))

theorem NeverWaits.run_plain (hfree : s.NeverWaits) :
    (s.under .readerPreference).run = s.run.plain := by
  have hlast : ((s.under .readerPreference).after s.steps).shared = (s.after s.steps).shared := by
    rw [hfree.after_plain (List.prefix_refl _)]
    rfl
  have hanswers : (s.under .readerPreference).run.answers = s.run.answers.map Answer.plain := by
    refine run_answers_eq_map rfl ?_
    intro before step hbegins
    rw [hfree.after_plain (begins_of_append hbegins)]
    exact congrArg Prod.fst (respond_plain (hfree.flows hbegins))
  calc
    (s.under .readerPreference).run =
        ⟨(s.under .readerPreference).run.answers,
          ((s.under .readerPreference).after s.steps).shared⟩ := rfl
    _ = s.run.plain := by
        rw [hanswers, hlast]
        rfl

theorem Reaches.queuedReaders_eq_zero (hm : s.Reaches m) (hfree : m.Unhindered) :
    m.lock.queuedReaders = 0 := by
  have hqueued := (hm.run.counted (Scene.start_counted _ _)).queued
  have hnone : m.scene.points.countP Point.queued = 0 := by
    rw [List.countP_eq_zero]
    intro point hpoint hqueued
    obtain ⟨t, ht, rfl⟩ := List.mem_map.mp hpoint
    cases hstands : t.point with
    | waiting wait => exact hfree.points t ht wait hstands
    | _ => simp [hstands, Point.queued] at hqueued
  exact hqueued.trans hnone

/-- The answers show that nobody waits. -/
theorem NeverWaits.of_mem_answers (hfree : s.NeverWaits) {answer : Answer}
    (hanswer : answer ∈ s.run.answers) :
    answer.snapshot.queuedReaders = 0 ∧ ∀ view ∈ answer.tasks, view.waits = false := by
  obtain ⟨index, hindex⟩ := List.mem_iff_getElem?.mp hanswer
  rw [run_answers_getElem?] at hindex
  obtain ⟨step, hstep, rfl⟩ := Option.map_eq_some_iff.mp hindex
  have hbegins := take_append_of_getElem? hstep
  have hrests := hfree.after hbegins
  have hreaches := s.reaches_after (s.steps.take index ++ [step])
  rw [after_append_singleton] at hrests hreaches
  refine ⟨hreaches.queuedReaders_eq_zero hrests, ?_⟩
  intro shown hshown
  obtain ⟨⟨t, task⟩, _, rfl⟩ := List.mem_map.mp hshown
  exact congrArg (fun w : Waiters => w.contains task) hrests.nobody

/-! ## Scripts that only read -/

/-- The command asks for exclusive access. -/
def Command.writes : Command → Bool
  | .enter .exclusive => true
  | .call (.acquire .exclusive) => true
  | _ => false

def Order.writes : Order → Bool
  | .hand _ (some command) => command.writes
  | _ => false

def Reads (s : Script) : Prop :=
  ∀ step ∈ s.steps, ∀ order ∈ step, order.writes = false

namespace Hand

/-- The task stands where nobody writes, and was handed nothing else to do. -/
structure Reads (point : Point) (h : Hand) : Prop where
  waits : ∀ wait, point ≠ .waiting wait
  writes : point ≠ .before (.acquire .exclusive)
  handed : ∀ command, h.handed = some command → command.writes = false

theorem unwind_point_ne (h : Hand) (message : String) (data : List Int) (mode : Mode) :
    (h.unwind message data).point ≠ .before (.acquire mode) := by
  unfold unwind
  cases h.holding.innermost? <;> simp [finish, Reaction.point]

theorem released_point_ne (returned : Mode) (h : Hand) (data : List Int) (mode : Mode) :
    (released returned h data).point ≠ .before (.acquire mode) := by
  unfold released
  simp only
  split
  · simp [finish, Reaction.point]
  · exact unwind_point_ne _ _ data mode
  · simp [finish, Reaction.point]
  · simp [finish, Reaction.point]

/-- A task asks for access because it was handed a command to. -/
theorem asked_of_resume {h : Hand} {data : List Int} {mode : Mode}
    (hpoint : (h.resume data).point = .before (.acquire mode)) :
    h.handed = some (.enter mode) ∨ h.handed = some (.call (.acquire mode)) := by
  cases hhanded : h.handed with
  | none => simp [resume, hhanded, finish, Reaction.point] at hpoint
  | some command =>
      cases command with
      | enter asked =>
          obtain rfl : asked = mode := by simpa [resume, hhanded, Reaction.point] using hpoint
          exact .inl rfl
      | call call =>
          obtain rfl : call = .acquire mode := by
            simpa [resume, hhanded, Reaction.point] using hpoint
          exact .inr rfl
      | leave value =>
          simp only [resume, hhanded] at hpoint
          cases hinner : h.holding.innermost? <;>
            simp [hinner, finish, Reaction.point] at hpoint
      | panic message =>
          simp only [resume, hhanded] at hpoint
          exact absurd hpoint (unwind_point_ne _ _ data _)
      | _ => simp [resume, hhanded, finish, Reaction.point] at hpoint

end Hand

theorem program_reads : program.Reads Hand.Reads := by
  constructor
  case waits => exact fun wait h hreads => hreads.waits wait rfl
  case writes => exact fun h hreads => hreads.writes rfl
  case resume =>
    intro h data hreads
    refine ⟨Reaction.point_ne_waiting _, ?_, ?_⟩
    · intro hpoint
      rcases Hand.asked_of_resume hpoint with hhanded | hhanded
      · exact absurd (hreads.handed _ hhanded) (by simp [Command.writes])
      · exact absurd (hreads.handed _ hhanded) (by simp [Command.writes])
    · intro command hhanded
      have hnone : (h.resume data).own.handed = none := h.resume_handed data
      exact absurd (hnone.symm.trans hhanded) (by simp)
  case granted =>
    intro mode h data hreads
    refine ⟨Reaction.point_ne_waiting _, ?_, ?_⟩
    · have hpoint : (Hand.granted mode h data).point = .outside := Hand.granted_point mode h data
      exact fun hasks => absurd (hpoint.symm.trans hasks) (by simp)
    · intro command hhanded
      exact hreads.handed command ((Hand.granted_handed mode h data).symm.trans hhanded)
  case released =>
    intro mode h data hreads
    refine ⟨Reaction.point_ne_waiting _, Hand.released_point_ne mode h data _, ?_⟩
    intro command hhanded
    exact hreads.handed command ((Hand.released_handed mode h data).symm.trans hhanded)
  case misused =>
    intro mode h data hreads
    refine ⟨Reaction.point_ne_waiting _, ?_, hreads.handed⟩
    simp [program, Hand.misused, Hand.finish, Reaction.point]

theorem start_reading (s : Script) : s.start.Reading Hand.Reads := by
  refine ⟨?_, ⟨0, rfl⟩, rfl, rfl⟩
  intro t ht
  obtain ⟨name, _, rfl⟩ := List.mem_map.mp ht
  constructor <;> simp

instance (s : Script) : Decidable s.Reads := by
  unfold Reads
  infer_instance

theorem giveOut_reading (hreads : s.Reads) (hstep : step ∈ s.steps)
    (hm : m.Reading Hand.Reads) : (s.giveOut m step).1.Reading Hand.Reads := by
  refine giveOut_keeps_of_mem (P := fun next => next.Reading Hand.Reads) ?_ ?_ hm
  · intro before next name hbefore hwake
    exact absurd hwake (s.wake_ne_ok hbefore.nobody name next)
  · intro before next name command? horder hbefore hhand
    obtain ⟨index, t, command, _, rfl, htask, _, _, _, rfl⟩ := hand_eq_ok_iff.mp hhand
    have hstands := hbefore.sound t (List.mem_of_getElem? htask)
    refine ⟨hbefore.sound.set index ⟨hstands.waits, hstands.writes, ?_⟩, hbefore.lock,
      hbefore.nobody, hbefore.untraced⟩
    intro other hother
    obtain rfl := Option.some.inj hother
    exact hreads step hstep _ horder

theorem Reads.after (hreads : s.Reads) {before : List Step} (hbegins : before <+: s.steps) :
    (s.after before).Reading Hand.Reads := by
  induction before using List.reverseRecOn with
  | nil => exact s.start_reading
  | append_singleton before step ih =>
      have hbefore := ih (begins_of_append hbegins)
      have hstep : step ∈ s.steps := hbegins.subset (by simp)
      rw [after_append_singleton]
      exact iterate_keeps (fun _ _ hm hnext => hm.step program_reads hnext) _
        (giveOut_reading hreads hstep hbefore)

theorem Reads.neverWaits (hreads : s.Reads) : s.NeverWaits := by
  intro before step hbegins moves
  have hbefore := hreads.after (begins_of_append hbegins)
  have hstep : step ∈ s.steps := hbegins.subset (by simp)
  exact ((giveOut_reading hreads hstep hbefore).flows program_reads).nobody moves

theorem respond_plain_of_reading (hm : m.Reading Hand.Reads)
    (hlater : (s.respond m step).2.Reading Hand.Reads) :
    (s.respond m step).1.plain = (s.respond m step).1 := by
  have hevents : untraced (s.respond m step).1.events = (s.respond m step).1.events := by
    have hhistory := hlater.untraced
    rw [s.respond_history m step, untraced_append, hm.untraced, untraced_reverse] at hhistory
    exact List.reverse_injective (List.append_cancel_right hhistory)
  obtain ⟨readers, hlock⟩ := hlater.lock
  have hsnapshot : (s.respond m step).1.snapshot.plain = (s.respond m step).1.snapshot := by
    change (s.respond m step).2.lock.toSnapshot.plain = (s.respond m step).2.lock.toSnapshot
    rw [hlock]
    rfl
  rw [Answer.plain, hevents, hsnapshot]

theorem Reads.run_plain (hreads : s.Reads) : s.run.plain = s.run := by
  have hanswers : s.run.answers = s.run.answers.map Answer.plain := by
    refine run_answers_eq_map rfl ?_
    intro before step hbegins
    have hbefore := hreads.after (begins_of_append hbegins)
    have hlater := hreads.after hbegins
    rw [after_append_singleton] at hlater
    exact (respond_plain_of_reading hbefore hlater).symm
  rw [Outcome.plain, ← hanswers]

/-- A script that only reads gets the same answers under both policies. -/
theorem Reads.run_eq (hreads : s.Reads) :
    (s.under .readerPreference).run = (s.under .fairTicket).run := by
  have hfair : (s.under .fairTicket).Reads := hreads
  exact hfair.neverWaits.run_plain.trans hfair.run_plain

end ReaderWriter.Script
