import ReaderWriter.Proofs.Script.Bare
import ReaderWriter.Proofs.Script.Renaming
import ReaderWriter.Proofs.Script.Single

/-!
# Deleting the steps that fail

A step of a raw script without batches fails if its call gives back what nobody holds.  It leaves the
machine as it was, up to the log.  So the script without these steps is answered as before, step by
step.

Without them a task may have nothing to do any more, and the tasks that remain may come to be listed
in another order.  Both machines take the same moves under the names of the tasks.
-/

namespace ReaderWriter.Script

/-- The event tells that somebody gave back what nobody held. -/
def blames : Event Note → Bool
  | .noted _ (.misused _) => true
  | _ => false

def Answer.fails (a : Answer) : Bool :=
  a.events.any blames

/-! ## Answers do not depend on the log -/

theorem overlooks_withHistory (history : List (Event Note)) :
    Overlooks (fun m : State => m.withHistory history) := fun _ _ _ _ => rfl

theorem respond_withHistory (s : Script) (m : State) (step : Step) (history : List (Event Note)) :
    s.respond (m.withHistory history) step =
      ((s.respond m step).1,
        (s.respond m step).2.withHistory ((s.respond m step).1.events.reverse ++ history)) := by
  have hordered := (overlooks_withHistory history).giveOut s m step
  rcases Machine.iterate_withHistory program (s.giveOut m step).1
    ((s.giveOut m step).1.work program) with ⟨events, hevents, hover⟩
  rw [s.giveOut_history] at hevents
  have hanswer : (s.respond m step).1.events = events.reverse := eventsSince_of_append hevents
  have hlater : ((s.giveOut m step).1.withHistory history).settleDown program =
      ((s.giveOut m step).1.settleDown program).withHistory (events ++ history) := hover history
  have hsince : eventsSince (m.withHistory history)
      (((s.giveOut m step).1.settleDown program).withHistory (events ++ history)) = events.reverse :=
    eventsSince_of_append rfl
  rw [hanswer, List.reverse_reverse]
  simp only [respond, hordered, Prod.map_fst, Prod.map_snd, id, hlater, hsince]
  congr 2
  exact hanswer.symm

/-! ## A step that fails -/

/-- The task has begun what it was told to do, and is not about to give an access back. -/
def Blameless (point : Point) (h : Hand) : Prop :=
  h.handed = none ∧ ∀ mode, point ≠ .before (.release mode)

namespace Hand

theorem unwind_blames (h : Hand) (message : String) (data : List Int) :
    ∀ note ∈ (h.unwind message data).notes, ∀ mode, note ≠ .misused mode := by
  unfold unwind
  split <;> simp [finish]

theorem resume_blames (h : Hand) (data : List Int) :
    ∀ note ∈ (h.resume data).notes, ∀ mode, note ≠ .misused mode := by
  unfold resume
  simp only
  split
  case h_4 => exact unwind_blames _ _ _
  case h_3 => split <;> simp [finish]
  all_goals simp [finish]

theorem granted_blames (mode : Mode) (h : Hand) (data : List Int) :
    ∀ note ∈ (granted mode h data).notes, ∀ mode, note ≠ .misused mode := by
  unfold granted
  split <;> simp [finish]

theorem released_blames (mode : Mode) (h : Hand) (data : List Int) :
    ∀ note ∈ (released mode h data).notes, ∀ mode, note ≠ .misused mode := by
  unfold released
  simp only
  split
  case h_2 => exact unwind_blames _ _ _
  all_goals simp [finish]

theorem program_blameless : program.Preserves Blameless := by
  constructor
  case resume =>
    intro h data hblameless
    have hidle : program.resume h data = h.finish data [] := by
      simp [program, Hand.resume, hblameless.1, finish]
    rw [hidle]
    exact ⟨hblameless.1, fun mode => by simp [finish, Reaction.point]⟩
  case waits =>
    intro l lock point wait h _ hblameless
    exact ⟨hblameless.1, by simp⟩
  case granted =>
    intro wait h data hblameless
    refine ⟨(granted_handed wait.mode h data).trans hblameless.1, ?_⟩
    intro mode
    have houtside : (program.granted wait.mode h data).point = .outside :=
      granted_point wait.mode h data
    rw [houtside]
    simp
  case released =>
    intro mode h data hblameless
    exact absurd rfl (hblameless.2 mode)
  case misused =>
    intro mode h data hblameless
    exact absurd rfl (hblameless.2 mode)

end Hand

theorem react_filter_blames (m : State) (task : Nat) {r : React}
    (hnotes : ∀ note ∈ r.notes, ∀ mode, note ≠ .misused mode) :
    (m.react task r).history.filter blames = m.history.filter blames := by
  have hnoted : (r.notes.map (Event.noted task)).filter blames = [] := by
    rw [List.filter_eq_nil_iff]
    intro event hevent
    rcases List.mem_map.mp hevent with ⟨note, hnote, rfl⟩
    cases note with
    | misused mode => exact absurd rfl (hnotes _ hnote mode)
    | _ => simp [blames]
  rw [Machine.react_history, List.filter_append, List.filter_reverse, hnoted]
  rfl

theorem filter_blames_traced (task : Nat) (traces : List Trace) :
    (traces.map (Event.traced task)).filter blames = [] := by
  simp [List.filter_eq_nil_iff, blames]

theorem filter_blames_arrival (l : Lock) (task : Nat) (point : Point) :
    (l.arrivalEvents task point).filter blames = [] := by
  cases point with
  | before call =>
      cases call with
      | acquire mode => simp [Lock.arrivalEvents, filter_blames_traced, blames]
      | release mode => rfl
  | _ => rfl

/-- Only a task that gives back what nobody holds is blamed. -/
theorem act_filter_blames {m : State} {task : Nat} {t : Task Hand}
    (hrelease : ∀ mode, t.point = .before (.release mode) → m.lock.release? mode ≠ none) :
    (m.act program task t).history.filter blames = m.history.filter blames := by
  have hacts := m.acts program task t
  generalize m.act program task t = next at hacts ⊢
  cases hacts with
  | resumes hpoint => exact react_filter_blames m task (Hand.resume_blames t.own m.shared)
  | parks hlooks hblocks =>
      change ((m.lock.arrivalEvents task t.point).reverse ++ m.history).filter blames = _
      rw [List.filter_append, List.filter_reverse, filter_blames_arrival]
      rfl
  | @enters lock wait hlooks hchannel henters =>
      refine (react_filter_blames _ task (Hand.granted_blames wait.mode t.own m.shared)).trans ?_
      simp [Machine.record, filter_blames_arrival, filter_blames_traced, blames]
  | @returns mode r hpoint hrelease =>
      refine (react_filter_blames _ task (Hand.released_blames mode t.own m.shared)).trans ?_
      rw [Machine.foldl_notify_history]
      simp [Machine.record, filter_blames_traced, blames]
  | @misuses mode hpoint hnone => exact absurd hnone (hrelease mode hpoint)

/-- Where nobody is about to give an access back nobody will be blamed. -/
theorem iterate_filter_blames {m : State} (hm : m.Sound Blameless) (moves : Nat) :
    (iterate (Machine.step program) moves m).history.filter blames = m.history.filter blames := by
  let P : State → Prop := fun later =>
    later.Sound Blameless ∧ later.history.filter blames = m.history.filter blames
  have hboth : P (iterate (Machine.step program) moves m) := by
    refine iterate_keeps ?_ moves ⟨hm, rfl⟩
    rintro later next ⟨hlater, hhistory⟩ hstep
    refine ⟨hlater.step_of_preserves Hand.program_blameless hstep, ?_⟩
    rw [← hhistory]
    rcases Machine.step_cases hstep with ⟨_, c, _, rfl⟩ | ⟨_, _, _, rfl⟩ | ⟨task, t, _, htask, rfl⟩
    · rfl
    · rfl
    · refine act_filter_blames ?_
      intro mode hpoint
      exact absurd hpoint ((hlater t (List.mem_of_getElem? htask)).2 mode)
  exact hboth.2

variable {s : Script} {steps : List Step} {step : Step}

theorem Unbatched.blameless (hsteps : Unbatched steps) : (s.after steps).Sound Blameless := by
  intro t ht
  rcases List.mem_iff_getElem?.mp ht with ⟨task, htask⟩
  refine ⟨hsteps.unhanded htask, ?_⟩
  intro mode hpoint
  rcases s.after_cases steps htask with ⟨houtside, _⟩ | ⟨wait, hwaits, _⟩
  · rw [hpoint] at houtside
    cases houtside
  · rw [hpoint] at hwaits
    cases hwaits

theorem not_fails_of_filter {m : State}
    (hfilter : (s.respond m step).2.history.filter blames = m.history.filter blames) :
    (s.respond m step).1.fails = false := by
  rw [s.respond_history, List.filter_append, List.append_left_eq_self, List.filter_reverse,
    List.reverse_eq_nil_iff, List.filter_eq_nil_iff] at hfilter
  rw [Answer.fails, List.any_eq_false]
  exact hfilter

/-- Once a command is under way that blames nobody, nobody is blamed for the whole step. -/
theorem not_fails_of_leads {next : State}
    (hleads : Machine.Leads program blames (s.giveOut (s.after steps) step).1 next)
    (hnext : next.Sound Blameless)
    (hfilter : next.history.filter blames = (s.after steps).history.filter blames) :
    (s.respond (s.after steps) step).1.fails = false := by
  have hnone := s.step_after_eq_none (steps ++ [step])
  rw [after_append_singleton] at hnone
  rcases hleads.passes hnone with ⟨passed, more, halike, hsame⟩
  have hpassed : passed.Sound Blameless := by
    unfold Machine.Sound at hnext ⊢
    rw [← halike.tasks]
    exact hnext
  apply not_fails_of_filter
  have hlater : (s.respond (s.after steps) step).2 = iterate (Machine.step program) more passed :=
    hsame
  rw [hlater, iterate_filter_blames hpassed, halike.history, hfilter]

/-- A call handed to a task at rest: the task is outside of the lock with nothing else to do. -/
theorem hand_call {m : State} {name : String} {command? : Option Command} (hraw : s.style = .raw)
    (hhand : s.hand (s.after steps) name command? = .ok m) :
    ∃ task call holding,
      (s.after steps).tasks[task]? = some { own := { holding } } ∧
        m = handing (s.after steps) task { holding } (.call call) := by
  rcases hand_eq_ok_iff.mp hhand with
    ⟨task, t, command, _, rfl, htask, hfree, hhanded, hobjection, rfl⟩
  have hpoint := (s.after_free steps htask hfree).1
  have hbare := (s.reaches_after steps).bare hraw t (List.mem_of_getElem? htask)
  rw [hpoint] at hbare
  rcases t with ⟨point, holding, doing, handed⟩
  obtain rfl : point = .outside := hpoint
  obtain rfl : doing = none := hbare.command
  obtain rfl : handed = none := hhanded
  rw [hraw] at hobjection
  cases command with
  | call call => exact ⟨task, call, holding, htask, rfl⟩
  | _ => cases hobjection

theorem handing_call_leads {counts : Event Note → Bool} {task : Nat} {holding : Holding}
    (htask : (s.after steps).tasks[task]? = some { own := { holding } })
    (hturn : counts (.turn task) = false) (call : Call) :
    Machine.Leads program counts (handing (s.after steps) task { holding } (.call call))
      (calling (s.after steps) task { holding, command := some (.call call) } call) :=
  handing_leads (s.after_rest steps) (List.getElem?_eq_some_iff.mp htask).1 hturn rfl

theorem calling_step {m : State} {task : Nat} (htask : task < m.tasks.length) (own : Hand)
    (call : Call) :
    (calling m task own call).step program =
      some ((calling m task own call).act program task { point := .before call, own }) := by
  have hget : (calling m task own call).tasks[task]? = some { point := .before call, own } := by
    simp [calling, staged, htask]
  have hrunning : (calling m task own call).running = some task := rfl
  simp only [Machine.step, hrunning, hget]

/-- What is given back was there, so nobody is blamed, and nobody goes on to give anything back. -/
theorem calling_released {m : State} (task : Nat) (holding : Holding) {mode : Mode}
    (hm : m.Sound Blameless) (hrelease : m.lock.release? mode ≠ none) :
    let own : Hand := { holding, command := some (.call (.release mode)) }
    let next := (calling m task own (.release mode)).act program task
      { point := .before (.release mode), own }
    next.Sound Blameless ∧ next.history.filter blames = m.history.filter blames := by
  intro own next
  cases hreleased : m.lock.release? mode with
  | none => exact absurd hreleased hrelease
  | some r =>
      have hlock : (calling m task own (.release mode)).lock.release? mode = some r := hreleased
      constructor
      · have htasks : next.tasks = m.tasks.set task { own := { holding } } := by
          simp only [next, Machine.act, Machine.giveBack, hlock, Machine.react_tasks,
            Machine.foldl_notify_tasks]
          exact List.set_set _
        unfold Machine.Sound
        rw [htasks]
        exact hm.set task ⟨rfl, by simp⟩
      · refine act_filter_blames ?_
        intro other hother
        obtain rfl : mode = other := by simpa using hother
        exact hrelease

/-- Who gives back what nobody holds is at rest again, with no trace but in the log. -/
theorem calling_rejected_alike {m : State} {task : Nat} {holding : Holding} {mode : Mode}
    (hrunning : m.running = none) (htask : m.tasks[task]? = some { own := { holding } })
    (command : Command) (hnone : m.lock.release? mode = none) :
    Machine.Alike (fun _ => false)
      ((calling m task { holding, command := some command } (.release mode)).act program task
        { point := .before (.release mode), own := { holding, command := some command } }) m := by
  have hlock : (calling m task { holding, command := some command } (.release mode)).lock.release?
      mode = none := hnone
  rw [act_rejects rfl hlock]
  have hsame : m.tasks.set task { own := { holding } } = m.tasks := by
    rcases List.getElem?_eq_some_iff.mp htask with ⟨hlt, hget⟩
    rw [← hget, List.set_getElem_self]
  refine ⟨?_, by simp⟩
  simp only [rejected, calling, staged, List.set_set, hsame, Machine.withHistory, ← hrunning]

/-- A call that fails leaves everything but the log as it was. -/
theorem respond_of_call_fails (hraw : s.style = .raw) (hsteps : Unbatched steps) {name : String}
    {command? : Option Command} {ordered : State}
    (hhand : s.hand (s.after steps) name command? = .ok ordered)
    (hfails : (s.respond (s.after steps) [.hand name command?]).1.fails = true) :
    ∃ history, (s.respond (s.after steps) [.hand name command?]).2 =
      (s.after steps).withHistory history := by
  have hblameless : (s.after steps).Sound Blameless := hsteps.blameless
  rcases hand_call hraw hhand with ⟨task, call, holding, htask, rfl⟩
  have hlt := (List.getElem?_eq_some_iff.mp htask).1
  have hleads : ∀ counts : Event Note → Bool, counts (.turn task) = false →
      Machine.Leads program counts (s.giveOut (s.after steps) [.hand name command?]).1
        (calling (s.after steps) task { holding, command := some (.call call) } call) := by
    intro counts hturn
    rw [giveOut_hand hhand]
    exact handing_call_leads htask hturn call
  cases call with
  | acquire mode =>
      have hsound : (calling (s.after steps) task
          { holding, command := some (.call (.acquire mode)) } (.acquire mode)).Sound Blameless :=
        hblameless.set task ⟨rfl, by simp⟩
      rw [not_fails_of_leads (hleads blames rfl) hsound rfl] at hfails
      cases hfails
  | release mode =>
      by_cases hrelease : (s.after steps).lock.release? mode = none
      · have hback := (hleads (fun _ => false) rfl).trans (.trans
          (.of_step (calling_step hlt _ _) (.refl _))
          (.of_alike (calling_rejected_alike (s.after_rest steps).1 htask _ hrelease)))
        have hrest := s.step_after_eq_none (steps ++ [[.hand name command?]])
        rw [after_append_singleton] at hrest
        have halike : Machine.Alike (fun _ => false)
            (s.respond (s.after steps) [.hand name command?]).2
            (iterate (Machine.step program) 0 (s.after steps)) :=
          hback.rest (.of_alike (.refl _)) hrest (s.step_after_eq_none steps)
        exact ⟨_, halike.symm.same⟩
      · have hreleased := calling_released task holding hblameless hrelease
        have hleft := (hleads blames rfl).trans (.of_step (calling_step hlt _ _) (.refl _))
        rw [not_fails_of_leads hleft hreleased.1 hreleased.2] at hfails
        cases hfails

/-- A step that fails leaves everything but the log as it was. -/
theorem respond_of_fails (hraw : s.style = .raw) (hsteps : Unbatched (steps ++ [step]))
    (hfails : (s.respond (s.after steps) step).1.fails = true) :
    ∃ history, (s.respond (s.after steps) step).2 = (s.after steps).withHistory history := by
  have hbefore : Unbatched steps := fun earlier hmem => hsteps earlier (List.mem_append_left _ hmem)
  have hidle : (s.giveOut (s.after steps) step).1 = s.after steps →
      (s.respond (s.after steps) step).2 = (s.after steps).withHistory (s.after steps).history := by
    intro hordered
    change (s.giveOut (s.after steps) step).1.settleDown program = _
    rw [hordered]
    exact iterate_of_eq_none (s.step_after_eq_none steps) _
  rcases hsteps.cases (by simp : step ∈ steps ++ [step]) with rfl | ⟨order, rfl⟩
  · exact ⟨_, hidle rfl⟩
  · cases order with
    | wake names =>
        rcases List.any_eq_true.mp hfails with ⟨event, hevent, hblames⟩
        rcases (s.respond_wake_undisturbed steps names).events event hevent with ⟨task, rfl⟩
        cases hblames
    | hand name command? =>
        cases hhand : s.hand (s.after steps) name command? with
        | ok ordered => exact respond_of_call_fails hraw hbefore hhand hfails
        | error reason =>
            refine ⟨_, hidle ?_⟩
            simp [giveOut, giveOrder, carryOut, hhand]

/-! ## The steps that are kept -/

/-- Of the steps that come next the ones that do not fail, each with its answer. -/
def keptAfter (s : Script) (before steps : List Step) : List (Step × Answer) :=
  (steps.zip (s.respondAll (s.after before) steps).1).filter fun x => !x.2.fails

/-- The steps of a script that do not fail, each with its answer. -/
def kept (s : Script) : List (Step × Answer) :=
  s.keptAfter [] s.steps

theorem keptAfter_cons (s : Script) (before : List Step) (step : Step) (steps : List Step) :
    s.keptAfter before (step :: steps) =
      if (s.respond (s.after before) step).1.fails then s.keptAfter (before ++ [step]) steps
      else (step, (s.respond (s.after before) step).1) :: s.keptAfter (before ++ [step]) steps := by
  unfold keptAfter
  rw [s.after_append_singleton, respondAll_cons, List.zip_cons_cons, List.filter_cons]
  cases (s.respond (s.after before) step).1.fails <;> rfl

/-- The names list every task once that has orders left in these steps, and no other tasks than the
script has. -/
structure Remain (s : Script) (names : List String) (steps : List Step) : Prop where
  nodup : names.Nodup
  known : ∀ name ∈ names, name ∈ s.names
  orders : ∀ step ∈ steps, ∀ name command?, .hand name command? ∈ step →
    name ∈ s.names → name ∈ names

theorem Remain.known_of_mem {names : List String} (hremain : Remain s names steps)
    (hstep : step ∈ steps) : ∀ order ∈ step, order.Known s { s with steps, names } := by
  intro order horder
  cases order with
  | hand name command? => exact hremain.orders step hstep name command? horder
  | wake names => trivial

/-- From like states on, the steps that do not fail are answered alike without the others. -/
theorem respondAll_kept {f : Nat → Nat} {other : Script} (hraw : s.style = .raw)
    (hnames : Renumbers f s other) {before given : List Step} {history : List (Event Note)}
    (hunbatched : Unbatched (before ++ steps))
    (hknown : ∀ x ∈ s.keptAfter before steps, ∀ order ∈ x.1, order.Known s other)
    (hm : Machine.Mirrors f ((s.after before).withHistory history) (other.after given)) :
    List.Forall₂ (Matches s other) ((s.keptAfter before steps).map (·.2))
        (other.respondAll (other.after given) ((s.keptAfter before steps).map (·.1))).1 ∧
      (s.after (before ++ steps)).shared =
        (other.after (given ++ (s.keptAfter before steps).map (·.1))).shared := by
  induction steps generalizing before given history with
  | nil =>
      have hshared : (s.after before).shared = (other.after given).shared := hm.shared
      exact ⟨.nil, by simpa [keptAfter] using hshared⟩
  | cons step steps ih =>
      have hlater := s.respond_after before step
      have hsplit : before ++ step :: steps = before ++ [step] ++ steps := by simp
      rw [hsplit] at hunbatched ⊢
      rw [keptAfter_cons] at hknown ⊢
      cases hfails : (s.respond (s.after before) step).1.fails with
      | true =>
          rw [if_pos hfails] at hknown
          have hfirst : Unbatched (before ++ [step]) := fun earlier hmem =>
            hunbatched earlier (List.mem_append_left _ hmem)
          rcases respond_of_fails hraw hfirst hfails with ⟨log, hsame⟩
          have hnext : Machine.Mirrors f ((s.after (before ++ [step])).withHistory history)
              (other.after given) := by
            rw [← hlater, hsame]
            exact hm
          exact ih hunbatched hknown hnext
      | false =>
          rw [if_neg (by simp [hfails])] at hknown
          have hover := s.respond_withHistory (s.after before) step history
          have hrest : (s.respond ((s.after before).withHistory history) step).2.step program =
              none := by
            have hnone := s.step_after_eq_none (before ++ [step])
            rw [Machine.step_eq_none_iff] at hnone ⊢
            rw [hover, hlater]
            exact hnone
          have hothers := other.respond_after given step
          have hends : (other.respond (other.after given) step).2.step program = none := by
            rw [hothers]
            exact other.step_after_eq_none (given ++ [step])
          rcases hnames.respond hm (hknown _ List.mem_cons_self) hrest hends with ⟨hanswer, hnext⟩
          rw [hover] at hanswer hnext
          rw [hlater, hothers] at hnext
          have hkept := ih hunbatched (fun x hx => hknown x (List.mem_cons_of_mem _ hx)) hnext
          simp only [Bool.false_eq_true, if_false, List.map_cons, respondAll_cons, hothers]
          refine ⟨.cons hanswer hkept.1, ?_⟩
          rw [hkept.2, List.append_assoc, List.singleton_append]

/-! ## The whole law -/

/-- In raw style a call gives an access back exactly if by the calls before it there is one.
Otherwise it only logs that there is none.  Without batches, all other steps are answered as if
the steps that fail were not there. -/
theorem misuse_leaves_no_trace {s : Script} (hraw : s.style = .raw) :
    (∀ m task t mode, s.Reaches m → m.running = some task → m.tasks[task]? = some t →
      t.point = .before (.release mode) →
      ∃ next, m.step program = some next ∧ Checked s m next task t mode) ∧
    (Unbatched s.steps → ∀ names, Remain s names (s.kept.map (·.1)) →
      let shortened := { s with steps := s.kept.map (·.1), names }
      List.Forall₂ (Matches s shortened) (s.kept.map (·.2)) shortened.run.answers ∧
        s.run.data = shortened.run.data) := by
  constructor
  · intro m task t mode hm hrunning htask hpoint
    refine ⟨m.act program task t, ?_, hm.checked hraw htask hpoint⟩
    simp only [Machine.step, hrunning, htask]
  · intro hunbatched names hremain shortened
    have hall : Unbatched ([] ++ s.steps) := hunbatched
    have hnames : Renumbers (renumber s.names names) s shortened :=
      renumber_renumbers s _ hremain.nodup hremain.known
    have hstart : Machine.Mirrors (renumber s.names names) ((s.after []).withHistory [])
        (shortened.after []) := s.start_mirrors _ hremain.known
    have hknown : ∀ x ∈ s.keptAfter [] s.steps, ∀ order ∈ x.1, order.Known s shortened :=
      fun x hx => hremain.known_of_mem (List.mem_map_of_mem hx)
    exact respondAll_kept hraw hnames hall hknown hstart

/-- Two tasks give back what is not there; in between the writer is let out by the reader. -/
def strangers : Script where
  policy := .fairTicket
  style := .raw
  names := ["c", "a", "b"]
  steps := [
    [.hand "c" (some (.call (.release .exclusive)))],
    [.hand "a" (some (.call (.acquire .shared)))],
    [.hand "b" (some (.call (.acquire .exclusive)))],
    [.wake ["b", "c"]],
    [.hand "c" (some (.call (.release .exclusive)))],
    [.hand "a" (some (.call (.release .shared)))],
    [.hand "a" (some (.call (.release .exclusive)))],
    [.hand "a" (some (.call (.release .exclusive)))]]

theorem strangers_kept : strangers.kept.map (·.1) = [
    [.hand "a" (some (.call (.acquire .shared)))],
    [.hand "b" (some (.call (.acquire .exclusive)))],
    [.wake ["b", "c"]],
    [.hand "a" (some (.call (.release .shared)))],
    [.hand "a" (some (.call (.release .exclusive)))]] := by
  decide +kernel

theorem strangers_remain : Remain strangers ["b", "a"] (strangers.kept.map (·.1)) := by
  rw [strangers_kept]
  refine ⟨by decide, by decide, ?_⟩
  intro step hstep name command? horder _
  simp only [List.mem_cons, List.not_mem_nil, or_false] at hstep
  rcases hstep with rfl | rfl | rfl | rfl | rfl <;> simp at horder <;> simp [horder]

theorem misuse_leaves_no_trace_strangers :
    let first := strangers.midway [] [.hand "c" (some (.call (.release .exclusive)))] 2
    let idle : Task Hand :=
      { point := .before (.release .exclusive)
        own := { holding := .untracked, command := some (.call (.release .exclusive)) } }
    let shortened := { strangers with steps := strangers.kept.map (·.1), names := ["b", "a"] }
    (∃ next, first.step program = some next ∧
        Checked strangers first next 0 idle .exclusive) ∧
      List.Forall₂ (Matches strangers shortened) (strangers.kept.map (·.2))
        shortened.run.answers := by
  intro first idle shortened
  have hlaw := misuse_leaves_no_trace (s := strangers) rfl
  have hrunning : first.running = some 0 := by decide +kernel
  have htask : first.tasks[0]? = some idle := by rfl
  exact ⟨hlaw.1 first 0 idle .exclusive ⟨_, _, _, rfl⟩ hrunning htask rfl,
    (hlaw.2 (by decide) ["b", "a"] strangers_remain).1⟩

end ReaderWriter.Script
