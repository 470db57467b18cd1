import ReaderWriter.Proofs.Counters
import ReaderWriter.Proofs.Waiting

/-!
# Whoever waits, waits for somebody

When nobody who waits can go on, the resource is taken: with tickets the call that has the ticket
being served is one of those that wait, and only an access that is held can block it.  So the tasks
never wait for each other alone.

Each task has at most one request open, namely when it waits, and only a grant closes it.
-/

namespace ReaderWriter

variable {ε : Type}

theorem ticketsAhead_le (task : Nat) (history : List (Event ε)) :
    ticketsAhead task history ≤ (tickets .issued history).length := by
  induction history with
  | nil => exact le_rfl
  | cons event earlier ih =>
      have hgrows : (tickets .issued earlier).length ≤ (tickets .issued (event :: earlier)).length := by
        rw [tickets_cons, List.length_append]
        exact Nat.le_add_left _ _
      cases event with
      | requested other mode =>
          simp only [ticketsAhead]
          split
          · exact hgrows
          · exact ih.trans hgrows
      | _ => exact ih.trans hgrows

namespace Scene

/-- Nobody who waits could go on. -/
def Stuck (s : Scene ε) : Prop :=
  ∀ task wait, s.At task (.waiting wait) → s.lock.Blocks wait

theorem Suited.taken_of_stuck {s : Scene ε} (hsuited : s.Suited)
    (hpolicy : s.lock.policy = .readerPreference) (hstuck : s.Stuck) {task : Nat} {wait : Wait}
    (hat : s.At task (.waiting wait)) : s.lock.exclusive = true := by
  have hsuits := hsuited task wait hat
  have hblocks := hstuck task wait hat
  rw [hpolicy] at hsuits
  cases wait with
  | ticketDone ticket => exact hsuits.elim
  | groupEntry => exact hblocks.2
  | writerEntry ticket? =>
      cases ticket? with
      | none => exact hblocks
      | some ticket => exact hsuits.elim

/-- If the resource were free, the owner of the ticket being served could go on, and without such a
ticket nobody had anything to wait for. -/
theorem Ticketed.taken_of_stuck {s : Scene ε} (hticketed : s.Ticketed) (hstuck : s.Stuck)
    {task : Nat} {wait : Wait} (hat : s.At task (.waiting wait)) : s.lock.exclusive = true := by
  by_contra htaken
  have hfree : s.lock.exclusive = false := Bool.eq_false_of_not_eq_true htaken
  have hadmitted : s.lock.ticketsAdmitted = s.lock.nowServing := by
    unfold Lock.ticketsAdmitted
    rw [Lock.writersInside_of_free hfree, Nat.add_zero]
  have hblocks := hstuck task wait hat
  have hasked := hticketed.asked task wait hat
  by_cases hopen : s.lock.nowServing < s.lock.nextWriterTicket
  · have hissued : s.lock.nowServing ∈ tickets .issued s.history := by
      rw [hticketed.lawful.mem_tickets_iff, hticketed.issued]
      exact hopen
    obtain ⟨owner, trace, hmem, hticket⟩ := mem_tickets.mp hissued
    rw [Trace.ticket?_issued.mp hticket] at hmem
    have howner := hticketed.owned owner _ hmem hadmitted.le
    rcases hstuck owner _ howner with hbusy | hturn
    · exact htaken hbusy
    · exact hturn rfl
  · cases wait with
    | ticketDone ticket =>
        have hahead := ticketsAhead_le task s.history
        rw [hticketed.issued, show ticketsAhead task s.history = ticket + 1 from hasked] at hahead
        have hserving : s.lock.nowServing ≤ ticket := hblocks
        omega
    | groupEntry => exact htaken hblocks.2
    | writerEntry ticket? =>
        cases ticket? with
        | none => exact hasked
        | some ticket =>
            obtain ⟨_, hissued, hle⟩ := hasked
            have hlt := hticketed.issued_lt hissued
            omega

theorem Run.taken_of_stuck {policy : Policy} {tasks : Nat} {s : Scene ε}
    (hrun : Run (start policy tasks) s) (hstuck : s.Stuck) {task : Nat} {wait : Wait}
    (hat : s.At task (.waiting wait)) : s.lock.exclusive = true := by
  have hpolicy : s.lock.policy = policy := hrun.policy
  cases policy with
  | readerPreference =>
      exact (hrun.suited (start_suited _ _)).taken_of_stuck hpolicy hstuck hat
  | fairTicket =>
      exact (hrun.ticketed (start_accounts _ _) (start_ticketed _)).taken_of_stuck hstuck hat

end Scene

/-! ## Open requests -/

def Event.requestsOf (task : Nat) (mode : Mode) : Event ε → Bool
  | .requested other otherMode => other = task ∧ otherMode = mode
  | _ => false

/-- The task waits for such an access. -/
def Point.awaits (mode : Mode) : Point → Bool
  | .waiting wait => wait.mode = mode
  | _ => false

namespace Event

theorem requestsOf_of_ne {event : Event ε} {task : Nat} (hne : event.task ≠ task) (mode : Mode) :
    event.requestsOf task mode = false := by
  cases event <;> simp_all [Event.task, requestsOf]

theorem grantsTo_of_ne {event : Event ε} {task : Nat} (hne : event.task ≠ task) (mode : Mode) :
    event.grantsTo task mode = false := by
  cases event <;> simp_all [Event.task, grantsTo]

@[simp] theorem requestsOf_comp_traced (other task : Nat) (mode : Mode) :
    (requestsOf task mode : Event ε → Bool) ∘ traced other = fun _ => false := rfl

end Event

namespace Scene

/-- What a task has asked for was granted, or the task waits for it. -/
def Answers (s : Scene ε) : Prop :=
  ∀ task point, s.At task point → ∀ mode,
    s.history.countP (Event.requestsOf task mode) =
      s.history.countP (Event.grantsTo task mode) + (point.awaits mode).toNat

theorem start_answers (policy : Policy) (tasks : Nat) :
    (start policy tasks : Scene ε).Answers := by
  intro task point hat mode
  obtain ⟨_, rfl⟩ : task < tasks ∧ Point.outside = point := by
    simpa [start, At, List.getElem?_replicate] using hat
  rfl

theorem Answers.moved {s next : Scene ε} (hanswers : s.Answers) {mover : Nat}
    {point target : Point} (hat : s.At mover point)
    (hpoints : next.points = s.points.set mover target) (events : List (Event ε))
    (hhistory : next.history = events ++ s.history) (habout : ∀ event ∈ events, event.task = mover)
    (hcounts : ∀ mode, events.countP (Event.requestsOf mover mode) + (point.awaits mode).toNat =
      events.countP (Event.grantsTo mover mode) + (target.awaits mode).toNat) : next.Answers := by
  intro task other hset mode
  unfold At at hset
  rw [hpoints] at hset
  rw [hhistory, List.countP_append, List.countP_append]
  rcases At.of_set hset with ⟨rfl, rfl⟩ | ⟨hne, htask⟩
  · have hold := hanswers task point hat mode
    have hnew := hcounts mode
    omega
  · have hold := hanswers task other htask mode
    have hother : ∀ event ∈ events, event.task ≠ task := by
      intro event hevent
      rw [habout event hevent]
      exact Ne.symm hne
    have hrequests : events.countP (Event.requestsOf task mode) = 0 := by
      rw [List.countP_eq_zero]
      intro event hevent
      simp [Event.requestsOf_of_ne (hother event hevent)]
    have hgrants : events.countP (Event.grantsTo task mode) = 0 := by
      rw [List.countP_eq_zero]
      intro event hevent
      simp [Event.grantsTo_of_ne (hother event hevent)]
    omega

theorem Answers.aside {s : Scene ε} (hanswers : s.Answers) {event : Event ε}
    (hquiet : ∀ task mode, event.requestsOf task mode = false ∧ event.grantsTo task mode = false) :
    ({ s with history := event :: s.history } : Scene ε).Answers := by
  intro task point hat mode
  obtain ⟨hrequests, hgrants⟩ := hquiet task mode
  simpa [List.countP_cons, hrequests, hgrants] using hanswers task point hat mode

theorem Answers.move {s next : Scene ε} (hmove : Move s next) (hanswers : s.Answers) :
    next.Answers := by
  cases hmove with
  | turn task => exact hanswers.aside (fun _ _ => ⟨rfl, rfl⟩)
  | note task note => exact hanswers.aside (fun _ _ => ⟨rfl, rfl⟩)
  | approach call hat => exact hanswers.moved hat rfl [] rfl (by simp) (fun _ => rfl)
  | @arrive task mode hat =>
      apply hanswers.moved hat rfl
        (((s.lock.arrive mode).traces.map (.traced task)).reverse ++ [.requested task mode])
      · simp
      · intro event hevent
        rcases List.mem_append.mp hevent with htraced | hrequested
        · exact Event.task_of_traced htraced
        · rw [List.mem_singleton.mp hrequested]
          rfl
      · intro other
        simp only [Point.awaits, s.lock.arrive_wait_mode mode]
        by_cases hother : mode = other <;>
          simp [List.countP_append, Event.requestsOf, Event.grantsTo, hother]
  | park hat hblocks => exact hanswers
  | pass hat hdone =>
      exact hanswers.moved hat rfl [] rfl (by simp) (fun _ => rfl)
  | @enter task wait hat hchannel henters =>
      apply hanswers.moved hat rfl
        (.granted task wait.mode :: (wait.admission.map (.traced task)).reverse)
      · simp
      · intro event hevent
        rcases List.mem_cons.mp hevent with hgranted | htraced
        · rw [hgranted]
          rfl
        · exact Event.task_of_traced htraced
      · intro other
        by_cases hother : wait.mode = other <;>
          simp [Event.requestsOf, Event.grantsTo, Point.awaits, hother]
  | @leave task mode r hat hrelease =>
      apply hanswers.moved hat rfl
        (.released task mode :: (r.traces.map (.traced task)).reverse)
      · simp
      · intro event hevent
        rcases List.mem_cons.mp hevent with hreleased | htraced
        · rw [hreleased]
          rfl
        · exact Event.task_of_traced htraced
      · intro other
        simp [Event.requestsOf, Event.grantsTo, Point.awaits]
  | @misuse task mode hat hrelease =>
      apply hanswers.moved hat rfl [.misused task mode] rfl
      · intro event hevent
        rw [List.mem_singleton.mp hevent]
        rfl
      · intro other
        rfl
  | wake task => exact hanswers

theorem Run.answers {s last : Scene ε} (hrun : Run s last) (hanswers : s.Answers) :
    last.Answers :=
  hrun.keeps Answers.move hanswers

end Scene

end ReaderWriter
