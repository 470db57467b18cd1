import ReaderWriter.Proofs.Script.Single

/-!
# Writers that pass a reader

Under tickets a reader that has waited for its ticket stands last in line for the resource.  If
every writer that leaves is followed by the request of another one before the reader has its turn,
that writer finds the resource free and its ticket next.  The reader looks again, finds the resource
taken, and waits on, now for the release of the resource and no longer behind a ticket.

So the number of writers that pass a reader is not bounded, although the longest ready task always
goes on.
-/

namespace ReaderWriter

def Event.trace? {ε : Type} : Event ε → Option (Nat × Trace)
  | .traced task trace => some (task, trace)
  | _ => none

/-- What the lock reported, in the order of the events, with the tasks it was about. -/
def traces {ε : Type} (events : List (Event ε)) : List (Nat × Trace) :=
  events.filterMap Event.trace?

namespace Script

/-! ## Turns that nobody interrupts -/

/-- The task is the next to run, and goes on until it rests or waits. -/
structure Turn (m : State) (task : Nat) (others : List Nat) : Prop where
  running : m.running = none
  ready : m.ready = task :: others
  picks : m.picks = []
  preempt : m.preempt = false

/-- The state after a turn: the task as it is then, those that are ready, the lock, and what
happened, newest first. -/
def turned (m : State) (task : Nat) (t : Task Hand) (ready : List Nat) (lock : Lock)
    (events : List (Event Note)) : State :=
  { m with lock, ready, tasks := m.tasks.set task t, history := events ++ m.history }

theorem Hand.resume_enter (holding : Holding) (mode : Mode) (data : List Int) :
    Hand.resume { holding, handed := some (.enter mode) } data =
      { own := { holding, command := some (.enter mode) }
        shared := data
        next := some (.acquire mode) } :=
  rfl

theorem Hand.resume_leave {holding : Holding} {mode : Mode}
    (hinnermost : holding.innermost? = some mode) (value : Int) (data : List Int) :
    Hand.resume { holding, handed := some (.leave value) } data =
      { own := { holding, command := some (.leave value) }
        shared := data
        next := some (.release mode) } := by
  simp [Hand.resume, hinnermost]

section Turn

variable {m : State} {task : Nat} {others : List Nat} {idle own : Hand} {mode : Mode}

theorem choose?_nil (task : Nat) (others : List Nat) :
    choose? (task :: others) [] = some ⟨task, others, []⟩ := by
  cases others <;> rfl

/-- Within two moves the task stands before the call that its command makes. -/
theorem Turn.calls (hturn : Turn m task others) {call : Call}
    (htask : m.tasks[task]? = some { own := idle })
    (hresume : idle.resume m.shared = { own, shared := m.shared, next := some call }) :
    iterate (Machine.step program) 2 m =
      { turned m task { point := .before call, own } others m.lock [.turn task] with
        running := some task } := by
  obtain ⟨lock, shared, tasks, ready, running, waiters, picks, preempt, history⟩ := m
  obtain ⟨rfl, rfl, rfl, rfl⟩ := hturn
  have hbegin : choose? (task :: others) [] = some ⟨task, others, []⟩ := choose?_nil task others
  have hreact : program.resume idle shared = { own, shared, next := some call } := hresume
  simp [iterate, Machine.step, hbegin, Machine.begin, Machine.record, htask, Machine.act, hreact,
    Machine.react, Machine.approach, turned]

/-- A request that is granted. -/
theorem Turn.enters (hturn : Turn m task others) {holding : Holding} {a : Admission}
    (htask : m.tasks[task]? = some { own := { holding, handed := some (.enter mode) } })
    (hrequest : m.lock.request mode = a) (hgranted : a.waits = none) :
    iterate (Machine.step program) 3 m =
      turned m task { own := { holding := holding.enter mode } } others a.lock
        (.noted task (.entered mode) :: .granted task mode ::
          ((a.traces.map (.traced task)).reverse ++ [.requested task mode, .turn task])) := by
  have hlt := (List.getElem?_eq_some_iff.mp htask).1
  have hcalls := hturn.calls htask (Hand.resume_enter holding mode m.shared)
  rw [iterate_add _ 2 1, hcalls]
  obtain ⟨lock, shared, tasks, ready, running, waiters, picks, preempt, history⟩ := m
  obtain ⟨rfl, rfl, rfl, rfl⟩ := hturn
  subst hrequest
  simp [iterate, Machine.step, turned, hlt, Machine.act, Machine.settle, hgranted, Machine.record,
    Machine.react, Machine.rest, program, Hand.granted, Hand.finish]

/-- A request that has to wait. -/
theorem Turn.queues (hturn : Turn m task others) {holding : Holding} {a : Admission} {wait : Wait}
    (htask : m.tasks[task]? = some { own := { holding, handed := some (.enter mode) } })
    (hrequest : m.lock.request mode = a) (hwaits : a.waits = some wait) :
    iterate (Machine.step program) 3 m =
      { turned m task
          { point := .waiting wait, own := { holding, command := some (.enter mode) } } others
          a.lock ((a.traces.map (.traced task)).reverse ++ [.requested task mode, .turn task]) with
        waiters := m.waiters.park task wait.channel } := by
  have hlt := (List.getElem?_eq_some_iff.mp htask).1
  have hcalls := hturn.calls htask (Hand.resume_enter holding mode m.shared)
  rw [iterate_add _ 2 1, hcalls]
  obtain ⟨lock, shared, tasks, ready, running, waiters, picks, preempt, history⟩ := m
  obtain ⟨rfl, rfl, rfl, rfl⟩ := hturn
  subst hrequest
  simp [iterate, Machine.step, turned, hlt, Machine.act, Machine.settle, hwaits, Machine.record,
    Machine.park]

/-- A task that was woken and has to wait on. -/
theorem Turn.waitsOn (hturn : Turn m task others) {a : Admission} {wait next : Wait}
    (htask : m.tasks[task]? = some { point := .waiting wait, own })
    (hrecheck : m.lock.recheck wait = a) (hwaits : a.waits = some next) :
    iterate (Machine.step program) 2 m =
      { turned m task { point := .waiting next, own } others a.lock
          ((a.traces.map (.traced task)).reverse ++ [.turn task]) with
        waiters := m.waiters.park task next.channel } := by
  obtain ⟨lock, shared, tasks, ready, running, waiters, picks, preempt, history⟩ := m
  obtain ⟨rfl, rfl, rfl, rfl⟩ := hturn
  subst hrecheck
  have hbegin : choose? (task :: others) [] = some ⟨task, others, []⟩ := choose?_nil task others
  simp [iterate, Machine.step, hbegin, Machine.begin, htask, turned, Machine.act, Machine.settle,
    hwaits, Machine.record, Machine.park]

/-- A writer under tickets that leaves wakes everybody. -/
theorem Turn.leaves (hturn : Turn m task others) {holding : Holding} {value : Int}
    (htask : m.tasks[task]? = some { own := { holding, handed := some (.leave value) } })
    (hinnermost : holding.innermost? = some .exclusive) (hpolicy : m.lock.policy = .fairTicket)
    (htaken : m.lock.exclusive = true) (hempty : m.lock.activeReaders = 0) :
    iterate (Machine.step program) 3 m =
      { turned m task { own := { holding := holding.leave } }
          (others ++ m.waiters.writerDone ++ m.waiters.released)
          { m.lock with lastServedTicket := some m.lock.nowServing, exclusive := false }
          [.noted task (.left .exclusive value), .released task .exclusive,
            .traced task (.ticketCompleted m.lock.nowServing), .turn task] with
        waiters := {} } := by
  have hlt := (List.getElem?_eq_some_iff.mp htask).1
  have hcalls := hturn.calls htask (Hand.resume_leave hinnermost value m.shared)
  rw [iterate_add _ 2 1, hcalls]
  obtain ⟨lock, shared, tasks, ready, running, waiters, picks, preempt, history⟩ := m
  obtain ⟨rfl, rfl, rfl, rfl⟩ := hturn
  have hrelease : lock.release? .exclusive = some
      { lock := { lock with lastServedTicket := some lock.nowServing, exclusive := false }
        notified := [.writerDone, .released]
        traces := [.ticketCompleted lock.nowServing] } := by
    change lock.releaseExclusive? = _
    have htickets : lock.policy = .fairTicket := hpolicy
    rw [Lock.releaseExclusive?, if_pos ⟨htaken, hempty⟩, htickets]
  simp [iterate, Machine.step, turned, hlt, Machine.act, Machine.giveBack, hrelease, Machine.record,
    Machine.notify, Waiters.on, Waiters.clear, Machine.react, Machine.rest, program, Hand.released,
    Hand.finish]

end Turn

end Script

/-! ## The lock at a change of writers -/

namespace Lock

/-- A writer that finds the resource free and no ticket out enters at once. -/
theorem request_exclusive_of_free {l : Lock} (hpolicy : l.policy = .fairTicket)
    (hfree : l.exclusive = false) (hnext : l.nowServing = l.nextWriterTicket) :
    l.request .exclusive =
      { lock := { l with nextWriterTicket := l.nextWriterTicket + 1, exclusive := true }
        traces := [.ticketIssued l.nextWriterTicket, .ticketAdmitted l.nextWriterTicket] } := by
  obtain ⟨snapshot, policy⟩ := l
  obtain rfl : policy = .fairTicket := hpolicy
  have hentry : enterTicketed snapshot.nextWriterTicket
      { snapshot with nextWriterTicket := snapshot.nextWriterTicket + 1, policy := .fairTicket } =
      { lock := { snapshot with
          nextWriterTicket := snapshot.nextWriterTicket + 1
          exclusive := true
          policy := .fairTicket }
        traces := [.ticketAdmitted snapshot.nextWriterTicket] } :=
    if_neg (not_or.mpr ⟨ne_true_of_eq_false hfree, not_not.mpr hnext⟩)
  simp only [request, requestExclusive, hentry]

/-- A reader whose ticket is done finds the resource taken by the next writer. -/
theorem recheck_of_taken {l : Lock} {wait : Wait} (htaken : l.exclusive = true)
    (hempty : l.activeReaders = 0)
    (hwait : (∃ ticket, wait = .ticketDone ticket ∧ ticket < l.nowServing ∧ l.queuedReaders = 1) ∨
      wait = .groupEntry ∧ l.queuedReaders = 0) :
    l.recheck wait = { lock := { l with queuedReaders := 0 }, waits := some .groupEntry } := by
  rcases hwait with ⟨ticket, rfl, hdone, hqueued⟩ | ⟨rfl, hqueued⟩
  · simp [recheck, hdone, joinGroup, htaken, hempty, hqueued]
  · have hsame : { l with queuedReaders := 0 } = l := by rw [← hqueued]
    change l.joinGroup = _
    rw [joinGroup, if_pos ⟨hempty, htaken⟩, hsame]

end Lock

namespace Script

/-! ## One writer after the other -/

/-- The writer at a place holds the resource under the ticket with the number of its place, those
after it are at rest, and the reader, which is the first task, waits. -/
structure Passing (m : State) (place : Nat) (wait : Wait) : Prop where
  rest : m.running = none ∧ m.ready = []
  unsteered : m.picks = [] ∧ m.preempt = false
  policy : m.lock.policy = .fairTicket
  inside : m.lock.exclusive = true ∧ m.lock.activeReaders = 0
  serving : m.lock.nowServing = place
  issued : m.lock.nextWriterTicket = place + 1
  reader : m.tasks[0]? = some
    { point := .waiting wait, own := { holding := .guards [], command := some (.enter .shared) } }
  writer : m.tasks[place + 1]? = some { own := { holding := .guards [.exclusive] } }
  idle : ∀ task, place + 1 < task → task < m.tasks.length →
    m.tasks[task]? = some { own := { holding := .guards [] } }
  waiters : m.waiters = Waiters.park {} 0 wait.channel
  waits : wait = .ticketDone place ∧ m.lock.queuedReaders = 1 ∨
    wait = .groupEntry ∧ m.lock.queuedReaders = 0
  refused : ∀ mode, .granted 0 mode ∉ m.history

/-- The first of two writers is told to leave, and the second one to write. -/
def passOn (leader follower : String) : Step :=
  [.hand leader (some (.leave 0)), .hand follower (some (.enter .exclusive))]

/-- What happens when the writer at a place leaves, newest first. -/
def departEvents (place : Nat) : List (Event Note) :=
  [.noted (place + 1) (.left .exclusive 0), .released (place + 1) .exclusive,
    .traced (place + 1) (.ticketCompleted place), .turn (place + 1)]

/-- What happens when the writer after a place enters, newest first. -/
def followEvents (place : Nat) : List (Event Note) :=
  [.noted (place + 2) (.entered .exclusive), .granted (place + 2) .exclusive,
    .traced (place + 2) (.ticketAdmitted (place + 1)),
    .traced (place + 2) (.ticketIssued (place + 1)), .requested (place + 2) .exclusive,
    .turn (place + 2)]

/-- The two writers have their commands. -/
def told (m : State) (place : Nat) : State :=
  handing (handing m (place + 1) { holding := .guards [.exclusive] } (.leave 0)) (place + 2)
    { holding := .guards [] } (.enter .exclusive)

/-- The first writer has left, and the second one and the reader are ready. -/
def departed (m : State) (place : Nat) : State :=
  { m with
    lock := { m.lock with lastServedTicket := some place, exclusive := false }
    tasks := (m.tasks.set (place + 1) { own := { holding := .guards [] } }).set (place + 2)
      { own := { holding := .guards [], handed := some (.enter .exclusive) } }
    ready := [place + 2, 0]
    waiters := {}
    history := departEvents place ++ m.history }

/-- The second writer is inside, and the reader is still to look again. -/
def followed (m : State) (place : Nat) : State :=
  { departed m place with
    lock := { m.lock with lastServedTicket := some place, nextWriterTicket := place + 2 }
    tasks := (m.tasks.set (place + 1) { own := { holding := .guards [] } }).set (place + 2)
      { own := { holding := .guards [.exclusive] } }
    ready := [0]
    history := followEvents place ++ (departed m place).history }

/-- The reader waits again. -/
def passed (m : State) (place : Nat) : State :=
  { followed m place with
    lock := { (followed m place).lock with queuedReaders := 0 }
    tasks := (followed m place).tasks.set 0
      { point := .waiting .groupEntry
        own := { holding := .guards [], command := some (.enter .shared) } }
    ready := []
    waiters := { released := [0] }
    history := .turn 0 :: (followed m place).history }

theorem passed_history (m : State) (place : Nat) : (passed m place).history =
    .turn 0 :: (followEvents place ++ departEvents place) ++ m.history :=
  rfl

section Passing

variable {s : Script} {m : State} {place : Nat} {wait : Wait} {leader follower : String}

theorem Passing.giveOut (hpassing : Passing m place wait) (hstyle : s.style = .guard)
    (hleader : s.names.idxOf? leader = some (place + 1))
    (hfollower : s.names.idxOf? follower = some (place + 2)) (hmore : place + 2 < m.tasks.length) :
    (s.giveOut m (passOn leader follower)).1 = told m place := by
  have hfree : ∀ task, 0 < task → m.waiters.contains task = false := by
    intro task hpos
    rw [hpassing.waiters]
    cases wait.channel <;> simp [Waiters.park, Waiters.contains, hpos.ne']
  let leaving : State := handing m (place + 1) { holding := .guards [.exclusive] } (.leave 0)
  have hleaves : s.hand m leader (some (.leave 0)) = .ok leaving :=
    hand_eq_ok_iff.mpr ⟨_, _, _, hleader, rfl, hpassing.writer, hfree _ (Nat.succ_pos _), rfl,
      by rw [hstyle]; rfl, rfl⟩
  have hidle : leaving.tasks[place + 2]? = some { own := { holding := .guards [] } } :=
    (List.getElem?_set_ne (by omega)).trans (hpassing.idle (place + 2) (by omega) hmore)
  have hwrites : s.hand leaving follower (some (.enter .exclusive)) = .ok (told m place) :=
    hand_eq_ok_iff.mpr ⟨_, _, _, hfollower, rfl, hidle, hfree _ (Nat.succ_pos _), rfl,
      by rw [hstyle]; rfl, rfl⟩
  simp [passOn, Script.giveOut, giveOrder, carryOut, hleaves, hwrites]

theorem Passing.iterate_told (hpassing : Passing m place wait)
    (hmore : place + 2 < m.tasks.length) :
    iterate (Machine.step program) 3 (told m place) = departed m place := by
  have hne : place + 2 ≠ place + 1 := by omega
  have hlt : place + 1 < m.tasks.length := by omega
  have hturn : Turn (told m place) (place + 1) [place + 2] :=
    ⟨hpassing.rest.1, by simp [told, handing, hpassing.rest.2], hpassing.unsteered.1,
      hpassing.unsteered.2⟩
  -- both channels are notified, so it does not matter on which one the reader is parked
  have hwoken : m.waiters.writerDone ++ m.waiters.released = [0] := by
    rw [hpassing.waiters]
    cases wait.channel <;> rfl
  have htask : (told m place).tasks[place + 1]? = some
      { own := { holding := .guards [.exclusive], handed := some (.leave 0) } } := by
    simp [told, handing, hlt]
  refine (hturn.leaves htask rfl hpassing.policy hpassing.inside.1 hpassing.inside.2).trans ?_
  simp [turned, told, handing, departed, departEvents, hwoken, hpassing.serving, Holding.leave,
    List.set_comm _ _ hne]

theorem Passing.iterate_departed (hpassing : Passing m place wait)
    (hmore : place + 2 < m.tasks.length) :
    iterate (Machine.step program) 3 (departed m place) = followed m place := by
  have hturn : Turn (departed m place) (place + 2) [0] :=
    ⟨hpassing.rest.1, rfl, hpassing.unsteered.1, hpassing.unsteered.2⟩
  have hrequest := Lock.request_exclusive_of_free (l := (departed m place).lock) hpassing.policy rfl
    hpassing.issued.symm
  have htask : (departed m place).tasks[place + 2]? = some
      { own := { holding := .guards [], handed := some (.enter .exclusive) } } := by
    simp [departed, hmore]
  refine (hturn.enters htask hrequest rfl).trans ?_
  simp [turned, departed, followed, followEvents, hpassing.issued, hpassing.inside.1,
    Holding.enter]

theorem Passing.iterate_followed (hpassing : Passing m place wait) :
    iterate (Machine.step program) 2 (followed m place) = passed m place := by
  have hturn : Turn (followed m place) 0 [] :=
    ⟨hpassing.rest.1, rfl, hpassing.unsteered.1, hpassing.unsteered.2⟩
  have hwait : (∃ ticket, wait = .ticketDone ticket ∧ ticket < (followed m place).lock.nowServing ∧
      (followed m place).lock.queuedReaders = 1) ∨
      wait = .groupEntry ∧ (followed m place).lock.queuedReaders = 0 :=
    hpassing.waits.imp_left fun ⟨hwait, hqueued⟩ => ⟨place, hwait, place.lt_succ_self, hqueued⟩
  have hrecheck := Lock.recheck_of_taken (l := (followed m place).lock) hpassing.inside.1
    hpassing.inside.2 hwait
  have htask : (followed m place).tasks[0]? = some
      { point := .waiting wait
        own := { holding := .guards [], command := some (.enter .shared) } } := by
    simp [followed, hpassing.reader]
  refine (hturn.waitsOn htask hrecheck rfl).trans ?_
  simp [turned, followed, departed, passed, Wait.channel, Waiters.park]

theorem Passing.next (hpassing : Passing m place wait) (hmore : place + 2 < m.tasks.length) :
    Passing (passed m place) (place + 1) .groupEntry := by
  have hzero : 0 < m.tasks.length := by omega
  constructor
  case rest => exact ⟨hpassing.rest.1, rfl⟩
  case unsteered => exact hpassing.unsteered
  case policy => exact hpassing.policy
  case inside => exact hpassing.inside
  case serving => rfl
  case issued => rfl
  case reader => simp [passed, followed, hzero]
  case writer => simp [passed, followed, hmore]
  case idle =>
    intro task hlt htask
    have hbefore := hpassing.idle task (by omega) (by simpa [passed, followed] using htask)
    simp only [passed, followed]
    rw [List.getElem?_set_ne (by omega), List.getElem?_set_ne (by omega),
      List.getElem?_set_ne (by omega), hbefore]
  case waiters => rfl
  case waits => exact .inr ⟨rfl, rfl⟩
  case refused =>
    intro mode hgranted
    refine hpassing.refused mode ?_
    simpa [passed, followed, departed, departEvents, followEvents] using hgranted

end Passing

/-- The whole step in which a writer is followed by the next one. -/
theorem Passing.after {s : Script} {steps : List Step} {place : Nat} {wait : Wait}
    {leader follower : String} (hpassing : Passing (s.after steps) place wait)
    (hmore : place + 2 < (s.after steps).tasks.length) (hstyle : s.style = .guard)
    (hleader : s.names.idxOf? leader = some (place + 1))
    (hfollower : s.names.idxOf? follower = some (place + 2)) :
    s.after (steps ++ [passOn leader follower]) = passed (s.after steps) place := by
  refine after_eq_of_midway 8 ?_ (hpassing.next hmore).rest
  rw [midway, hpassing.giveOut hstyle hleader hfollower hmore, iterate_add _ 3 5,
    hpassing.iterate_told hmore, iterate_add _ 3 2, hpassing.iterate_departed hmore,
    hpassing.iterate_followed]

/-! ## The relay -/

def writerName (place : Nat) : String :=
  String.ofList (List.replicate (place + 1) 'w')

def firstWrite : Step :=
  [.hand (writerName 0) (some (.enter .exclusive))]

def firstRead : Step :=
  [.hand "r" (some (.enter .shared))]

/-- Each writer is followed by the next one. -/
def passes (count : Nat) : List Step :=
  (List.range (count + 1)).map fun place => passOn (writerName place) (writerName (place + 1))

/-- A reader asks while the first writer is inside, and then the writers follow each other. -/
def relay (count : Nat) : Script where
  policy := .fairTicket
  style := .guard
  names := "r" :: (List.range (count + 2)).map writerName
  steps := [firstWrite] ++ [firstRead] ++ passes count

theorem writerName_injective : Function.Injective writerName := by
  intro place other hsame
  simpa using congrArg List.length (String.ofList_injective hsame)

theorem relay_names_length (count : Nat) : (relay count).names.length = count + 3 := by
  simp [relay]

theorem relay_names_nodup (count : Nat) : (relay count).names.Nodup := by
  refine List.nodup_cons.mpr ⟨?_, List.nodup_range.map writerName_injective⟩
  rw [List.mem_map]
  rintro ⟨place, _, hname⟩
  have hchars : List.replicate (place + 1) 'w' = ['r'] := String.ofList_injective hname
  simp [List.replicate_succ] at hchars

theorem relay_writer (count : Nat) {place : Nat} (hplace : place < count + 2) :
    (relay count).names.idxOf? (writerName place) = some (place + 1) := by
  have hlt : place + 1 < (relay count).names.length := by
    rw [relay_names_length]
    omega
  have hname : (relay count).names[place + 1] = writerName place := by simp [relay]
  refine List.idxOf?_eq_some_iff.mpr ⟨hlt, hname, fun other hother hsame => hother.ne ?_⟩
  exact (relay_names_nodup count).getElem_inj_iff.mp (hsame.trans hname.symm)

theorem relay_reader (count : Nat) : (relay count).names.idxOf? "r" = some 0 := by
  simp [relay, List.idxOf?_cons]

theorem relay_start_tasks (count : Nat) :
    (relay count).start.tasks =
      List.replicate (count + 3) { own := { holding := .guards [] } } := by
  rw [start, List.map_const', relay_names_length]
  rfl

/-- The first writer is inside. -/
def begun (count : Nat) : State :=
  { (relay count).start with
    lock := { policy := .fairTicket, exclusive := true, nextWriterTicket := 1 }
    tasks := (relay count).start.tasks.set 1 { own := { holding := .guards [.exclusive] } }
    history := [.noted 1 (.entered .exclusive), .granted 1 .exclusive,
      .traced 1 (.ticketAdmitted 0), .traced 1 (.ticketIssued 0), .requested 1 .exclusive,
      .turn 1] }

theorem relay_after_firstWrite (count : Nat) : (relay count).after [firstWrite] = begun count := by
  have hidle : (relay count).start.tasks[1]? = some { own := { holding := .guards [] } } := by
    simp [relay_start_tasks]
  have hhand : (relay count).hand (relay count).start (writerName 0) (some (.enter .exclusive)) =
      .ok (handing (relay count).start 1 { holding := .guards [] } (.enter .exclusive)) :=
    hand_eq_ok_iff.mpr ⟨1, _, _, relay_writer count (by omega), rfl, hidle, rfl, rfl, rfl, rfl⟩
  have hturn : Turn (handing (relay count).start 1 { holding := .guards [] } (.enter .exclusive)) 1
      [] := ⟨rfl, rfl, rfl, rfl⟩
  have htask : (handing (relay count).start 1 { holding := .guards [] }
      (.enter .exclusive)).tasks[1]? = some
      { own := { holding := .guards [], handed := some (.enter .exclusive) } } := by
    simp [handing, relay_start_tasks]
  rw [← List.nil_append [firstWrite]]
  refine after_eq_of_midway 3 ?_ ⟨rfl, rfl⟩
  refine (congrArg (iterate (Machine.step program) 3) (giveOut_hand hhand)).trans ?_
  refine (hturn.enters htask (Lock.request_exclusive_of_free rfl rfl rfl) rfl).trans ?_
  simp [turned, handing, begun, start, relay, Lock.new, Holding.enter]

theorem relay_hand_reader (count : Nat) :
    (relay count).hand (begun count) "r" (some (.enter .shared)) =
      .ok (handing (begun count) 0 { holding := .guards [] } (.enter .shared)) := by
  have htask : (begun count).tasks[0]? = some { own := { holding := .guards [] } } := by
    simp [begun, relay_start_tasks]
  exact hand_eq_ok_iff.mpr ⟨0, _, _, relay_reader count, rfl, htask, rfl, rfl, rfl, rfl⟩

theorem relay_turn_reader (count : Nat) :
    Turn (handing (begun count) 0 { holding := .guards [] } (.enter .shared)) 0 [] :=
  ⟨rfl, rfl, rfl, rfl⟩

theorem relay_told_reader (count : Nat) :
    (handing (begun count) 0 { holding := .guards [] } (.enter .shared)).tasks[0]? = some
      { own := { holding := .guards [], handed := some (.enter .shared) } } := by
  simp [handing, begun, relay_start_tasks]

/-- The reader has its turn, and is about to ask. -/
theorem relay_midway_firstRead (count : Nat) :
    (relay count).midway [firstWrite] firstRead 2 =
      { begun count with
        tasks := (begun count).tasks.set 0
          { point := .before (.acquire .shared)
            own := { holding := .guards [], command := some (.enter .shared) } }
        running := some 0
        history := .turn 0 :: (begun count).history } := by
  rw [midway, relay_after_firstWrite, firstRead, giveOut_hand (relay_hand_reader count)]
  refine ((relay_turn_reader count).calls (relay_told_reader count)
    (Hand.resume_enter (.guards []) .shared _)).trans ?_
  simp [turned, handing, begun, start]

/-- The reader waits for the first ticket. -/
def queued (count : Nat) : State :=
  { begun count with
    lock := { (begun count).lock with queuedReaders := 1 }
    tasks := (begun count).tasks.set 0
      { point := .waiting (.ticketDone 0)
        own := { holding := .guards [], command := some (.enter .shared) } }
    waiters := { writerDone := [0] }
    history := [.traced 0 (.readerQueued 0), .requested 0 .shared, .turn 0] ++
      (begun count).history }

theorem relay_after_firstRead (count : Nat) :
    (relay count).after ([firstWrite] ++ [firstRead]) = queued count := by
  refine after_eq_of_midway 3 ?_ ⟨rfl, rfl⟩
  rw [midway, relay_after_firstWrite, firstRead, giveOut_hand (relay_hand_reader count)]
  have hwaits : ((begun count).lock.request .shared).waits = some (.ticketDone 0) := rfl
  refine ((relay_turn_reader count).queues (relay_told_reader count) rfl hwaits).trans ?_
  simp [turned, handing, queued, begun, start, Waiters.park, Wait.channel, Lock.request,
    Lock.requestShared, Snapshot.newestTicket?, Snapshot.nowServing]

theorem queued_passing (count : Nat) : Passing (queued count) 0 (.ticketDone 0) := by
  constructor
  case rest => exact ⟨rfl, rfl⟩
  case unsteered => exact ⟨rfl, rfl⟩
  case policy => rfl
  case inside => exact ⟨rfl, rfl⟩
  case serving => rfl
  case issued => rfl
  case reader => simp [queued, begun, relay_start_tasks]
  case writer => simp [queued, begun, relay_start_tasks]
  case idle =>
    intro task hlt htask
    simp only [queued, begun, relay_start_tasks, List.length_set, List.length_replicate] at htask ⊢
    rw [List.getElem?_set_ne (by omega), List.getElem?_set_ne (by omega),
      List.getElem?_replicate, if_pos htask]
  case waiters => rfl
  case waits => exact .inl ⟨rfl, rfl⟩
  case refused => simp [queued, begun]

/-! ## Overtaking without bound -/

/-- The running task is about to ask for a read while there is one ticket out. -/
structure ArrivesBehind (m : State) (reader ticket : Nat) : Prop where
  running : m.running = some reader
  stands : m.scene.At reader (.before (.acquire .shared))
  outstanding : ∀ other,
    other ∈ tickets .issued m.history ∧ other ∉ tickets .completed m.history ↔ other = ticket

structure QueuesBehind (m : State) (reader ticket : Nat) : Prop where
  stands : m.scene.At reader (.waiting (.ticketDone ticket))
  parked : m.waiters = { writerDone := [reader] }
  queued : m.lock.queuedReaders = 1

/-- In the next step a writer completes its ticket and another one takes the next ticket and is
admitted, and the reader waits on, no longer behind a ticket. -/
structure Overtakes (s : Script) (steps : List Step) (step : Step)
    (reader ticket leader follower : Nat) : Prop where
  traces : traces (s.respond (s.after steps) step).1.events =
    [(leader, .ticketCompleted ticket), (follower, .ticketIssued (ticket + 1)),
      (follower, .ticketAdmitted (ticket + 1))]
  stands : (s.after (steps ++ [step])).scene.At reader (.waiting .groupEntry)
  parked : (s.after (steps ++ [step])).waiters = { released := [reader] }
  unqueued : (s.after (steps ++ [step])).lock.queuedReaders = 0

/-- The reader asks behind one ticket, and in each of the next steps a writer is followed by another
one before the reader.  The reader is never let in. -/
structure Overtaken (s : Script) (opening : List Step) (asking : Step) (passing : List Step)
    (reader ticket : Nat) (writer : Nat → Nat) : Prop where
  arrives : ∃ moves, ArrivesBehind (s.midway opening asking moves) reader ticket
  queues : QueuesBehind (s.after (opening ++ [asking])) reader ticket
  overtakes : ∀ count step, passing[count]? = some step →
    Overtakes s (opening ++ [asking] ++ passing.take count) step reader (ticket + count)
      (writer count) (writer (count + 1))
  refused : ∀ mode, .granted reader mode ∉ (s.after (opening ++ [asking] ++ passing)).history

/-- Nothing steers the script but its commands: the longest ready task goes on, nobody is
interrupted, and nobody is woken without a notification. -/
structure Unsteered (s : Script) : Prop where
  picks : s.picks = []
  preempt : s.preempt = false
  orders : ∀ step ∈ s.steps, ∀ order ∈ step, ∀ names, order ≠ .wake names

theorem relay_unsteered (count : Nat) : Unsteered (relay count) := by
  refine ⟨rfl, rfl, ?_⟩
  intro step hstep order horder names
  simp only [relay, passes, List.mem_append, List.mem_singleton, List.mem_map] at hstep
  rcases hstep with (rfl | rfl) | ⟨place, _, rfl⟩
  · obtain rfl := List.mem_singleton.mp horder
    simp
  · obtain rfl := List.mem_singleton.mp horder
    simp
  · simp only [passOn, List.mem_cons, List.not_mem_nil, or_false] at horder
    rcases horder with rfl | rfl <;> simp

section Relay

variable {count place : Nat} {wait : Wait}

theorem passes_getElem? (hplace : place < count + 1) :
    (passes count)[place]? = some (passOn (writerName place) (writerName (place + 1))) := by
  simp [passes, hplace]

/-- The steps up to the one in which the writer at a place leaves. -/
def stepsBefore (count place : Nat) : List Step :=
  [firstWrite] ++ [firstRead] ++ (passes count).take place

theorem stepsBefore_succ (hplace : place < count + 1) :
    stepsBefore count (place + 1) =
      stepsBefore count place ++ [passOn (writerName place) (writerName (place + 1))] := by
  rw [stepsBefore, List.take_add_one, passes_getElem? hplace, Option.toList_some,
    ← List.append_assoc]
  rfl

/-- One writer more follows. -/
theorem relay_after_pass (hplace : place < count + 1)
    (hpassing : Passing ((relay count).after (stepsBefore count place)) place wait) :
    (relay count).after (stepsBefore count (place + 1)) =
      passed ((relay count).after (stepsBefore count place)) place ∧
    Passing ((relay count).after (stepsBefore count (place + 1))) (place + 1) .groupEntry := by
  have hmore : place + 2 < ((relay count).after (stepsBefore count place)).tasks.length := by
    rw [((relay count).reaches_after _).tasks_length, relay_names_length]
    omega
  have hleader : place < count + 2 := by omega
  have hfollower : place + 1 < count + 2 := by omega
  have hafter := hpassing.after hmore rfl (relay_writer count hleader) (relay_writer count hfollower)
  rw [← stepsBefore_succ hplace] at hafter
  exact ⟨hafter, hafter ▸ hpassing.next hmore⟩

/-- Wherever the relay has come to, it can go on: what the reader waits for changes once, with the
first pass. -/
theorem relay_passing (hplace : place ≤ count + 1) :
    ∃ wait, Passing ((relay count).after (stepsBefore count place)) place wait := by
  induction place with
  | zero =>
      refine ⟨.ticketDone 0, ?_⟩
      rw [stepsBefore, List.take_zero, List.append_nil, relay_after_firstRead]
      exact queued_passing count
  | succ place ih =>
      obtain ⟨wait, hpassing⟩ := ih (by omega)
      exact ⟨.groupEntry, (relay_after_pass (by omega) hpassing).2⟩

end Relay

/-- The number of writers that pass a reader that waits is not bounded.  The first step after its
request completes the ticket it waits for, and each of the others the ticket of a writer that came
after it. -/
theorem overtaking_unbounded (count : Nat) :
    ∃ (s : Script) (opening : List Step) (asking : Step) (passing : List Step) (reader ticket : Nat)
      (writer : Nat → Nat),
      s.policy = .fairTicket ∧ s.names.Nodup ∧ Unsteered s ∧
        s.steps = opening ++ [asking] ++ passing ∧ passing.length = count + 1 ∧
        Function.Injective writer ∧ Overtaken s opening asking passing reader ticket writer := by
  refine ⟨relay count, [firstWrite], firstRead, passes count, 0, 0, (· + 1), rfl,
    relay_names_nodup count, relay_unsteered count, rfl, by simp [passes], add_left_injective 1, ?_⟩
  constructor
  case arrives =>
    refine ⟨2, ?_⟩
    rw [relay_midway_firstRead]
    refine ⟨rfl, ?_, ?_⟩
    · simp [Scene.At, Machine.scene, begun, relay_start_tasks]
    · intro other
      simp [begun, tickets, Event.ticket?, Trace.ticket?, eq_comm]
  case queues =>
    rw [relay_after_firstRead]
    refine ⟨Machine.scene_at (queued_passing count).reader, rfl, rfl⟩
  case overtakes =>
    intro place step hstep
    have hplace : place < count + 1 := by
      simpa [passes] using (List.getElem?_eq_some_iff.mp hstep).1
    obtain rfl := Option.some.inj ((passes_getElem? hplace).symm.trans hstep)
    obtain ⟨wait, hpassing⟩ := relay_passing hplace.le
    obtain ⟨hafter, hnext⟩ := relay_after_pass hplace hpassing
    rw [stepsBefore_succ hplace] at hafter hnext
    refine ⟨?_, Machine.scene_at hnext.reader, hnext.waiters, ?_⟩
    · change traces ((relay count).respond ((relay count).after (stepsBefore count place)) _).1.events
        = _
      rw [respond_events, hafter, eventsSince_of_append (passed_history _ place), Nat.zero_add]
      rfl
    · rcases hnext.waits with ⟨hwait, _⟩ | ⟨_, hunqueued⟩
      · simp at hwait
      · exact hunqueued
  case refused =>
    obtain ⟨wait, hpassing⟩ := relay_passing (le_refl (count + 1))
    rw [stepsBefore, List.take_of_length_le (by simp [passes])] at hpassing
    exact hpassing.refused

end Script

end ReaderWriter
