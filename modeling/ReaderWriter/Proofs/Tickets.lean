import ReaderWriter.Proofs.Accesses
import ReaderWriter.Proofs.History

/-!
# Tickets and who has them

A lock with tickets keeps two numbers: the next ticket and the one being served.  They count the
tickets issued and completed, and between the two a ticket belongs to the call that took it: to one
that still waits for its turn, or to the writer inside.  The writer that leaves does not say which
ticket it had.  The one being served is the right one, as a writer enters only with that ticket and
nobody enters beside it.

A reader goes on to its group when the newest ticket on its arrival is completed.  So whoever enters
finds every ticket completed that was issued ahead of its request.
-/

namespace ReaderWriter

variable {ε : Type}

/-- The number of tickets admitted: those completed, and that of the writer inside. -/
def Lock.ticketsAdmitted (l : Lock) : Nat :=
  l.nowServing + l.writersInside

namespace Scene

/-- What is known about the tickets of a task that waits. -/
def Asked (s : Scene ε) (task : Nat) : Wait → Prop
  | .ticketDone ticket => ticketsAhead task s.history = ticket + 1
  | .groupEntry => ticketsAhead task s.history ≤ s.lock.nowServing
  | .writerEntry none => False
  | .writerEntry (some ticket) =>
    ticketsAhead task s.history = ticket ∧
      .traced task (.ticketIssued ticket) ∈ s.history ∧ s.lock.ticketsAdmitted ≤ ticket

theorem Asked.mono {s next : Scene ε} {task : Nat} {wait : Wait} (hasked : s.Asked task wait)
    (hahead : ticketsAhead task next.history = ticketsAhead task s.history)
    (hissued : ∀ event ∈ s.history, event ∈ next.history)
    (hserving : s.lock.nowServing ≤ next.lock.nowServing)
    (hfree : ∀ ticket, wait = .writerEntry (some ticket) → s.lock.ticketsAdmitted ≤ ticket →
      next.lock.ticketsAdmitted ≤ ticket) : next.Asked task wait := by
  cases wait with
  | ticketDone ticket => exact hahead.trans hasked
  | groupEntry => exact hahead.le.trans (hasked.trans hserving)
  | writerEntry ticket? =>
      cases ticket? with
      | none => exact hasked
      | some ticket =>
          obtain ⟨hticket, hmem, hwaits⟩ := hasked
          exact ⟨hahead.trans hticket, hissued _ hmem, hfree ticket rfl hwaits⟩

structure Ticketed (s : Scene ε) : Prop where
  policy : s.lock.policy = .fairTicket
  issued : (tickets .issued s.history).length = s.lock.nextWriterTicket
  admitted : (tickets .admitted s.history).length = s.lock.ticketsAdmitted
  completed : (tickets .completed s.history).length = s.lock.nowServing
  admitted_le : s.lock.ticketsAdmitted ≤ s.lock.nextWriterTicket
  lawful : Lawful s.history
  pending : ∀ task wait, s.At task (.waiting wait) → pending? task s.history = some wait.mode
  asked : ∀ task wait, s.At task (.waiting wait) → s.Asked task wait
  /-- A ticket that was not admitted belongs to a call that waits for its turn. -/
  owned : ∀ task ticket, .traced task (.ticketIssued ticket) ∈ s.history →
    s.lock.ticketsAdmitted ≤ ticket → s.At task (.waiting (.writerEntry (some ticket)))

theorem start_ticketed (tasks : Nat) : (start .fairTicket tasks : Scene ε).Ticketed := by
  have hnone : ∀ task wait, ¬ (start .fairTicket tasks : Scene ε).At task (.waiting wait) := by
    intro task wait hat
    simp [start, At, List.getElem?_replicate] at hat
  constructor
  · rfl
  · rfl
  · rfl
  · rfl
  · simp [start, Lock.ticketsAdmitted, Lock.new, Snapshot.nowServing, Lock.writersInside]
  · trivial
  · intro task wait hat
    exact absurd hat (hnone task wait)
  · intro task wait hat
    exact absurd hat (hnone task wait)
  · intro task ticket hissued
    simp [start] at hissued

theorem Ticketed.issued_lt {s : Scene ε} (hticketed : s.Ticketed) {task ticket : Nat}
    (hissued : .traced task (.ticketIssued ticket) ∈ s.history) :
    ticket < s.lock.nextWriterTicket := by
  rw [← hticketed.issued]
  exact hticketed.lawful.mem_tickets_iff.mp (mem_tickets.mpr ⟨_, _, hissued, rfl⟩)

/-- The ticket of a writer inside is out. -/
theorem Ticketed.serving_lt_of_writer {s : Scene ε} (hticketed : s.Ticketed)
    (htaken : s.lock.exclusive = true) (hempty : s.lock.activeReaders = 0) :
    s.lock.nowServing < s.lock.nextWriterTicket := by
  have hinside := Lock.writersInside_of_writer htaken hempty
  have hadmitted := hticketed.admitted_le
  unfold Lock.ticketsAdmitted at hadmitted
  omega

theorem Ticketed.owner_unique {s : Scene ε} (hticketed : s.Ticketed) {task other ticket : Nat}
    (htask : s.At task (.waiting (.writerEntry (some ticket))))
    (hother : s.At other (.waiting (.writerEntry (some ticket)))) : task = other := by
  have hissued : Trace.ticket? .issued (.ticketIssued ticket) = some ticket := rfl
  exact hticketed.lawful.ticket_unique (hticketed.asked task _ htask).2.1 hissued
    (hticketed.asked other _ hother).2.1 hissued

end Scene

/-! ## Events and fields that tickets do not depend on -/

/-- An event that concerns no ticket and no request. -/
def Event.Aside : Event ε → Prop
  | .requested _ _ => False
  | .granted _ _ => False
  | .traced _ (.readerQueued _) => True
  | .traced _ _ => False
  | _ => True

namespace Event.Aside

variable {event : Event ε} (haside : event.Aside) (earlier : List (Event ε))
include haside

theorem tickets_cons (stage : Stage) : tickets stage (event :: earlier) = tickets stage earlier := by
  have hnone : event.ticket? stage = none := by
    cases event with
    | traced task trace =>
        cases trace with
        | readerQueued ticket => cases stage <;> rfl
        | _ => exact haside.elim
    | _ => rfl
  rw [ReaderWriter.tickets_cons, hnone]
  rfl

theorem pending?_cons (task : Nat) : pending? task (event :: earlier) = pending? task earlier := by
  cases event <;> first | rfl | exact haside.elim

theorem ticketsAhead_cons (task : Nat) :
    ticketsAhead task (event :: earlier) = ticketsAhead task earlier := by
  cases event <;> first | rfl | exact haside.elim

theorem justified : event.Justified earlier := by
  cases event with
  | traced task trace =>
      cases trace with
      | readerQueued ticket => trivial
      | _ => exact haside.elim
  | requested task mode => trivial
  | granted task mode => exact haside.elim
  | _ => trivial

theorem issued_mem_cons {task ticket : Nat} :
    .traced task (.ticketIssued ticket) ∈ event :: earlier ↔
      .traced task (.ticketIssued ticket) ∈ earlier := by
  rw [List.mem_cons]
  refine or_iff_right ?_
  rintro rfl
  exact haside

end Event.Aside

namespace Scene

theorem Ticketed.aside {s : Scene ε} (hticketed : s.Ticketed) (event : Event ε)
    (haside : event.Aside) : ({ s with history := event :: s.history } : Scene ε).Ticketed := by
  constructor
  · exact hticketed.policy
  · rw [haside.tickets_cons]
    exact hticketed.issued
  · rw [haside.tickets_cons]
    exact hticketed.admitted
  · rw [haside.tickets_cons]
    exact hticketed.completed
  · exact hticketed.admitted_le
  · exact ⟨haside.justified _, hticketed.lawful⟩
  · intro task wait hat
    rw [haside.pending?_cons]
    exact hticketed.pending task wait hat
  · intro task wait hat
    exact (hticketed.asked task wait hat).mono (haside.ticketsAhead_cons _ _)
      (fun _ hmem => List.mem_cons_of_mem _ hmem) le_rfl (fun _ _ hfree => hfree)
  · intro task ticket hissued
    exact hticketed.owned task ticket ((haside.issued_mem_cons _).mp hissued)

/-- The fields of the lock on which its tickets depend. -/
theorem Ticketed.withLock {s : Scene ε} (hticketed : s.Ticketed) (lock : Lock)
    (hpolicy : lock.policy = s.lock.policy)
    (hnext : lock.nextWriterTicket = s.lock.nextWriterTicket)
    (hserving : lock.nowServing = s.lock.nowServing)
    (hinside : lock.writersInside = s.lock.writersInside) :
    ({ s with lock } : Scene ε).Ticketed := by
  have hadmitted : lock.ticketsAdmitted = s.lock.ticketsAdmitted := by
    simp only [Lock.ticketsAdmitted, hserving, hinside]
  constructor
  · exact hpolicy.trans hticketed.policy
  · exact hticketed.issued.trans hnext.symm
  · exact hticketed.admitted.trans hadmitted.symm
  · exact hticketed.completed.trans hserving.symm
  · rw [hadmitted, hnext]
    exact hticketed.admitted_le
  · exact hticketed.lawful
  · exact hticketed.pending
  · intro task wait hat
    exact (hticketed.asked task wait hat).mono rfl (fun _ hmem => hmem) hserving.ge
      (fun _ _ hfree => hadmitted.le.trans hfree)
  · intro task ticket hissued hfree
    exact hticketed.owned task ticket hissued (hadmitted ▸ hfree)

theorem Ticketed.withWaiters {s : Scene ε} (hticketed : s.Ticketed) (waiters : Waiters) :
    ({ s with waiters } : Scene ε).Ticketed :=
  ⟨hticketed.policy, hticketed.issued, hticketed.admitted, hticketed.completed,
    hticketed.admitted_le, hticketed.lawful, hticketed.pending, hticketed.asked, hticketed.owned⟩

/-- A task that does not wait goes to a point at which it does not wait either. -/
theorem Ticketed.relocate {s : Scene ε} (hticketed : s.Ticketed) {mover : Nat}
    {point : Point} (hat : s.At mover point) (target : Point)
    (hpoint : ∀ wait, point ≠ .waiting wait) (htarget : ∀ wait, target ≠ .waiting wait) :
    ({ s with points := s.points.set mover target } : Scene ε).Ticketed := by
  constructor
  · exact hticketed.policy
  · exact hticketed.issued
  · exact hticketed.admitted
  · exact hticketed.completed
  · exact hticketed.admitted_le
  · exact hticketed.lawful
  · intro task wait hset
    exact hticketed.pending task wait (At.of_set_away htarget hset).2
  · intro task wait hset
    exact hticketed.asked task wait (At.of_set_away htarget hset).2
  · intro task ticket hissued hfree
    exact (hticketed.owned task ticket hissued hfree).set_of_ne hat (hpoint _) target

/-! ## Requests, grants and releases -/

/-- A reader has asked and waits behind the tickets that are out, if any. -/
theorem Ticketed.afterRequest {s : Scene ε} (hticketed : s.Ticketed) {mover : Nat} {call : Call}
    (wait : Wait) (hat : s.At mover (.before call)) (hmode : wait.mode = .shared)
    (hasked : ({ s with
      points := s.points.set mover (.waiting wait)
      history := .requested mover .shared :: s.history } : Scene ε).Asked mover wait) :
    ({ s with
      points := s.points.set mover (.waiting wait)
      history := .requested mover .shared :: s.history } : Scene ε).Ticketed := by
  constructor
  · exact hticketed.policy
  · exact hticketed.issued
  · exact hticketed.admitted
  · exact hticketed.completed
  · exact hticketed.admitted_le
  · exact ⟨trivial, hticketed.lawful⟩
  · intro task other hset
    rcases At.of_set hset with ⟨rfl, hpoint⟩ | ⟨hne, htask⟩
    · obtain rfl : other = wait := by simpa using hpoint
      simp [pending?, hmode]
    · simp only [pending?, if_neg (Ne.symm hne)]
      exact hticketed.pending task other htask
  · intro task other hset
    rcases At.of_set hset with ⟨rfl, hpoint⟩ | ⟨hne, htask⟩
    · obtain rfl : other = wait := by simpa using hpoint
      exact hasked
    · exact (hticketed.asked task other htask).mono (if_neg (Ne.symm hne))
        (fun _ hmem => List.mem_cons_of_mem _ hmem) le_rfl (fun _ _ hfree => hfree)
  · intro task ticket hissued hfree
    have htask := hticketed.owned task ticket (by simpa using hissued) hfree
    exact htask.set_of_ne hat (by simp) _

/-- A writer has asked and waits with the ticket it took. -/
theorem Ticketed.afterTicket {s : Scene ε} (hticketed : s.Ticketed) {mover : Nat} {call : Call}
    (hat : s.At mover (.before call)) :
    ({ s with
      lock := s.lock.takeTicket
      points := s.points.set mover (.waiting (.writerEntry (some s.lock.nextWriterTicket)))
      history := .traced mover (.ticketIssued s.lock.nextWriterTicket) ::
        .requested mover .exclusive :: s.history } : Scene ε).Ticketed := by
  have hissued := hticketed.issued
  constructor
  · exact hticketed.policy
  · change (tickets .issued s.history).length + 1 = s.lock.nextWriterTicket + 1
    rw [hissued]
  · exact hticketed.admitted
  · exact hticketed.completed
  · exact hticketed.admitted_le.trans (Nat.le_succ _)
  · exact ⟨hissued.symm, trivial, hticketed.lawful⟩
  · intro task wait hset
    rcases At.of_set hset with ⟨rfl, hpoint⟩ | ⟨hne, htask⟩
    · obtain rfl : wait = .writerEntry (some s.lock.nextWriterTicket) := by simpa using hpoint
      simp [pending?, Wait.mode]
    · simp only [pending?, if_neg (Ne.symm hne)]
      exact hticketed.pending task wait htask
  · intro task wait hset
    rcases At.of_set hset with ⟨rfl, hpoint⟩ | ⟨hne, htask⟩
    · obtain rfl : wait = .writerEntry (some s.lock.nextWriterTicket) := by simpa using hpoint
      refine ⟨?_, List.mem_cons_self, hticketed.admitted_le⟩
      simpa [ticketsAhead] using hissued
    · exact (hticketed.asked task wait htask).mono (if_neg (Ne.symm hne))
        (fun _ hmem => List.mem_cons_of_mem _ (List.mem_cons_of_mem _ hmem)) le_rfl
        (fun _ _ hfree => hfree)
  · intro task ticket hmem hfree
    rcases List.mem_cons.mp hmem with hnewest | hmem
    · obtain ⟨rfl, rfl⟩ : task = mover ∧ ticket = s.lock.nextWriterTicket := by
        simpa using hnewest
      exact hat.set_self _
    · have htask := hticketed.owned task ticket (by simpa using hmem) hfree
      exact htask.set_of_ne hat (by simp) _

/-- A reader whose ticket is completed goes on to its group. -/
theorem Ticketed.afterPass {s : Scene ε} (hticketed : s.Ticketed) {mover ticket : Nat}
    (hat : s.At mover (.waiting (.ticketDone ticket))) (hdone : ticket < s.lock.nowServing) :
    ({ s with points := s.points.set mover (.waiting .groupEntry) } : Scene ε).Ticketed := by
  have hahead : ticketsAhead mover s.history = ticket + 1 := hticketed.asked mover _ hat
  constructor
  · exact hticketed.policy
  · exact hticketed.issued
  · exact hticketed.admitted
  · exact hticketed.completed
  · exact hticketed.admitted_le
  · exact hticketed.lawful
  · intro task wait hset
    rcases At.of_set hset with ⟨rfl, hpoint⟩ | ⟨_, htask⟩
    · obtain rfl : wait = .groupEntry := by simpa using hpoint
      exact hticketed.pending task (.ticketDone ticket) hat
    · exact hticketed.pending task wait htask
  · intro task wait hset
    rcases At.of_set hset with ⟨rfl, hpoint⟩ | ⟨_, htask⟩
    · obtain rfl : wait = .groupEntry := by simpa using hpoint
      exact hahead.le.trans hdone
    · exact hticketed.asked task wait htask
  · intro task other hissued hfree
    exact (hticketed.owned task other hissued hfree).set_of_ne hat (by simp) _

theorem Ticketed.afterGrant {s : Scene ε} (hticketed : s.Ticketed) {mover : Nat}
    (hat : s.At mover (.waiting .groupEntry)) :
    ({ s with
      points := s.points.set mover .outside
      history := .granted mover .shared :: s.history } : Scene ε).Ticketed := by
  have hahead : ticketsAhead mover s.history ≤ s.lock.nowServing := hticketed.asked mover _ hat
  constructor
  · exact hticketed.policy
  · exact hticketed.issued
  · exact hticketed.admitted
  · exact hticketed.completed
  · exact hticketed.admitted_le
  · refine ⟨⟨hticketed.pending mover _ hat, ?_⟩, hticketed.lawful⟩
    exact hahead.trans hticketed.completed.ge
  · intro task wait hset
    obtain ⟨hne, htask⟩ := At.of_set_away (by simp) hset
    simp only [pending?, if_neg (Ne.symm hne)]
    exact hticketed.pending task wait htask
  · intro task wait hset
    have htask := (At.of_set_away (by simp) hset).2
    exact (hticketed.asked task wait htask).mono rfl
      (fun _ hmem => List.mem_cons_of_mem _ hmem) le_rfl (fun _ _ hfree => hfree)
  · intro task ticket hissued hfree
    have htask := hticketed.owned task ticket (by simpa using hissued) hfree
    exact htask.set_of_ne hat (by simp) _

/-- The writer whose turn has come enters a free resource. -/
theorem Ticketed.afterAdmission {s : Scene ε} (hticketed : s.Ticketed) {mover : Nat}
    (hat : s.At mover (.waiting (.writerEntry (some s.lock.nowServing))))
    (hfree : s.lock.exclusive = false) (hempty : s.lock.activeReaders = 0) :
    ({ s with
      lock := s.lock.enter .exclusive
      points := s.points.set mover .outside
      history := .granted mover .exclusive ::
        .traced mover (.ticketAdmitted s.lock.nowServing) :: s.history } : Scene ε).Ticketed := by
  have hbefore : s.lock.ticketsAdmitted = s.lock.nowServing := by
    simp [Lock.ticketsAdmitted, Lock.writersInside_of_free hfree]
  have hafter : (s.lock.enter .exclusive).ticketsAdmitted = s.lock.nowServing + 1 := by
    have hinside : (s.lock.enter .exclusive).writersInside = 1 :=
      Lock.writersInside_of_writer rfl hempty
    simp only [Lock.ticketsAdmitted, hinside]
    rfl
  obtain ⟨hahead, hissued, _⟩ := hticketed.asked mover _ hat
  have hnext := hticketed.issued_lt hissued
  constructor
  · exact hticketed.policy
  · exact hticketed.issued
  · change (tickets .admitted s.history).length + 1 = _
    rw [hticketed.admitted, hbefore, hafter]
  · exact hticketed.completed
  · rw [hafter]
    exact hnext
  · refine ⟨⟨hticketed.pending mover _ hat, ?_⟩, ⟨?_, ?_⟩, hticketed.lawful⟩
    · exact hahead.le.trans hticketed.completed.ge
    · rw [hticketed.admitted, hbefore]
    · exact hissued
  · intro task wait hset
    obtain ⟨hne, htask⟩ := At.of_set_away (by simp) hset
    simp only [pending?, if_neg (Ne.symm hne)]
    exact hticketed.pending task wait htask
  · intro task wait hset
    obtain ⟨hne, htask⟩ := At.of_set_away (by simp) hset
    refine (hticketed.asked task wait htask).mono rfl
      (fun _ hmem => List.mem_cons_of_mem _ (List.mem_cons_of_mem _ hmem)) le_rfl ?_
    rintro ticket rfl hopen
    -- the ticket being served is the mover's own
    have hother : ticket ≠ s.lock.nowServing := by
      rintro rfl
      exact hne (hticketed.owner_unique htask hat)
    rw [hafter]
    rw [hbefore] at hopen
    omega
  · intro task ticket hmem hopen
    rw [hafter] at hopen
    have htask := hticketed.owned task ticket (by simpa using hmem) (by omega)
    have hdiffers : s.lock.nowServing ≠ ticket := by omega
    exact htask.set_of_ne hat (by simpa using hdiffers) _

/-- The writer inside completes the ticket being served. -/
theorem Ticketed.afterCompletion {s : Scene ε} (hticketed : s.Ticketed) (task : Nat)
    (htaken : s.lock.exclusive = true) (hempty : s.lock.activeReaders = 0) :
    ({ s with
      lock := { s.lock with lastServedTicket := some s.lock.nowServing, exclusive := false }
      history := .traced task (.ticketCompleted s.lock.nowServing) :: s.history } :
      Scene ε).Ticketed := by
  have hbefore : s.lock.ticketsAdmitted = s.lock.nowServing + 1 := by
    simp [Lock.ticketsAdmitted, Lock.writersInside_of_writer htaken hempty]
  -- the ticket of the writer inside was counted as admitted and is now counted as completed
  have hafter : ({ s.lock with
      lastServedTicket := some s.lock.nowServing, exclusive := false } : Lock).ticketsAdmitted =
      s.lock.ticketsAdmitted := by
    rw [hbefore]
    simp [Lock.ticketsAdmitted, Lock.writersInside_of_free, Snapshot.nowServing]
  constructor
  · exact hticketed.policy
  · exact hticketed.issued
  · exact hticketed.admitted.trans hafter.symm
  · exact congrArg (· + 1) hticketed.completed
  · rw [hafter]
    exact hticketed.admitted_le
  · refine ⟨⟨hticketed.completed.symm, ?_⟩, hticketed.lawful⟩
    rw [hticketed.admitted, hbefore]
    exact Nat.lt_succ_self _
  · exact hticketed.pending
  · intro other wait hat
    exact (hticketed.asked other wait hat).mono rfl
      (fun _ hmem => List.mem_cons_of_mem _ hmem) (Nat.le_succ _)
      (fun _ _ hfree => hafter.le.trans hfree)
  · intro other ticket hmem hfree
    exact hticketed.owned other ticket (by simpa using hmem) (hafter ▸ hfree)

theorem Ticketed.arrive {s : Scene ε} (hticketed : s.Ticketed) {task : Nat} {mode : Mode}
    (hat : s.At task (.before (.acquire mode))) :
    ({ s with
      lock := (s.lock.arrive mode).lock
      points := s.points.set task (.waiting (s.lock.arrive mode).wait)
      history := ((s.lock.arrive mode).traces.map (.traced task)).reverse ++
        .requested task mode :: s.history } : Scene ε).Ticketed := by
  cases mode with
  | exclusive =>
      rcases s.lock.arrive_exclusive_cases with ⟨hpolicy, _⟩ | ⟨_, harrive⟩
      · simp [hticketed.policy] at hpolicy
      · rw [harrive]
        exact hticketed.afterTicket hat
  | shared =>
      rcases s.lock.arrive_shared_cases with ⟨harrive, hnone⟩ | ⟨_, ticket, hnewest, _, harrive⟩
      · rw [harrive]
        refine hticketed.afterRequest .groupEntry hat rfl ?_
        simpa [Asked, ticketsAhead, hticketed.issued] using hnone hticketed.policy
      · rw [harrive]
        have hasked : ticketsAhead task (.requested task .shared :: s.history) = ticket + 1 := by
          simp [ticketsAhead, hticketed.issued, hnewest]
        have hrequested := hticketed.afterRequest (.ticketDone ticket) hat rfl hasked
        have hqueued := hrequested.aside (.traced task (.readerQueued ticket)) trivial
        exact hqueued.withLock s.lock.queueUp rfl rfl rfl rfl

theorem Ticketed.enter {s : Scene ε} (haccounts : s.Accounts) (hticketed : s.Ticketed)
    {task : Nat} {wait : Wait} (hat : s.At task (.waiting wait))
    (hchannel : wait.channel = .released) (henters : ¬ s.lock.Blocks wait) :
    ({ s with
      lock := s.lock.enter wait.mode
      points := s.points.set task .outside
      history := .granted task wait.mode ::
        ((wait.admission.map (.traced task)).reverse ++ s.history) } : Scene ε).Ticketed := by
  cases wait with
  | ticketDone ticket => simp [Wait.channel] at hchannel
  | groupEntry =>
      have hnone : s.lock.writersInside = 0 := by
        simp only [Lock.writersInside]
        rw [if_neg (fun hinside => henters ⟨hinside.2, hinside.1⟩)]
      have hgroup : (s.lock.enter .shared).writersInside = 0 :=
        Lock.writersInside_of_readers (Nat.succ_pos _)
      exact (hticketed.afterGrant hat).withLock (s.lock.enter .shared) rfl rfl rfl
        (hgroup.trans hnone.symm)
  | writerEntry ticket? =>
      cases ticket? with
      | none => exact (hticketed.asked task _ hat).elim
      | some ticket =>
          have hfree : s.lock.exclusive = false := Lock.not_blocks_exclusive rfl henters
          obtain rfl : s.lock.nowServing = ticket := by
            simp only [Lock.Blocks, not_or, not_not] at henters
            exact henters.2
          exact hticketed.afterAdmission hat hfree (haccounts.empty_of_free hfree)

theorem Ticketed.leave {s : Scene ε} (hticketed : s.Ticketed) {task : Nat} {mode : Mode}
    {r : Release} (hat : s.At task (.before (.release mode)))
    (hrelease : s.lock.release? mode = some r) (waiters : Waiters) :
    ({ lock := r.lock
       points := s.points.set task .outside
       waiters
       history := .released task mode ::
         ((r.traces.map (.traced task)).reverse ++ s.history) } : Scene ε).Ticketed := by
  have haway := hticketed.relocate hat .outside (by simp) (by simp)
  cases mode with
  | exclusive =>
      obtain ⟨⟨htaken, hempty⟩, hcases⟩ := Lock.release?_exclusive_cases hrelease
      rcases hcases with ⟨hpolicy, _⟩ | ⟨_, rfl⟩
      · simp [hticketed.policy] at hpolicy
      · have hcompleted := haway.afterCompletion task htaken hempty
        exact (hcompleted.aside (.released task .exclusive) trivial).withWaiters waiters
  | shared =>
      have hreturned := (haway.aside (.released task .shared) trivial).withWaiters waiters
      have hnone : 0 < s.lock.activeReaders → s.lock.writersInside = 0 :=
        Lock.writersInside_of_readers
      rcases Lock.release?_shared_cases hrelease with ⟨hlast, rfl⟩ | ⟨hmany, rfl⟩
      · exact hreturned.withLock _ rfl rfl rfl
          ((Lock.writersInside_of_free rfl).trans (hnone (by omega)).symm)
      · have hrest : 0 < s.lock.activeReaders - 1 := by omega
        exact hreturned.withLock _ rfl rfl rfl
          ((Lock.writersInside_of_readers hrest).trans (hnone (by omega)).symm)

theorem Ticketed.move {s next : Scene ε} (hmove : Move s next) (haccounts : s.Accounts)
    (hticketed : s.Ticketed) : next.Ticketed := by
  cases hmove with
  | turn task => exact hticketed.aside (.turn task) trivial
  | note task note => exact hticketed.aside (.noted task note) trivial
  | approach call hat => exact hticketed.relocate hat _ (by simp) (by simp)
  | arrive hat => exact hticketed.arrive hat
  | park hat hblocks => exact hticketed.withWaiters _
  | pass hat hdone =>
      exact (hticketed.afterPass hat hdone).withLock s.lock.pass rfl rfl rfl rfl
  | enter hat hchannel henters => exact hticketed.enter haccounts hat hchannel henters
  | leave hat hrelease => exact hticketed.leave hat hrelease _
  | misuse hat hrelease =>
      exact (hticketed.relocate hat _ (by simp) (by simp)).aside _ trivial
  | wake task => exact hticketed.withWaiters _

theorem Run.ticketed {s last : Scene ε} (hrun : Run s last) (haccounts : s.Accounts)
    (hticketed : s.Ticketed) : last.Ticketed := by
  -- a writer finds nobody inside only by the accounts, so the two invariants go together
  have hboth := hrun.keeps (P := fun s => s.Accounts ∧ s.Ticketed)
    (fun hmove hs => ⟨hs.1.move hmove, hs.2.move hmove hs.1⟩) ⟨haccounts, hticketed⟩
  exact hboth.2

end Scene

end ReaderWriter
