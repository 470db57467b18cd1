import ReaderWriter.Proofs.Granting
import ReaderWriter.Proofs.Script.Reentrance

/-!
# Calls that arrive under tickets

A call that arrives under tickets is granted in its first section if and only if nothing is
outstanding: every ticket that was issued is completed, and for a writer there is no reader inside
either.  A reader need not look at the resource for that, because the ticket of a writer inside is
out.  Otherwise a reader queues up behind the newest ticket, and a writer waits for its turn.

So a reader comes to wait for the resource only after it has waited for a ticket, and whoever is let
in to write leaves no reader inside and no writer behind that has a smaller ticket.
-/

namespace ReaderWriter

namespace Scene

variable {ε : Type} {s : Scene ε}

/-- Nothing is outstanding that a call for such an access has to wait for. -/
def Clear (s : Scene ε) : Mode → Prop
  | .shared => tickets .issued s.history ⊆ tickets .completed s.history
  | .exclusive =>
    tickets .issued s.history ⊆ tickets .completed s.history ∧ s.lock.activeReaders = 0

/-- A reader that arrives finds nothing outstanding and may enter, or it queues up behind the
newest ticket. -/
theorem Ticketed.arrive_shared_cases (hticketed : s.Ticketed) :
    (s.Clear .shared ∧ s.lock.arrive .shared = { lock := s.lock, wait := .groupEntry } ∧
      ¬ s.lock.Blocks .groupEntry) ∨
    (¬ s.Clear .shared ∧ ∃ ticket, ticket + 1 = s.lock.nextWriterTicket ∧
      s.lock.nowServing ≤ ticket ∧
      s.lock.arrive .shared =
        { lock := s.lock.queueUp
          wait := .ticketDone ticket
          traces := [.readerQueued ticket] }) := by
  unfold Clear
  rw [hticketed.issued_subset_iff]
  rcases s.lock.arrive_shared_cases with ⟨harrive, hnone⟩ | ⟨_, ticket, hnewest, hopen, harrive⟩
  · have hdone := hnone hticketed.policy
    refine .inl ⟨hdone, harrive, ?_⟩
    rintro ⟨hempty, htaken⟩
    exact absurd (hticketed.serving_lt_of_writer htaken hempty) (Nat.not_lt.mpr hdone)
  · exact .inr ⟨by omega, ticket, hnewest, hopen, harrive⟩

/-- Under tickets the condition of a call that arrives is that nothing is outstanding. -/
theorem Ticketed.arrive_blocks_iff (hticketed : s.Ticketed) (haccounts : s.Accounts) (mode : Mode) :
    s.lock.Blocks (s.lock.arrive mode).wait ↔ ¬ s.Clear mode := by
  cases mode with
  | shared =>
      rcases hticketed.arrive_shared_cases with
        ⟨hclear, harrive, henters⟩ | ⟨hout, ticket, _, hopen, harrive⟩
      · rw [harrive]
        exact iff_of_false henters (not_not_intro hclear)
      · rw [harrive]
        exact iff_of_true hopen hout
  | exclusive =>
      rcases s.lock.arrive_exclusive_cases with ⟨hpolicy, _⟩ | ⟨_, harrive⟩
      · simp [hticketed.policy] at hpolicy
      · unfold Clear
        rw [harrive, hticketed.issued_subset_iff]
        have hle := hticketed.admitted_le
        unfold Lock.ticketsAdmitted at hle
        constructor
        · rintro (htaken | hturn) ⟨hdone, hempty⟩
          · have hlt := hticketed.serving_lt_of_writer htaken hempty
            omega
          · omega
        · intro hout
          by_contra hfree
          simp only [Lock.Blocks, not_or, Bool.not_eq_true, not_not] at hfree
          exact hout ⟨hfree.2.ge, haccounts.empty_of_free hfree.1⟩

/-- No two calls have the same ticket, also if one of them is just arriving. -/
theorem Ticketed.ticket_ne_of_looks (hticketed : s.Ticketed) {task other mine ticket : Nat}
    {point : Point} {lock : Lock} (hlooks : s.lock.Looks point lock (.writerEntry (some mine)))
    (hat : s.At task point) (hwaits : s.At other (.waiting (.writerEntry (some ticket))))
    (hother : other ≠ task) : ticket ≠ mine := by
  rintro rfl
  generalize hwait : Wait.writerEntry (some ticket) = wait at hlooks
  cases hlooks with
  | again waiting => exact hother (hticketed.owner_unique hwaits (hwait ▸ hat))
  | passes hdone => cases hwait
  | arrives mode =>
      obtain ⟨_, hissued, _⟩ := hticketed.asked other _ hwaits
      have hlt := hticketed.issued_lt hissued
      cases mode with
      | shared =>
          have hmode := s.lock.arrive_wait_mode .shared
          rw [← hwait] at hmode
          cases hmode
      | exclusive =>
          rcases s.lock.arrive_exclusive_cases with ⟨_, harrive⟩ | ⟨_, harrive⟩
          · simp [harrive] at hwait
          · rw [harrive] at hwait
            obtain rfl : ticket = s.lock.nextWriterTicket := by simpa using hwait
            exact absurd hlt (Nat.lt_irrefl _)

end Scene

namespace Script

variable {s : Script} {m next : State} {task : Nat} {mode : Mode}

/-! ## The section of the arrival -/

/-- What comes of a call in the section in which it arrives. -/
structure Arrived (m next : State) (task : Nat) (mode : Mode) : Prop where
  granted_iff : .granted task mode ∈ eventsSince m next ↔ m.scene.Clear mode
  /-- Nobody comes to wait for it. -/
  clear : m.scene.Clear mode → next.waiters = m.waiters
  reader : ¬ m.scene.Clear mode → mode = .shared →
    ∃ ticket, ticket + 1 = m.lock.nextWriterTicket ∧
      next.scene.At task (.waiting (.ticketDone ticket)) ∧
      next.waiters = m.waiters.park task .writerDone
  writer : ¬ m.scene.Clear mode → mode = .exclusive →
    next.scene.At task (.waiting (.writerEntry (some m.lock.nextWriterTicket))) ∧
      next.waiters = m.waiters.park task .released

theorem Reaches.arrived (hm : s.Reaches m) (hpolicy : s.policy = .fairTicket) {t : Task Hand}
    (htask : m.tasks[task]? = some t) (hpoint : t.point = .before (.acquire mode)) :
    Arrived m (m.act program task t) task mode := by
  have hticketed := hm.ticketed hpolicy
  have hblocks : m.lock.Blocks (m.lock.arrive mode).wait ↔ ¬ m.scene.Clear mode :=
    hticketed.arrive_blocks_iff hm.accounts mode
  rcases Machine.act_arrives program htask hpoint with ⟨henters, hletsIn⟩ | ⟨hwaits, hparks⟩
  · have hclear := not_not.mp (mt hblocks.mpr henters)
    obtain ⟨events, hhistory, hgrants, _⟩ := hletsIn.events
    refine ⟨iff_of_true ?_ hclear, fun _ => hletsIn.waiters, fun hout => absurd hclear hout,
      fun hout => absurd hclear hout⟩
    rw [eventsSince_of_append hhistory, List.mem_reverse, ← mem_grants, hgrants,
      m.lock.arrive_wait_mode]
    exact List.mem_singleton_self _
  · have hout := hblocks.mp hwaits
    refine ⟨iff_of_false ?_ hout, fun hclear => absurd hclear hout, ?_, ?_⟩
    · rw [eventsSince_of_append hparks.history, List.reverse_reverse]
      exact (m.lock.not_mem_arrivalEvents _ _ _ _).1
    · rintro - rfl
      rcases hticketed.arrive_shared_cases with ⟨hclear, _⟩ | ⟨_, ticket, hnewest, _, harrive⟩
      · exact absurd hclear hout
      · have hwait : (m.lock.arrive .shared).wait = .ticketDone ticket :=
          congrArg Arrival.wait harrive
        rw [hwait] at hparks
        exact ⟨ticket, hnewest, hparks.stands, hparks.waiters⟩
    · rintro - rfl
      rcases m.lock.arrive_exclusive_cases with ⟨hpreference, _⟩ | ⟨_, harrive⟩
      · simp [hm.policy, hpolicy] at hpreference
      · rw [harrive] at hparks
        exact ⟨hparks.stands, hparks.waiters⟩

/-! ## Readers that wait for the resource -/

/-- The task was parked behind a ticket, and has not asked for anything since. -/
def HasQueued (s : Script) (m : State) (task : Nat) : Prop :=
  ∃ earlier events, s.Reaches earlier ∧ s.Continues earlier m ∧
    task ∈ earlier.waiters.writerDone ∧ m.history = events ++ earlier.history ∧
      ∀ mode, .requested task mode ∉ events

theorem HasQueued.later (hqueued : HasQueued s m task)
    (hcontinues : ∀ earlier, s.Continues earlier m → s.Continues earlier next)
    (events : List (Event Note)) (hhistory : next.history = events ++ m.history)
    (hquiet : ∀ mode, .requested task mode ∉ events) : HasQueued s next task := by
  obtain ⟨earlier, before, hearlier, hm, hparked, hbefore, hnone⟩ := hqueued
  refine ⟨earlier, events ++ before, hearlier, hcontinues _ hm, hparked, ?_, ?_⟩
  · rw [hhistory, hbefore, List.append_assoc]
  · intro mode hmem
    rcases List.mem_append.mp hmem with hmem | hmem
    · exact hquiet mode hmem
    · exact hnone mode hmem

/-- Every reader that waits has queued up behind a ticket. -/
def ReadersQueue (s : Script) (m : State) : Prop :=
  ∀ task wait, m.scene.At task (.waiting wait) → wait.mode = .shared → HasQueued s m task

theorem ReadersQueue.act (hqueue : ReadersQueue s m) (hm : s.Reaches m)
    (hpolicy : s.policy = .fairTicket) {mover : Nat} {t : Task Hand}
    (hmover : m.tasks[mover]? = some t)
    (hstep : m.step program = some (m.act program mover t)) :
    ReadersQueue s (m.act program mover t) := by
  have hmoves : ∀ earlier, s.Continues earlier m →
      s.Continues earlier (m.act program mover t) := fun _ hearlier => hearlier.move hstep
  intro task wait hat hmode
  by_cases hne : task = mover
  · subst hne
    have hparks := Machine.act_parks program hmover hat
    obtain ⟨lock, hlooks, hblocks⟩ := hparks.looks
    have hwoken : ∀ waiting, t.point = .waiting waiting → waiting.mode = .shared →
        HasQueued s (m.act program task t) task := by
      intro waiting hpoint hshared
      have hqueued := hqueue task waiting (hpoint ▸ Machine.scene_at hmover) hshared
      refine hqueued.later hmoves [] ?_ (by simp)
      rw [hparks.history, hpoint]
      rfl
    generalize hpoint : t.point = point at hlooks
    cases hlooks with
    | again waits => exact hwoken wait hpoint hmode
    | @passes ticket hdone => exact hwoken (.ticketDone ticket) hpoint rfl
    | arrives asked =>
        obtain rfl : asked = .shared := (m.lock.arrive_wait_mode asked).symm.trans hmode
        obtain ⟨ticket, _, _, hwaiters⟩ := (hm.arrived hpolicy hmover hpoint).reader
          (((hm.ticketed hpolicy).arrive_blocks_iff hm.accounts .shared).mp
            ((m.lock.arrive_blocks_iff .shared _).mp hblocks)) rfl
        refine ⟨_, [], hm.step hstep, .refl, ?_, rfl, by simp⟩
        simp [hwaiters, Waiters.park]
  · obtain ⟨u, hu, hpoint⟩ := Machine.scene_at_iff.mp hat
    rw [Machine.act_tasks_of_ne program m t hne] at hu
    obtain ⟨events, hhistory, habout⟩ := m.act_records program mover t
    refine (hqueue task wait (hpoint ▸ Machine.scene_at hu) hmode).later hmoves _ hhistory ?_
    intro asked hmem
    exact hne (habout _ hmem)

theorem Reaches.readersQueue (hm : s.Reaches m) (hpolicy : s.policy = .fairTicket) :
    ReadersQueue s m := by
  refine hm.keeps_steps ?_ ?_ ?_
  · intro task wait hat
    simp [start_scene, Scene.start, Scene.At, List.getElem?_replicate] at hat
  · intro steps step hqueue task wait hat hmode
    rw [Scene.At, giveOut_points] at hat
    exact (hqueue task wait hat hmode).later
      (fun _ hearlier => hearlier.order (s.after_rest steps) step) [] (s.giveOut_history _ step) (by simp)
  · intro m next hm hqueue hstep
    have hstill : ∀ events, next.scene.points = m.scene.points →
        next.history = events ++ m.history →
        (∀ task mode, .requested task mode ∉ events) → ReadersQueue s next := by
      intro events hpoints hhistory hquiet task wait hat hmode
      rw [Scene.At, hpoints] at hat
      exact (hqueue task wait hat hmode).later (fun _ hearlier => hearlier.move hstep) _ hhistory
        (hquiet task)
    rcases Machine.step_cases hstep with
      ⟨_, c, _, rfl⟩ | ⟨_, _, _, rfl⟩ | ⟨mover, t, _, hmover, rfl⟩
    · exact hstill [.turn c.task] rfl rfl (by simp)
    · exact hstill [] rfl rfl (by simp)
    · exact hqueue.act hm hpolicy hmover hstep

/-! ## Writers that are let in -/

/-- The task is let in to write when everybody before it is gone. -/
structure InTurn (m next : State) (task : Nat) : Prop where
  empty : m.lock.exclusive = false ∧ m.lock.activeReaders = 0
  ticket : ∃ mine, .traced task (.ticketAdmitted mine) ∈ eventsSince m next ∧
    (∀ earlier < mine, earlier ∈ tickets .completed m.history) ∧
    ∀ other ticket, other ≠ task → m.scene.At other (.waiting (.writerEntry (some ticket))) →
      mine < ticket

theorem letsIn_of_granted (hstep : m.step program = some next)
    (hgranted : .granted task mode ∈ eventsSince m next) :
    ∃ t wait, m.tasks[task]? = some t ∧ wait.mode = mode ∧ m.LetsIn program task t wait next := by
  rcases Machine.step_grants hstep with ⟨mover, t, wait, htask, hletsIn⟩ | ⟨events, hhistory, hnone⟩
  · obtain ⟨events, hhistory, hgrants, _⟩ := hletsIn.events
    rw [eventsSince_of_append hhistory, List.mem_reverse, ← mem_grants, hgrants] at hgranted
    obtain ⟨rfl, rfl⟩ : task = mover ∧ mode = wait.mode := by simpa using hgranted
    exact ⟨t, wait, htask, rfl, hletsIn⟩
  · rw [eventsSince_of_append hhistory, List.mem_reverse, ← mem_grants, hnone] at hgranted
    simp at hgranted

theorem Reaches.inTurn (hm : s.Reaches m) (hpolicy : s.policy = .fairTicket)
    (hstep : m.step program = some next)
    (hgranted : .granted task .exclusive ∈ eventsSince m next) : InTurn m next task := by
  have hticketed := hm.ticketed hpolicy
  obtain ⟨t, wait, htask, hmode, hletsIn⟩ := letsIn_of_granted hstep hgranted
  obtain ⟨lock, hlooks, henters, _⟩ := hletsIn.looks
  rw [hlooks.blocks_iff] at henters
  have hsuits := hm.suits_of_looks htask hlooks
  rw [hpolicy] at hsuits
  obtain ⟨mine, rfl⟩ := hsuits.exists_ticket hmode
  have hfree := Lock.not_blocks_exclusive hmode henters
  obtain rfl : m.lock.nowServing = mine := by
    simp only [Lock.Blocks, not_or, not_not] at henters
    exact henters.2
  refine ⟨⟨hfree, hm.accounts.empty_of_free hfree⟩, m.lock.nowServing, ?_, ?_, ?_⟩
  · obtain ⟨events, hhistory, _, hadmission⟩ := hletsIn.events
    rw [eventsSince_of_append hhistory, List.mem_reverse]
    exact hadmission _ (List.mem_singleton_self _)
  · intro earlier hearlier
    exact hticketed.lawful.mem_tickets_iff.mpr (hearlier.trans_eq hticketed.completed.symm)
  · intro other ticket hother hat
    obtain ⟨_, _, hopen⟩ := hticketed.asked other _ hat
    have hle : m.lock.nowServing ≤ ticket := (Nat.le_add_right _ _).trans hopen
    refine lt_of_le_of_ne hle (Ne.symm ?_)
    exact hticketed.ticket_ne_of_looks hlooks (Machine.scene_at htask) hat hother

/-- In every state that a script under tickets comes to, a call that arrives is granted at once if
and only if nothing is outstanding that it has to wait for.  No reader waits for the resource that
has not queued up behind a ticket, and whoever is let in to write has nobody before it. -/
theorem granted_on_arrival (hpolicy : s.policy = .fairTicket) (hm : s.Reaches m) :
    (∀ task mode, m.running = some task → m.scene.At task (.before (.acquire mode)) →
      ∃ next, m.step program = some next ∧ Arrived m next task mode) ∧
    (∀ task wait, m.scene.At task (.waiting wait) → wait.mode = .shared → HasQueued s m task) ∧
    ∀ next task, m.step program = some next → .granted task .exclusive ∈ eventsSince m next →
      InTurn m next task := by
  refine ⟨?_, hm.readersQueue hpolicy, fun _ _ => hm.inTurn hpolicy⟩
  intro task mode hrunning hat
  obtain ⟨t, htask, hpoint⟩ := Machine.scene_at_iff.mp hat
  refine ⟨m.act program task t, ?_, hm.arrived hpolicy htask hpoint⟩
  simp [Machine.step, hrunning, htask]

/-- A reader asks again behind a writer that waits. -/
def arrivingReader : State :=
  queuedWriter.midway (queuedWriter.steps.take 3) [.hand "a" (some (.enter .shared))] 2

theorem granted_on_arrival_arrivingReader :
    queuedWriter.policy = .fairTicket ∧ queuedWriter.Reaches arrivingReader ∧
      ∃ next, arrivingReader.step program = some next ∧
        next.scene.At 0 (.waiting (.ticketDone 0)) ∧
        next.waiters = { released := [2], writerDone := [0] } := by
  have hpolicy : queuedWriter.policy = .fairTicket := rfl
  have hm : queuedWriter.Reaches arrivingReader := ⟨_, _, _, rfl⟩
  have hrunning : arrivingReader.running = some 0 := by decide +kernel
  have hat : arrivingReader.scene.points[0]? = some (.before (.acquire .shared)) := by
    decide +kernel
  have hnewest : arrivingReader.lock.nextWriterTicket = 1 := by decide +kernel
  have hwaiting : arrivingReader.waiters = { released := [2] } := by decide +kernel
  have hout : ¬ arrivingReader.scene.Clear .shared := by
    have hopen : 0 ∈ tickets .issued arrivingReader.history ∧
        0 ∉ tickets .completed arrivingReader.history := by
      decide +kernel
    exact fun hclear => hopen.2 (hclear hopen.1)
  obtain ⟨next, hstep, harrived⟩ := (granted_on_arrival hpolicy hm).1 0 .shared hrunning hat
  obtain ⟨ticket, hticket, hstands, hwaiters⟩ := harrived.reader hout rfl
  obtain rfl : ticket = 0 := Nat.succ.inj (hticket.trans hnewest)
  rw [hwaiting] at hwaiters
  exact ⟨hpolicy, hm, next, hstep, hstands, hwaiters⟩

end Script

end ReaderWriter
