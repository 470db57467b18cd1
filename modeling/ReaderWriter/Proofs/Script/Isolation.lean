import ReaderWriter.Proofs.Script.Data
import ReaderWriter.Proofs.Script.Reentrance
import ReaderWriter.Proofs.Script.Spans
import ReaderWriter.Script.Text

/-!
# The data behind the guards

In guard style a task that looks at the data has a guard at that moment, and one that changes it has
the write guard, as the command was allowed when it was handed over and nothing can be taken from a
task before it goes on.  So the exclusion of the lock is one of the data: nobody changes it while a
reader has its access open, and nobody else touches it while a writer has.  Every command about the
data that a task takes is carried out and noted, and what it looks at are all changes made so far.
-/

namespace ReaderWriter

namespace Script

variable {s : Script} {m : State} {task : Nat} {t : Task Hand}

/-! ## What a task may do when it goes on -/

theorem Balanced.no_writer_of_enters (hm : Balanced m) {lock : Lock} {point : Point} {wait : Wait}
    (hlooks : m.lock.Looks point lock wait) (hchannel : wait.channel = .released)
    (henters : ¬ lock.Blocks wait) (task : Nat) : held m.history task .exclusive = 0 := by
  by_contra hheld
  have hmode := hm.shared_of_enters (Nat.pos_of_ne_zero hheld) hlooks henters
  rw [hlooks.blocks_iff] at henters
  have hfree := Lock.not_blocks_shared hchannel hmode henters
  have hinside : m.lock.writersInside = 0 := by
    simp only [Lock.writersInside]
    rw [if_neg (fun hinside => hfree ⟨hinside.2, hinside.1⟩)]
  have hle := (hm.held_le task).2
  omega

theorem Holding.exclusive_mem_of_hasWriteGuard {holding : Holding}
    (hguard : holding.hasWriteGuard = true) : .exclusive ∈ holding.outermostFirst := by
  cases holding with
  | guards taken =>
      have hlast : taken.getLast? = some .exclusive := by simpa [hasWriteGuard] using hguard
      exact List.mem_of_getLast? hlast
  | _ => simp [hasWriteGuard] at hguard

theorem Holding.ne_nil_of_hasGuard {holding : Holding} (hguard : holding.hasGuard = true) :
    holding.outermostFirst ≠ [] := by
  cases holding with
  | guards taken =>
      have hne : taken ≠ [] := by simpa [hasGuard] using hguard
      exact hne
  | _ => simp [hasGuard] at hguard

/-- With one more access a reader may do whatever it might do before. -/
theorem Command.objection?_enter {command : Command} {holding : Holding}
    (hallowed : command.objection? .guard holding = none)
    (hreads : .exclusive ∉ holding.outermostFirst) (mode : Mode) :
    command.objection? .guard (holding.enter mode) = none := by
  have hwrites : holding.hasWriteGuard = false :=
    Bool.eq_false_of_not_eq_true fun hguard =>
      hreads (Holding.exclusive_mem_of_hasWriteGuard hguard)
  cases holding <;> cases command <;>
    simp_all [objection?, Holding.enter, Holding.innermost?, Holding.hasGuard]

/-- What the task was handed is still allowed, and a task inside of a command has not been handed
the next one before it waits. -/
structure Hand.Prepared (point : Point) (h : Hand) : Prop where
  allowed : ∀ command, h.handed = some command → command.objection? .guard h.holding = none
  idle : ∀ call, point = .before call → h.handed = none

theorem Hand.Prepared.of_none {h : Hand} (hhanded : h.handed = none) (point : Point) :
    h.Prepared point := by
  constructor
  · simp [hhanded]
  · exact fun _ _ => hhanded

theorem prepared_act (hm : Balanced m) (hprepared : m.Sound fun point h => h.Prepared point)
    (htask : m.tasks[task]? = some t) :
    (m.act program task t).Sound fun point h => h.Prepared point := by
  have hown := hprepared t (List.mem_of_getElem? htask)
  have htracked := hm.tracked t (List.mem_of_getElem? htask)
  have hacts := Machine.acts program m task t
  generalize m.act program task t = next at hacts ⊢
  unfold Machine.Sound
  cases hacts with
  | resumes hpoint =>
      rw [Machine.react_tasks]
      exact hprepared.set task (.of_none (t.own.resume_handed m.shared) _)
  | parks hlooks hblocks => exact hprepared.set task ⟨hown.allowed, by simp⟩
  | @enters lock wait hlooks hchannel henters =>
      have hnone := hm.no_writer_of_enters hlooks hchannel henters task
      rw [hm.held_eq htask, List.count_eq_zero] at hnone
      rw [Machine.react_tasks]
      refine hprepared.set task ⟨?_, ?_⟩
      · intro command hhanded
        have hholding := Hand.granted_holding htracked.command wait.mode m.shared
        have hhanded : t.own.handed = some command :=
          (t.own.granted_handed wait.mode m.shared).symm.trans hhanded
        exact hholding ▸ Command.objection?_enter (hown.allowed command hhanded) hnone wait.mode
      · intro call hpoint
        have houtside := t.own.granted_point wait.mode m.shared
        exact absurd (houtside.symm.trans hpoint) (by simp)
  | @returns mode r hpoint hrelease =>
      rw [Machine.react_tasks, Machine.foldl_notify_tasks]
      exact hprepared.set task
        (.of_none ((t.own.released_handed mode m.shared).trans (hown.idle _ hpoint)) _)
  | @misuses mode hpoint hrelease =>
      rw [Machine.react_tasks]
      have hnone : (Hand.misused mode t.own m.shared).own.handed = none := hown.idle _ hpoint
      exact hprepared.set task (.of_none hnone _)

theorem Reaches.prepared (hm : s.Reaches m) (hguard : s.style = .guard) :
    m.Sound fun point h => h.Prepared point := by
  refine hm.keeps_reached ?_ ?_ ?_ ?_
  · intro m next name command? hordered hprepared hhand
    obtain ⟨index, t, command, _, _, htask, _, _, hallowed, rfl⟩ := hand_eq_ok_iff.mp hhand
    rw [hguard] at hallowed
    refine hprepared.set index ⟨?_, ?_⟩
    · intro other hother
      obtain rfl : command = other := by simpa using hother
      exact hallowed
    · intro call hpoint
      exact absurd (hpoint ▸ Machine.scene_at htask) (hordered.not_before index call)
  · intro m next name _ hprepared hwake
    obtain ⟨_, _, rfl⟩ := wake_cases hwake
    exact hprepared
  · intro t ht
    obtain ⟨name, _, rfl⟩ := List.mem_map.mp ht
    exact .of_none rfl _
  · intro m next hreaches hprepared hstep
    have hstyle : s.style ≠ .raw := by simp [hguard]
    rcases Machine.step_cases hstep with
      ⟨_, c, _, rfl⟩ | ⟨_, _, _, rfl⟩ | ⟨task, t, _, htask, rfl⟩
    · exact hprepared
    · exact hprepared
    · exact prepared_act (hreaches.balanced hstyle) hprepared htask

/-! ## Who touches the data -/

/-- What a task with these accesses may note about the data. -/
def Note.Permitted (holding : Holding) (data : List Int) : Note → Prop
  | .saw seen => holding.hasGuard = true ∧ seen = data
  | .pushed _ => holding.hasWriteGuard = true
  | .cleared => holding.hasWriteGuard = true
  | _ => True

theorem Note.Permitted.exclusive_mem {note : Note} {holding : Holding} {data : List Int}
    (hpermitted : note.Permitted holding data) (hchanges : note.changes = true) :
    .exclusive ∈ holding.outermostFirst := by
  cases note with
  | pushed value => exact Holding.exclusive_mem_of_hasWriteGuard hpermitted
  | cleared => exact Holding.exclusive_mem_of_hasWriteGuard hpermitted
  | _ => simp [changes] at hchanges

theorem Note.Permitted.ne_nil {note : Note} {holding : Holding} {data : List Int}
    (hpermitted : note.Permitted holding data) (htouches : note.touches = true) :
    holding.outermostFirst ≠ [] := by
  cases hchanges : note.changes with
  | true => exact List.ne_nil_of_mem (hpermitted.exclusive_mem hchanges)
  | false =>
      cases note with
      | saw seen => exact Holding.ne_nil_of_hasGuard hpermitted.1
      | _ => simp_all [touches, changes]

/-- A turn outside of the lock notes one thing at most, and only what is permitted. -/
theorem Hand.Prepared.resume_notes {h : Hand} (hprepared : h.Prepared .outside)
    (data : List Int) :
    (h.resume data).notes = [] ∨
      ∃ note, (h.resume data).notes = [note] ∧ note.Permitted h.holding data := by
  have hunwind : ∀ (idle : Hand) (message : String), (idle.unwind message data).notes = [] ∨
      ∃ note, (idle.unwind message data).notes = [note] ∧ note.Permitted h.holding data := by
    intro idle message
    unfold Hand.unwind
    cases idle.holding.innermost? with
    | some mode => exact .inl rfl
    | none => exact .inr ⟨_, rfl, trivial⟩
  obtain ⟨holding, command, handed⟩ := h
  cases handed with
  | none => exact .inl rfl
  | some command =>
      have hallowed := hprepared.allowed command rfl
      cases command with
      | enter mode => exact .inl rfl
      | leave value =>
          left
          cases hmode : holding.innermost? <;> simp [resume, hmode, finish]
      | panic message => exact hunwind _ message
      | get =>
          have hguard : holding.hasGuard = true := by simpa [Command.objection?] using hallowed
          exact .inr ⟨_, rfl, hguard, rfl⟩
      | push value =>
          have hguard : holding.hasWriteGuard = true := by
            simpa [Command.objection?] using hallowed
          exact .inr ⟨_, rfl, hguard⟩
      | clear =>
          have hguard : holding.hasWriteGuard = true := by
            simpa [Command.objection?] using hallowed
          exact .inr ⟨_, rfl, hguard⟩
      | call call => exact .inl rfl

end Script

/-- Whoever touches the data is permitted to, in the state that the events before tell of. -/
def Event.Sourced (s : Script) (earlier : List (Event Script.Note)) : Event Script.Note → Prop
  | .noted task note => note.touches = true →
    ∃ before t, s.Reaches before ∧ before.history = earlier ∧ before.tasks[task]? = some t ∧
      note.Permitted t.own.holding before.shared
  | _ => True

namespace Script

/-- Every event of a history, newest first, is sourced. -/
def Sourced (s : Script) : List (Event Note) → Prop
  | [] => True
  | event :: earlier => event.Sourced s earlier ∧ Sourced s earlier

variable {s : Script} {m : State} {task : Nat}

theorem Sourced.of_append {later earlier : List (Event Note)}
    (hsourced : s.Sourced (later ++ earlier)) : s.Sourced earlier := by
  induction later with
  | nil => exact hsourced
  | cons event later ih => exact ih hsourced.2

theorem Sourced.append {events history : List (Event Note)} (hsourced : s.Sourced history)
    (huntouched : ∀ event ∈ events, event.touches = false) : s.Sourced (events ++ history) := by
  induction events with
  | nil => exact hsourced
  | cons event events ih =>
      obtain ⟨hevent, hrest⟩ := List.forall_mem_cons.mp huntouched
      refine ⟨?_, ih hrest⟩
      cases event with
      | noted task note =>
          intro htouches
          exact absurd (htouches.symm.trans hevent) (by simp)
      | _ => trivial

theorem Reaches.sourced (hm : s.Reaches m) (hguard : s.style = .guard) : s.Sourced m.history := by
  refine hm.keeps_reached (P := fun m => s.Sourced m.history) ?_ ?_ trivial ?_
  · intro m next name command? _ hsourced hhand
    obtain ⟨_, _, _, _, _, _, _, _, _, rfl⟩ := hand_eq_ok_iff.mp hhand
    exact hsourced
  · intro m next name _ hsourced hwake
    obtain ⟨_, _, rfl⟩ := wake_cases hwake
    exact hsourced
  · intro m next hreaches hsourced hstep
    rcases Machine.step_cases hstep with
      ⟨_, c, _, rfl⟩ | ⟨_, _, _, rfl⟩ | ⟨task, t, _, htask, rfl⟩
    · exact ⟨trivial, hsourced⟩
    · exact hsourced
    · by_cases hpoint : t.point = .outside
      · have hprepared := hreaches.prepared hguard t (List.mem_of_getElem? htask)
        rw [hpoint] at hprepared
        rw [act_of_outside m task hpoint, Machine.react_history]
        rcases hprepared.resume_notes m.shared with hnone | ⟨note, hone, hpermitted⟩
        · rw [hnone]
          exact hsourced
        · rw [hone]
          exact ⟨fun _ => ⟨m, t, hreaches, rfl, htask, hpermitted⟩, hsourced⟩
      · obtain ⟨_, events, hevents, huntouched⟩ := act_untouched m task hpoint
        rw [hevents]
        exact hsourced.append huntouched

theorem Reaches.touched_at (hm : s.Reaches m) (hguard : s.style = .guard) {moment : Nat}
    {note : Note} (hnote : m.history.reverse[moment]? = some (.noted task note))
    (htouches : note.touches = true) :
    ∃ before t, s.Reaches before ∧ before.history = (m.history.reverse.take moment).reverse ∧
      before.tasks[task]? = some t ∧ note.Permitted t.own.holding before.shared := by
  have hsplit : m.history = (m.history.reverse.drop (moment + 1)).reverse ++
      (m.history.reverse.take (moment + 1)).reverse := by
    rw [← List.reverse_append, List.take_append_drop, List.reverse_reverse]
  have hsourced := hm.sourced hguard
  rw [hsplit, reverse_take_succ hnote] at hsourced
  exact hsourced.of_append.1 htouches

theorem replay_take_eq {log : List (Event Note)} {first second : Nat} (hle : first ≤ second)
    (hsteady : ∀ moment, first ≤ moment → moment < second → ∀ task note,
      log[moment]? = some (.noted task note) → note.changes = false) (start : List Int) :
    replay start (log.take second) = replay start (log.take first) := by
  induction second, hle using Nat.le_induction with
  | base => rfl
  | succ second hle ih =>
      rw [← ih (fun moment hfirst hlt => hsteady moment hfirst (hlt.trans second.lt_succ_self)),
        List.take_add_one]
      cases hevent : log[second]? with
      | none => simp
      | some event =>
          rw [Option.toList_some, replay_concat]
          cases event with
          | noted task note =>
              exact Note.applied_of_not_changes
                (hsteady second hle second.lt_succ_self task note hevent) _
          | _ => rfl

/-! ## The isolation law -/

/-- The data of a script as its log tells it.  The log has the oldest event first, and the moment of
an event is the number of events before it. -/
structure Isolation (s : Script) (m : State) : Prop where
  /-- The accesses that are open are those that the tasks hold. -/
  accesses : ∀ (task : Nat) (t : Task Hand), m.tasks[task]? = some t →
    (openAccesses task m.history).map Prod.snd = t.own.holding.outermostFirst
  data : m.shared = replay s.data m.history.reverse
  /-- Who goes on with a command about the data carries it out at once, and it is noted. -/
  gets : ∀ task, Begins m task .get → ∃ next, m.step program = some next ∧
    next.shared = m.shared ∧ next.history = .noted task (.saw m.shared) :: m.history
  pushes : ∀ task value, Begins m task (.push value) → ∃ next, m.step program = some next ∧
    next.shared = m.shared ++ [value] ∧ next.history = .noted task (.pushed value) :: m.history
  clears : ∀ task, Begins m task .clear → ∃ next, m.step program = some next ∧
    next.shared = [] ∧ next.history = .noted task .cleared :: m.history
  /-- Who looks at the data sees all changes made so far, and that is what is shown. -/
  saw : ∀ moment task seen, m.history.reverse[moment]? = some (.noted task (.saw seen)) →
    seen = replay s.data (m.history.reverse.take moment) ∧
      eventText? s.nameOf (.noted task (.saw seen)) =
        some (s.names.getD task "" ++ " sees [" ++ ", ".intercalate (seen.map toString) ++ "]")
  /-- Nobody changes the data while a reader has its access open. -/
  reading : ∀ reader entered moment, OpenAt m.history.reverse reader entered .shared moment →
    ∀ task note, m.history.reverse[moment]? = some (.noted task note) → note.changes = false
  steady : ∀ reader entered first second, OpenAt m.history.reverse reader entered .shared first →
    OpenAt m.history.reverse reader entered .shared second →
    ∀ task other seen later, m.history.reverse[first]? = some (.noted task (.saw seen)) →
      m.history.reverse[second]? = some (.noted other (.saw later)) → seen = later
  /-- Nobody else looks at the data or changes it while a writer has its access open. -/
  writing : ∀ writer entered moment, OpenAt m.history.reverse writer entered .exclusive moment →
    ∀ task note, m.history.reverse[moment]? = some (.noted task note) → note.touches = true →
      task = writer

/-- After some steps the log has one note for each command about the data that a task took, in their
order.  Only a task that waits can still have one in hand. -/
structure Obeyed (s : Script) (steps : List Step) : Prop where
  carried : ∀ (task : Nat) (t : Task Hand), (s.after steps).tasks[task]? = some t →
    (s.after steps).waiters.contains task = false →
    carriedOut task (s.after steps).history.reverse = s.taken task s.start steps
  waiting : ∀ (task : Nat) (t : Task Hand), (s.after steps).tasks[task]? = some t →
    carriedOut task (s.after steps).history.reverse ++ t.own.handed.toList.filter Command.onData =
      s.taken task s.start steps

theorem after_obeyed (hguard : s.style = .guard) (steps : List Step) : Obeyed s steps := by
  have hall : ∀ (task : Nat) (t : Task Hand), (s.after steps).tasks[task]? = some t →
      carriedOut task (s.after steps).history.reverse ++
        t.own.handed.toList.filter Command.onData = s.taken task s.start steps :=
    fun task t htask => ((after_obeying hguard steps task).given_eq t htask).symm
  refine ⟨?_, hall⟩
  intro task t htask hfree
  have hsplit := hall task t htask
  rw [(s.after_free steps htask hfree).2] at hsplit
  simpa using hsplit

theorem saw_text (s : Script) (task : Nat) (seen : List Int) :
    eventText? s.nameOf (.noted task (.saw seen)) =
      some (s.names.getD task "" ++ " sees [" ++ ", ".intercalate (seen.map toString) ++ "]") := by
  simp only [eventText?, Note.text?, listText, Option.map_some, nameOf, Option.some.injEq]
  apply String.toList_injective
  simp

theorem Reaches.saw_eq (hm : s.Reaches m) (hguard : s.style = .guard) {moment : Nat}
    {seen : List Int} (hsaw : m.history.reverse[moment]? = some (.noted task (.saw seen))) :
    seen = replay s.data (m.history.reverse.take moment) := by
  obtain ⟨before, t, hbefore, hhistory, _, _, hseen⟩ := hm.touched_at hguard hsaw rfl
  have hshared := hbefore.shared_eq
  rw [hhistory, List.reverse_reverse] at hshared
  exact hseen.trans hshared

theorem Reaches.not_changes (hm : s.Reaches m) (hguard : s.style = .guard)
    {reader entered moment : Nat}
    (hopen : OpenAt m.history.reverse reader entered .shared moment) {note : Note}
    (hnote : m.history.reverse[moment]? = some (.noted task note)) : note.changes = false := by
  have hstyle : s.style ≠ .raw := by simp [hguard]
  by_contra hnot
  have hchanges := Bool.eq_true_of_not_eq_false hnot
  obtain ⟨before, t, hbefore, hhistory, htask, hpermitted⟩ :=
    hm.touched_at hguard hnote (Note.touches_of_changes hchanges)
  rw [OpenAt, ← hhistory] at hopen
  have hbalanced := hbefore.balanced hstyle
  have hreads := hbefore.held_of_open hstyle hopen
  have hwrites : 0 < held before.history task .exclusive := by
    rw [hbalanced.held_eq htask, List.count_pos_iff]
    exact hpermitted.exclusive_mem hchanges
  obtain ⟨_, hnone, halone⟩ := hbalanced.alone_of_writer hwrites
  by_cases hreader : reader = task
  · subst hreader
    exact absurd hnone hreads.ne'
  · exact absurd (halone reader hreader .shared) hreads.ne'

theorem Reaches.eq_writer (hm : s.Reaches m) (hguard : s.style = .guard)
    {writer entered moment : Nat}
    (hopen : OpenAt m.history.reverse writer entered .exclusive moment) {note : Note}
    (hnote : m.history.reverse[moment]? = some (.noted task note))
    (htouches : note.touches = true) : task = writer := by
  have hstyle : s.style ≠ .raw := by simp [hguard]
  by_contra hother
  obtain ⟨before, t, hbefore, hhistory, htask, hpermitted⟩ := hm.touched_at hguard hnote htouches
  rw [OpenAt, ← hhistory] at hopen
  have hbalanced := hbefore.balanced hstyle
  have halone := (hbalanced.alone_of_writer (hbefore.held_of_open hstyle hopen)).2.2 task hother
  obtain ⟨kind, hmem⟩ := List.exists_mem_of_ne_nil _ (hpermitted.ne_nil htouches)
  have hnone := halone kind
  rw [hbalanced.held_eq htask, List.count_eq_zero] at hnone
  exact hnone hmem

theorem Reaches.isolation (hm : s.Reaches m) (hguard : s.style = .guard) : Isolation s m := by
  have hsteady : ∀ reader entered first second,
      OpenAt m.history.reverse reader entered .shared first →
      OpenAt m.history.reverse reader entered .shared second → first ≤ second →
      replay s.data (m.history.reverse.take second) =
        replay s.data (m.history.reverse.take first) := by
    intro reader entered first second hfirst hsecond hle
    apply replay_take_eq hle
    intro moment hfrom hto task note hnote
    -- the access is open at every moment in between
    have hopen := hsecond.of_later (hfirst.granted.1.trans_le hfrom) hto.le
    exact hm.not_changes hguard hopen hnote
  constructor
  · exact hm.opened (by simp [hguard])
  · exact hm.shared_eq
  · exact fun task hbegins => hbegins.gets
  · exact fun task value hbegins => hbegins.pushes
  · exact fun task hbegins => hbegins.clears
  · exact fun moment task seen hsaw => ⟨hm.saw_eq hguard hsaw, s.saw_text task seen⟩
  · exact fun reader entered moment hopen task note hnote => hm.not_changes hguard hopen hnote
  · intro reader entered first second hfirst hsecond task other seen later hseen hlater
    rw [hm.saw_eq hguard hseen, hm.saw_eq hguard hlater]
    rcases Nat.le_total first second with hle | hle
    · exact (hsteady reader entered first second hfirst hsecond hle).symm
    · exact hsteady reader entered second first hsecond hfirst hle
  · exact fun writer entered moment hopen task note hnote htouches =>
      hm.eq_writer hguard hopen hnote htouches

/-- In guard style nobody changes the data while a reader has its access open, and nobody else
touches it while a writer has.  Each command about the data that a task takes is carried out in its
turn.  Whoever looks sees all changes made so far, and they are what is left at the end, whoever
still holds an access or waits. -/
theorem data_isolation (hguard : s.style = .guard) :
    (∀ m, s.Reaches m → Isolation s m) ∧ (∀ steps, Obeyed s steps) ∧
      s.run.answers.flatMap (·.events) = (s.after s.steps).history.reverse ∧
      ∀ appended, s.run.dataWith appended =
        replay s.data (s.run.answers.flatMap (·.events)) ++ appended := by
  refine ⟨fun m hm => hm.isolation hguard, after_obeyed hguard, s.run_events, ?_⟩
  intro appended
  rw [s.run_events, ← (s.reaches_after s.steps).shared_eq]
  rfl

/-- A writer changes the data, a reader looks at it twice, and the writer waits for good. -/
def sharedNotes : Script where
  policy := .fairTicket
  style := .guard
  names := ["a", "b", "c"]
  steps := [
    [.hand "a" (some (.enter .exclusive))],
    [.hand "a" (some (.push 2)), .hand "b" (some (.enter .shared))],
    [.hand "a" (some (.push 3))],
    [.hand "a" (some (.panic "dropped"))],
    [.hand "b" (some .get), .hand "c" (some (.enter .shared))],
    [.hand "a" (some (.enter .exclusive)), .hand "c" (some (.leave 0))],
    [.hand "b" (some .get)]]
  data := [1]

theorem data_isolation_sharedNotes :
    sharedNotes.style = .guard ∧ sharedNotes.Reaches (sharedNotes.after sharedNotes.steps) ∧
      carriedOut 1 (sharedNotes.after sharedNotes.steps).history.reverse = [.get, .get] ∧
      sharedNotes.run.dataWith [9] = [1, 2, 3, 9] := by
  have hguard : sharedNotes.style = .guard := rfl
  have hm := sharedNotes.reaches_after sharedNotes.steps
  obtain ⟨hisolation, hobeyed, hevents, hdata⟩ := data_isolation hguard
  have hreader : 1 < (sharedNotes.after sharedNotes.steps).tasks.length := by
    rw [hm.tasks_length]
    decide
  have hfree : (sharedNotes.after sharedNotes.steps).waiters.contains 1 = false := by
    decide +kernel
  have hcarried := (hobeyed sharedNotes.steps).carried 1 _ (List.getElem?_eq_getElem hreader) hfree
  have htaken : sharedNotes.taken 1 sharedNotes.start sharedNotes.steps = [.get, .get] := by
    decide +kernel
  have hlast :
      replay sharedNotes.data (sharedNotes.run.answers.flatMap (·.events)) = [1, 2, 3] := by
    rw [hevents, ← (hisolation _ hm).data]
    decide +kernel
  refine ⟨hguard, hm, hcarried.trans htaken, ?_⟩
  rw [hdata, hlast]
  rfl

end Script

end ReaderWriter
