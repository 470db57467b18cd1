import ReaderWriter.Proofs.Balance
import ReaderWriter.Proofs.Script.Exclusion
import ReaderWriter.Proofs.Script.Turns

/-!
# The data of a script

The data is what the log says: the data at the start, with every change that was noted applied in
order.  In guard style a task takes a command about the data if it has the guard for it.  It carries
the command out in one turn outside of the lock, which notes it and changes the data accordingly, so
the log has one note for each command that was taken, in their order.  Only a task that waits can
still have a command in hand.
-/

namespace ReaderWriter

namespace Script.Note

/-- The data after what the note tells. -/
def applied (data : List Int) : Note → List Int
  | .pushed value => data ++ [value]
  | .cleared => []
  | _ => data

/-- Somebody changed the data. -/
def changes : Note → Bool
  | .pushed _ => true
  | .cleared => true
  | _ => false

/-- Somebody looked at the data or changed it. -/
def touches : Note → Bool
  | .saw _ => true
  | note => note.changes

/-- The command that the note tells of, if it is one about the data. -/
def dataCommand? : Note → Option Command
  | .saw _ => some .get
  | .pushed value => some (.push value)
  | .cleared => some .clear
  | _ => none

end Script.Note

namespace Event

def applied (data : List Int) : Event Script.Note → List Int
  | .noted _ note => note.applied data
  | _ => data

def touches : Event Script.Note → Bool
  | .noted _ note => note.touches
  | _ => false

/-- The command about the data that the event tells of, if it is one of the task. -/
def dataCommand? (task : Nat) : Event Script.Note → Option Script.Command
  | .noted other note => if other = task then note.dataCommand? else none
  | _ => none

end Event

namespace Script

/-! ## The data and the log -/

/-- The data after a log, oldest event first. -/
def replay (start : List Int) (log : List (Event Note)) : List Int :=
  log.foldl Event.applied start

theorem Note.applied_of_not_changes {note : Note} (hnote : note.changes = false)
    (data : List Int) : note.applied data = data := by
  cases note <;> simp_all [changes, applied]

theorem Note.touches_of_changes {note : Note} (hnote : note.changes = true) :
    note.touches = true := by
  cases note <;> simp_all [changes, touches]

theorem replay_append (start : List Int) (log more : List (Event Note)) :
    replay start (log ++ more) = replay (replay start log) more :=
  List.foldl_append

theorem replay_concat (start : List Int) (log : List (Event Note)) (event : Event Note) :
    replay start (log ++ [event]) = event.applied (replay start log) :=
  replay_append start log [event]

theorem replay_noted (data : List Int) (task : Nat) (notes : List Note) :
    replay data (notes.map (.noted task)) = notes.foldl Note.applied data :=
  List.foldl_map

theorem replay_of_untouched {events : List (Event Note)}
    (huntouched : ∀ event ∈ events, event.touches = false) (data : List Int) :
    replay data events = data := by
  induction events generalizing data with
  | nil => rfl
  | cons event events ih =>
      obtain ⟨hevent, hrest⟩ := List.forall_mem_cons.mp huntouched
      have hsame : event.applied data = data := by
        cases event with
        | noted task note =>
            apply Note.applied_of_not_changes
            by_contra hchanges
            have htouches := note.touches_of_changes (Bool.eq_true_of_not_eq_false hchanges)
            exact absurd (hevent.symm.trans htouches) (by simp)
        | _ => rfl
      exact (congrArg (fun data => replay data events) hsame).trans (ih hrest data)

namespace Hand

/-- What a reaction does to the data is what it notes. -/
theorem unwind_shared (h : Hand) (message : String) (data : List Int) :
    (h.unwind message data).shared = (h.unwind message data).notes.foldl Note.applied data := by
  unfold unwind
  cases h.holding.innermost? <;> rfl

theorem resume_shared (h : Hand) (data : List Int) :
    (h.resume data).shared = (h.resume data).notes.foldl Note.applied data := by
  unfold resume
  simp only
  split
  · rfl
  · rfl
  · cases h.holding.innermost? <;> rfl
  · exact unwind_shared _ _ data
  · rfl
  · rfl
  · rfl
  · rfl

theorem unwind_untouched (h : Hand) (message : String) (data : List Int) :
    ∀ note ∈ (h.unwind message data).notes, note.touches = false := by
  unfold unwind
  cases h.holding.innermost? <;> simp [finish, Note.touches, Note.changes]

theorem granted_untouched (mode : Mode) (h : Hand) (data : List Int) :
    (granted mode h data).shared = data ∧
      ∀ note ∈ (granted mode h data).notes, note.touches = false := by
  unfold granted
  split <;> simp [finish, Note.touches, Note.changes]

theorem released_untouched (mode : Mode) (h : Hand) (data : List Int) :
    (released mode h data).shared = data ∧
      ∀ note ∈ (released mode h data).notes, note.touches = false := by
  unfold released
  simp only
  split
  · simp [finish, Note.touches, Note.changes]
  · refine ⟨?_, unwind_untouched _ _ data⟩
    unfold unwind
    cases Holding.innermost? _ <;> rfl
  · simp [finish, Note.touches, Note.changes]
  · simp [finish]

end Hand

section Untouched

variable {m later next : State} {task : Nat} {t : Task Hand}

/-- Nobody has looked at the data or changed it since. -/
def Untouched (m later : State) : Prop :=
  later.shared = m.shared ∧
    ∃ events, later.history = events ++ m.history ∧ ∀ event ∈ events, event.touches = false

theorem Untouched.react (hlater : Untouched m later) {r : React} (hshared : r.shared = later.shared)
    (hnotes : ∀ note ∈ r.notes, note.touches = false) (task : Nat) :
    Untouched m (later.react task r) := by
  obtain ⟨hsame, events, hevents, huntouched⟩ := hlater
  refine ⟨(Machine.react_shared _ _ _).trans (hshared.trans hsame),
    (r.notes.map (.noted task)).reverse ++ events, ?_, ?_⟩
  · rw [Machine.react_history, hevents, List.append_assoc]
  · intro event hevent
    rcases List.mem_append.mp hevent with hnoted | hold
    · obtain ⟨note, hnote, rfl⟩ : ∃ note ∈ r.notes, .noted task note = event := by
        simpa using hnoted
      exact hnotes note hnote
    · exact huntouched event hold

theorem untouched_of_arrivalEvents {l : Lock} {point : Point} {event : Event Note}
    (hevent : event ∈ l.arrivalEvents task point) : event.touches = false := by
  rcases Lock.arrivalEvents_cases hevent with ⟨_, rfl⟩ | ⟨_, rfl⟩ <;> rfl

/-- The data is touched outside of the lock only. -/
theorem act_untouched (m : State) (task : Nat) (hpoint : t.point ≠ .outside) :
    Untouched m (m.act program task t) := by
  have hacts := Machine.acts program m task t
  generalize m.act program task t = next at hacts ⊢
  cases hacts with
  | resumes houtside => exact absurd houtside hpoint
  | @parks lock wait hlooks hblocks =>
      refine ⟨rfl, _, rfl, ?_⟩
      exact fun event hevent => untouched_of_arrivalEvents (List.mem_reverse.mp hevent)
  | @enters lock wait hlooks hchannel henters =>
      obtain ⟨hshared, hnotes⟩ := t.own.granted_untouched wait.mode m.shared
      refine Untouched.react ⟨?_, (m.lock.arrivalEvents task t.point ++
        (wait.admission.map (Event.traced task) ++ [Event.granted task wait.mode])).reverse,
        ?_, ?_⟩ ?_ hnotes task
      · rfl
      · rfl
      · intro event hevent
        rcases List.mem_append.mp (List.mem_reverse.mp hevent) with harrival | hevent
        · exact untouched_of_arrivalEvents harrival
        · rcases List.mem_append.mp hevent with htraced | hgranted
          · obtain ⟨_, _, rfl⟩ := List.mem_map.mp htraced
            rfl
          · rw [List.mem_singleton.mp hgranted]
            rfl
      · exact hshared
  | @returns mode r hreturns hrelease =>
      obtain ⟨hshared, hnotes⟩ := t.own.released_untouched mode m.shared
      refine Untouched.react ⟨?_,
        (r.traces.map (Event.traced task) ++ [Event.released task mode]).reverse, ?_, ?_⟩ ?_
        hnotes task
      · exact Machine.foldl_notify_shared _ _
      · exact Machine.foldl_notify_history _ _
      · intro event hevent
        rcases List.mem_append.mp (List.mem_reverse.mp hevent) with htraced | hreleased
        · obtain ⟨_, _, rfl⟩ := List.mem_map.mp htraced
          rfl
        · rw [List.mem_singleton.mp hreleased]
          rfl
      · rw [Machine.foldl_notify_shared]
        exact hshared
  | @misuses mode hmisuses hrelease =>
      have hrecorded : Untouched m (m.record [.misused task mode]) :=
        ⟨rfl, [.misused task mode], rfl, by simp [Event.touches]⟩
      exact hrecorded.react rfl (by simp [program, Hand.misused, Hand.finish, Note.touches,
        Note.changes]) task

theorem act_of_outside (m : State) (task : Nat) (hpoint : t.point = .outside) :
    m.act program task t = m.react task (t.own.resume m.shared) := by
  simp only [Machine.act, hpoint]
  rfl

end Untouched

variable {s : Script} {m : State} {task : Nat} {t : Task Hand}

/-- The data is what the log says, in every style. -/
theorem Reaches.shared_eq (hm : s.Reaches m) : m.shared = replay s.data m.history.reverse := by
  refine hm.keeps (P := fun m => m.shared = replay s.data m.history.reverse) ?_ ?_ rfl ?_
  · intro m next name command? hshared hhand
    obtain ⟨_, _, _, _, _, _, _, _, _, rfl⟩ := hand_eq_ok_iff.mp hhand
    exact hshared
  · intro m next name hshared hwake
    obtain ⟨_, _, rfl⟩ := wake_cases hwake
    exact hshared
  · intro m next hshared hstep
    rcases Machine.step_cases hstep with
      ⟨_, c, _, rfl⟩ | ⟨_, _, _, rfl⟩ | ⟨task, t, _, htask, rfl⟩
    · change m.shared = replay s.data (.turn c.task :: m.history).reverse
      rw [List.reverse_cons, replay_concat]
      exact hshared
    · exact hshared
    · by_cases hpoint : t.point = .outside
      · rw [act_of_outside m task hpoint, Machine.react_shared, Machine.react_history,
          List.reverse_append, List.reverse_reverse, replay_append, ← hshared, replay_noted]
        exact t.own.resume_shared m.shared
      · obtain ⟨hsame, events, hevents, huntouched⟩ := act_untouched m task hpoint
        rw [hsame, hevents, List.reverse_append, replay_append, ← hshared]
        exact (replay_of_untouched (fun event hmem => huntouched event (List.mem_reverse.mp hmem))
          m.shared).symm

/-! ## Carrying out a command -/

/-- The task goes on with the command in its turn. -/
def Begins (m : State) (task : Nat) (command : Command) : Prop :=
  m.running = some task ∧
    ∃ t, m.tasks[task]? = some t ∧ t.point = .outside ∧ t.own.handed = some command

/-- A command that is all done outside of the lock is done in one step. -/
theorem Begins.carries {command : Command} {note : Note} {data : List Int}
    (hbegins : Begins m task command)
    (heffect : ∀ h : Hand, h.handed = some command →
      (h.resume m.shared).notes = [note] ∧ (h.resume m.shared).shared = data) :
    ∃ next, m.step program = some next ∧ next.shared = data ∧
      next.history = .noted task note :: m.history := by
  obtain ⟨hrunning, t, htask, hpoint, hhanded⟩ := hbegins
  obtain ⟨hnotes, hdata⟩ := heffect t.own hhanded
  refine ⟨m.act program task t, ?_, ?_, ?_⟩
  · simp only [Machine.step, hrunning, htask]
  · rw [act_of_outside m task hpoint, Machine.react_shared, hdata]
  · rw [act_of_outside m task hpoint, Machine.react_history, hnotes]
    rfl

theorem Begins.gets (hbegins : Begins m task .get) :
    ∃ next, m.step program = some next ∧ next.shared = m.shared ∧
      next.history = .noted task (.saw m.shared) :: m.history :=
  hbegins.carries fun h hhanded => by simp [Hand.resume, hhanded, Hand.finish]

theorem Begins.pushes {value : Int} (hbegins : Begins m task (.push value)) :
    ∃ next, m.step program = some next ∧ next.shared = m.shared ++ [value] ∧
      next.history = .noted task (.pushed value) :: m.history :=
  hbegins.carries fun h hhanded => by simp [Hand.resume, hhanded, Hand.finish]

theorem Begins.clears (hbegins : Begins m task .clear) :
    ∃ next, m.step program = some next ∧ next.shared = [] ∧
      next.history = .noted task .cleared :: m.history :=
  hbegins.carries fun h hhanded => by simp [Hand.resume, hhanded, Hand.finish]

/-! ## The commands that a task takes -/

/-- The command looks at the data or changes it. -/
def Command.onData : Command → Bool
  | .get => true
  | .push _ => true
  | .clear => true
  | _ => false

/-- The command is one about the data, and the accesses are enough for it. -/
def Holding.permits (holding : Holding) : Command → Bool
  | .get => !holding.outermostFirst.isEmpty
  | .push _ => holding.outermostFirst.getLast? == some .exclusive
  | .clear => holding.outermostFirst.getLast? == some .exclusive
  | _ => false

/-- The task takes a command about the data: it does not wait, has no other command in hand, and
holds the access for it. -/
def takes (m : State) (task : Nat) (command : Command) : Bool :=
  !m.waiters.contains task &&
    m.tasks[task]?.any fun t => t.own.handed.isNone && t.own.holding.permits command

/-- The command about the data that the task takes from an order. -/
def taken? (s : Script) (task : Nat) (m : State) : Order → Option Command
  | .hand name (some command) =>
    if s.names.idxOf? name = some task ∧ takes m task command then some command else none
  | _ => none

/-- The commands about the data that the task takes from the orders of a step. -/
def takenIn (s : Script) (task : Nat) (before : State × List Ignored) : Step → List Command
  | [] => []
  | order :: orders =>
    (s.taken? task before.1 order).toList ++ s.takenIn task (s.giveOrder before order) orders

/-- The commands about the data that the task takes from the steps, from a state on. -/
def taken (s : Script) (task : Nat) (m : State) : List Step → List Command
  | [] => []
  | step :: steps => s.takenIn task (m, []) step ++ s.taken task (s.respond m step).2 steps

/-- The commands about the data that the task carried out, by what the log says. -/
def carriedOut (task : Nat) (log : List (Event Note)) : List Command :=
  log.filterMap (Event.dataCommand? task)

theorem carriedOut_append (task : Nat) (log more : List (Event Note)) :
    carriedOut task (log ++ more) = carriedOut task log ++ carriedOut task more :=
  List.filterMap_append

theorem carriedOut_noted (task : Nat) (notes : List Note) :
    carriedOut task (notes.map (.noted task)) = notes.filterMap Note.dataCommand? := by
  unfold carriedOut
  rw [List.filterMap_map]
  congr 1
  funext note
  exact if_pos rfl

theorem carriedOut_noted_of_ne {task other : Nat} (hother : other ≠ task) (notes : List Note) :
    carriedOut task (notes.map (.noted other)) = [] := by
  unfold carriedOut
  rw [List.filterMap_map, List.filterMap_eq_nil_iff]
  intro note _
  exact if_neg hother

theorem carriedOut_of_untouched {events : List (Event Note)}
    (huntouched : ∀ event ∈ events, event.touches = false) (task : Nat) :
    carriedOut task events = [] := by
  unfold carriedOut
  rw [List.filterMap_eq_nil_iff]
  intro event hevent
  have hnothing := huntouched event hevent
  cases event with
  | noted other note =>
      have hnone : note.dataCommand? = none := by
        cases note <;> simp_all [Event.touches, Note.touches, Note.changes, Note.dataCommand?]
      simp [Event.dataCommand?, hnone]
  | _ => rfl

namespace Hand

/-- A turn outside of the lock notes the command that it begins, if it is one about the data. -/
theorem resume_carries (h : Hand) (data : List Int) :
    (h.resume data).notes.filterMap Note.dataCommand? =
      h.handed.toList.filter Command.onData := by
  obtain ⟨holding, command, handed⟩ := h
  cases handed with
  | none => rfl
  | some command =>
      cases command with
      | leave value =>
          cases hmode : holding.innermost? <;> simp [resume, hmode, finish, Command.onData]
      | panic message =>
          cases hmode : holding.innermost? <;>
            simp [resume, unwind, hmode, finish, Command.onData, Note.dataCommand?]
      | _ => rfl

/-- The task holds its accesses as guards. -/
def Guarded (h : Hand) : Prop :=
  ∃ taken, h.holding = .guards taken

theorem program_guarded : program.Preserves fun _ h => h.Guarded := by
  constructor
  case resume =>
    rintro h data ⟨taken, htaken⟩
    exact ⟨taken, (h.resume_holding data).trans htaken⟩
  case waits => exact fun h _ hguarded => hguarded
  case granted =>
    rintro wait h data ⟨taken, htaken⟩
    change (Hand.granted wait.mode h data).own.Guarded
    unfold Hand.granted
    split
    · exact ⟨taken, htaken⟩
    · exact ⟨taken ++ [wait.mode], by simp [finish, htaken, Holding.enter]⟩
  case released =>
    rintro mode h data ⟨taken, htaken⟩
    have hleave : h.holding.leave = .guards taken.dropLast := by
      rw [htaken]
      rfl
    change (Hand.released mode h data).own.Guarded
    unfold Hand.released
    simp only
    split
    · exact ⟨_, hleave⟩
    · exact ⟨_, (unwind_holding _ _ _).trans hleave⟩
    · exact ⟨taken, htaken⟩
    · exact ⟨_, hleave⟩
  case misused => exact fun mode h data hguarded => hguarded

/-- In guard style a command about the data is permitted if there is no objection to it. -/
theorem Guarded.permits_eq {h : Hand} (hguarded : h.Guarded) (command : Command) :
    h.holding.permits command =
      (command.onData && (command.objection? .guard h.holding).isNone) := by
  obtain ⟨taken, htaken⟩ := hguarded
  have hobjects : ∀ allowed : Bool,
      (true && (if allowed then none else some Reason.notAllowedHere).isNone) = allowed := by
    decide
  rw [htaken]
  cases command with
  | get => exact (hobjects _).symm
  | push value => exact (hobjects _).symm
  | clear => exact (hobjects _).symm
  | _ => rfl

end Hand

theorem takes_eq_true_iff {command : Command} :
    takes m task command = true ↔ m.waiters.contains task = false ∧
      ∃ t, m.tasks[task]? = some t ∧ t.own.handed = none ∧
        t.own.holding.permits command = true := by
  simp [takes, Option.any_eq_true]

/-- A task that goes on inside of the lock keeps the command that it has in hand. -/
theorem act_handed (m : State) (task : Nat) (hpoint : t.point ≠ .outside) :
    ∃ u, (m.act program task t).tasks = m.tasks.set task u ∧ u.own.handed = t.own.handed := by
  have hacts := Machine.acts program m task t
  generalize m.act program task t = next at hacts ⊢
  cases hacts with
  | resumes houtside => exact absurd houtside hpoint
  | parks hlooks hblocks => exact ⟨_, rfl, rfl⟩
  | enters hlooks hchannel henters =>
      exact ⟨_, Machine.react_tasks _ _ _, t.own.granted_handed _ m.shared⟩
  | @returns mode r hreturns hrelease =>
      refine ⟨⟨(Hand.released mode t.own m.shared).point, (Hand.released mode t.own m.shared).own⟩,
        ?_, t.own.released_handed mode m.shared⟩
      rw [Machine.react_tasks, Machine.foldl_notify_tasks]
      rfl
  | misuses hmisuses hrelease => exact ⟨_, Machine.react_tasks _ _ _, rfl⟩

/-- What the task took is what it carried out and what it still has in hand. -/
structure Obeying (task : Nat) (given : List Command) (m : State) : Prop where
  guarded : m.Sound fun _ h => h.Guarded
  given_eq : ∀ t, m.tasks[task]? = some t →
    given = carriedOut task m.history.reverse ++ t.own.handed.toList.filter Command.onData

namespace Obeying

variable {given : List Command}

/-- A task goes on: what it has in hand it keeps or carries out, and nobody else does anything. -/
theorem moved (hm : Obeying task given m) {actor : Nat} {u v : Task Hand} {next : State}
    {events : List (Event Note)} (hactor : m.tasks[actor]? = some u)
    (hguarded : next.Sound fun _ h => h.Guarded) (htasks : next.tasks = m.tasks.set actor v)
    (hhistory : next.history = events ++ m.history)
    (hself : carriedOut actor events.reverse ++ v.own.handed.toList.filter Command.onData =
      u.own.handed.toList.filter Command.onData)
    (hothers : ∀ other, actor ≠ other → carriedOut other events.reverse = []) :
    Obeying task given next := by
  refine ⟨hguarded, ?_⟩
  intro t ht
  rw [htasks] at ht
  rw [hhistory, List.reverse_append, carriedOut_append, List.append_assoc]
  by_cases hsame : actor = task
  · subst hsame
    rw [List.getElem?_set_self (List.getElem?_eq_some_iff.mp hactor).1] at ht
    obtain rfl := Option.some.inj ht
    rw [hself]
    exact hm.given_eq u hactor
  · rw [List.getElem?_set_ne hsame] at ht
    rw [hothers task hsame, List.nil_append]
    exact hm.given_eq t ht

theorem act (hm : Obeying task given m) {actor : Nat} {u : Task Hand}
    (hactor : m.tasks[actor]? = some u) : Obeying task given (m.act program actor u) := by
  have hguarded := hm.guarded.act_of_preserves Hand.program_guarded hactor
  by_cases hpoint : u.point = .outside
  · rw [act_of_outside m actor hpoint] at hguarded ⊢
    refine hm.moved hactor hguarded (Machine.react_tasks _ _ _) (Machine.react_history _ _ _) ?_ ?_
    · rw [List.reverse_reverse, carriedOut_noted, Hand.resume_carries, Hand.resume_handed]
      exact List.append_nil _
    · intro other hother
      rw [List.reverse_reverse]
      exact carriedOut_noted_of_ne hother _
  · obtain ⟨_, events, hevents, huntouched⟩ := act_untouched m actor hpoint
    obtain ⟨v, htasks, hhanded⟩ := act_handed m actor hpoint
    have hnothing : ∀ other, carriedOut other events.reverse = [] :=
      carriedOut_of_untouched fun event hmem => huntouched event (List.mem_reverse.mp hmem)
    refine hm.moved hactor hguarded htasks hevents ?_ fun other _ => hnothing other
    rw [hnothing, List.nil_append, hhanded]

theorem step (hm : Obeying task given m) {next : State} (hstep : m.step program = some next) :
    Obeying task given next := by
  rcases Machine.step_cases hstep with
    ⟨_, choice, _, rfl⟩ | ⟨_, _, _, rfl⟩ | ⟨actor, u, _, hactor, rfl⟩
  · refine ⟨hm.guarded, ?_⟩
    intro t ht
    have hturn : carriedOut task (m.begin choice).history.reverse =
        carriedOut task m.history.reverse := by
      change carriedOut task (.turn choice.task :: m.history).reverse = _
      rw [List.reverse_cons, carriedOut_append]
      exact List.append_nil _
    rw [hturn]
    exact hm.given_eq t ht
  · exact ⟨hm.guarded, hm.given_eq⟩
  · exact hm.act hactor

theorem hand (hguard : s.style = .guard) (hm : Obeying task given m) {next : State}
    {name : String} {command? : Option Command} (hhand : s.hand m name command? = .ok next) :
    Obeying task (given ++ (s.taken? task m (.hand name command?)).toList) next := by
  obtain ⟨index, u, command, hindex, rfl, hactor, hfree, hidle, hallowed, rfl⟩ :=
    hand_eq_ok_iff.mp hhand
  have hguarded := hm.guarded u (List.mem_of_getElem? hactor)
  refine ⟨hm.guarded.set index hguarded, ?_⟩
  intro t ht
  by_cases hsame : index = task
  · subst hsame
    -- it is handed other commands, too, and they are not in the account
    have hpermits : u.own.holding.permits command = command.onData := by
      rw [hguarded.permits_eq, ← hguard, hallowed, Option.isNone_none, Bool.and_true]
    have htakes : takes m index command = command.onData := by
      rw [Bool.eq_iff_iff, takes_eq_true_iff]
      simp [hfree, hactor, hidle, hpermits]
    rw [List.getElem?_set_self (List.getElem?_eq_some_iff.mp hactor).1] at ht
    obtain rfl := Option.some.inj ht
    rw [hm.given_eq u hactor, hidle]
    cases hdata : command.onData <;> simp [taken?, hindex, htakes, hdata]
  · rw [List.getElem?_set_ne hsame] at ht
    have hother : s.taken? task m (.hand name (some command)) = none := by
      simp [taken?, hindex, hsame]
    rw [hother, Option.toList_none, List.append_nil]
    exact hm.given_eq t ht

/-- What a task takes is handed to it. -/
theorem exists_hand (hguard : s.style = .guard) (hm : Obeying task given m) {name : String}
    {command? : Option Command} {command : Command}
    (htaken : s.taken? task m (.hand name command?) = some command) :
    ∃ next, s.hand m name command? = .ok next := by
  cases command? with
  | none => simp [taken?] at htaken
  | some other =>
      simp only [taken?] at htaken
      split at htaken
      · next htakes =>
          obtain ⟨hindex, htakes⟩ := htakes
          obtain ⟨hfree, t, htask, hidle, hpermits⟩ := takes_eq_true_iff.mp htakes
          rw [(hm.guarded t (List.mem_of_getElem? htask)).permits_eq, Bool.and_eq_true,
            Option.isNone_iff_eq_none, ← hguard] at hpermits
          exact ⟨_, hand_eq_ok_iff.mpr
            ⟨task, t, other, hindex, rfl, htask, hfree, hidle, hpermits.2, rfl⟩⟩
      · contradiction

theorem order (hguard : s.style = .guard) {before : State × List Ignored}
    (hm : Obeying task given before.1) (order : Order) :
    Obeying task (given ++ (s.taken? task before.1 order).toList)
      (s.giveOrder before order).1 := by
  cases order with
  | wake names =>
      rw [show s.taken? task before.1 (.wake names) = none from rfl, Option.toList_none,
        List.append_nil]
      refine carryOut_wake_keeps (P := Obeying task given) ?_ names hm
      intro m next name hm hwake
      obtain ⟨_, _, rfl⟩ := wake_cases hwake
      exact ⟨hm.guarded, hm.given_eq⟩
  | hand name command? =>
      cases hhand : s.hand before.1 name command? with
      | ok next =>
          simp only [giveOrder, carryOut, hhand]
          exact hm.hand hguard hhand
      | error reason =>
          have hnone : s.taken? task before.1 (.hand name command?) = none := by
            by_contra hsome
            obtain ⟨command, htaken⟩ := Option.ne_none_iff_exists'.mp hsome
            obtain ⟨next, hnext⟩ := hm.exists_hand hguard htaken
            rw [hnext] at hhand
            contradiction
          simp only [giveOrder, carryOut, hhand, hnone, Option.toList_none, List.append_nil]
          exact hm

theorem orders (hguard : s.style = .guard) {before : State × List Ignored}
    (hm : Obeying task given before.1) (step : Step) :
    Obeying task (given ++ s.takenIn task before step) (step.foldl s.giveOrder before).1 := by
  induction step generalizing before given with
  | nil => simpa [takenIn] using hm
  | cons order orders ih =>
      rw [takenIn, ← List.append_assoc]
      exact ih (hm.order hguard order)

theorem giveOut (hguard : s.style = .guard) (hm : Obeying task given m) (step : Step) :
    Obeying task (given ++ s.takenIn task (m, []) step) (s.giveOut m step).1 := by
  have hbefore : Obeying task given (m, ([] : List Ignored)).1 := hm
  exact hbefore.orders hguard step

theorem respondAll (hguard : s.style = .guard) (hm : Obeying task given m) (steps : List Step) :
    Obeying task (given ++ s.taken task m steps) (s.respondAll m steps).2 := by
  induction steps generalizing m given with
  | nil => simpa [taken, Script.respondAll] using hm
  | cons step steps ih =>
      rw [taken, ← List.append_assoc]
      exact ih (iterate_keeps (fun _ _ hm hstep => hm.step hstep) _ (hm.giveOut hguard step))

end Obeying

theorem start_obeying (hguard : s.style = .guard) (task : Nat) : Obeying task [] s.start := by
  constructor
  · intro t ht
    obtain ⟨name, _, rfl⟩ : ∃ name ∈ s.names, _ = t := List.mem_map.mp ht
    exact ⟨[], by simp [hguard, Holding.empty]⟩
  · intro t ht
    obtain ⟨name, _, rfl⟩ : ∃ name ∈ s.names, _ = t := List.mem_map.mp (List.mem_of_getElem? ht)
    rfl

/-- After each step the log has what a task took, up to a command that is still in hand. -/
theorem after_obeying (hguard : s.style = .guard) (steps : List Step) (task : Nat) :
    Obeying task (s.taken task s.start steps) (s.after steps) :=
  (start_obeying hguard task).respondAll hguard steps

end Script

end ReaderWriter
