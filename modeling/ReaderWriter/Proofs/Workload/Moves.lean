import ReaderWriter.Proofs.Workload.Working

/-!
# How a worker goes on

A worker that goes on enters the lock, or nobody does.  If it enters, the site and the worker change
as its reaction to the grant says, and what it notes there is all that is noted.  If not, it leaves
the site as it is and notes nothing.  So the laws about what the workers do have two cases, however
the lock and the machine bring them about.
-/

namespace ReaderWriter.Workload

variable {c : Config} {chance : Chance} {m next : State}

/-! ## What is noted -/

/-- Events of the lock and of the machine, among which no worker notes anything. -/
def Quiet (events : List (Event Note)) : Prop :=
  ∀ task note, .noted task note ∉ events

/-- What is told from an event is told from the notes only. -/
def OfNotes {α : Type} (tell : Event Note → Option α) : Prop :=
  ∀ event, (∀ task note, event ≠ .noted task note) → tell event = none

@[simp] theorem quiet_nil : Quiet [] := by
  simp [Quiet]

@[simp] theorem quiet_cons {event : Event Note} {events : List (Event Note)} :
    Quiet (event :: events) ↔ (∀ task note, .noted task note ≠ event) ∧ Quiet events := by
  simp only [Quiet, List.mem_cons, not_or, forall_and, ne_eq]

@[simp] theorem quiet_append {first second : List (Event Note)} :
    Quiet (first ++ second) ↔ Quiet first ∧ Quiet second := by
  simp only [Quiet, List.mem_append, not_or, forall_and]

@[simp] theorem quiet_reverse {events : List (Event Note)} :
    Quiet events.reverse ↔ Quiet events := by
  simp only [Quiet, List.mem_reverse]

@[simp] theorem quiet_traced (traces : List Trace) (task : Nat) :
    Quiet (traces.map (.traced task)) := by
  simp [Quiet]

@[simp] theorem quiet_arrivalEvents (l : Lock) (task : Nat) (point : Point) :
    Quiet (l.arrivalEvents task point) := by
  cases point with
  | before call => cases call <;> simp [Lock.arrivalEvents]
  | _ => simp [Lock.arrivalEvents]

namespace OfNotes

variable {α : Type} {tell : Event Note → Option α} (htell : OfNotes tell)
include htell

theorem of_quiet {events : List (Event Note)} (hquiet : Quiet events)
    (earlier : List (Event Note)) :
    (events ++ earlier).reverse.filterMap tell = earlier.reverse.filterMap tell := by
  have hnothing : events.reverse.filterMap tell = [] := by
    rw [List.filterMap_eq_nil_iff]
    intro event hevent
    apply htell
    rintro task note rfl
    exact hquiet task note (List.mem_reverse.mp hevent)
  rw [List.reverse_append, List.filterMap_append, hnothing, List.append_nil]

theorem begins (m : State) (choice : Choice) :
    (m.begin choice).history.reverse.filterMap tell = m.history.reverse.filterMap tell := by
  have hquiet : Quiet [.turn choice.task] := by simp
  exact htell.of_quiet hquiet m.history

/-- Quiet events tell nothing new. -/
theorem stays {events : List (Event Note)} (hhistory : next.history = events ++ m.history)
    (hquiet : Quiet events) :
    next.history.reverse.filterMap tell = m.history.reverse.filterMap tell := by
  rw [hhistory, htell.of_quiet hquiet]

/-- Notes after quiet events tell what they tell alone. -/
theorem enters {noted events : List (Event Note)}
    (hhistory : next.history = noted.reverse ++ events ++ m.history) (hquiet : Quiet events) :
    next.history.reverse.filterMap tell =
      m.history.reverse.filterMap tell ++ noted.filterMap tell := by
  rw [hhistory, List.append_assoc, List.reverse_append, List.reverse_reverse,
    List.filterMap_append, htell.of_quiet hquiet]

end OfNotes

/-! ## Two cases -/

/-- A worker that begins a call, or leaves after a nap, has not entered. -/
theorem resume_keeps {w : Worker} (hfits : w.Fits .outside) (site : Site) :
    (w.resume site).shared = site ∧ (w.resume site).notes = [] ∧
      (w.resume site).own.panicked = w.panicked ∧ (w.resume site).own.role = w.role ∧
      (w.resume site).own.callsLeft = w.callsLeft ∧
      (w.resume site).own.inside (w.resume site).point = w.inside .outside := by
  rcases w.resume_cases hfits site with
    ⟨hnaps, _, _, hresume⟩ | ⟨_, _, hresume⟩ | ⟨hawake, _, _, hresume⟩
  · simp [hresume, Reaction.point, Worker.inside, hnaps]
  · simp [hresume, Reaction.point]
  · simp [hresume, Reaction.point, Worker.inside, hawake]

/-- A worker that leaves has made its call. -/
theorem released_keeps {w : Worker} {mode : Mode} (hfits : w.Fits (.before (.release mode)))
    (site : Site) :
    (w.released site).shared = site ∧ (w.released site).notes = [] ∧
      (w.released site).own.panicked = w.panicked ∧ (w.released site).own.role = w.role ∧
      (w.released site).own.callsLeft + 1 = w.callsLeft ∧
      (w.released site).own.inside (w.released site).point = false := by
  obtain ⟨_, hawake, ⟨hone, hreleased⟩ | ⟨hmore, _, hreleased⟩⟩ := w.released_cases hfits site
  · simp [hreleased, Reaction.point, Worker.inside, hawake, hone]
  · simp [hreleased, Reaction.point, Worker.inside]
    omega

/-- What has become of the machine when a worker has gone on. -/
inductive Moves (c : Config) (chance : Chance) (m : State) (task : Nat) (t : Task Worker)
    (next : State) : Prop
  | enters {lock : Lock} {wait : Wait} {events : List (Event Note)}
      (hlooks : m.lock.Looks t.point lock wait) (hchannel : wait.channel = .released)
      (henters : ¬ lock.Blocks wait)
      (htasks : next.tasks = m.tasks.set task ⟨(t.own.granted c chance.draws m.shared).point,
        (t.own.granted c chance.draws m.shared).own⟩)
      (hshared : next.shared = (t.own.granted c chance.draws m.shared).shared)
      (hhistory : next.history =
        ((t.own.granted c chance.draws m.shared).notes.map (.noted task)).reverse ++ events ++
          m.history)
      (hquiet : Quiet events)
  | stays {u : Task Worker} {events : List (Event Note)}
      (htasks : next.tasks = m.tasks.set task u) (hshared : next.shared = m.shared)
      (hhistory : next.history = events ++ m.history) (hquiet : Quiet events)
      (hrole : u.own.role = t.own.role) (hpanicked : u.own.panicked = t.own.panicked)
      (hmade : (u.own.inside u.point).toNat + t.own.callsLeft =
        (t.own.inside t.point).toNat + u.own.callsLeft)

theorem Reaches.moves (hm : Reaches c chance m) {task : Nat} {t : Task Worker}
    (htask : m.tasks[task]? = some t) :
    Moves c chance m task t (m.act (program c chance.draws) task t) := by
  have hfits := hm.fits t (List.mem_of_getElem? htask)
  have hacts := Machine.acts (program c chance.draws) m task t
  generalize m.act (program c chance.draws) task t = next at hacts ⊢
  cases hacts with
  | resumes hpoint =>
      rw [hpoint] at hfits
      obtain ⟨hsite, hnotes, hpanicked, hrole, hleft, hinside⟩ := resume_keeps hfits m.shared
      refine .stays (Machine.react_tasks _ _ _) ((m.react_shared _ _).trans hsite)
        (Machine.react_history _ _ _) ?_ hrole hpanicked ?_
      · rw [program_resume, hnotes]
        simp
      · simp only [program_resume, hleft, hinside, hpoint]
  | @parks lock wait hlooks hblocks =>
      refine .stays rfl rfl rfl (by simp) rfl rfl ?_
      rw [Worker.inside_of_looks hlooks]
      rfl
  | @enters lock wait hlooks hchannel henters =>
      exact .enters hlooks hchannel henters (Machine.react_tasks _ _ _)
        (Machine.react_shared _ _ _)
        ((Machine.react_history _ _ _).trans (List.append_assoc _ _ _).symm) (by simp)
  | @returns mode r hpoint hrelease =>
      rw [hpoint] at hfits
      obtain ⟨hsite, hnotes, hpanicked, hrole, hleft, hinside⟩ := released_keeps hfits m.shared
      refine .stays (u := ⟨(t.own.released m.shared).point, (t.own.released m.shared).own⟩) ?_
        ((Machine.react_shared _ _ _).trans hsite) ((Machine.react_history _ _ _).trans
          ((congrArg _ (Machine.foldl_notify_history _ _)).trans (List.append_assoc _ _ _).symm))
        ?_ hrole hpanicked ?_
      · rw [Machine.react_tasks, Machine.foldl_notify_tasks]
        rfl
      · rw [program_released, hnotes]
        simp
      · rw [hinside, hpoint]
        change 0 + _ = 1 + (t.own.released m.shared).own.callsLeft
        omega
  | misuses hpoint hrelease =>
      have hsome :=
        hm.balanced.release?_of_before (program_balances c chance.draws) htask hfits hpoint
      rw [hrelease] at hsome
      contradiction

end ReaderWriter.Workload
