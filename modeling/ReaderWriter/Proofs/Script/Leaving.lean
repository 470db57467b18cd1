import ReaderWriter.Proofs.Script.Exclusion
import ReaderWriter.Proofs.Script.Turns

/-!
# A task leaves

One task that holds an access and does not wait is handed a `leave`, and the tasks take turns until
they come to rest.  On its way the task is handed the command, stands before its release and is done.
Every other task is outside of the lock or looks at its condition, and whoever is let in comes to
rest.  So nobody asks for anything, and one access is given back.
-/

namespace ReaderWriter

variable {ε : Type}

/-- An access is given back. -/
def Event.gives : Event ε → Bool
  | .released _ _ => true
  | _ => false

/-- From one history to another nobody asked for access, and so many accesses were given back. -/
def GivesBack (earlier later : List (Event ε)) (count : Nat) : Prop :=
  ∃ events, later = events ++ earlier ∧ (∀ event ∈ events, event.requests = false) ∧
    events.countP Event.gives = count

namespace GivesBack

theorem refl (history : List (Event ε)) : GivesBack history history 0 :=
  ⟨[], rfl, by simp, rfl⟩

theorem trans {first second third : List (Event ε)} {count more : Nat}
    (hfirst : GivesBack first second count) (hsecond : GivesBack second third more) :
    GivesBack first third (count + more) := by
  obtain ⟨before, rfl, hbefore, rfl⟩ := hfirst
  obtain ⟨after, rfl, hafter, rfl⟩ := hsecond
  refine ⟨after ++ before, by simp, ?_, by rw [List.countP_append, Nat.add_comm]⟩
  intro event hevent
  rcases List.mem_append.mp hevent with hlast | hevent
  · exact hafter event hlast
  · exact hbefore event hevent

theorem append {history later : List (Event ε)} {count : Nat} (hgives : GivesBack history later count)
    {events : List (Event ε)}
    (hquiet : ∀ event ∈ events, event.requests = false ∧ event.gives = false) :
    GivesBack history (events ++ later) count := by
  have hmore : GivesBack later (events ++ later) 0 := by
    refine ⟨events, rfl, fun event hevent => (hquiet event hevent).1, ?_⟩
    rw [List.countP_eq_zero]
    intro event hevent
    simp [(hquiet event hevent).2]
  exact hgives.trans hmore

theorem traced {history later : List (Event ε)} {count : Nat}
    (hgives : GivesBack history later count) (task : Nat) (traces : List Trace) :
    GivesBack history ((traces.map (.traced task)).reverse ++ later) count := by
  apply hgives.append
  intro event hevent
  obtain ⟨trace, _, rfl⟩ : ∃ trace ∈ traces, .traced task trace = event := by simpa using hevent
  exact ⟨rfl, rfl⟩

theorem noted {history later : List (Event ε)} {count : Nat}
    (hgives : GivesBack history later count) (task : Nat) (notes : List ε) :
    GivesBack history ((notes.map (.noted task)).reverse ++ later) count := by
  apply hgives.append
  intro event hevent
  obtain ⟨note, _, rfl⟩ : ∃ note ∈ notes, .noted task note = event := by simpa using hevent
  exact ⟨rfl, rfl⟩

theorem cons {history later : List (Event ε)} {count : Nat} (hgives : GivesBack history later count)
    {event : Event ε} (hrequests : event.requests = false) :
    GivesBack history (event :: later) (count + event.gives.toNat) := by
  refine hgives.trans ⟨[event], rfl, by simp [hrequests], ?_⟩
  cases hevent : event.gives <;> simp [hevent]

end GivesBack

namespace Script

/-- A task with nothing to do is handed a `leave`: where it stands on its way, and how many accesses
it has given back. -/
inductive Departs (idle : Hand) (value : Int) : Point → Hand → Nat → Prop
  | handed : Departs idle value .outside { idle with handed := some (.leave value) } 0
  | leaving {mode : Mode} (hmode : idle.holding.innermost? = some mode) :
      Departs idle value (.before (.release mode))
        { idle with command := some (.leave value), handed := none } 0
  | left : Departs idle value .outside { holding := idle.holding.leave } 1

theorem Departs.point_ne_waiting {idle own : Hand} {value : Int} {point : Point} {count : Nat}
    (hdeparts : Departs idle value point own count) (wait : Wait) : point ≠ .waiting wait := by
  cases hdeparts <;> simp

theorem Departs.count_eq_one {idle own : Hand} {value : Int} {point : Point} {count : Nat}
    (hdeparts : Departs idle value point own count) (hpoint : point = .outside)
    (hhanded : own.handed = none) : count = 1 := by
  cases hdeparts with
  | handed => simp at hhanded
  | leaving hmode => simp at hpoint
  | left => rfl

/-- The task has nothing to do, or it does nothing but wait. -/
def Quiet (point : Point) (h : Hand) : Prop :=
  h.handed = none ∧
    (point = .outside ∨ (∃ wait, point = .waiting wait) ∧ h.holding.outermostFirst = [])

/-- One task is on its way out of its innermost access, and the others only wait or are let in. -/
structure Leaving (m : State) (leaver : Nat) (idle : Hand) (value : Int) (later : State) : Prop where
  departs : ∃ t count, later.tasks[leaver]? = some t ∧ Departs idle value t.point t.own count ∧
    GivesBack m.history later.history count
  others : ∀ (other : Nat) (t : Task Hand), other ≠ leaver → later.tasks[other]? = some t →
    Quiet t.point t.own

namespace Leaving

variable {m later next : State} {leaver task : Nat} {idle : Hand} {value : Int} {t u : Task Hand}

/-- The task itself goes on. -/
theorem moveLeaver (hleaving : Leaving m leaver idle value later) {count more : Nat}
    (htask : later.tasks[leaver]? = some t) (hcount : GivesBack m.history later.history count)
    (htasks : next.tasks = later.tasks.set leaver u)
    (hdeparts : Departs idle value u.point u.own (count + more))
    (hmore : GivesBack later.history next.history more) : Leaving m leaver idle value next := by
  obtain ⟨hlt, _⟩ := List.getElem?_eq_some_iff.mp htask
  constructor
  · exact ⟨u, _, by rw [htasks, List.getElem?_set_self hlt], hdeparts, hcount.trans hmore⟩
  · intro other v hother hv
    rw [htasks, List.getElem?_set_ne (Ne.symm hother)] at hv
    exact hleaving.others other v hother hv

/-- Another task goes on. -/
theorem moveOther (hleaving : Leaving m leaver idle value later) (hne : task ≠ leaver)
    (htasks : next.tasks = later.tasks.set task u) (hquiet : Quiet u.point u.own)
    (hmore : GivesBack later.history next.history 0) : Leaving m leaver idle value next := by
  obtain ⟨t, count, htask, hdeparts, hcount⟩ := hleaving.departs
  constructor
  · refine ⟨t, count, ?_, hdeparts, hcount.trans hmore⟩
    rw [htasks, List.getElem?_set_ne hne]
    exact htask
  · intro other v hother hv
    rw [htasks] at hv
    by_cases hsame : task = other
    · subst other
      rw [List.getElem?_set_self'] at hv
      obtain ⟨_, _, rfl⟩ := Option.map_eq_some_iff.mp hv
      exact hquiet
    · rw [List.getElem?_set_ne hsame] at hv
      exact hleaving.others other v hother hv

theorem actLeaver (hleaving : Leaving m leaver idle value later)
    (hheld : idle.holding.innermost?.isSome)
    (hreturnable : ∀ mode, t.point = .before (.release mode) → (later.lock.release? mode).isSome)
    (howed : 0 < t.own.owed t.point) (htask : later.tasks[leaver]? = some t) :
    Leaving m leaver idle value (later.act program leaver t) := by
  obtain ⟨same, count, hsame, hdeparts, hcount⟩ := hleaving.departs
  obtain rfl : same = t := Option.some.inj (hsame.symm.trans htask)
  obtain ⟨point, own⟩ := same
  obtain ⟨mode, hmode⟩ := Option.isSome_iff_exists.mp hheld
  cases hdeparts with
  | handed =>
      have hresume : program.resume { idle with handed := some (.leave value) } later.shared =
          { own := { idle with command := some (.leave value), handed := none }
            shared := later.shared
            next := some (.release mode) } := by
        simp [program, Hand.resume, hmode]
      simp only [Machine.act, hresume]
      refine hleaving.moveLeaver htask hcount (Machine.react_tasks _ _ _) ?_ (?_ : GivesBack _ _ 0)
      · exact .leaving hmode
      · rw [Machine.react_history]
        exact .refl _
  | @leaving innermost hinnermost =>
      obtain ⟨r, hr⟩ := Option.isSome_iff_exists.mp (hreturnable innermost rfl)
      simp only [Machine.act, Machine.giveBack, hr]
      refine hleaving.moveLeaver (u := ⟨.outside, { holding := idle.holding.leave }⟩) htask hcount
        ?_ .left (?_ : GivesBack _ _ 1)
      · rw [Machine.react_tasks, Machine.foldl_notify_tasks]
        rfl
      · rw [Machine.react_history, Machine.foldl_notify_history]
        exact (((GivesBack.refl _).traced leaver r.traces).cons rfl).noted leaver _
  | left => simp [Hand.owed] at howed

theorem actOther (hleaving : Leaving m leaver idle value later) (hne : task ≠ leaver)
    (howed : 0 < t.own.owed t.point) (htask : later.tasks[task]? = some t) :
    Leaving m leaver idle value (later.act program task t) := by
  obtain ⟨hhanded, hplace⟩ := hleaving.others task t hne htask
  have hwaits : (∃ wait, t.point = .waiting wait) ∧ t.own.holding.outermostFirst = [] := by
    rcases hplace with houtside | hwaits
    · simp [Hand.owed, houtside, hhanded] at howed
    · exact hwaits
  obtain ⟨⟨wait, hpoint⟩, hempty⟩ := hwaits
  have hacts := later.acts program task t
  generalize later.act program task t = next at hacts ⊢
  cases hacts with
  | resumes houtside => simp [hpoint] at houtside
  | returns hbefore hrelease => simp [hpoint] at hbefore
  | misuses hbefore hrelease => simp [hpoint] at hbefore
  | parks hlooks hblocks =>
      refine hleaving.moveOther hne rfl ⟨hhanded, .inr ⟨⟨_, rfl⟩, hempty⟩⟩ ?_
      rw [hpoint]
      exact .refl _
  | @enters lock wait hlooks hchannel henters =>
      refine hleaving.moveOther hne (Machine.react_tasks _ _ _) ?_ ?_
      · constructor
        · exact (Hand.granted_handed wait.mode t.own later.shared).trans hhanded
        · exact .inl (Hand.granted_point wait.mode t.own later.shared)
      · rw [Machine.react_history, hpoint]
        simp only [Machine.record_append]
        exact (((GivesBack.refl _).traced task wait.admission).cons rfl).noted task _

theorem step {s : Script} (hstyle : s.style ≠ .raw) (hleaving : Leaving m leaver idle value later)
    (hheld : idle.holding.innermost?.isSome) (hlater : s.Reaches later)
    (hstep : later.step program = some next) : Leaving m leaver idle value next := by
  rcases Machine.step_cases hstep with
    ⟨_, c, _, rfl⟩ | ⟨task, hrunning, hnone, rfl⟩ | ⟨task, t, hrunning, htask, rfl⟩
  · obtain ⟨t, count, htask, hdeparts, hcount⟩ := hleaving.departs
    have hturn : GivesBack later.history (later.begin c).history 0 := (GivesBack.refl _).cons rfl
    exact ⟨⟨t, count, htask, hdeparts, hcount.trans hturn⟩, hleaving.others⟩
  · exact ⟨hleaving.departs, hleaving.others⟩
  · have howed := hlater.attended.booked.lt_owed hrunning htask
    by_cases hleaver : task = leaver
    · subst hleaver
      apply hleaving.actLeaver hheld _ howed htask
      intro mode hpoint
      exact (hlater.balanced hstyle).release?_isSome_of_before htask hpoint
    · exact hleaving.actOther hleaver howed htask

end Leaving

/-! ## One step of a script -/

/-- A task that holds an access and does not wait. -/
def CanLeave (s : Script) (m : State) (name : String) : Prop :=
  ∃ index task, s.names.idxOf? name = some index ∧ (view m)[index]? = some task ∧
    task.held ≠ [] ∧ task.waits = false

def leaveStep (name : String) (value : Int) : Step :=
  [.hand name (some (.leave value))]

/-- Whoever waits holds nothing and was not handed a command that it has not begun. -/
def Unburdened (m : State) : Prop :=
  ∀ (task : Nat) (t : Task Hand), m.tasks[task]? = some t → m.waiters.contains task = true →
    t.own.holding.outermostFirst = [] ∧ t.own.handed = none

instance (m : State) : Decidable (Unburdened m) :=
  decidable_of_iff (∀ seen ∈ m.tasks.zipIdx, m.waiters.contains seen.2 = true →
      seen.1.own.holding.outermostFirst = [] ∧ seen.1.own.handed = none) <| by
    constructor
    · intro hall task t htask
      exact hall (t, task) (List.mem_zipIdx_iff_getElem?.mpr htask)
    · rintro hfree ⟨t, task⟩ hmem
      exact hfree task t (List.mem_zipIdx_iff_getElem?.mp hmem)

theorem view_getElem? (m : State) (index : Nat) :
    (view m)[index]? = (m.tasks[index]?).map fun t =>
      { held := t.own.holding.outermostFirst, waits := m.waiters.contains index } := by
  simp only [view, List.getElem?_map, List.getElem?_zipIdx, Option.map_map, Nat.zero_add]
  rfl

/-- Between two steps a task that does not wait has nothing to do, and one that waits unburdened
does nothing else. -/
theorem Unburdened.quiet {s : Script} {steps : List Step} (hfree : Unburdened (s.after steps))
    {task : Nat} {t : Task Hand} (htask : (s.after steps).tasks[task]? = some t) :
    Quiet t.point t.own := by
  cases hcontains : (s.after steps).waiters.contains task with
  | false =>
      obtain ⟨hpoint, hhanded⟩ := s.after_free steps htask hcontains
      exact ⟨hhanded, .inl hpoint⟩
  | true =>
      obtain ⟨hempty, hhanded⟩ := hfree task t htask hcontains
      obtain ⟨wait, hat⟩ := s.after_waits steps hcontains
      have hpoint : t.point = .waiting wait :=
        Option.some.inj ((Machine.scene_at htask).symm.trans hat)
      exact ⟨hhanded, .inr ⟨⟨wait, hpoint⟩, hempty⟩⟩

variable {s : Script} {steps : List Step} {name : String}

theorem Unburdened.leaving (hfree : Unburdened (s.after steps)) (hstyle : s.style ≠ .raw)
    (hcan : s.CanLeave (s.after steps) name) (value : Int) :
    ∃ leaver idle, idle.holding.innermost?.isSome ∧
      Leaving (s.after steps) leaver idle value
        (s.giveOut (s.after steps) (leaveStep name value)).1 := by
  obtain ⟨index, seen, hindex, hseen, hheld, hwaits⟩ := hcan
  rw [view_getElem?] at hseen
  obtain ⟨t, htask, rfl⟩ := Option.map_eq_some_iff.mp hseen
  obtain ⟨hpoint, hhanded⟩ := s.after_free steps htask hwaits
  have hinnermost : t.own.holding.innermost?.isSome = true := by
    rw [Holding.innermost?_eq_getLast?, List.getLast?_isSome]
    exact hheld
  have hobjection : (Command.leave value).objection? s.style t.own.holding = none := by
    cases hcase : s.style with
    | raw => exact absurd hcase hstyle
    | _ => exact if_pos hinnermost
  have hhand := hand_eq_ok_iff.mpr
    ⟨index, t, .leave value, hindex, rfl, htask, hwaits, hhanded, hobjection, rfl⟩
  refine ⟨index, t.own, hinnermost, ?_⟩
  rw [leaveStep, giveOut_hand hhand]
  constructor
  · refine ⟨{ t with own := { t.own with handed := some (.leave value) } }, 0, ?_, ?_, .refl _⟩
    · obtain ⟨hlt, _⟩ := List.getElem?_eq_some_iff.mp htask
      exact List.getElem?_set_self hlt
    · rw [hpoint]
      exact .handed
  · intro other u hother hu
    rw [List.getElem?_set_ne (Ne.symm hother)] at hu
    exact hfree.quiet hu

/-- A task that leaves gives one access back, and whoever still waits is unburdened. -/
theorem Unburdened.leave (hfree : Unburdened (s.after steps)) (hstyle : s.style ≠ .raw)
    (hcan : s.CanLeave (s.after steps) name) (value : Int) :
    Unburdened (s.after (steps ++ [leaveStep name value])) ∧
      GivesBack (s.after steps).history (s.after (steps ++ [leaveStep name value])).history 1 := by
  obtain ⟨leaver, idle, hheld, hbegins⟩ := hfree.leaving hstyle hcan value
  have hends : s.Reaches (s.after (steps ++ [leaveStep name value])) ∧
      Leaving (s.after steps) leaver idle value (s.after (steps ++ [leaveStep name value])) := by
    rw [after_append_singleton]
    apply iterate_keeps (P := fun later => s.Reaches later ∧
      Leaving (s.after steps) leaver idle value later)
    · rintro later next ⟨hlater, hleaving⟩ hstep
      exact ⟨hlater.step hstep, hleaving.step hstyle hheld hlater hstep⟩
    · exact ⟨s.reaches_giveOut steps _, hbegins⟩
  obtain ⟨_, hleaving⟩ := hends
  obtain ⟨t, count, htask, hdeparts, hcount⟩ := hleaving.departs
  have hwaits : ∀ {other : Nat} {u : Task Hand},
      (s.after (steps ++ [leaveStep name value])).tasks[other]? = some u →
      (s.after (steps ++ [leaveStep name value])).waiters.contains other = true →
      ∃ wait, u.point = .waiting wait := by
    intro other u hu hcontains
    obtain ⟨wait, hat⟩ := s.after_waits _ hcontains
    exact ⟨wait, Option.some.inj ((Machine.scene_at hu).symm.trans hat)⟩
  have hparked : (s.after (steps ++ [leaveStep name value])).waiters.contains leaver = false := by
    by_contra hnot
    obtain ⟨wait, hpoint⟩ := hwaits htask (Bool.eq_true_of_not_eq_false hnot)
    exact hdeparts.point_ne_waiting wait hpoint
  constructor
  · intro other u hu hcontains
    have hother : other ≠ leaver := by
      rintro rfl
      rw [hparked] at hcontains
      contradiction
    obtain ⟨hhanded, hplace⟩ := hleaving.others other u hother hu
    obtain ⟨wait, hpoint⟩ := hwaits hu hcontains
    rcases hplace with houtside | ⟨_, hempty⟩
    · rw [hpoint] at houtside
      contradiction
    · exact ⟨hempty, hhanded⟩
  · obtain ⟨houtside, hhanded⟩ := s.after_free _ htask hparked
    rwa [hdeparts.count_eq_one houtside hhanded] at hcount

end Script

end ReaderWriter
