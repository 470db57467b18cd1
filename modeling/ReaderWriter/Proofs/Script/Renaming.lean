import ReaderWriter.Proofs.Renaming
import ReaderWriter.Proofs.Script.Leaving
import ReaderWriter.Script.Text

/-!
# Scripts with fewer names

The tasks of a script are listed by their names.  Another script may name only some of them, and in
another order.  As long as its orders go to tasks that it names, its machine mirrors the machine of
the first one, and each step is answered in the same words.
-/

namespace ReaderWriter.Script

/-- The number in the one list for a number in the other one.  Behind the other list there are the
numbers behind the one. -/
def renumber (names others : List String) (task : Nat) : Nat :=
  match others[task]? with
  | some name => names.idxOf name
  | none => names.length + task

/-- The tasks that the other script names are tasks of this one. -/
structure Renumbers (f : Nat → Nat) (s other : Script) : Prop where
  style : s.style = other.style
  injective : f.Injective
  index : ∀ {name : String} {task : Nat}, other.names.idxOf? name = some task →
    s.names.idxOf? name = some (f task)
  hidden : ∀ {name : String}, other.names.idxOf? name = none →
    ∀ task, s.names.idxOf? name ≠ some (f task)
  nameOf : ∀ task, s.nameOf (f task) = other.nameOf task

theorem idxOf?_of_mem {names : List String} {name : String} (hname : name ∈ names) :
    names.idxOf? name = some (names.idxOf name) := by
  cases hindex : names.idxOf? name with
  | none => exact absurd hname (List.idxOf?_eq_none_iff.mp hindex)
  | some index =>
      rw [List.idxOf_eq_getD_idxOf?, hindex]
      rfl

section Renumber

variable {names others : List String}

theorem renumber_injective (hnodup : others.Nodup) (hknown : ∀ name ∈ others, name ∈ names) :
    (renumber names others).Injective := by
  have hbelow : ∀ {name : String} {task : Nat}, others[task]? = some name →
      names.idxOf name < names.length := by
    intro name task hname
    exact List.idxOf_lt_length_iff.mpr (hknown name (List.mem_of_getElem? hname))
  intro task second hsame
  unfold renumber at hsame
  cases htask : others[task]? with
  | none =>
      cases hsecond : others[second]? with
      | none =>
          simp only [htask, hsecond] at hsame
          omega
      | some name =>
          have hlt := hbelow hsecond
          simp only [htask, hsecond] at hsame
          omega
  | some name =>
      have hlt := hbelow htask
      cases hsecond : others[second]? with
      | none =>
          simp only [htask, hsecond] at hsame
          omega
      | some other =>
          simp only [htask, hsecond] at hsame
          have hnames := (List.idxOf_inj (hknown name (List.mem_of_getElem? htask))).mp hsame
          rcases List.getElem?_eq_some_iff.mp htask with ⟨hfirst, rfl⟩
          rcases List.getElem?_eq_some_iff.mp hsecond with ⟨hother, rfl⟩
          exact (hnodup.getElem_inj_iff).mp hnames

theorem getElem?_of_idxOf? {names : List String} {name : String} {index : Nat}
    (hindex : names.idxOf? name = some index) : names[index]? = some name := by
  rcases List.idxOf?_eq_some_iff.mp hindex with ⟨hlt, hname, _⟩
  rw [List.getElem?_eq_getElem hlt, hname]

theorem renumber_renumbers (s : Script) (steps : List Step) (hnodup : others.Nodup)
    (hknown : ∀ name ∈ others, name ∈ s.names) :
    Renumbers (renumber s.names others) s { s with steps, names := others } := by
  constructor
  · rfl
  · exact renumber_injective hnodup hknown
  · intro name task hindex
    have hname := getElem?_of_idxOf? hindex
    simp only [renumber, hname]
    exact idxOf?_of_mem (hknown name (List.mem_of_getElem? hname))
  · intro name hnone task hindex
    have hmissing : name ∉ others := List.idxOf?_eq_none_iff.mp hnone
    have hget := getElem?_of_idxOf? hindex
    cases htask : others[task]? with
    | none =>
        simp [renumber, htask] at hget
    | some other =>
        have hother := List.mem_of_getElem? htask
        simp only [renumber, htask] at hget
        rw [getElem?_of_idxOf? (idxOf?_of_mem (hknown other hother)), Option.some_inj] at hget
        exact hmissing (hget ▸ hother)
  · intro task
    unfold nameOf
    cases htask : others[task]? with
    | none => simp [renumber, htask]
    | some name =>
        have hget := getElem?_of_idxOf? (idxOf?_of_mem (hknown name (List.mem_of_getElem? htask)))
        simp [renumber, htask, hget]

theorem start_mirrors (s : Script) (steps : List Step) (hknown : ∀ name ∈ others, name ∈ s.names) :
    Machine.Mirrors (renumber s.names others) s.start
      { s with steps, names := others }.start := by
  refine ⟨rfl, rfl, rfl, rfl, rfl, rfl, ?_, ?_, rfl⟩
  · intro channel
    cases channel <;> rfl
  · intro task
    simp only [start, List.getElem?_map]
    cases htask : others[task]? with
    | none => simp [renumber, htask]
    | some name =>
        have hindex := idxOf?_of_mem (hknown name (List.mem_of_getElem? htask))
        simp [renumber, htask, getElem?_of_idxOf? hindex]

end Renumber

/-! ## Orders -/

/-- The order is not for a task that only the first script names. -/
def Order.Known (s other : Script) : Order → Prop
  | .hand name _ => name ∈ s.names → name ∈ other.names
  | .wake _ => True

namespace Renumbers

variable {f : Nat → Nat} {s other : Script} {m second : State}

theorem contains (hnames : Renumbers f s other) (hm : Machine.Mirrors f m second) (task : Nat) :
    m.waiters.contains (f task) = second.waiters.contains task := by
  have hreleased := hm.parked .released
  have hdone := hm.parked .writerDone
  simp only [Waiters.on] at hreleased hdone
  simp only [Waiters.contains, hreleased, hdone, List.contains_eq_mem,
    List.mem_map_of_injective hnames.injective]

theorem exists_of_contains (hm : Machine.Mirrors f m second) {index : Nat}
    (hparked : m.waiters.contains index = true) : ∃ task, f task = index := by
  rcases Waiters.contains_iff.mp hparked with ⟨channel, hmem⟩
  rw [hm.parked channel] at hmem
  rcases List.mem_map.mp hmem with ⟨task, _, hname⟩
  exact ⟨task, hname⟩

theorem hand (hnames : Renumbers f s other) (hm : Machine.Mirrors f m second) {name : String}
    {command? : Option Command} (hknown : (Order.hand name command?).Known s other) :
    BothOutcomes (Machine.Mirrors f) (s.hand m name command?) (other.hand second name command?) := by
  cases hindex : other.names.idxOf? name with
  | none =>
      have hmissing : name ∉ s.names := fun hname =>
        List.idxOf?_eq_none_iff.mp hindex (hknown hname)
      exact hand_both_of_unknown (List.idxOf?_eq_none_iff.mpr hmissing) hindex command?
  | some task =>
      refine hand_both hnames.style (hnames.index hindex) hindex (hm.tasks task)
        (hnames.contains hm task) ?_ command?
      intro t
      exact ⟨hm.lock, hm.shared, hm.picks, hm.preempt, hm.running, by simp [hm.ready], hm.parked,
        hm.set hnames.injective task t, hm.history⟩

theorem wake (hnames : Renumbers f s other) (hm : Machine.Mirrors f m second) (name : String) :
    BothOutcomes (Machine.Mirrors f) (s.wake m name) (other.wake second name) := by
  cases hindex : other.names.idxOf? name with
  | some task =>
      exact wake_both (hnames.index hindex) hindex (hnames.contains hm task)
        (hm.wake hnames.injective task)
  | none =>
      cases hfirst : s.names.idxOf? name with
      | none => exact wake_both_of_unknown hfirst hindex
      | some index =>
          -- whoever is parked is a task of the other script
          have hfree : m.waiters.contains index = false := by
            by_contra hparked
            rcases exists_of_contains hm (Bool.eq_true_of_not_eq_false hparked) with ⟨task, rfl⟩
            exact hnames.hidden hindex task hfirst
          exact .inl ⟨.notBlocked, by simp [Script.wake, hfirst, hfree],
            by simp [Script.wake, hindex]⟩

theorem giveOut (hnames : Renumbers f s other) (hm : Machine.Mirrors f m second) {step : Step}
    (hknown : ∀ order ∈ step, order.Known s other) :
    BothGiven (Machine.Mirrors f) (s.giveOut m step) (other.giveOut second step) := by
  refine giveOut_both ?_ ?_ hm
  · intro m second name hm
    exact hnames.wake hm name
  · intro m second name command? hmem hm
    exact hnames.hand hm (hknown _ hmem)

end Renumbers

/-! ## Answers -/

/-- The answers say the same about the tasks that the other script names. -/
structure Matches (s other : Script) (answer second : Answer) : Prop where
  events : answer.events.filterMap (eventText? s.nameOf) =
    second.events.filterMap (eventText? other.nameOf)
  snapshot : answer.snapshot = second.snapshot
  ignored : answer.ignored = second.ignored
  tasks : ∀ name ∈ other.names,
    answer.tasks[s.names.idxOf name]? = second.tasks[other.names.idxOf name]?

namespace Renumbers

variable {f : Nat → Nat} {s other : Script} {m second : State} {step : Step}

theorem eventText? (hnames : Renumbers f s other) (event : Event Note) :
    Script.eventText? s.nameOf (event.rename f) = Script.eventText? other.nameOf event := by
  cases event with
  | noted task note => simp only [Event.rename, Script.eventText?, hnames.nameOf]
  | traced task trace => simp only [Event.rename, Script.eventText?, hnames.nameOf]
  | _ => rfl

theorem view (hnames : Renumbers f s other) (hm : Machine.Mirrors f m second) {name : String}
    (hname : name ∈ other.names) :
    (Script.view m)[s.names.idxOf name]? = (Script.view second)[other.names.idxOf name]? := by
  have hindex := hnames.index (idxOf?_of_mem hname)
  have hsame : s.names.idxOf name = f (other.names.idxOf name) := by
    rw [List.idxOf_eq_getD_idxOf?, hindex]
    rfl
  rw [view_getElem?, view_getElem?, hsame, hm.tasks, hnames.contains hm]

/-- A step whose orders go to tasks of both scripts is answered in the same words. -/
theorem respond (hnames : Renumbers f s other) (hm : Machine.Mirrors f m second)
    (hknown : ∀ order ∈ step, order.Known s other)
    (hrest : (s.respond m step).2.step program = none)
    (hends : (other.respond second step).2.step program = none) :
    Matches s other (s.respond m step).1 (other.respond second step).1 ∧
      Machine.Mirrors f (s.respond m step).2 (other.respond second step).2 := by
  have hgiven := hnames.giveOut hm hknown
  have hlater : Machine.Mirrors f (s.respond m step).2 (other.respond second step).2 :=
    hgiven.1.rests hnames.injective program hrest hends
  refine ⟨⟨?_, ?_, hgiven.2, ?_⟩, hlater⟩
  · have hhistory := hlater.history
    rw [s.respond_history, other.respond_history, List.map_append, hm.history] at hhistory
    have hevents := List.append_cancel_right hhistory
    rw [List.map_reverse, List.reverse_inj] at hevents
    rw [hevents, List.filterMap_map]
    exact congrArg (List.filterMap · _) (funext hnames.eventText?)
  · exact congrArg Lock.toSnapshot hlater.lock
  · intro name hname
    exact hnames.view hlater hname

end Renumbers

end ReaderWriter.Script
