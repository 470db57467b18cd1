import Mathlib.Data.List.Induction
import ReaderWriter.Proofs.Rest
import ReaderWriter.Script.Run

/-!
# The course of a script

A script leads its machine through alternating orders and turns.  A state is reached if it is seen
on the way: after some steps, when the orders of a further step are given out and the machine has
moved any number of times.  What the start has and what every order and every move keep holds in
every state that is reached.  In particular each of these states lies on a run of scenes from the
start, so the laws of the lock hold there.

Between two steps the machine is at rest: a command calls the lock once, or once for each access
that it gives back, so every step comes to its end.
-/

namespace ReaderWriter.Script

/-- Where the tasks come to rest after some steps. -/
def after (s : Script) (steps : List Step) : State :=
  (s.respondAll s.start steps).2

/-- The orders of a further step are given out, and the machine has moved so often. -/
def midway (s : Script) (steps : List Step) (step : Step) (moves : Nat) : State :=
  iterate (Machine.step program) moves (s.giveOut (s.after steps) step).1

/-- The state is seen in the course of the script. -/
def Reaches (s : Script) (m : State) : Prop :=
  ∃ steps step moves, s.midway steps step moves = m

/-- A writer waits behind two readers, one of which leaves and asks again before the writer is done. -/
def queuedWriter : Script where
  policy := .fairTicket
  style := .guard
  names := ["a", "b", "c"]
  steps := [
    [.hand "a" (some (.enter .shared)), .hand "b" (some (.enter .shared))],
    [.hand "c" (some (.enter .exclusive))],
    [.hand "a" (some (.leave 0))],
    [.hand "a" (some (.enter .shared))],
    [.hand "b" (some (.leave 0))],
    [.hand "c" (some (.leave 0))]]

theorem respondAll_cons (s : Script) (m : State) (step : Step) (steps : List Step) :
    (s.respondAll m (step :: steps)).1 =
      (s.respond m step).1 :: (s.respondAll (s.respond m step).2 steps).1 := rfl

theorem respondAll_append (s : Script) (m : State) (steps more : List Step) :
    (s.respondAll m (steps ++ more)).2 = (s.respondAll (s.respondAll m steps).2 more).2 := by
  induction steps generalizing m with
  | nil => rfl
  | cons first steps ih => exact ih (s.respond m first).2

theorem respondAll_append_singleton (s : Script) (m : State) (steps : List Step) (step : Step) :
    (s.respondAll m (steps ++ [step])).2 =
      (s.respond (s.respondAll m steps).2 step).2 :=
  s.respondAll_append m steps [step]

theorem after_append (s : Script) (steps more : List Step) :
    s.after (steps ++ more) = (s.respondAll (s.after steps) more).2 :=
  s.respondAll_append s.start steps more

theorem after_append_singleton (s : Script) (steps : List Step) (step : Step) :
    s.after (steps ++ [step]) =
      (s.giveOut (s.after steps) step).1.settleDown program :=
  respondAll_append_singleton s s.start steps step

theorem respond_after (s : Script) (steps : List Step) (step : Step) :
    (s.respond (s.after steps) step).2 = s.after (steps ++ [step]) :=
  (s.after_append_singleton steps step).symm

theorem midway_succ (s : Script) (steps : List Step) (step : Step) (moves : Nat) :
    s.midway steps step (moves + 1) =
      iterate (Machine.step program) 1 (s.midway steps step moves) :=
  iterate_add _ moves 1 _

theorem midway_work (s : Script) (steps : List Step) (step : Step) :
    s.midway steps step ((s.giveOut (s.after steps) step).1.work program) =
      s.after (steps ++ [step]) :=
  (s.after_append_singleton steps step).symm

theorem respond_events (s : Script) (steps : List Step) (step : Step) :
    (s.respond (s.after steps) step).1.events =
      eventsSince (s.after steps) (s.after (steps ++ [step])) := by
  rw [← respond_after]
  rfl

theorem eventsSince_of_append {earlier later : State} {events : List (Event Note)}
    (hevents : later.history = events ++ earlier.history) :
    eventsSince earlier later = events.reverse := by
  unfold eventsSince
  rw [hevents, List.length_append, Nat.add_sub_cancel, List.take_left]

/-! ## Orders -/

theorem hand_eq_ok_iff {s : Script} {m next : State} {name : String} {command? : Option Command} :
    s.hand m name command? = .ok next ↔
      ∃ index t command, s.names.idxOf? name = some index ∧ command? = some command ∧
        m.tasks[index]? = some t ∧ m.waiters.contains index = false ∧ t.own.handed = none ∧
        command.objection? s.style t.own.holding = none ∧
        next = { m with
          tasks := m.tasks.set index { t with own := { t.own with handed := some command } }
          ready := m.ready ++ [index] } := by
  constructor
  · intro hhand
    unfold hand at hhand
    split at hhand
    · simp at hhand
    · next index hindex =>
        split at hhand
        · simp at hhand
        · next t htask =>
            split at hhand
            · simp at hhand
            · next hparked =>
                split at hhand
                · simp at hhand
                · next hhanded =>
                    split at hhand
                    · simp at hhand
                    · next command =>
                        split at hhand
                        · simp at hhand
                        · next hobjection =>
                            simp only [Except.ok.injEq] at hhand
                            exact ⟨index, t, command, hindex, rfl, htask, by simpa using hparked,
                              by simpa using hhanded, hobjection, hhand.symm⟩
  · rintro ⟨index, t, command, hindex, rfl, htask, hparked, hhanded, hobjection, rfl⟩
    simp [hand, hindex, htask, hparked, hhanded, hobjection]

theorem giveOut_hand {s : Script} {m next : State} {name : String} {command? : Option Command}
    (hhand : s.hand m name command? = .ok next) :
    (s.giveOut m [.hand name command?]).1 = next := by
  simp [giveOut, giveOrder, carryOut, hhand]

theorem wake_cases {s : Script} {m next : State} {name : String}
    (hwake : s.wake m name = .ok next) :
    ∃ index, m.waiters.contains index = true ∧ next = m.wake index := by
  unfold wake at hwake
  split at hwake
  · simp at hwake
  · next index hindex =>
      split at hwake
      · next hparked =>
          simp only [Except.ok.injEq] at hwake
          exact ⟨index, hparked, hwake.symm⟩
      · simp at hwake

/-- An order is carried out, or it is ignored and nothing changes. -/
theorem carryOut_keeps {P : State → Prop} {before : State × List Ignored}
    {outcome : Except Reason State} (hbefore : P before.1)
    (houtcome : ∀ next, outcome = .ok next → P next) (name : String) :
    P (carryOut name before outcome).1 := by
  cases outcome with
  | error reason => exact hbefore
  | ok next => exact houtcome next rfl

/-! ## Two scripts side by side -/

/-- An order is carried out for both, or ignored for the same reason. -/
def BothOutcomes (R : State → State → Prop) (outcome second : Except Reason State) : Prop :=
  (∃ reason, outcome = .error reason ∧ second = .error reason) ∨
    ∃ next later, outcome = .ok next ∧ second = .ok later ∧ R next later

def BothGiven (R : State → State → Prop) (given second : State × List Ignored) : Prop :=
  R given.1 second.1 ∧ given.2 = second.2

section Named

variable {s other : Script} {R : State → State → Prop} {m second : State} {name : String}
  {index task : Nat}

/-- The two tasks take a command in the same way. -/
theorem hand_both_of_alike (hindex : s.names.idxOf? name = some index)
    (htask : other.names.idxOf? name = some task)
    (hparked : m.waiters.contains index = second.waiters.contains task) {t u : Task Hand}
    (ht : m.tasks[index]? = some t) (hu : second.tasks[task]? = some u)
    (hhanded : t.own.handed = u.own.handed) {command? : Option Command}
    (halike : ∀ command, command? = some command →
      command.objection? s.style t.own.holding = command.objection? other.style u.own.holding ∧
      R { m with
          tasks := m.tasks.set index { t with own := { t.own with handed := some command } }
          ready := m.ready ++ [index] }
        { second with
          tasks := second.tasks.set task { u with own := { u.own with handed := some command } }
          ready := second.ready ++ [task] }) :
    BothOutcomes R (s.hand m name command?) (other.hand second name command?) := by
  unfold hand
  simp only [hindex, htask, ht, hu, hparked, hhanded]
  split
  · exact .inl ⟨_, rfl, rfl⟩
  · split
    · exact .inl ⟨_, rfl, rfl⟩
    · cases command? with
      | none => exact .inl ⟨_, rfl, rfl⟩
      | some command =>
          obtain ⟨hobjection, hresult⟩ := halike command rfl
          simp only [hobjection]
          split
          · exact .inl ⟨_, rfl, rfl⟩
          · exact .inr ⟨_, _, rfl, rfl, hresult⟩

theorem hand_both (hstyle : s.style = other.style) (hindex : s.names.idxOf? name = some index)
    (htask : other.names.idxOf? name = some task) (hsame : m.tasks[index]? = second.tasks[task]?)
    (hparked : m.waiters.contains index = second.waiters.contains task)
    (hresult : ∀ t, R { m with tasks := m.tasks.set index t, ready := m.ready ++ [index] }
      { second with tasks := second.tasks.set task t, ready := second.ready ++ [task] })
    (command? : Option Command) :
    BothOutcomes R (s.hand m name command?) (other.hand second name command?) := by
  cases ht : m.tasks[index]? with
  | none =>
      have hu := hsame.symm.trans ht
      exact .inl ⟨.badStep, by simp [hand, hindex, ht], by simp [hand, htask, hu]⟩
  | some t =>
      exact hand_both_of_alike hindex htask hparked ht (hsame.symm.trans ht) rfl
        fun command _ => ⟨by rw [hstyle], hresult _⟩

theorem hand_both_of_unknown (hindex : s.names.idxOf? name = none)
    (htask : other.names.idxOf? name = none) (command? : Option Command) :
    BothOutcomes R (s.hand m name command?) (other.hand second name command?) :=
  .inl ⟨.badStep, by simp [hand, hindex], by simp [hand, htask]⟩

theorem wake_both (hindex : s.names.idxOf? name = some index)
    (htask : other.names.idxOf? name = some task)
    (hparked : m.waiters.contains index = second.waiters.contains task)
    (hresult : R (m.wake index) (second.wake task)) :
    BothOutcomes R (s.wake m name) (other.wake second name) := by
  unfold wake
  simp only [hindex, htask, hparked]
  split
  · exact .inr ⟨_, _, rfl, rfl, hresult⟩
  · exact .inl ⟨_, rfl, rfl⟩

theorem wake_both_of_unknown (hindex : s.names.idxOf? name = none)
    (htask : other.names.idxOf? name = none) :
    BothOutcomes R (s.wake m name) (other.wake second name) :=
  .inl ⟨.notBlocked, by simp [wake, hindex], by simp [wake, htask]⟩

end Named

theorem BothGiven.carryOut {R : State → State → Prop} {given second : State × List Ignored}
    {outcome result : Except Reason State} (hgiven : BothGiven R given second)
    (houtcome : BothOutcomes R outcome result) (name : String) :
    BothGiven R (Script.carryOut name given outcome) (Script.carryOut name second result) := by
  rcases houtcome with ⟨reason, rfl, rfl⟩ | ⟨next, later, rfl, rfl, hnext⟩
  · refine ⟨hgiven.1, ?_⟩
    simp only [Script.carryOut, hgiven.2]
  · exact ⟨hnext, hgiven.2⟩

section Both

variable {s other : Script} {R : State → State → Prop}
  (hwake : ∀ m second name, R m second → BothOutcomes R (s.wake m name) (other.wake second name))
include hwake

theorem wakeAll_both (names : List String) {given second : State × List Ignored}
    (hgiven : BothGiven R given second) :
    BothGiven R (names.foldl (fun b name => carryOut name b (s.wake b.1 name)) given)
      (names.foldl (fun b name => carryOut name b (other.wake b.1 name)) second) := by
  induction names generalizing given second with
  | nil => exact hgiven
  | cons name names ih => exact ih (hgiven.carryOut (hwake _ _ name hgiven.1) name)

/-- What relates the states before a step relates them when its orders are given out. -/
theorem giveOut_both {step : Step}
    (hhand : ∀ m second name command?, .hand name command? ∈ step → R m second →
      BothOutcomes R (s.hand m name command?) (other.hand second name command?))
    {m second : State} (hm : R m second) :
    BothGiven R (s.giveOut m step) (other.giveOut second step) := by
  have hfold : ∀ {given second : State × List Ignored}, BothGiven R given second →
      BothGiven R (step.foldl s.giveOrder given) (step.foldl other.giveOrder second) := by
    induction step with
    | nil => exact fun hgiven => hgiven
    | cons order orders ih =>
        intro given second hgiven
        refine ih (fun m second name command? hmem => hhand m second name command?
          (List.mem_cons_of_mem _ hmem)) ?_
        cases order with
        | wake names => exact wakeAll_both hwake names hgiven
        | hand name command? =>
            exact hgiven.carryOut (hhand _ _ name command? List.mem_cons_self hgiven.1) name
  exact hfold ⟨hm, rfl⟩

end Both

/-! ## Views of a state that orders do not see -/

/-- The view leaves everything that an order looks at or changes as it is. -/
def Overlooks (view : State → State) : Prop :=
  ∀ (m : State) (tasks : List (Task Hand)) (ready : List Nat) (waiters : Waiters),
    view { m with tasks, ready, waiters } = { view m with tasks, ready, waiters }

namespace Overlooks

variable {view : State → State}

theorem tasks (hview : Overlooks view) (m : State) : (view m).tasks = m.tasks := by
  have hsame := congrArg Machine.tasks (hview m m.tasks m.ready m.waiters)
  exact hsame

theorem ready (hview : Overlooks view) (m : State) : (view m).ready = m.ready := by
  have hsame := congrArg Machine.ready (hview m m.tasks m.ready m.waiters)
  exact hsame

theorem waiters (hview : Overlooks view) (m : State) : (view m).waiters = m.waiters := by
  have hsame := congrArg Machine.waiters (hview m m.tasks m.ready m.waiters)
  exact hsame

theorem giveOut (hview : Overlooks view) (s : Script) (m : State) (step : Step) :
    s.giveOut (view m) step = (s.giveOut m step).map view id := by
  let R : State → State → Prop := fun m second => second = view m
  have hcontains : ∀ (m : State) (index : Nat),
      m.waiters.contains index = (view m).waiters.contains index := by
    intro m index
    rw [hview.waiters]
  have hboth : BothGiven R (s.giveOut m step) (s.giveOut (view m) step) := by
    refine giveOut_both ?_ ?_ rfl
    · rintro m second name rfl
      cases hindex : s.names.idxOf? name with
      | none => exact wake_both_of_unknown hindex hindex
      | some index =>
          refine wake_both hindex hindex (hcontains m index) ?_
          have hwake := hview m m.tasks (m.ready ++ [index]) (m.waiters.remove index)
          simp only [R, Machine.wake, hview.ready, hview.waiters, hview.tasks] at hwake ⊢
          exact hwake.symm
    · rintro m second name command? _ rfl
      cases hindex : s.names.idxOf? name with
      | none => exact hand_both_of_unknown hindex hindex command?
      | some index =>
          refine hand_both rfl hindex hindex (by rw [hview.tasks]) (hcontains m index) ?_ command?
          intro t
          have hhand := hview m (m.tasks.set index t) (m.ready ++ [index]) m.waiters
          simp only [R, hview.ready, hview.waiters, hview.tasks] at hhand ⊢
          exact hhand.symm
  exact Prod.ext hboth.1 hboth.2.symm

end Overlooks

section Keeps

variable {s : Script} {P : State → Prop}
  (hhand : ∀ m next name command?, P m → s.hand m name command? = .ok next → P next)
  (hwake : ∀ m next name, P m → s.wake m name = .ok next → P next)

include hwake in
theorem carryOut_wake_keeps (names : List String) {before : State × List Ignored}
    (hbefore : P before.1) :
    P (names.foldl (fun b name => carryOut name b (s.wake b.1 name)) before).1 := by
  induction names generalizing before with
  | nil => exact hbefore
  | cons name names ih =>
      apply ih
      apply carryOut_keeps hbefore
      intro next houtcome
      exact hwake _ _ _ hbefore houtcome

include hwake in
/-- What the commands of a step and all wake-ups keep. -/
theorem giveOut_keeps_of_mem {step : Step}
    (hcommands : ∀ m next name command?, .hand name command? ∈ step → P m →
      s.hand m name command? = .ok next → P next) {m : State} (hm : P m) :
    P (s.giveOut m step).1 := by
  have hfirst : P (m, ([] : List Ignored)).1 := hm
  refine List.foldlRecOn (motive := fun before => P before.1) step s.giveOrder hfirst ?_
  intro before hbefore order horder
  cases order with
  | wake names => exact carryOut_wake_keeps hwake names hbefore
  | hand name command? =>
      apply carryOut_keeps hbefore
      intro next houtcome
      exact hcommands _ _ _ _ horder hbefore houtcome

include hhand hwake

theorem giveOut_keeps {m : State} (hm : P m) (step : Step) : P (s.giveOut m step).1 :=
  giveOut_keeps_of_mem hwake (fun m next name command? _ => hhand m next name command?) hm

variable (hstart : P s.start) (hstep : ∀ m next, P m → m.step program = some next → P next)
include hstart hstep

theorem after_keeps (steps : List Step) : P (s.after steps) := by
  have hall : ∀ m : State, P m → P (s.respondAll m steps).2 := by
    induction steps with
    | nil => exact fun _ hm => hm
    | cons step steps ih =>
        intro m hm
        have hordered := giveOut_keeps hhand hwake hm step
        exact ih _ (iterate_keeps hstep _ hordered)
  exact hall s.start hstart

theorem Reaches.keeps {m : State} (hm : s.Reaches m) : P m := by
  obtain ⟨steps, step, moves, rfl⟩ := hm
  have hafter := after_keeps hhand hwake hstart hstep steps
  have hordered := giveOut_keeps hhand hwake hafter step
  exact iterate_keeps hstep moves hordered

end Keeps

theorem reaches_after (s : Script) (steps : List Step) : s.Reaches (s.after steps) :=
  ⟨steps, [], 0, rfl⟩

theorem reaches_midway (s : Script) (steps : List Step) (step : Step) (moves : Nat) :
    s.Reaches (s.midway steps step moves) :=
  ⟨steps, step, moves, rfl⟩

theorem Reaches.step {s : Script} {m next : State} (hm : s.Reaches m)
    (hstep : m.step program = some next) : s.Reaches next := by
  obtain ⟨steps, orders, moves, rfl⟩ := hm
  exact ⟨steps, orders, moves + 1, iterate_succ_of_eq_some hstep⟩

/-! ## Laws that rest on others -/

theorem giveOut_append_singleton (s : Script) (m : State) (step : Step) (order : Order) :
    s.giveOut m (step ++ [order]) = s.giveOrder (s.giveOut m step) order := by
  unfold giveOut
  rw [List.foldl_append]
  rfl

/-- Orders of a step were given out, and no task has moved since. -/
def Ordered (s : Script) (m : State) : Prop :=
  ∃ steps step, (s.giveOut (s.after steps) step).1 = m

theorem Ordered.reaches {s : Script} {m : State} (hm : s.Ordered m) : s.Reaches m := by
  obtain ⟨steps, step, rfl⟩ := hm
  exact ⟨steps, step, 0, rfl⟩

/-- What the start has, what the orders of each step keep while all tasks are at rest, and what
every move keeps. -/
theorem Reaches.keeps_steps {s : Script} {P : State → Prop} (hstart : P s.start)
    (horders : ∀ steps step, P (s.after steps) → P (s.giveOut (s.after steps) step).1)
    (hstep : ∀ m next, s.Reaches m → P m → m.step program = some next → P next) {m : State}
    (hm : s.Reaches m) : P m := by
  have hmoves : ∀ steps, P (s.after steps) → ∀ step moves, P (s.midway steps step moves) := by
    intro steps hafter step moves
    have hordered := horders steps step hafter
    have hboth : s.Reaches (s.midway steps step moves) ∧ P (s.midway steps step moves) := by
      refine iterate_keeps (P := fun m => s.Reaches m ∧ P m) ?_ moves
        ⟨⟨steps, step, 0, rfl⟩, hordered⟩
      rintro m next ⟨hreaches, hm⟩ hnext
      exact ⟨hreaches.step hnext, hstep m next hreaches hm hnext⟩
    exact hboth.2
  have hafter : ∀ steps, P (s.after steps) := by
    intro steps
    induction steps using List.reverseRecOn with
    | nil => exact hstart
    | append_singleton steps step ih =>
        rw [after_append_singleton]
        exact hmoves steps ih step _
  obtain ⟨steps, step, moves, rfl⟩ := hm
  exact hmoves steps (hafter steps) step moves

section KeepsReached

variable {s : Script} {P : State → Prop}
  (hhand : ∀ m next name command?, s.Ordered m → P m → s.hand m name command? = .ok next → P next)
  (hwake : ∀ m next name, s.Ordered m → P m → s.wake m name = .ok next → P next)
include hhand hwake

/-- Whatever orders of a step were given out so far, they are a step. -/
theorem giveOut_keeps_ordered {steps : List Step} (hafter : P (s.after steps)) (step : Step) :
    P (s.giveOut (s.after steps) step).1 := by
  let Q : State → Prop := fun m => (∃ given, (s.giveOut (s.after steps) given).1 = m) ∧ P m
  have hboth : Q (s.giveOut (s.after steps) step).1 := by
    refine giveOut_keeps ?_ ?_ ⟨⟨[], rfl⟩, hafter⟩ step
    · rintro m next name command? ⟨⟨given, rfl⟩, hm⟩ houtcome
      refine ⟨⟨given ++ [.hand name command?], ?_⟩, ?_⟩
      · simp [giveOut_append_singleton, giveOrder, carryOut, houtcome]
      · exact hhand _ next name command? ⟨steps, given, rfl⟩ hm houtcome
    · rintro m next name ⟨⟨given, rfl⟩, hm⟩ houtcome
      refine ⟨⟨given ++ [.wake [name]], ?_⟩, ?_⟩
      · simp [giveOut_append_singleton, giveOrder, carryOut, houtcome]
      · exact hwake _ next name ⟨steps, given, rfl⟩ hm houtcome
  exact hboth.2

/-- What the start has and what every order and every move keep in the states where they occur. -/
theorem Reaches.keeps_reached (hstart : P s.start)
    (hstep : ∀ m next, s.Reaches m → P m → m.step program = some next → P next) {m : State}
    (hm : s.Reaches m) : P m :=
  hm.keeps_steps hstart (fun _ step hafter => giveOut_keeps_ordered hhand hwake hafter step) hstep

end KeepsReached

/-! ## The scenes of a script -/

theorem hand_scene {s : Script} {m next : State} {name : String} {command? : Option Command}
    (hhand : s.hand m name command? = .ok next) : next.scene = m.scene := by
  obtain ⟨index, t, command, _, _, htask, _, _, _, rfl⟩ := hand_eq_ok_iff.mp hhand
  have hat : m.scene.At index t.point := Machine.scene_at htask
  have hpoints := hat.set_eq
  simp only [Machine.scene, List.map_set] at hpoints ⊢
  rw [hpoints]

theorem start_scene (s : Script) : s.start.scene = Scene.start s.policy s.names.length := by
  simp [start, Machine.scene, Scene.start]

theorem Reaches.run {s : Script} {m : State} (hm : s.Reaches m) :
    Scene.Run (Scene.start s.policy s.names.length) m.scene := by
  let P : State → Prop := fun m =>
    Scene.Run (Scene.start s.policy s.names.length) m.scene
  have hhand : ∀ m next name command?, P m → s.hand m name command? = .ok next → P next := by
    intro m next name command? hrun houtcome
    change Scene.Run _ next.scene
    rw [hand_scene houtcome]
    exact hrun
  have hwake : ∀ m next name, P m → s.wake m name = .ok next → P next := by
    intro m next name hrun houtcome
    obtain ⟨index, _, rfl⟩ := wake_cases houtcome
    exact hrun.tail (Scene.Move.wake m.scene index)
  have hstart : P s.start := by
    change Scene.Run _ s.start.scene
    rw [start_scene]
  have hstep : ∀ m next, P m → m.step program = some next → P next := by
    intro m next hrun hmoves
    exact hrun.trans (Machine.run_step hmoves)
  exact hm.keeps hhand hwake hstart hstep

theorem Reaches.tasks_length {s : Script} {m : State} (hm : s.Reaches m) :
    m.tasks.length = s.names.length := by
  simpa [Machine.scene, Scene.start] using hm.run.points_length

theorem giveOut_points (s : Script) (m : State) (step : Step) :
    (s.giveOut m step).1.scene.points = m.scene.points := by
  refine giveOut_keeps (P := fun next => next.scene.points = m.scene.points) ?_ ?_ rfl step
  · intro before next name command? hpoints hhand
    exact (congrArg Scene.points (hand_scene hhand)).trans hpoints
  · intro before next name hpoints hwake
    obtain ⟨_, _, rfl⟩ := wake_cases hwake
    exact hpoints

/-! ## The answers of a run -/

theorem giveOut_history (s : Script) (m : State) (step : Step) :
    (s.giveOut m step).1.history = m.history := by
  refine giveOut_keeps (P := fun next => next.history = m.history) ?_ ?_ rfl step
  · intro before next name command? hhistory hhand
    exact (congrArg Scene.history (hand_scene hhand)).trans hhistory
  · intro before next name hhistory hwake
    obtain ⟨_, _, rfl⟩ := wake_cases hwake
    exact hhistory

theorem respond_history (s : Script) (m : State) (step : Step) :
    (s.respond m step).2.history = (s.respond m step).1.events.reverse ++ m.history := by
  have hsuffix : m.history <:+ (s.respond m step).2.history := by
    refine iterate_keeps (P := fun next : State => m.history <:+ next.history) ?_ _
      (s.giveOut_history m step ▸ List.suffix_rfl)
    intro later next hsuffix hstep
    exact hsuffix.trans (Machine.run_step hstep).history_suffix
  obtain ⟨events, hevents⟩ := hsuffix
  have hanswer : (s.respond m step).1.events = events.reverse := eventsSince_of_append hevents.symm
  rw [hanswer, List.reverse_reverse, hevents]

theorem respondAll_history (s : Script) (m : State) (steps : List Step) :
    (s.respondAll m steps).2.history =
      ((s.respondAll m steps).1.flatMap (·.events)).reverse ++ m.history := by
  induction steps generalizing m with
  | nil => rfl
  | cons step steps ih =>
      have hrest := ih (s.respond m step).2
      rw [s.respond_history m step] at hrest
      simp only [respondAll, List.flatMap_cons, List.reverse_append, List.append_assoc]
      exact hrest

/-- Each step is answered from where the ones before it came to rest. -/
theorem respondAll_getElem? (s : Script) (m : State) (steps : List Step) (index : Nat) :
    (s.respondAll m steps).1[index]? =
      steps[index]?.map fun step => (s.respond (s.respondAll m (steps.take index)).2 step).1 := by
  induction steps generalizing m index with
  | nil => rfl
  | cons step steps ih =>
      cases index with
      | zero => rfl
      | succ index => exact ih (s.respond m step).2 index

theorem run_answers_getElem? (s : Script) (index : Nat) :
    s.run.answers[index]? =
      s.steps[index]?.map fun step => (s.respond (s.after (s.steps.take index)) step).1 :=
  s.respondAll_getElem? s.start s.steps index

/-- The answers of a run tell its whole log. -/
theorem run_events (s : Script) :
    s.run.answers.flatMap (·.events) = (s.after s.steps).history.reverse := by
  have hhistory := s.respondAll_history s.start s.steps
  rw [show s.start.history = [] from rfl, List.append_nil] at hhistory
  exact (congrArg List.reverse hhistory).symm ▸ (List.reverse_reverse _).symm

end ReaderWriter.Script
