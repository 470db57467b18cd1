import ReaderWriter.Proofs.Accesses
import ReaderWriter.Proofs.Acting

/-!
# Tasks that give back what they were granted

A program keeps account of the accesses of its tasks if it can be told from where a task stands what
it holds: more by one after each grant, less by one after each release, and the same otherwise.
Then what a task holds is what the history grants it, and nobody ever gives back an access that is
not there.
-/

namespace ReaderWriter

variable {σ δ ε : Type}

namespace Event

@[simp] theorem grantsTo_comp_noted (other task : Nat) (mode : Mode) :
    (grantsTo task mode : Event ε → Bool) ∘ noted other = fun _ => false := rfl

@[simp] theorem returnsFrom_comp_noted (other task : Nat) (mode : Mode) :
    (returnsFrom task mode : Event ε → Bool) ∘ noted other = fun _ => false := rfl

theorem task_of_noted {notes : List ε} {task : Nat} {event : Event ε}
    (hevent : event ∈ (notes.map (.noted task)).reverse) : event.task = task := by
  obtain ⟨note, _, rfl⟩ : ∃ note ∈ notes, .noted task note = event := by simpa using hevent
  rfl

theorem grantsTo_of_task_ne {event : Event ε} {task : Nat} (hne : event.task ≠ task) (mode : Mode) :
    event.grantsTo task mode = false := by
  cases event <;> simp_all [Event.task, grantsTo]

theorem returnsFrom_of_task_ne {event : Event ε} {task : Nat} (hne : event.task ≠ task)
    (mode : Mode) : event.returnsFrom task mode = false := by
  cases event <;> simp_all [Event.task, returnsFrom]

end Event

namespace Lock

theorem arrivalEvents_cases {l : Lock} {task : Nat} {point : Point} {event : Event ε}
    (hevent : event ∈ l.arrivalEvents task point) :
    (∃ mode, event = .requested task mode) ∨ ∃ trace, event = .traced task trace := by
  cases point with
  | before call =>
      cases call with
      | acquire mode =>
          rcases List.mem_cons.mp hevent with rfl | htraced
          · exact .inl ⟨mode, rfl⟩
          · obtain ⟨trace, _, rfl⟩ := List.mem_map.mp htraced
            exact .inr ⟨trace, rfl⟩
      | release mode => simp [arrivalEvents] at hevent
  | _ => simp [arrivalEvents] at hevent

theorem task_of_arrivalEvents {l : Lock} {task : Nat} {point : Point} {event : Event ε}
    (hevent : event ∈ l.arrivalEvents task point) : event.task = task := by
  rcases arrivalEvents_cases hevent with ⟨mode, rfl⟩ | ⟨trace, rfl⟩ <;> rfl

theorem countP_arrivalEvents (l : Lock) (mover task : Nat) (mode : Mode) (point : Point) :
    (l.arrivalEvents mover point : List (Event ε)).countP (Event.grantsTo task mode) = 0 ∧
      (l.arrivalEvents mover point : List (Event ε)).countP (Event.returnsFrom task mode) = 0 := by
  cases point with
  | before call =>
      cases call <;>
        simp [arrivalEvents, List.countP_map, Event.grantsTo, Event.returnsFrom]
  | _ => simp [arrivalEvents]

theorem not_mem_arrivalEvents (l : Lock) (mover task : Nat) (mode : Mode) (point : Point) :
    (.granted task mode : Event ε) ∉ l.arrivalEvents mover point ∧
      (.released task mode : Event ε) ∉ l.arrivalEvents mover point ∧
        (.misused task mode : Event ε) ∉ l.arrivalEvents mover point := by
  refine ⟨fun hmem => ?_, fun hmem => ?_, fun hmem => ?_⟩ <;>
    rcases arrivalEvents_cases hmem with ⟨_, hevent⟩ | ⟨_, hevent⟩ <;> cases hevent

end Lock

/-- The program keeps account of its accesses, as far as a task is known to be in such a state. -/
structure Program.Balances (p : Program σ δ ε) (holds : Point → σ → Mode → Nat)
    (Known : Point → σ → Prop) : Prop where
  resume : ∀ own shared mode, Known .outside own →
    holds (p.resume own shared).point (p.resume own shared).own mode = holds .outside own mode
  waits : ∀ {l lock : Lock} {point : Point} {wait : Wait} (own : σ) (mode : Mode),
    l.Looks point lock wait → Known point own →
    holds (.waiting wait) own mode = holds point own mode
  granted : ∀ {l lock : Lock} {point : Point} {wait : Wait} (own : σ) (shared : δ) (mode : Mode),
    l.Looks point lock wait → Known point own →
    holds (p.granted wait.mode own shared).point (p.granted wait.mode own shared).own mode =
      holds point own mode + if wait.mode = mode then 1 else 0
  released : ∀ own shared returned mode, Known (.before (.release returned)) own →
    holds (.before (.release returned)) own mode =
      holds (p.released returned own shared).point (p.released returned own shared).own mode +
        if returned = mode then 1 else 0

namespace Machine

/-- When a task goes on, only what happens to it is recorded. -/
theorem act_records (p : Program σ δ ε) (m : Machine σ δ ε) (task : Nat) (t : Task σ) :
    ∃ events, (m.act p task t).history = events ++ m.history ∧
      ∀ event ∈ events, event.task = task := by
  have hreact : ∀ {later : Machine σ δ ε} {events : List (Event ε)} (r : Reaction σ δ ε),
      later.history = events ++ m.history → (∀ event ∈ events, event.task = task) →
      ∃ events, (later.react task r).history = events ++ m.history ∧
        ∀ event ∈ events, event.task = task := by
    intro later events r hhistory habout
    refine ⟨(r.notes.map (.noted task)).reverse ++ events, ?_, ?_⟩
    · rw [react_history, hhistory, List.append_assoc]
    · intro event hevent
      rcases List.mem_append.mp hevent with hnoted | hevent
      · exact Event.task_of_noted hnoted
      · exact habout event hevent
  have hacts := acts p m task t
  generalize m.act p task t = next at hacts ⊢
  cases hacts with
  | resumes hpoint => exact hreact _ (List.nil_append _).symm (by simp)
  | parks hlooks hblocks =>
      refine ⟨_, rfl, ?_⟩
      exact fun event hevent => Lock.task_of_arrivalEvents (List.mem_reverse.mp hevent)
  | @enters lock wait hlooks hchannel henters =>
      refine hreact _ rfl ?_
      intro event hevent
      rcases List.mem_append.mp (List.mem_reverse.mp hevent) with harrival | hevent
      · exact Lock.task_of_arrivalEvents harrival
      · rcases List.mem_append.mp hevent with htraced | hgranted
        · exact Event.task_of_traced (List.mem_reverse.mpr htraced)
        · rw [List.mem_singleton.mp hgranted]
          rfl
  | @returns mode r hpoint hrelease =>
      refine hreact _ (foldl_notify_history _ _) ?_
      intro event hevent
      rcases List.mem_append.mp (List.mem_reverse.mp hevent) with htraced | hreleased
      · exact Event.task_of_traced (List.mem_reverse.mpr htraced)
      · rw [List.mem_singleton.mp hreleased]
        rfl
  | @misuses mode hpoint hrelease =>
      have hrecorded : (m.record [.misused task mode]).history = [.misused task mode] ++ m.history :=
        rfl
      exact hreact _ hrecorded (by simp [Event.task])

/-- What each task holds is what it was granted and has not given back. -/
def Accounted (holds : Point → σ → Mode → Nat) (m : Machine σ δ ε) : Prop :=
  ∀ (task : Nat) (t : Task σ), m.tasks[task]? = some t → ∀ mode,
    m.history.countP (Event.grantsTo task mode) =
      m.history.countP (Event.returnsFrom task mode) + holds t.point t.own mode

structure Balanced (holds : Point → σ → Mode → Nat) (m : Machine σ δ ε) : Prop where
  accounts : m.scene.Accounts
  attributed : m.scene.Attributed
  accounted : m.Accounted holds
  sound : ∀ task mode, .misused task mode ∉ m.history

variable {p : Program σ δ ε} {holds : Point → σ → Mode → Nat} {Known : Point → σ → Prop}
  {m next : Machine σ δ ε} {task : Nat} {t u : Task σ}

/-- A task goes on, and what happens to it is recorded. -/
theorem Accounted.set (hm : m.Accounted holds) (htask : m.tasks[task]? = some t)
    (htasks : next.tasks = m.tasks.set task u) {events : List (Event ε)}
    (hhistory : next.history = events ++ m.history) (habout : ∀ event ∈ events, event.task = task)
    (hself : ∀ mode, events.countP (Event.grantsTo task mode) + holds t.point t.own mode =
      events.countP (Event.returnsFrom task mode) + holds u.point u.own mode) :
    next.Accounted holds := by
  intro other v hv mode
  rw [hhistory, List.countP_append, List.countP_append]
  by_cases hother : task = other
  · subst hother
    have hbefore := hm task t htask mode
    have hchange := hself mode
    obtain ⟨hlt, _⟩ := List.getElem?_eq_some_iff.mp htask
    rw [htasks, List.getElem?_set_self hlt] at hv
    obtain rfl := Option.some.inj hv
    omega
  · have hgrants : events.countP (Event.grantsTo other mode) = 0 := by
      rw [List.countP_eq_zero]
      intro event hevent
      rw [Event.grantsTo_of_task_ne (habout event hevent ▸ hother)]
      simp
    have hreturns : events.countP (Event.returnsFrom other mode) = 0 := by
      rw [List.countP_eq_zero]
      intro event hevent
      rw [Event.returnsFrom_of_task_ne (habout event hevent ▸ hother)]
      simp
    rw [htasks, List.getElem?_set_ne hother] at hv
    rw [hgrants, hreturns, Nat.zero_add, Nat.zero_add]
    exact hm other v hv mode

namespace Balanced

theorem owned (hm : m.Balanced holds) (task : Nat) (mode : Mode) :
    m.history.countP (Event.returnsFrom task mode) ≤
      m.history.countP (Event.grantsTo task mode) := by
  cases htask : m.tasks[task]? with
  | some t =>
      rw [hm.accounted task t htask]
      exact Nat.le_add_right _ _
  | none =>
      have hbeyond : m.scene.points.length ≤ task := by simpa [scene] using htask
      have hnone := (hm.attributed.countP_eq_zero hbeyond mode).2
      exact (Nat.le_of_eq hnone).trans (Nat.zero_le _)

theorem held_eq (hm : m.Balanced holds) (htask : m.tasks[task]? = some t) (mode : Mode) :
    held m.history task mode = holds t.point t.own mode := by
  have haccounted := hm.accounted task t htask mode
  unfold held
  omega

theorem release?_isSome (hm : m.Balanced holds) (htask : m.tasks[task]? = some t) {mode : Mode}
    (hholds : 0 < holds t.point t.own mode) : (m.lock.release? mode).isSome := by
  rw [← hm.held_eq htask] at hholds
  exact hm.accounts.release?_isSome hm.attributed hm.owned hholds

/-- If the lock is taken, somebody holds an access. -/
theorem exists_holder (hm : m.Balanced holds) (htaken : m.lock.exclusive = true) :
    ∃ (task : Nat) (t : Task σ) (mode : Mode),
      m.tasks[task]? = some t ∧ 0 < holds t.point t.own mode := by
  obtain ⟨task, mode, hheld⟩ := hm.accounts.exists_held_of_taken hm.attributed hm.owned htaken
  have hlt : task < m.tasks.length := by
    simpa [scene] using hm.attributed.lt_of_held hheld
  have htask : m.tasks[task]? = some m.tasks[task] := List.getElem?_eq_getElem hlt
  exact ⟨task, _, mode, htask, hheld.trans_eq (hm.held_eq htask mode)⟩

/-- A lock whose accesses are all given back is idle. -/
theorem isIdle (hm : m.Balanced holds)
    (hnobody : ∀ (task : Nat) (t : Task σ), m.tasks[task]? = some t →
      ∀ mode, holds t.point t.own mode = 0) : m.lock.isIdle = true := by
  have hfree : m.lock.exclusive = false := by
    by_contra htaken
    obtain ⟨task, t, mode, htask, hholds⟩ := hm.exists_holder (by simpa using htaken)
    rw [hnobody task t htask] at hholds
    exact Nat.lt_irrefl 0 hholds
  have hempty : m.lock.activeReaders = 0 := hm.accounts.empty_of_free hfree
  simp [Snapshot.isIdle, hfree, hempty]

theorem release?_of_before (hm : m.Balanced holds) (hp : p.Balances holds Known)
    (htask : m.tasks[task]? = some t) (hknown : Known t.point t.own) {mode : Mode}
    (hpoint : t.point = .before (.release mode)) : (m.lock.release? mode).isSome := by
  apply hm.release?_isSome htask
  rw [hpoint] at hknown ⊢
  rw [hp.released t.own m.shared mode mode hknown, if_pos rfl]
  exact Nat.succ_pos _

theorem moved (hm : m.Balanced holds) (hrun : Scene.Run m.scene next.scene)
    (htask : m.tasks[task]? = some t) (htasks : next.tasks = m.tasks.set task u)
    {events : List (Event ε)} (hhistory : next.history = events ++ m.history)
    (habout : ∀ event ∈ events, event.task = task) (hsound : ∀ mode, .misused task mode ∉ events)
    (hself : ∀ mode, events.countP (Event.grantsTo task mode) + holds t.point t.own mode =
      events.countP (Event.returnsFrom task mode) + holds u.point u.own mode) :
    next.Balanced holds := by
  refine ⟨hrun.accounts hm.accounts, hrun.attributed hm.attributed,
    hm.accounted.set htask htasks hhistory habout hself, ?_⟩
  intro other mode hmem
  rw [hhistory] at hmem
  rcases List.mem_append.mp hmem with hnew | hold
  · obtain rfl : other = task := habout _ hnew
    exact hsound mode hnew
  · exact hm.sound other mode hold

theorem act (hm : m.Balanced holds) (hp : p.Balances holds Known)
    (htask : m.tasks[task]? = some t) (hknown : Known t.point t.own) :
    (m.act p task t).Balanced holds := by
  have hrun := run_act p htask
  have hacts := acts p m task t
  generalize m.act p task t = next at hacts hrun ⊢
  cases hacts with
  | resumes hpoint =>
      refine hm.moved hrun htask (react_tasks _ _ _) (react_history _ _ _) ?_ (by simp) ?_
      · exact fun event hevent => Event.task_of_noted hevent
      · intro mode
        rw [hpoint] at hknown ⊢
        simp [List.countP_map, hp.resume t.own m.shared mode hknown]
  | @parks lock wait hlooks hblocks =>
      refine hm.moved hrun htask rfl rfl ?_ ?_ ?_
      · exact fun event hevent => Lock.task_of_arrivalEvents (List.mem_reverse.mp hevent)
      · intro mode hmem
        exact (m.lock.not_mem_arrivalEvents task task mode t.point).2.2 (List.mem_reverse.mp hmem)
      · intro mode
        rw [List.countP_reverse, List.countP_reverse,
          (m.lock.countP_arrivalEvents task task mode t.point).1,
          (m.lock.countP_arrivalEvents task task mode t.point).2]
        exact congrArg (0 + ·) (hp.waits t.own mode hlooks hknown).symm
  | @enters lock wait hlooks hchannel henters =>
      refine hm.moved hrun htask (react_tasks _ _ _)
        ((react_history _ _ _).trans (List.append_assoc _ _ _).symm) ?_ ?_ ?_
      · intro event hevent
        rcases List.mem_append.mp hevent with hnoted | hevent
        · exact Event.task_of_noted hnoted
        · rcases List.mem_append.mp (List.mem_reverse.mp hevent) with harrival | hevent
          · exact Lock.task_of_arrivalEvents harrival
          · rcases List.mem_append.mp hevent with htraced | hgranted
            · exact Event.task_of_traced (List.mem_reverse.mpr htraced)
            · rw [List.mem_singleton.mp hgranted]
              rfl
      · intro mode
        have hquiet := m.lock.not_mem_arrivalEvents (ε := ε) task task mode t.point
        simp [hquiet]
      · intro mode
        have hquiet := m.lock.countP_arrivalEvents (ε := ε) task task mode t.point
        have hgranted := hp.granted t.own m.shared mode hlooks hknown
        rw [hgranted]
        simp [List.countP_cons, List.countP_map, hquiet, Event.grantsTo, Event.returnsFrom]
        omega
  | @returns mode r hpoint hrelease =>
      refine hm.moved hrun htask ((react_tasks _ _ _).trans (by rw [foldl_notify_tasks]; rfl))
        ((react_history _ _ _).trans ((congrArg _ (foldl_notify_history _ _)).trans
          (List.append_assoc _ _ _).symm)) ?_ ?_ ?_
      · intro event hevent
        rcases List.mem_append.mp hevent with hnoted | hevent
        · exact Event.task_of_noted hnoted
        · rcases List.mem_append.mp (List.mem_reverse.mp hevent) with htraced | hreleased
          · exact Event.task_of_traced (List.mem_reverse.mpr htraced)
          · rw [List.mem_singleton.mp hreleased]
            rfl
      · simp
      · intro other
        rw [hpoint] at hknown ⊢
        rw [hp.released t.own m.shared mode other hknown]
        simp [List.countP_cons, List.countP_map, Event.grantsTo, Event.returnsFrom]
        omega
  | misuses hpoint hrelease =>
      have hsome := hm.release?_of_before hp htask hknown hpoint
      rw [hrelease] at hsome
      contradiction

theorem step (hm : m.Balanced holds) (hp : p.Balances holds Known)
    (hknown : ∀ t ∈ m.tasks, Known t.point t.own) (hstep : m.step p = some next) :
    next.Balanced holds := by
  rcases step_cases hstep with ⟨_, c, _, rfl⟩ | ⟨_, _, _, rfl⟩ | ⟨task, t, _, htask, rfl⟩
  · have hturn := Scene.Move.turn m.scene c.task
    refine ⟨hm.accounts.move hturn, hm.attributed.move hturn, hm.accounted, ?_⟩
    intro task mode hmem
    exact hm.sound task mode (by simpa [Machine.begin, record] using hmem)
  · exact ⟨hm.accounts, hm.attributed, hm.accounted, hm.sound⟩
  · exact hm.act hp htask (hknown t (List.mem_of_getElem? htask))

end Balanced

end Machine

end ReaderWriter
