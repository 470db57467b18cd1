import Mathlib.Algebra.Order.Ring.Nat
import Mathlib.Data.List.GetD
import Mathlib.Data.List.Perm.Basic
import Mathlib.Tactic.Linarith
import ReaderWriter.Proofs.Scene

/-!
# Every machine comes to rest

A program says at least how often a task will still go on from where it stands.  If every reaction
keeps that promise, each step of a machine lowers `Machine.work`, so the machine comes to rest
within the steps that `Machine.settleDown` allows: nothing is running and nothing is ready.

The turns that are out are counted with the tasks, parked ones included, because a release can make
every one of them ready; that is paid for by the task that goes on.
-/

namespace ReaderWriter

variable {σ δ ε : Type}

/-! ## Repeating a step -/

theorem iterate_keeps {α : Type} {step : α → Option α} {P : α → Prop}
    (hstep : ∀ a next, P a → step a = some next → P next) (fuel : Nat) {a : α} (ha : P a) :
    P (iterate step fuel a) := by
  induction fuel generalizing a with
  | zero => exact ha
  | succ fuel ih =>
      simp only [iterate]
      cases hnext : step a with
      | none => exact ha
      | some next => exact ih (hstep a next ha hnext)

theorem iterate_succ_of_eq_some {α : Type} {step : α → Option α} {fuel : Nat} {a next : α}
    (hnext : step (iterate step fuel a) = some next) : iterate step (fuel + 1) a = next := by
  induction fuel generalizing a with
  | zero =>
      have hfirst : step a = some next := hnext
      simp [iterate, hfirst]
  | succ fuel ih =>
      rw [iterate] at hnext ⊢
      cases hfirst : step a with
      | none => simp [hfirst] at hnext
      | some second =>
          simp only [hfirst] at hnext ⊢
          exact ih hnext

/-- A step that is seen through a map is repeated through it. -/
theorem iterate_map {α β : Type} {step : α → Option α} {image : β → Option β} {f : α → β}
    {P : α → Prop} (hstep : ∀ a next, P a → step a = some next → P next)
    (himage : ∀ a, P a → image (f a) = (step a).map f) (fuel : Nat) {a : α} (ha : P a) :
    iterate image fuel (f a) = f (iterate step fuel a) := by
  induction fuel generalizing a with
  | zero => rfl
  | succ fuel ih =>
      simp only [iterate, himage a ha]
      cases hnext : step a with
      | none => rfl
      | some next => exact ih (hstep a next ha hnext)

theorem iterate_add {α : Type} (step : α → Option α) (first second : Nat) (a : α) :
    iterate step (first + second) a = iterate step second (iterate step first a) := by
  induction first generalizing a with
  | zero =>
      rw [Nat.zero_add]
      rfl
  | succ first ih =>
      rw [Nat.add_right_comm]
      simp only [iterate]
      cases hnext : step a with
      | none => exact (iterate_of_eq_none hnext second).symm
      | some next => exact ih next

/-- There is one place to come to rest. -/
theorem iterate_eq_of_eq_none {α : Type} {step : α → Option α} {first second : Nat} {a : α}
    (hfirst : step (iterate step first a) = none) (hsecond : step (iterate step second a) = none) :
    iterate step first a = iterate step second a := by
  rcases Nat.le_total first second with hle | hle
  · obtain ⟨more, rfl⟩ := Nat.exists_eq_add_of_le hle
    rw [iterate_add, iterate_of_eq_none hfirst]
  · obtain ⟨more, rfl⟩ := Nat.exists_eq_add_of_le hle
    rw [iterate_add, iterate_of_eq_none hsecond]

/-- A step that lowers a rank stops within as many steps as the rank says. -/
theorem step_iterate_eq_none {α : Type} {step : α → Option α} {P : α → Prop} {rank : α → Nat}
    (hstep : ∀ a next, P a → step a = some next → P next ∧ rank next < rank a)
    (fuel : Nat) {a : α} (ha : P a) (hrank : rank a ≤ fuel) :
    step (iterate step fuel a) = none := by
  induction fuel generalizing a with
  | zero =>
      simp only [iterate]
      cases hnext : step a with
      | none => rfl
      | some next =>
          have hlower := (hstep a next ha hnext).2
          omega
  | succ fuel ih =>
      simp only [iterate]
      cases hnext : step a with
      | none => exact hnext
      | some next =>
          obtain ⟨hkept, hlower⟩ := hstep a next ha hnext
          exact ih hkept (by omega)

/-! ## What a program promises -/

namespace Program

/-- A reaction that leaves the task in a sound state with at most so many times to go on, going on
to a call included. -/
def Within (p : Program σ δ ε) (Sound : Point → σ → Prop) (r : Reaction σ δ ε) (bound : Nat) :
    Prop :=
  Sound r.point r.own ∧ p.remaining r.point r.own + r.next.toList.length ≤ bound

/-- The program counts how often its tasks go on, as long as their states are sound. -/
structure Descends (p : Program σ δ ε) (Sound : Point → σ → Prop) : Prop where
  resume : ∀ own shared, Sound .outside own →
    p.Within Sound (p.resume own shared) (p.remaining .outside own)
  /-- A call that waits is on its way through the section it began with. -/
  waits : ∀ own wait, Sound (.before (.acquire wait.mode)) own →
    Sound (.waiting wait) own ∧
      p.remaining (.waiting wait) own ≤ p.remaining (.before (.acquire wait.mode)) own
  /-- A reader waits on for its group. -/
  passes : ∀ own ticket, Sound (.waiting (.ticketDone ticket)) own →
    Sound (.waiting .groupEntry) own ∧
      p.remaining (.waiting .groupEntry) own ≤ p.remaining (.waiting (.ticketDone ticket)) own
  granted : ∀ own shared wait, Sound (.waiting wait) own →
    p.Within Sound (p.granted wait.mode own shared) (p.remaining (.waiting wait) own)
  /-- A release goes on once more than what follows, as it may wake every other task. -/
  released : ∀ own shared mode, Sound (.before (.release mode)) own →
    Sound (p.released mode own shared).point (p.released mode own shared).own ∧
      p.remaining (p.released mode own shared).point (p.released mode own shared).own <
        p.remaining (.before (.release mode)) own
  misused : ∀ own shared mode, Sound (.before (.release mode)) own →
    p.Within Sound (p.misused mode own shared) (p.remaining (.before (.release mode)) own)

end Program

theorem choose?_perm {ready picks : List Nat} {c : Choice} (hchoice : choose? ready picks = some c) :
    (c.task :: c.others).Perm ready := by
  match ready, picks with
  | [], _ => simp [choose?] at hchoice
  | [task], _ =>
      obtain rfl := Option.some.inj hchoice
      exact .refl _
  | task :: next :: ready, [] =>
      obtain rfl := Option.some.inj hchoice
      exact .refl _
  | task :: next :: ready, pick :: picks =>
      obtain rfl := Option.some.inj hchoice
      have hlt : pick % (task :: next :: ready).length < (task :: next :: ready).length :=
        Nat.mod_lt _ (by simp)
      simp only [List.getD_eq_getElem _ _ hlt]
      exact List.getElem_cons_eraseIdx_perm hlt

theorem Lock.recheck_waits {l : Lock} {wait next : Wait}
    (hwaits : (l.recheck wait).waits = some next) :
    next = wait ∨ ∃ ticket, wait = .ticketDone ticket ∧ next = .groupEntry := by
  by_cases hblocks : l.Blocks wait
  · rw [recheck_of_blocks hblocks] at hwaits
    exact .inl (Option.some.inj hwaits).symm
  · cases wait with
    | groupEntry => simp [recheck_of_enters rfl hblocks] at hwaits
    | writerEntry ticket? => simp [recheck_of_enters rfl hblocks] at hwaits
    | ticketDone ticket =>
        right
        rw [recheck_of_passes (Nat.not_le.mp hblocks)] at hwaits
        by_cases hpassed : l.pass.Blocks .groupEntry
        · rw [recheck_of_blocks hpassed] at hwaits
          exact ⟨ticket, rfl, (Option.some.inj hwaits).symm⟩
        · simp [recheck_of_enters rfl hpassed] at hwaits

namespace Machine

/-- Every task is in a sound state. -/
def Sound (P : Point → σ → Prop) (m : Machine σ δ ε) : Prop :=
  ∀ t ∈ m.tasks, P t.point t.own

theorem step_eq_none_iff (p : Program σ δ ε) (m : Machine σ δ ε) :
    m.step p = none ↔ m.running = none ∧ m.ready = [] := by
  constructor
  · intro hstep
    cases hrunning : m.running with
    | some task => cases htask : m.tasks[task]? <;> simp [step, hrunning, htask] at hstep
    | none =>
        simp only [step, hrunning, Option.map_eq_none_iff] at hstep
        exact ⟨rfl, (choose?_eq_none_iff _ _).mp hstep⟩
  · rintro ⟨hrunning, hready⟩
    simp [step, hrunning, hready, choose?]

/-! ## The work left -/

theorem work_lt_of_remaining_lt {p : Program σ δ ε} {m next : Machine σ δ ε}
    (hremaining : next.remaining p < m.remaining p) (hturns : next.turns ≤ m.turns) :
    next.work p < m.work p := by
  have hready : 2 * next.ready.length + next.running.toList.length ≤ 2 * next.turns := by
    simp only [turns]
    omega
  -- each time that a task does not go on pays for all turns that are out
  have hfewer : (2 * next.turns + 4) * next.remaining p ≤ (2 * m.turns + 4) * next.remaining p :=
    Nat.mul_le_mul_right _ (by omega)
  have honce : (2 * m.turns + 4) * (next.remaining p + 1) ≤ (2 * m.turns + 4) * m.remaining p :=
    Nat.mul_le_mul_left _ hremaining
  simp only [work]
  linarith

theorem work_lt_of_turn {p : Program σ δ ε} {m next : Machine σ δ ε}
    (hremaining : next.remaining p ≤ m.remaining p) (hturns : next.turns ≤ m.turns)
    (hready : 2 * next.ready.length + next.running.toList.length <
      2 * m.ready.length + m.running.toList.length) : next.work p < m.work p := by
  have hproduct : (2 * next.turns + 4) * next.remaining p ≤ (2 * m.turns + 4) * m.remaining p :=
    Nat.mul_le_mul (by omega) hremaining
  simp only [work]
  omega

theorem sum_map_set {α : Type} (f : α → Nat) {l : List α} {i : Nat} {a b : α}
    (ha : l[i]? = some a) : ((l.set i b).map f).sum + f a = (l.map f).sum + f b := by
  induction l generalizing i with
  | nil => simp at ha
  | cons first l ih =>
      cases i with
      | zero =>
          obtain rfl : first = a := by simpa using ha
          simp only [List.set_cons_zero, List.map_cons, List.sum_cons]
          omega
      | succ i =>
          have hrest := ih (i := i) (by simpa using ha)
          simp only [List.set_cons_succ, List.map_cons, List.sum_cons]
          omega

theorem react_tasks (m : Machine σ δ ε) (task : Nat) (r : Reaction σ δ ε) :
    (m.react task r).tasks = m.tasks.set task { point := r.point, own := r.own } := by
  cases hnext : r.next with
  | none => simp [react, hnext, rest, record, Reaction.point]
  | some call =>
      simp only [react, hnext, approach]
      split <;> simp [record, Reaction.point, hnext]

theorem react_tasks_self {m : Machine σ δ ε} {task : Nat} {t : Task σ}
    (htask : m.tasks[task]? = some t) (r : Reaction σ δ ε) :
    (m.react task r).tasks[task]? = some { point := r.point, own := r.own } := by
  obtain ⟨hlt, _⟩ := List.getElem?_eq_some_iff.mp htask
  rw [react_tasks, List.getElem?_set_self hlt]

theorem not_at_react (m : Machine σ δ ε) (task : Nat) (r : Reaction σ δ ε) (wait : Wait) :
    ¬ (m.react task r).scene.At task (.waiting wait) := by
  intro hat
  obtain ⟨t, htask, hpoint⟩ := scene_at_iff.mp hat
  rw [react_tasks, List.getElem?_set_self'] at htask
  obtain ⟨_, _, rfl⟩ := Option.map_eq_some_iff.mp htask
  exact r.point_ne_waiting wait hpoint

theorem react_shared (m : Machine σ δ ε) (task : Nat) (r : Reaction σ δ ε) :
    (m.react task r).shared = r.shared := by
  cases hnext : r.next with
  | none => simp [react, hnext, rest, record]
  | some call =>
      simp only [react, hnext, approach]
      split <;> rfl

/-- A task that goes on keeps its turn or goes to the back of the ready list. -/
theorem react_ready_length (m : Machine σ δ ε) {task : Nat} (r : Reaction σ δ ε)
    (hrunning : m.running = some task) :
    (m.react task r).ready.length + (m.react task r).running.toList.length =
      m.ready.length + r.next.toList.length := by
  cases hnext : r.next with
  | none => simp [react, hnext, rest, record]
  | some call =>
      simp only [react, hnext, approach]
      split <;> simp [record, hrunning]

theorem react_turns (m : Machine σ δ ε) {task : Nat} (r : Reaction σ δ ε)
    (hrunning : m.running = some task) :
    (m.react task r).turns + 1 = m.turns + r.next.toList.length := by
  have hready := m.react_ready_length r hrunning
  simp only [turns, react_waiters, hrunning, Option.toList_some, List.length_singleton]
  omega

theorem react_turns_le (m : Machine σ δ ε) {task : Nat} (r : Reaction σ δ ε)
    (hrunning : m.running = some task) : (m.react task r).turns ≤ m.turns := by
  have hturns := m.react_turns r hrunning
  have hnext : r.next.toList.length ≤ 1 := by cases r.next <;> simp
  omega

theorem foldl_notify_running (m : Machine σ δ ε) (channels : List Channel) :
    (channels.foldl notify m).running = m.running := by
  induction channels generalizing m with
  | nil => rfl
  | cons channel channels ih => exact ih (m.notify channel)

theorem foldl_notify_turns (m : Machine σ δ ε) (channels : List Channel) :
    (channels.foldl notify m).turns = m.turns := by
  induction channels generalizing m with
  | nil => rfl
  | cons channel channels ih =>
      rw [List.foldl_cons, ih]
      cases channel <;> simp [notify, turns, Waiters.on, Waiters.clear] <;> omega

/-! ## Each step lowers the work -/

theorem Sound.set {P : Point → σ → Prop} {m : Machine σ δ ε} (hsound : m.Sound P) (task : Nat)
    {point : Point} {own : σ} (hown : P point own) :
    ∀ t ∈ m.tasks.set task { point, own }, P t.point t.own := by
  intro t ht
  rcases List.mem_or_eq_of_mem_set ht with hold | rfl
  · exact hsound t hold
  · exact hown

variable {p : Program σ δ ε} {P : Point → σ → Prop} {m : Machine σ δ ε} {task : Nat} {t : Task σ}

theorem remaining_eq_sum (p : Program σ δ ε) (m : Machine σ δ ε) :
    m.remaining p = (m.tasks.map fun t => p.remaining t.point t.own).sum :=
  rfl

theorem react_remaining (htask : m.tasks[task]? = some t) (r : Reaction σ δ ε) :
    (m.react task r).remaining p + p.remaining t.point t.own =
      m.remaining p + p.remaining r.point r.own := by
  simp only [remaining_eq_sum, react_tasks]
  exact sum_map_set (fun t => p.remaining t.point t.own) htask

theorem Sound.react (hsound : m.Sound P) (hrunning : m.running = some task)
    (htask : m.tasks[task]? = some t) {r : Reaction σ δ ε}
    (hr : p.Within P r (p.remaining t.point t.own)) :
    (m.react task r).Sound P ∧ (m.react task r).work p < m.work p := by
  obtain ⟨hown, hbound⟩ := hr
  have hremaining := react_remaining (p := p) htask r
  have hready := m.react_ready_length r hrunning
  constructor
  · simp only [Machine.Sound, react_tasks]
    exact hsound.set task hown
  · cases hnext : r.next with
    | none =>
        have hrest : (m.react task r).running = none := by simp [Machine.react, hnext, rest]
        simp only [hnext, hrest, Option.toList_none, List.length_nil] at hready hbound
        refine work_lt_of_turn (by omega) (m.react_turns_le r hrunning) ?_
        simp only [hrest, hrunning, Option.toList_none, Option.toList_some, List.length_nil,
          List.length_singleton]
        omega
    | some call =>
        simp only [hnext, Option.toList_some, List.length_singleton] at hbound
        exact work_lt_of_remaining_lt (by omega) (m.react_turns_le r hrunning)

theorem Sound.park (hsound : m.Sound P) (hrunning : m.running = some task)
    (htask : m.tasks[task]? = some t) {own : σ} {wait : Wait} (hown : P (.waiting wait) own)
    (hbound : p.remaining (.waiting wait) own ≤ p.remaining t.point t.own) :
    (m.park task own wait).Sound P ∧ (m.park task own wait).work p < m.work p := by
  have hremaining :
      (m.park task own wait).remaining p + p.remaining t.point t.own =
        m.remaining p + p.remaining (.waiting wait) own := by
    simp only [remaining_eq_sum, Machine.park]
    exact sum_map_set (fun t => p.remaining t.point t.own) htask
  have hturns : (m.park task own wait).turns = m.turns := by
    simp only [turns, Machine.park, Waiters.park, hrunning]
    cases wait.channel <;> simp <;> omega
  refine ⟨hsound.set task hown, work_lt_of_turn (by omega) hturns.le ?_⟩
  simp [Machine.park, hrunning]

/-- A call that looks at its condition, in its first section or when it was woken. -/
theorem Sound.settle (hp : p.Descends P) (hsound : m.Sound P) (hrunning : m.running = some task)
    (htask : m.tasks[task]? = some t) {wait : Wait} (hown : P (.waiting wait) t.own)
    (hbound : p.remaining (.waiting wait) t.own ≤ p.remaining t.point t.own)
    {l : Lock} {a : Admission} (ha : a.waits = (l.recheck wait).waits) :
    (m.settle p task t.own wait.mode a).Sound P ∧
      (m.settle p task t.own wait.mode a).work p < m.work p := by
  have hgranted := hp.granted t.own m.shared wait hown
  cases hwaits : a.waits with
  | none =>
      simp only [Machine.settle, hwaits]
      exact Sound.react (m := ({ m with lock := a.lock }.record (a.traces.map (.traced task))).record
        [.granted task wait.mode]) hsound hrunning htask
        ⟨hgranted.1, hgranted.2.trans hbound⟩
  | some next =>
      have hnext : P (.waiting next) t.own ∧
          p.remaining (.waiting next) t.own ≤ p.remaining (.waiting wait) t.own := by
        rw [ha] at hwaits
        rcases Lock.recheck_waits hwaits with rfl | ⟨ticket, rfl, rfl⟩
        · exact ⟨hown, le_rfl⟩
        · exact hp.passes t.own ticket hown
      simp only [Machine.settle, hwaits]
      exact Sound.park (m := { m with lock := a.lock }.record (a.traces.map (.traced task)))
        hsound hrunning htask hnext.1 (hnext.2.trans hbound)

theorem Sound.giveBack (hp : p.Descends P) (hsound : m.Sound P) (hrunning : m.running = some task)
    (htask : m.tasks[task]? = some t) {mode : Mode} (hpoint : t.point = .before (.release mode))
    (hown : P (.before (.release mode)) t.own) :
    (m.giveBack p task t.own mode).Sound P ∧
      (m.giveBack p task t.own mode).work p < m.work p := by
  cases hrelease : m.lock.release? mode with
  | none =>
      simp only [Machine.giveBack, hrelease]
      have hmisused := hp.misused t.own m.shared mode hown
      rw [← hpoint] at hmisused
      exact Sound.react (m := m.record [.misused task mode]) hsound hrunning htask hmisused
  | some r =>
      have hreleased := hp.released t.own m.shared mode hown
      let freed := r.notified.foldl notify
        (({ m with lock := r.lock }.record (r.traces.map (.traced task))).record
          [.released task mode])
      have hshared : freed.shared = m.shared := foldl_notify_shared _ _
      have htasks : freed.tasks = m.tasks := foldl_notify_tasks _ _
      have hfreed : freed.running = some task := (foldl_notify_running _ _).trans hrunning
      have hturns : freed.turns = m.turns := foldl_notify_turns _ _
      have hback : m.giveBack p task t.own mode =
          freed.react task (p.released mode t.own freed.shared) := by
        simp only [Machine.giveBack, hrelease]
        rfl
      rw [hshared] at hback
      rw [hback]
      constructor
      · simp only [Machine.Sound, react_tasks, htasks]
        exact hsound.set task hreleased.1
      · have hremaining := react_remaining (p := p) (m := freed) (htasks ▸ htask)
          (p.released mode t.own m.shared)
        have hsame : freed.remaining p = m.remaining p := by simp only [remaining_eq_sum, htasks]
        have hlower := hreleased.2
        rw [← hpoint] at hlower
        have hless := freed.react_turns_le (p.released mode t.own m.shared) hfreed
        exact work_lt_of_remaining_lt (by omega) (by omega)

theorem Sound.act (hp : p.Descends P) (hsound : m.Sound P) (hrunning : m.running = some task)
    (htask : m.tasks[task]? = some t) :
    (m.act p task t).Sound P ∧ (m.act p task t).work p < m.work p := by
  have hown := hsound t (List.mem_of_getElem? htask)
  cases hpoint : t.point with
  | outside =>
      rw [hpoint] at hown
      simp only [Machine.act, hpoint]
      have hresume := hp.resume t.own m.shared hown
      rw [← hpoint] at hresume
      exact hsound.react hrunning htask hresume
  | waiting wait =>
      rw [hpoint] at hown
      simp only [Machine.act, hpoint]
      exact hsound.settle hp hrunning htask hown (by rw [hpoint]) rfl
  | before call =>
      rw [hpoint] at hown
      simp only [Machine.act, hpoint]
      cases call with
      | release mode => exact hsound.giveBack hp hrunning htask hpoint hown
      | acquire mode =>
          have hmode := m.lock.arrive_wait_mode mode
          have hwaits := hp.waits t.own (m.lock.arrive mode).wait
          rw [hmode] at hwaits
          have harrived := hwaits hown
          have hsettle := Sound.settle (m := m.record [.requested task mode]) hp hsound hrunning
            htask harrived.1 (by rw [hpoint]; exact harrived.2)
            (l := (m.lock.arrive mode).lock) (a := m.lock.request mode)
            (by rw [Lock.request_eq_recheck_arrive])
          rw [hmode] at hsettle
          exact hsettle

theorem Sound.begin (hsound : m.Sound P) {c : Choice} (hchoice : choose? m.ready m.picks = some c)
    (hrunning : m.running = none) : (m.begin c).Sound P ∧ (m.begin c).work p < m.work p := by
  have hlength := (choose?_perm hchoice).length_eq
  simp only [List.length_cons] at hlength
  refine ⟨hsound, work_lt_of_turn le_rfl ?_ ?_⟩
  · simp [turns, Machine.begin, record, hrunning]
    omega
  · simp [Machine.begin, record, hrunning]
    omega

theorem Sound.step (hp : p.Descends P) (hsound : m.Sound P) {next : Machine σ δ ε}
    (hstep : m.step p = some next) : next.Sound P ∧ next.work p < m.work p := by
  rcases step_cases hstep with
    ⟨hrunning, c, hchoice, rfl⟩ | ⟨task, hrunning, _, rfl⟩ | ⟨task, t, hrunning, htask, rfl⟩
  · exact hsound.begin hchoice hrunning
  · refine ⟨hsound, work_lt_of_turn le_rfl ?_ ?_⟩
    · simp only [turns, Option.toList_none, List.length_nil]
      omega
    · simp [hrunning]
  · exact hsound.act hp hrunning htask

/-- A machine whose program counts the times to go on comes to rest. -/
theorem Sound.settleDown (hp : p.Descends P) (hsound : m.Sound P) :
    (m.settleDown p).running = none ∧ (m.settleDown p).ready = [] := by
  have hlower : ∀ a next : Machine σ δ ε, a.Sound P → a.step p = some next →
      next.Sound P ∧ next.work p < a.work p :=
    fun _ _ hsound hstep => hsound.step hp hstep
  exact (step_eq_none_iff p _).mp (step_iterate_eq_none hlower _ hsound le_rfl)

end Machine

end ReaderWriter
