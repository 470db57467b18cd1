import ReaderWriter.Proofs.Acting
import ReaderWriter.Proofs.Parking

/-!
# Every turn is accounted for

A turn is out as long as its task runs, is ready or is parked.  How many turns a task should have
follows from where it stands and what it has to do; a program says so.  If each reaction pays for
what it changes, the books are right in every state: no task is forgotten, and none gets a turn too
many.  Turns that are kept in the shared data, such as those of sleepers, are booked beside those of
the machine.
-/

namespace ReaderWriter

variable {σ δ ε : Type}

/-- A task that reacts gives its turn back or keeps it for a call, and the turns that it should have
and those kept elsewhere change by as much. -/
structure Reaction.Pays (owed : Point → σ → Nat) (elsewhere : δ → List Nat) (task : Nat)
    (point : Point) (own : σ) (shared : δ) (r : Reaction σ δ ε) : Prop where
  self : owed r.point r.own + (elsewhere shared).count task + 1 =
    owed point own + (elsewhere r.shared).count task + r.next.toList.length
  others : ∀ other, other ≠ task → (elsewhere r.shared).count other = (elsewhere shared).count other

/-- The program pays for its turns, as far as a task is known to be in such a state and has a turn
on the machine. -/
structure Program.Pays (p : Program σ δ ε) (owed : Point → σ → Nat) (elsewhere : δ → List Nat)
    (Known : Nat → Point → σ → Prop) : Prop where
  /-- A task that calls the lock is owed the same turns throughout the call. -/
  calls : ∀ own point other, point ≠ .outside → other ≠ .outside → owed point own = owed other own
  resume : ∀ task own shared, Known task .outside own →
    (elsewhere shared).count task < owed .outside own →
    (p.resume own shared).Pays owed elsewhere task .outside own shared
  granted : ∀ task mode point own shared, point ≠ .outside → Known task point own →
    (p.granted mode own shared).Pays owed elsewhere task point own shared
  released : ∀ task mode own shared, Known task (.before (.release mode)) own →
    (p.released mode own shared).Pays owed elsewhere task (.before (.release mode)) own shared
  misused : ∀ task mode own shared, Known task (.before (.release mode)) own →
    (p.misused mode own shared).Pays owed elsewhere task (.before (.release mode)) own shared

theorem Lock.Looks.not_outside {l lock : Lock} {point : Point} {wait : Wait}
    (hlooks : l.Looks point lock wait) : point ≠ .outside := by
  cases hlooks <;> simp

namespace Machine

/-- The turns that are out, by their tasks. -/
def turnList (m : Machine σ δ ε) : List Nat :=
  m.running.toList ++ (m.ready ++ (m.waiters.on .released ++ m.waiters.on .writerDone))

/-- The turns that a task should have; none if there is no such task. -/
def owedTo (owed : Point → σ → Nat) (m : Machine σ δ ε) (task : Nat) : Nat :=
  ((m.tasks[task]?).map fun t => owed t.point t.own).getD 0

/-- Each task has the turns that it should have, on the machine or elsewhere. -/
def Booked (owed : Point → σ → Nat) (elsewhere : δ → List Nat) (m : Machine σ δ ε) : Prop :=
  ∀ task, m.turnList.count task + (elsewhere m.shared).count task = m.owedTo owed task

variable {p : Program σ δ ε} {owed : Point → σ → Nat} {elsewhere : δ → List Nat}
  {m before : Machine σ δ ε} {task : Nat} {t : Task σ}

theorem owedTo_eq (owed : Point → σ → Nat) (htask : m.tasks[task]? = some t) :
    m.owedTo owed task = owed t.point t.own := by
  simp [owedTo, htask]

theorem owedTo_set (htask : m.tasks[task]? = some t) {next : Machine σ δ ε} {u : Task σ}
    (htasks : next.tasks = m.tasks.set task u) (other : Nat) :
    next.owedTo owed other = if other = task then owed u.point u.own else m.owedTo owed other := by
  unfold owedTo
  rw [htasks]
  split
  · next hother =>
      subst hother
      obtain ⟨hlt, _⟩ := List.getElem?_eq_some_iff.mp htask
      rw [List.getElem?_set_self hlt]
      rfl
  · next hother => rw [List.getElem?_set_ne (Ne.symm hother)]

theorem count_foldl_notify (m : Machine σ δ ε) (channels : List Channel) (other : Nat) :
    (channels.foldl notify m).turnList.count other = m.turnList.count other := by
  induction channels generalizing m with
  | nil => rfl
  | cons channel channels ih =>
      rw [List.foldl_cons, ih]
      cases channel
      · simp [turnList, notify, Waiters.on, Waiters.clear, List.count_append]
      · simp [turnList, notify, Waiters.on, Waiters.clear, List.count_append]
        omega

/-- A task that comes to rest gives its turn back. -/
theorem count_react (hrunning : m.running = some task) (r : Reaction σ δ ε) (other : Nat) :
    (m.react task r).turnList.count other + (if other = task then 1 else 0) =
      m.turnList.count other + (if other = task then r.next.toList.length else 0) := by
  cases hnext : r.next with
  | none =>
      simp [turnList, react, hnext, rest, record, hrunning, List.count_cons]
      split <;> simp_all [eq_comm]
  | some call =>
      simp only [react, hnext, approach]
      split
      · simp [turnList, record, hrunning, List.count_cons, List.count_append]
        omega
      · simp [turnList, record, hrunning]

theorem count_park (hrunning : m.running = some task) (own : σ) (wait : Wait) (other : Nat) :
    (m.park task own wait).turnList.count other = m.turnList.count other := by
  cases hchannel : wait.channel <;>
    simp [turnList, park, hrunning, hchannel, Waiters.park, Waiters.on, List.count_append,
      List.count_cons] <;> omega

/-- A parked task that is woken takes its turn along. -/
theorem count_wake (hparked : m.scene.Parked) {channel : Channel}
    (hmem : task ∈ m.waiters.on channel) (other : Nat) :
    (m.wake task).turnList.count other = m.turnList.count other := by
  have helsewhere : ∀ second, second ≠ channel → task ∉ m.waiters.on second := by
    intro second hsecond hbeside
    obtain ⟨wait, hat, hchannel, _⟩ := hparked channel task hmem
    obtain ⟨same, hsame, hother, _⟩ := hparked second task hbeside
    have hwait : wait = same := by simpa using hat.symm.trans hsame
    rw [← hother, ← hwait, hchannel] at hsecond
    exact hsecond rfl
  have hpos := List.count_pos_iff.mpr hmem
  simp only [turnList, wake, Waiters.on_remove, List.count_append, List.count_erase]
  by_cases hother : other = task
  · subst hother
    cases channel with
    | released =>
        have hnone := List.count_eq_zero.mpr (helsewhere .writerDone (by simp))
        simp only [List.count_cons_self, List.count_nil, beq_self_eq_true, if_true]
        omega
    | writerDone =>
        have hnone := List.count_eq_zero.mpr (helsewhere .released (by simp))
        simp only [List.count_cons_self, List.count_nil, beq_self_eq_true, if_true]
        omega
  · simp [Ne.symm hother]

namespace Booked

theorem congr (hbooked : m.Booked owed elsewhere)
    (hturns : ∀ other, before.turnList.count other = m.turnList.count other)
    (htasks : before.tasks = m.tasks) (hshared : before.shared = m.shared) :
    before.Booked owed elsewhere := by
  intro other
  rw [hturns, hshared]
  unfold owedTo
  rw [htasks]
  exact hbooked other

theorem begin (hbooked : m.Booked owed elsewhere) (hrunning : m.running = none) {c : Choice}
    (hchoice : choose? m.ready m.picks = some c) : (m.begin c).Booked owed elsewhere := by
  apply hbooked.congr
  · intro other
    have hperm := (choose?_perm hchoice).count_eq other
    simp [turnList, Machine.begin, record, hrunning, List.count_cons, List.count_append] at hperm ⊢
    omega
  · rfl
  · rfl

/-- A task that has a turn on the machine is owed more turns than are kept elsewhere. -/
theorem exists_task (hbooked : m.Booked owed elsewhere) (hturn : task ∈ m.turnList) :
    ∃ t, m.tasks[task]? = some t ∧ (elsewhere m.shared).count task < owed t.point t.own := by
  have hcount := hbooked task
  have hpos := List.count_pos_iff.mpr hturn
  cases htask : m.tasks[task]? with
  | none =>
      simp [owedTo, htask] at hcount
      omega
  | some t =>
      rw [owedTo_eq owed htask] at hcount
      exact ⟨t, rfl, by omega⟩

theorem lt_owed (hbooked : m.Booked owed elsewhere) (hrunning : m.running = some task)
    (htask : m.tasks[task]? = some t) : (elsewhere m.shared).count task < owed t.point t.own := by
  have hturn : task ∈ m.turnList := by simp [turnList, hrunning]
  obtain ⟨same, hsame, hlt⟩ := hbooked.exists_task hturn
  obtain rfl : same = t := Option.some.inj (hsame.symm.trans htask)
  exact hlt

theorem react (hbooked : m.Booked owed elsewhere) (hrunning : m.running = some task)
    (htask : m.tasks[task]? = some t) {r : Reaction σ δ ε}
    (hpays : r.Pays owed elsewhere task t.point t.own m.shared) :
    (m.react task r).Booked owed elsewhere := by
  intro other
  have hcount := m.count_react hrunning r other
  have hold := hbooked other
  rw [m.react_shared task r, owedTo_set htask (m.react_tasks task r)]
  by_cases hother : other = task
  · subst hother
    have hself := hpays.self
    rw [owedTo_eq owed htask] at hold
    simp only [if_true] at hcount ⊢
    omega
  · have hsame := hpays.others other hother
    simp only [if_neg hother] at hcount ⊢
    omega

theorem park (hbooked : m.Booked owed elsewhere) (hrunning : m.running = some task)
    (htask : m.tasks[task]? = some t) {wait : Wait}
    (hpays : owed (.waiting wait) t.own = owed t.point t.own) :
    (m.park task t.own wait).Booked owed elsewhere := by
  intro other
  have hold := hbooked other
  rw [m.count_park hrunning, owedTo_set htask rfl]
  by_cases hother : other = task
  · subst hother
    rw [owedTo_eq owed htask] at hold
    rw [if_pos rfl]
    exact hold.trans hpays.symm
  · rw [if_neg hother]
    exact hold

theorem act {Known : Nat → Point → σ → Prop} (hp : p.Pays owed elsewhere Known)
    (hbooked : m.Booked owed elsewhere) (hrunning : m.running = some task)
    (htask : m.tasks[task]? = some t) (hknown : Known task t.point t.own) :
    (m.act p task t).Booked owed elsewhere := by
  have hacts := acts p m task t
  generalize m.act p task t = next at hacts ⊢
  cases hacts with
  | resumes hpoint =>
      have hlt := hbooked.lt_owed hrunning htask
      have hpays := hp.resume task t.own m.shared (hpoint ▸ hknown) (hpoint ▸ hlt)
      exact hbooked.react hrunning htask (hpoint ▸ hpays)
  | @parks lock wait hlooks hblocks =>
      have hsame := hp.calls t.own (.waiting wait) t.point (by simp) hlooks.not_outside
      exact park (m := { m with lock }.record (m.lock.arrivalEvents task t.point)) hbooked hrunning
        htask hsame
  | @enters lock wait hlooks hchannel henters =>
      refine Booked.react (t := t) ?_ ?_ ?_ ?_
      · exact hbooked.congr (fun _ => rfl) rfl rfl
      · exact hrunning
      · exact htask
      · exact hp.granted task wait.mode t.point t.own m.shared hlooks.not_outside hknown
  | @returns mode r hpoint hrelease =>
      have hpays := hp.released task mode t.own m.shared (hpoint ▸ hknown)
      rw [← hpoint] at hpays
      refine Booked.react (t := t) ?_ ?_ ?_ ?_
      · exact hbooked.congr (count_foldl_notify _ _) (foldl_notify_tasks _ _)
          (foldl_notify_shared _ _)
      · exact (foldl_notify_running _ _).trans hrunning
      · rw [foldl_notify_tasks]
        exact htask
      · rw [foldl_notify_shared]
        exact hpays
  | @misuses mode hpoint hrelease =>
      have hpays := hp.misused task mode t.own m.shared (hpoint ▸ hknown)
      rw [← hpoint] at hpays
      refine Booked.react (t := t) ?_ ?_ ?_ ?_
      · exact hbooked.congr (fun _ => rfl) rfl rfl
      · exact hrunning
      · exact htask
      · exact hpays

theorem step {Known : Nat → Point → σ → Prop} (hp : p.Pays owed elsewhere Known)
    (hbooked : m.Booked owed elsewhere)
    (hknown : ∀ task t, m.tasks[task]? = some t → Known task t.point t.own)
    {next : Machine σ δ ε} (hstep : m.step p = some next) : next.Booked owed elsewhere := by
  rcases step_cases hstep with
    ⟨hrunning, c, hchoice, rfl⟩ | ⟨task, hrunning, hnone, rfl⟩ | ⟨task, t, hrunning, htask, rfl⟩
  · exact hbooked.begin hrunning hchoice
  · -- who runs has a turn, so there is such a task
    have hturn : task ∈ m.turnList := by simp [turnList, hrunning]
    obtain ⟨t, htask, _⟩ := hbooked.exists_task hturn
    rw [hnone] at htask
    contradiction
  · exact hbooked.act hp hrunning htask (hknown task t htask)

theorem wake (hbooked : m.Booked owed elsewhere) (hparked : m.scene.Parked)
    (hcontains : m.waiters.contains task = true) : (m.wake task).Booked owed elsewhere := by
  obtain ⟨channel, hmem⟩ := Waiters.contains_iff.mp hcontains
  exact hbooked.congr (count_wake hparked hmem) rfl rfl

/-- When nothing runs and nobody is ready, a turn that is owed is parked or elsewhere. -/
theorem contains_of_rest (hbooked : m.Booked owed elsewhere)
    (hrest : m.running = none ∧ m.ready = []) (htask : m.tasks[task]? = some t)
    (howed : (elsewhere m.shared).count task < owed t.point t.own) :
    m.waiters.contains task = true := by
  have hcount := hbooked task
  rw [owedTo_eq owed htask] at hcount
  have hturn : task ∈ m.turnList := List.count_pos_iff.mp (by omega)
  simp only [turnList, hrest.1, hrest.2, Option.toList_none, List.nil_append,
    List.mem_append] at hturn
  rw [Waiters.contains_iff]
  rcases hturn with hreleased | hdone
  · exact ⟨.released, hreleased⟩
  · exact ⟨.writerDone, hdone⟩

end Booked

end Machine

end ReaderWriter
