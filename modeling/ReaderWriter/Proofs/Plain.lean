import ReaderWriter.Proofs.Acting

/-!
# A machine without its tickets

The policies differ in the calls that have to wait, and in the tickets that say when they may go on.
The plain view of a machine forgets the tickets.  It keeps the tasks, the order in which they are
ready and what they did, and of the lock it keeps who is inside, under the policy that has no
tickets.

As long as no task waits, the plain view of a machine takes the steps of the machine itself: a call
that is admitted at once is admitted by the plain lock too, with the same bookkeeping, and a release
has nobody to notify, whichever channels it notifies.
-/

namespace ReaderWriter

variable {σ δ ε : Type}

def Event.isTrace : Event ε → Bool
  | .traced _ _ => true
  | _ => false

/-- What happened, without what the lock reported. -/
def untraced (events : List (Event ε)) : List (Event ε) :=
  events.filter (!·.isTrace)

@[simp] theorem untraced_append (first second : List (Event ε)) :
    untraced (first ++ second) = untraced first ++ untraced second :=
  List.filter_append ..

@[simp] theorem untraced_reverse (events : List (Event ε)) :
    untraced events.reverse = (untraced events).reverse :=
  List.filter_reverse ..

@[simp] theorem untraced_map_traced (task : Nat) (traces : List Trace) :
    untraced (traces.map (Event.traced (ε := ε) task)) = [] := by
  simp [untraced, Event.isTrace]

@[simp] theorem untraced_map_noted (task : Nat) (notes : List ε) :
    untraced (notes.map (Event.noted task)) = notes.map (Event.noted task) := by
  simp [untraced, Event.isTrace]

/-! ## The lock -/

def Snapshot.plain (s : Snapshot) : Snapshot :=
  { activeReaders := s.activeReaders, exclusive := s.exclusive }

namespace Lock

/-- Who is inside, under the policy without tickets. -/
def plain (l : Lock) : Lock :=
  { l.toSnapshot.plain with policy := .readerPreference }

theorem plain_enter (l : Lock) (mode : Mode) : (l.enter mode).plain = l.plain.enter mode := by
  cases mode <;> rfl

theorem plain_arrive (l : Lock) (mode : Mode) : (l.arrive mode).lock.plain = l.plain := by
  rcases l.arrive_lock_cases mode with hlock | hlock | hlock <;> rw [hlock] <;> rfl

/-- A call that is admitted at once arrives, finds nothing to wait for and enters. -/
theorem request_of_granted {l : Lock} {mode : Mode} (hgranted : (l.request mode).waits = none) :
    (l.request mode).lock = (l.arrive mode).lock.enter mode ∧
      (l.arrive mode).wait.channel = .released ∧
      ¬ (l.arrive mode).lock.Blocks (l.arrive mode).wait := by
  rw [request_eq_recheck_arrive] at hgranted ⊢
  have henters : ¬ (l.arrive mode).lock.Blocks (l.arrive mode).wait := by
    intro hblocks
    simp [recheck_of_blocks hblocks] at hgranted
  have hchannel : (l.arrive mode).wait.channel = .released := by
    cases hwait : (l.arrive mode).wait with
    | ticketDone ticket =>
        rw [hwait] at henters
        exact absurd (le_of_arrive hwait) henters
    | groupEntry => rfl
    | writerEntry ticket? => rfl
  refine ⟨?_, hchannel, henters⟩
  simp only [recheck_of_enters hchannel henters, arrive_wait_mode]

/-- What is admitted at once is admitted without the tickets, too. -/
theorem plain_request {l : Lock} {mode : Mode} (hgranted : (l.request mode).waits = none) :
    l.plain.request mode = { lock := (l.request mode).lock.plain } := by
  obtain ⟨hlock, hchannel, henters⟩ := request_of_granted hgranted
  rw [hlock, plain_enter, plain_arrive]
  have hplain := l.plain_arrive mode
  cases mode with
  | shared =>
      have hfree := not_blocks_shared hchannel (l.arrive_wait_mode .shared) henters
      have hopen : ¬ l.plain.Blocks .groupEntry := by
        rw [← hplain]
        exact hfree
      exact recheck_of_enters rfl hopen
  | exclusive =>
      have hfree := not_blocks_exclusive (l.arrive_wait_mode .exclusive) henters
      have hopen : ¬ l.plain.Blocks (.writerEntry none) := by
        rw [← hplain]
        exact ne_true_of_eq_false hfree
      exact recheck_of_enters rfl hopen

/-- What is given back is given back without the tickets, too, and what nobody holds is not. -/
theorem plain_release? (l : Lock) (mode : Mode) :
    l.plain.release? mode =
      (l.release? mode).map fun r =>
        { lock := r.lock.plain, notified := r.notified.filter (· = .released) } := by
  cases mode with
  | shared =>
      by_cases hnone : l.activeReaders = 0
      · simp [release?, releaseShared?, plain, Snapshot.plain, hnone]
      · by_cases hlast : l.activeReaders = 1
        · simp [release?, releaseShared?, plain, Snapshot.plain, hlast]
        · simp [release?, releaseShared?, plain, Snapshot.plain, hnone, hlast]
  | exclusive =>
      by_cases hinside : l.exclusive = true ∧ l.activeReaders = 0
      · cases hpolicy : l.policy <;>
          simp [release?, releaseExclusive?, plain, Snapshot.plain, hinside, hpolicy]
      · simp [release?, releaseExclusive?, plain, Snapshot.plain, hinside]

end Lock

/-! ## The machine -/

namespace Machine

/-- The machine under the policy without tickets, as if it had always been so. -/
def plain (m : Machine σ δ ε) : Machine σ δ ε :=
  { m with lock := m.lock.plain, history := untraced m.history }

theorem plain_record (m : Machine σ δ ε) (events : List (Event ε)) :
    (m.record events).plain = m.plain.record (untraced events) := by
  simp [plain, record]

theorem plain_approach (m : Machine σ δ ε) (task : Nat) (own : σ) (call : Call) :
    (m.approach task own call).plain = m.plain.approach task own call := by
  cases hpreempt : m.preempt <;> simp [approach, plain, hpreempt]

theorem plain_react (m : Machine σ δ ε) (task : Nat) (r : Reaction σ δ ε) :
    (m.react task r).plain = m.plain.react task r := by
  have hnoted : ({ m with shared := r.shared }.record (r.notes.map (.noted task))).plain =
      { m.plain with shared := r.shared }.record (r.notes.map (.noted task)) := by
    rw [plain_record, untraced_map_noted]
    rfl
  unfold react
  rw [← hnoted]
  cases r.next with
  | none => rfl
  | some call => exact plain_approach _ task r.own call

/-- The running task comes out of a call that was admitted. -/
theorem plain_settle (p : Program σ δ ε) (m : Machine σ δ ε) (task : Nat) (own : σ) (mode : Mode)
    {a : Admission} (hgranted : a.waits = none) :
    (m.settle p task own mode a).plain =
      m.plain.settle p task own mode { lock := a.lock.plain } := by
  simp only [settle, hgranted, plain_react, plain_record, untraced_map_traced]
  rfl

theorem notify_of_nobody (m : Machine σ δ ε) (hnobody : m.waiters = {}) (channel : Channel) :
    m.notify channel = m := by
  obtain ⟨lock, shared, tasks, ready, running, waiters, picks, preempt, history⟩ := m
  obtain rfl : waiters = {} := hnobody
  cases channel <;> simp [notify, Waiters.on, Waiters.clear]

theorem foldl_notify_of_nobody (m : Machine σ δ ε) (hnobody : m.waiters = {})
    (channels : List Channel) : channels.foldl notify m = m := by
  induction channels with
  | nil => rfl
  | cons channel channels ih => rw [List.foldl_cons, m.notify_of_nobody hnobody, ih]

theorem giveBack_of_nobody (p : Program σ δ ε) (m : Machine σ δ ε) (hnobody : m.waiters = {})
    (task : Nat) (own : σ) {mode : Mode} {r : Release} (hrelease : m.lock.release? mode = some r) :
    m.giveBack p task own mode =
      (({ m with lock := r.lock }.record (r.traces.map (.traced task))).record
        [.released task mode]).react task (p.released mode own m.shared) := by
  let freed : Machine σ δ ε :=
    ({ m with lock := r.lock }.record (r.traces.map (.traced task))).record [.released task mode]
  have hback : m.giveBack p task own mode = (r.notified.foldl notify freed).react task
      (p.released mode own (r.notified.foldl notify freed).shared) := by
    simp only [giveBack, hrelease]
    rfl
  rw [hback, freed.foldl_notify_of_nobody hnobody]
  rfl

theorem plain_giveBack (p : Program σ δ ε) (m : Machine σ δ ε) (hnobody : m.waiters = {})
    (task : Nat) (own : σ) (mode : Mode) :
    (m.giveBack p task own mode).plain = m.plain.giveBack p task own mode := by
  have hplain : m.plain.lock.release? mode = (m.lock.release? mode).map fun r =>
      { lock := r.lock.plain, notified := r.notified.filter (· = .released) } :=
    m.lock.plain_release? mode
  cases hrelease : m.lock.release? mode with
  | none =>
      simp only [giveBack, hplain, hrelease, Option.map_none, plain_react, plain_record]
      rfl
  | some r =>
      rw [hrelease, Option.map_some] at hplain
      rw [m.giveBack_of_nobody p hnobody task own hrelease,
        m.plain.giveBack_of_nobody p hnobody task own hplain, plain_react, plain_record,
        plain_record, untraced_map_traced]
      rfl

/-! ## As long as nobody waits -/

/-- No task is inside of a call that waits or was woken. -/
structure Unhindered (m : Machine σ δ ε) : Prop where
  nobody : m.waiters = {}
  points : ∀ t ∈ m.tasks, ∀ wait, t.point ≠ .waiting wait

theorem waiters_ne_of_park (m : Machine σ δ ε) (task : Nat) (own : σ) (wait : Wait) :
    (m.park task own wait).waiters ≠ {} := by
  intro hnobody
  have hparked : task ∈ (m.waiters.park task wait.channel).on wait.channel := by simp
  rw [show m.waiters.park task wait.channel = {} from hnobody] at hparked
  cases hchannel : wait.channel <;> simp [hchannel, Waiters.on] at hparked

namespace Unhindered

variable {p : Program σ δ ε} {m : Machine σ δ ε}

theorem act (hm : m.Unhindered) {task : Nat} {t : Task σ}
    (hnobody : (m.act p task t).waiters = {}) : (m.act p task t).Unhindered := by
  refine ⟨hnobody, ?_⟩
  have hset : ∀ r : Reaction σ δ ε, ∀ u ∈ m.tasks.set task { point := r.point, own := r.own },
      ∀ wait, u.point ≠ .waiting wait :=
    fun r => Sound.set (P := fun point _ => ∀ wait, point ≠ .waiting wait) hm.points task
      r.point_ne_waiting
  have hacts := acts p m task t
  generalize m.act p task t = next at hacts hnobody ⊢
  cases hacts with
  | parks hlooks hblocks => exact absurd hnobody (waiters_ne_of_park _ _ _ _)
  | returns hpoint hrelease =>
      rw [react_tasks, foldl_notify_tasks]
      exact hset _
  | _ =>
      rw [react_tasks]
      exact hset _

theorem step (hm : m.Unhindered) {next : Machine σ δ ε} (hstep : m.step p = some next)
    (hnobody : next.waiters = {}) : next.Unhindered := by
  rcases step_cases hstep with ⟨_, c, _, rfl⟩ | ⟨_, _, _, rfl⟩ | ⟨task, t, _, _, rfl⟩
  · exact ⟨hm.nobody, hm.points⟩
  · exact ⟨hm.nobody, hm.points⟩
  · exact hm.act hnobody

theorem plain_act (hm : m.Unhindered) {task : Nat} {t : Task σ} (htask : m.tasks[task]? = some t)
    (hnobody : (m.act p task t).waiters = {}) :
    (m.act p task t).plain = m.plain.act p task t := by
  cases hpoint : t.point with
  | outside =>
      simp only [Machine.act, hpoint]
      exact plain_react m task _
  | waiting wait => exact absurd hpoint (hm.points t (List.mem_of_getElem? htask) wait)
  | before call =>
      cases call with
      | release mode =>
          simp only [Machine.act, hpoint]
          exact plain_giveBack p m hm.nobody task t.own mode
      | acquire mode =>
          simp only [Machine.act, hpoint] at hnobody ⊢
          have hgranted : (m.lock.request mode).waits = none := by
            cases hwaits : (m.lock.request mode).waits with
            | none => rfl
            | some wait =>
                simp only [settle, hwaits] at hnobody
                exact absurd hnobody (waiters_ne_of_park _ _ _ _)
          have hplain := Lock.plain_request hgranted
          rw [plain_settle p _ task t.own mode hgranted, ← hplain, plain_record]
          rfl

/-- A step that parks nobody is a step of the plain view. -/
theorem plain_step (hm : m.Unhindered)
    (hnobody : ∀ next, m.step p = some next → next.waiters = {}) :
    m.plain.step p = (m.step p).map plain := by
  cases hrunning : m.running with
  | none =>
      simp only [Machine.step, hrunning, plain]
      cases choose? m.ready m.picks with
      | none => rfl
      | some c =>
          have hbegin : (m.begin c).plain = m.plain.begin c := by
            rw [Machine.begin, plain_record]
            rfl
          exact congrArg some hbegin.symm
  | some task =>
      cases htask : m.tasks[task]? with
      | none =>
          simp only [Machine.step, plain, hrunning, htask]
          rfl
      | some t =>
          have hact : m.step p = some (m.act p task t) := by
            simp only [Machine.step, hrunning, htask]
          rw [hact, Option.map_some, hm.plain_act htask (hnobody _ hact)]
          simp only [Machine.step, plain, hrunning, htask]

end Unhindered

/-- Nobody waits now, and nobody will before the machine comes to rest. -/
structure Flows (p : Program σ δ ε) (m : Machine σ δ ε) : Prop where
  unhindered : m.Unhindered
  nobody : ∀ moves, (iterate (step p) moves m).waiters = {}

namespace Flows

variable {p : Program σ δ ε} {m : Machine σ δ ε}

theorem step (hm : m.Flows p) {next : Machine σ δ ε} (hstep : m.step p = some next) :
    next.Flows p := by
  have hlater : ∀ moves, iterate (Machine.step p) (moves + 1) m =
      iterate (Machine.step p) moves next := by
    intro moves
    simp only [iterate, hstep]
  have hnobody : ∀ moves, (iterate (Machine.step p) moves next).waiters = {} := by
    intro moves
    rw [← hlater]
    exact hm.nobody (moves + 1)
  exact ⟨hm.unhindered.step hstep (hnobody 0), hnobody⟩

theorem plain_step (hm : m.Flows p) : m.plain.step p = (m.step p).map plain := by
  refine hm.unhindered.plain_step ?_
  intro next hstep
  exact (hm.step hstep).unhindered.nobody

theorem later (hm : m.Flows p) (moves : Nat) : (iterate (Machine.step p) moves m).Flows p :=
  iterate_keeps (fun _ _ hm hstep => hm.step hstep) moves hm

theorem plain_iterate (hm : m.Flows p) (moves : Nat) :
    iterate (Machine.step p) moves m.plain = (iterate (Machine.step p) moves m).plain :=
  iterate_map (fun _ _ hm hstep => hm.step hstep) (fun _ hm => hm.plain_step) moves hm

theorem plain_settleDown (hm : m.Flows p) : m.plain.settleDown p = (m.settleDown p).plain :=
  hm.plain_iterate (m.work p)

end Flows

end Machine

end ReaderWriter
