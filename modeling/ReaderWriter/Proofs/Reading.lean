import ReaderWriter.Proofs.Plain

/-!
# A machine on which nobody asks to write

If no task ever asks for exclusive access, no ticket is handed out and every reader is let in at
once, so no task waits.  All that the lock knows is how many readers are inside.  To give back an
exclusive access is then always a misuse.

On such a machine the plain view forgets nothing but the policy.
-/

namespace ReaderWriter

variable {σ δ ε : Type}

namespace Lock

variable {policy : Policy} {readers : Nat}

/-- So many readers are inside, and there never was a writer. -/
def reading (policy : Policy) (readers : Nat) : Lock :=
  { policy, activeReaders := readers, exclusive := decide (0 < readers) }

theorem request_reading (policy : Policy) (readers : Nat) :
    (reading policy readers).request .shared = { lock := reading policy (readers + 1) } := by
  have hjoins : (reading policy readers).request .shared = (reading policy readers).joinGroup := by
    cases policy <;> rfl
  rw [hjoins]
  cases readers <;> rfl

/-- What is given back is an access of a reader. -/
theorem release?_reading {mode : Mode} {r : Release}
    (hrelease : (reading policy readers).release? mode = some r) :
    r.traces = [] ∧ ∃ fewer, r.lock = reading policy fewer := by
  cases mode with
  | shared =>
      rcases release?_shared_cases hrelease with ⟨_, rfl⟩ | ⟨hmore, rfl⟩
      · exact ⟨rfl, 0, rfl⟩
      · refine ⟨rfl, readers - 1, ?_⟩
        have hmore : 1 < readers := hmore
        have hboth : 0 < readers ↔ 0 < readers - 1 := by omega
        simp [reading, hboth]
  | exclusive =>
      obtain ⟨⟨hinside, hnobody⟩, _⟩ := release?_exclusive_cases hrelease
      have hnobody : readers = 0 := hnobody
      simp [reading, hnobody] at hinside

end Lock

/-- Wherever a task stands, its next reaction does not lead to a request to write. -/
structure Program.Reads (p : Program σ δ ε) (P : Point → σ → Prop) : Prop where
  waits : ∀ wait own, ¬ P (.waiting wait) own
  writes : ∀ own, ¬ P (.before (.acquire .exclusive)) own
  resume : ∀ own shared, P .outside own → P (p.resume own shared).point (p.resume own shared).own
  granted : ∀ mode own shared, P (.before (.acquire mode)) own →
    P (p.granted mode own shared).point (p.granted mode own shared).own
  released : ∀ mode own shared, P (.before (.release mode)) own →
    P (p.released mode own shared).point (p.released mode own shared).own
  misused : ∀ mode own shared, P (.before (.release mode)) own →
    P (p.misused mode own shared).point (p.misused mode own shared).own

namespace Machine

structure Reading (P : Point → σ → Prop) (m : Machine σ δ ε) : Prop where
  sound : m.Sound P
  lock : ∃ readers, m.lock = .reading m.lock.policy readers
  nobody : m.waiters = {}
  untraced : untraced m.history = m.history

namespace Reading

variable {p : Program σ δ ε} {P : Point → σ → Prop} {m : Machine σ δ ε}

theorem record (hm : m.Reading P) (events : List (Event ε))
    (hevents : ReaderWriter.untraced events = events) : (m.record events).Reading P := by
  refine ⟨hm.sound, hm.lock, hm.nobody, ?_⟩
  simp [Machine.record, hevents, hm.untraced]

theorem with_lock (hm : m.Reading P) (policy : Policy) (readers : Nat) :
    ({ m with lock := .reading policy readers } : Machine σ δ ε).Reading P :=
  ⟨hm.sound, ⟨readers, rfl⟩, hm.nobody, hm.untraced⟩

theorem react (hm : m.Reading P) (task : Nat) {r : Reaction σ δ ε} (hr : P r.point r.own) :
    (m.react task r).Reading P := by
  constructor
  · intro t ht
    rw [react_tasks] at ht
    exact hm.sound.set task hr t ht
  · rw [react_lock]
    exact hm.lock
  · rw [react_waiters]
    exact hm.nobody
  · simp [react_history, hm.untraced]

theorem giveBack (hp : p.Reads P) (hm : m.Reading P) (task : Nat) {own : σ} {mode : Mode}
    (hown : P (.before (.release mode)) own) : (m.giveBack p task own mode).Reading P := by
  cases hrelease : m.lock.release? mode with
  | none =>
      simp only [Machine.giveBack, hrelease]
      exact (hm.record [.misused task mode] rfl).react task (hp.misused mode own m.shared hown)
  | some r =>
      obtain ⟨readers, hlock⟩ := hm.lock
      have hreading := hrelease
      rw [hlock] at hreading
      obtain ⟨htraces, fewer, hfewer⟩ := Lock.release?_reading hreading
      rw [m.giveBack_of_nobody p hm.nobody task own hrelease, htraces, hfewer]
      have hleft := (hm.with_lock m.lock.policy fewer).record [] rfl
      exact (hleft.record [.released task mode] rfl).react task (hp.released mode own m.shared hown)

theorem act (hp : p.Reads P) (hm : m.Reading P) {task : Nat} {t : Task σ}
    (htask : m.tasks[task]? = some t) : (m.act p task t).Reading P := by
  have hown := hm.sound t (List.mem_of_getElem? htask)
  cases hpoint : t.point with
  | outside =>
      rw [hpoint] at hown
      simp only [Machine.act, hpoint]
      exact hm.react task (hp.resume t.own m.shared hown)
  | waiting wait =>
      rw [hpoint] at hown
      exact absurd hown (hp.waits wait t.own)
  | before call =>
      rw [hpoint] at hown
      cases call with
      | release mode =>
          simp only [Machine.act, hpoint]
          exact hm.giveBack hp task hown
      | acquire mode =>
          cases mode with
          | exclusive => exact absurd hown (hp.writes t.own)
          | shared =>
              obtain ⟨readers, hlock⟩ := hm.lock
              have hrequest := Lock.request_reading m.lock.policy readers
              rw [← hlock] at hrequest
              simp only [Machine.act, hpoint, hrequest]
              have hrequested := hm.record [.requested task .shared] rfl
              have hinside := (hrequested.with_lock m.lock.policy (readers + 1)).record [] rfl
              exact (hinside.record [.granted task .shared] rfl).react task
                (hp.granted .shared t.own m.shared hown)

theorem step (hp : p.Reads P) (hm : m.Reading P) {next : Machine σ δ ε}
    (hstep : m.step p = some next) : next.Reading P := by
  rcases step_cases hstep with ⟨_, c, _, rfl⟩ | ⟨_, _, _, rfl⟩ | ⟨task, t, _, htask, rfl⟩
  · have hbegun := hm.record [.turn c.task] rfl
    exact ⟨hbegun.sound, hbegun.lock, hbegun.nobody, hbegun.untraced⟩
  · exact ⟨hm.sound, hm.lock, hm.nobody, hm.untraced⟩
  · exact hm.act hp htask

theorem unhindered (hp : p.Reads P) (hm : m.Reading P) : m.Unhindered := by
  refine ⟨hm.nobody, ?_⟩
  intro t ht wait hpoint
  have hown := hm.sound t ht
  rw [hpoint] at hown
  exact hp.waits wait t.own hown

theorem flows (hp : p.Reads P) (hm : m.Reading P) : m.Flows p := by
  refine ⟨hm.unhindered hp, ?_⟩
  intro moves
  have hlater : (iterate (Machine.step p) moves m).Reading P :=
    iterate_keeps (fun _ _ hm hstep => hm.step hp hstep) moves hm
  exact hlater.nobody

theorem plain_eq (hm : m.Reading P) :
    m.plain = { m with lock := { m.lock with policy := .readerPreference } } := by
  obtain ⟨readers, hlock⟩ := hm.lock
  rw [Machine.plain, hm.untraced, hlock]
  rfl

end Reading

end Machine

end ReaderWriter
