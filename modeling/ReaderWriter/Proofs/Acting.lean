import ReaderWriter.Proofs.Rest

/-!
# What a task does when it goes on

The moves of a scene do not see the program.  For laws about what the tasks do outside of the lock
the step of the running task is one of five: it resumes, it parks, it enters, it gives an access
back or it gives back what nobody held.  Each leads to one reaction of the program, or to none if
the task parks.

A call for access may stand before its first section or in a wait.  In both cases it comes to look
at one condition: it arrives, it looks again, or its ticket is completed and it passes on.
-/

namespace ReaderWriter

variable {σ δ ε : Type}

namespace Lock

/-- A call at a point comes to look at its condition, under a lock and with a wait. -/
inductive Looks (l : Lock) : Point → Lock → Wait → Prop
  | arrives (mode : Mode) :
      Looks l (.before (.acquire mode)) (l.arrive mode).lock (l.arrive mode).wait
  | again (wait : Wait) : Looks l (.waiting wait) l wait
  | passes {ticket : Nat} (hdone : ticket < l.nowServing) :
      Looks l (.waiting (.ticketDone ticket)) l.pass .groupEntry

/-- What is recorded when a call arrives, before it looks at its condition. -/
def arrivalEvents (l : Lock) (task : Nat) : Point → List (Event ε)
  | .before (.acquire mode) => .requested task mode :: (l.arrive mode).traces.map (.traced task)
  | _ => []

theorem le_of_arrive {l : Lock} {mode : Mode} {ticket : Nat}
    (hwait : (l.arrive mode).wait = .ticketDone ticket) :
    (l.arrive mode).lock.nowServing ≤ ticket := by
  cases mode with
  | exclusive =>
      rcases l.arrive_exclusive_cases with ⟨_, harrive⟩ | ⟨_, harrive⟩ <;> simp [harrive] at hwait
  | shared =>
      rcases l.arrive_shared_cases with ⟨harrive, _⟩ | ⟨_, newest, _, hopen, harrive⟩
      · simp [harrive] at hwait
      · obtain rfl : newest = ticket := by simpa [harrive] using hwait
        rw [harrive]
        exact hopen

end Lock

namespace Machine

/-- What the machine may look like after the task has gone on. -/
inductive Acts (p : Program σ δ ε) (m : Machine σ δ ε) (task : Nat) (t : Task σ) :
    Machine σ δ ε → Prop
  | resumes (hpoint : t.point = .outside) :
      Acts p m task t (m.react task (p.resume t.own m.shared))
  | parks {lock : Lock} {wait : Wait} (hlooks : m.lock.Looks t.point lock wait)
      (hblocks : lock.Blocks wait) :
      Acts p m task t
        (({ m with lock }.record (m.lock.arrivalEvents task t.point)).park task t.own wait)
  | enters {lock : Lock} {wait : Wait} (hlooks : m.lock.Looks t.point lock wait)
      (hchannel : wait.channel = .released) (henters : ¬ lock.Blocks wait) :
      Acts p m task t
        (({ m with lock := lock.enter wait.mode }.record
          (m.lock.arrivalEvents task t.point ++
            (wait.admission.map (Event.traced task) ++ [Event.granted task wait.mode]))).react task
          (p.granted wait.mode t.own m.shared))
  | returns {mode : Mode} {r : Release} (hpoint : t.point = .before (.release mode))
      (hrelease : m.lock.release? mode = some r) :
      Acts p m task t
        ((r.notified.foldl notify ({ m with lock := r.lock }.record
          (r.traces.map (Event.traced task) ++ [Event.released task mode]))).react task
          (p.released mode t.own m.shared))
  | misuses {mode : Mode} (hpoint : t.point = .before (.release mode))
      (hrelease : m.lock.release? mode = none) :
      Acts p m task t ((m.record [.misused task mode]).react task (p.misused mode t.own m.shared))

theorem record_append (m : Machine σ δ ε) (first second : List (Event ε)) :
    m.record (first ++ second) = (m.record first).record second := by
  simp [record]

theorem settle_of_traces (p : Program σ δ ε) (m : Machine σ δ ε) (task : Nat) (own : σ)
    (mode : Mode) (traces : List Trace) (a : Admission) :
    m.settle p task own mode { a with traces := traces ++ a.traces } =
      (m.record (traces.map (.traced task))).settle p task own mode a := by
  simp only [settle, List.map_append, record_append]
  rfl

theorem settle_with_lock (p : Program σ δ ε) (m : Machine σ δ ε) (lock : Lock)
    (events : List (Event ε)) (task : Nat) (own : σ) (mode : Mode) (a : Admission) :
    ({ m with lock }.record events).settle p task own mode a =
      (m.record events).settle p task own mode a :=
  rfl

/-- A call that looks at its condition parks or enters, after a reader has passed on if it can. -/
theorem acts_of_recheck (p : Program σ δ ε) {m : Machine σ δ ε} (task : Nat) {t : Task σ}
    {lock : Lock} {wait : Wait} (hlooks : m.lock.Looks t.point lock wait)
    (hpasses : ∀ ticket, wait = .ticketDone ticket → ticket < lock.nowServing →
      m.lock.Looks t.point lock.pass .groupEntry) :
    Acts p m task t
      (({ m with lock }.record (m.lock.arrivalEvents task t.point)).settle p task t.own wait.mode
        (lock.recheck wait)) := by
  have hlook : ∀ {lock : Lock} {wait : Wait}, m.lock.Looks t.point lock wait →
      wait.channel = .released ∨ lock.Blocks wait →
      Acts p m task t
        (({ m with lock }.record (m.lock.arrivalEvents task t.point)).settle p task t.own wait.mode
          (lock.recheck wait)) := by
    intro lock wait hlooks hends
    by_cases hblocks : lock.Blocks wait
    · rw [Lock.recheck_of_blocks hblocks]
      exact .parks hlooks hblocks
    · have hchannel := hends.resolve_right hblocks
      rw [Lock.recheck_of_enters hchannel hblocks]
      have henters : Acts p m task t _ := .enters hlooks hchannel hblocks
      simp only [record_append] at henters
      exact henters
  by_cases hblocks : lock.Blocks wait
  · exact hlook hlooks (.inr hblocks)
  · cases wait with
    | groupEntry => exact hlook hlooks (.inl rfl)
    | writerEntry ticket? => exact hlook hlooks (.inl rfl)
    | ticketDone ticket =>
        have hdone : ticket < lock.nowServing := Nat.not_le.mp hblocks
        rw [Lock.recheck_of_passes hdone]
        exact hlook (hpasses ticket rfl hdone) (.inl rfl)

theorem acts (p : Program σ δ ε) (m : Machine σ δ ε) (task : Nat) (t : Task σ) :
    Acts p m task t (m.act p task t) := by
  cases hpoint : t.point with
  | outside =>
      simp only [act, hpoint]
      exact .resumes hpoint
  | waiting wait =>
      have hagain : m.lock.Looks t.point m.lock wait := by
        rw [hpoint]
        exact .again wait
      have hpasses : ∀ ticket, wait = .ticketDone ticket → ticket < m.lock.nowServing →
          m.lock.Looks t.point m.lock.pass .groupEntry := by
        rintro ticket rfl hdone
        rw [hpoint]
        exact .passes hdone
      have hrecheck := acts_of_recheck p task hagain hpasses
      rw [hpoint] at hrecheck
      simp only [act, hpoint]
      exact hrecheck
  | before call =>
      cases call with
      | release mode =>
          simp only [act, hpoint, giveBack]
          cases hrelease : m.lock.release? mode with
          | none => exact .misuses hpoint hrelease
          | some r =>
              have hreturns : Acts p m task t _ := .returns hpoint hrelease
              rw [record_append] at hreturns
              simpa only [foldl_notify_shared, record_shared] using hreturns
      | acquire mode =>
          have harrives : m.lock.Looks t.point (m.lock.arrive mode).lock
              (m.lock.arrive mode).wait := by
            rw [hpoint]
            exact .arrives mode
          have hpasses : ∀ ticket, (m.lock.arrive mode).wait = .ticketDone ticket →
              ticket < (m.lock.arrive mode).lock.nowServing →
              m.lock.Looks t.point (m.lock.arrive mode).lock.pass .groupEntry := by
            -- a reader queues up only behind a ticket that is not completed
            intro ticket hwait hdone
            exact absurd hdone (Nat.not_lt.mpr (Lock.le_of_arrive hwait))
          have hrecheck := acts_of_recheck p task harrives hpasses
          rw [hpoint, Lock.arrive_wait_mode, settle_with_lock] at hrecheck
          simp only [act, hpoint]
          rw [Lock.request_eq_recheck_arrive, settle_of_traces, ← record_append]
          exact hrecheck

/-- A task that goes on leaves the others as they are. -/
theorem act_tasks_of_ne (p : Program σ δ ε) (m : Machine σ δ ε) (t : Task σ) {task other : Nat}
    (hother : other ≠ task) : (m.act p task t).tasks[other]? = m.tasks[other]? := by
  have hacts := acts p m task t
  have hset : ∃ u, (m.act p task t).tasks = m.tasks.set task u := by
    generalize m.act p task t = next at hacts ⊢
    cases hacts with
    | parks hlooks hblocks => exact ⟨_, rfl⟩
    | returns hpoint hrelease => exact ⟨_, by rw [react_tasks, foldl_notify_tasks]; rfl⟩
    | _ => exact ⟨_, react_tasks _ _ _⟩
  obtain ⟨u, htasks⟩ := hset
  rw [htasks, List.getElem?_set_ne (Ne.symm hother)]

/-- What no reaction changes about the state of its task stays the same for all tasks. -/
theorem step_map_own {α : Type} {p : Program σ δ ε} (f : σ → α)
    (hresume : ∀ own shared, f (p.resume own shared).own = f own)
    (hgranted : ∀ mode own shared, f (p.granted mode own shared).own = f own)
    (hreleased : ∀ mode own shared, f (p.released mode own shared).own = f own)
    (hmisused : ∀ mode own shared, f (p.misused mode own shared).own = f own)
    {m next : Machine σ δ ε} (hstep : m.step p = some next) :
    next.tasks.map (fun t => f t.own) = m.tasks.map fun t => f t.own := by
  rcases step_cases hstep with ⟨_, c, _, rfl⟩ | ⟨_, _, _, rfl⟩ | ⟨task, t, _, htask, rfl⟩
  · rfl
  · rfl
  · have hset : ∀ u : Task σ, f u.own = f t.own →
        (m.tasks.set task u).map (fun t => f t.own) = m.tasks.map fun t => f t.own := by
      intro u hu
      obtain ⟨hlt, hget⟩ := List.getElem?_eq_some_iff.mp htask
      rw [List.map_set, hu, ← hget, ← List.getElem_map (fun t : Task σ => f t.own),
        List.set_getElem_self]
      simpa using hlt
    have hacts := acts p m task t
    generalize m.act p task t = next at hacts ⊢
    cases hacts with
    | resumes hpoint =>
        rw [react_tasks]
        exact hset _ (hresume _ _)
    | parks hlooks hblocks => exact hset _ rfl
    | enters hlooks hchannel henters =>
        rw [react_tasks]
        exact hset _ (hgranted _ _ _)
    | returns hpoint hrelease =>
        rw [react_tasks, foldl_notify_tasks]
        exact hset _ (hreleased _ _ _)
    | misuses hpoint hrelease =>
        rw [react_tasks]
        exact hset _ (hmisused _ _ _)

end Machine

/-- Where a task stands and what it has in mind stay as the property says, whatever happens. -/
structure Program.Preserves (p : Program σ δ ε) (P : Point → σ → Prop) : Prop where
  resume : ∀ own shared, P .outside own → P (p.resume own shared).point (p.resume own shared).own
  waits : ∀ {l lock : Lock} {point : Point} {wait : Wait} (own : σ),
    l.Looks point lock wait → P point own → P (.waiting wait) own
  granted : ∀ (wait : Wait) own shared, P (.waiting wait) own →
    P (p.granted wait.mode own shared).point (p.granted wait.mode own shared).own
  released : ∀ mode own shared, P (.before (.release mode)) own →
    P (p.released mode own shared).point (p.released mode own shared).own
  misused : ∀ mode own shared, P (.before (.release mode)) own →
    P (p.misused mode own shared).point (p.misused mode own shared).own

namespace Machine

variable {p : Program σ δ ε} {P : Point → σ → Prop} {m next : Machine σ δ ε}

theorem Sound.act_of_preserves (hp : p.Preserves P) (hsound : m.Sound P) {task : Nat} {t : Task σ}
    (htask : m.tasks[task]? = some t) : (m.act p task t).Sound P := by
  have hown := hsound t (List.mem_of_getElem? htask)
  unfold Sound
  have hacts := acts p m task t
  generalize m.act p task t = next at hacts ⊢
  cases hacts with
  | resumes hpoint =>
      rw [react_tasks]
      exact hsound.set task (hp.resume t.own m.shared (hpoint ▸ hown))
  | parks hlooks hblocks => exact hsound.set task (hp.waits t.own hlooks hown)
  | @enters lock wait hlooks hchannel henters =>
      rw [react_tasks]
      exact hsound.set task (hp.granted wait t.own m.shared (hp.waits t.own hlooks hown))
  | @returns mode r hpoint hrelease =>
      rw [react_tasks, foldl_notify_tasks]
      exact hsound.set task (hp.released mode t.own m.shared (hpoint ▸ hown))
  | @misuses mode hpoint hrelease =>
      rw [react_tasks]
      exact hsound.set task (hp.misused mode t.own m.shared (hpoint ▸ hown))

theorem Sound.step_of_preserves (hp : p.Preserves P) (hsound : m.Sound P)
    (hstep : m.step p = some next) : next.Sound P := by
  rcases step_cases hstep with ⟨_, c, _, rfl⟩ | ⟨_, _, _, rfl⟩ | ⟨task, t, _, htask, rfl⟩
  · exact hsound
  · exact hsound
  · exact hsound.act_of_preserves hp htask

end Machine

end ReaderWriter
