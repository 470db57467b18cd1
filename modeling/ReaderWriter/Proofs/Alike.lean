import ReaderWriter.Proofs.Rest

/-!
# A machine does not read its history

Nothing that a machine does depends on what it has recorded.  Over another history it takes the same
steps and records the same events.  So two machines that differ only in events that do not count for
an observer go on alike: they come to rest in states that again differ only in such events.

A machine leads to another one, for that observer, if it comes to be like it in some steps.
Machines that lead to the same one come to rest alike.
-/

namespace ReaderWriter

variable {σ δ ε : Type}

namespace Machine

variable {p : Program σ δ ε} {m next other : Machine σ δ ε}

def withHistory (m : Machine σ δ ε) (history : List (Event ε)) : Machine σ δ ε :=
  { m with history }

@[simp] theorem withHistory_withHistory (m : Machine σ δ ε) (first second : List (Event ε)) :
    (m.withHistory first).withHistory second = m.withHistory second := rfl

@[simp] theorem withHistory_history (m : Machine σ δ ε) (history : List (Event ε)) :
    (m.withHistory history).history = history := rfl

/-- From this machine on, the operation only adds events to the history, and always the same. -/
def Appends (f : Machine σ δ ε → Machine σ δ ε) (m : Machine σ δ ε) : Prop :=
  ∃ events, (f m).history = events ++ m.history ∧
    ∀ history, f (m.withHistory history) = (f m).withHistory (events ++ history)

namespace Appends

theorem comp {f g : Machine σ δ ε → Machine σ δ ε} (hf : Appends f m) (hg : Appends g (f m)) :
    Appends (fun m => g (f m)) m := by
  obtain ⟨first, hfirst, hf⟩ := hf
  obtain ⟨second, hsecond, hg⟩ := hg
  refine ⟨second ++ first, ?_, ?_⟩
  · rw [hsecond, hfirst, List.append_assoc]
  · intro history
    simp only [hf, hg, List.append_assoc]

theorem congr {f g : Machine σ δ ε → Machine σ δ ε} (hf : Appends f m)
    (hsame : ∀ history, g (m.withHistory history) = f (m.withHistory history)) : Appends g m := by
  obtain ⟨events, hhistory, hover⟩ := hf
  have hself : g m = f m := hsame m.history
  refine ⟨events, hself ▸ hhistory, ?_⟩
  intro history
  rw [hsame, hover, hself]

theorem record (m : Machine σ δ ε) (events : List (Event ε)) : Appends (·.record events) m :=
  ⟨events.reverse, rfl, fun _ => rfl⟩

theorem react (m : Machine σ δ ε) (task : Nat) (r : Reaction σ δ ε) :
    Appends (·.react task r) m := by
  refine ⟨(r.notes.map (.noted task)).reverse, m.react_history task r, ?_⟩
  intro history
  unfold Machine.react
  cases r.next with
  | none => rfl
  | some call => cases hpreempt : m.preempt <;> simp [approach, withHistory, Machine.record, hpreempt]

theorem park (m : Machine σ δ ε) (task : Nat) (own : σ) (wait : Wait) :
    Appends (·.park task own wait) m :=
  ⟨[], rfl, fun _ => rfl⟩

theorem settle (p : Program σ δ ε) (m : Machine σ δ ε) (task : Nat) (own : σ) (mode : Mode)
    (a : Admission) : Appends (·.settle p task own mode a) m := by
  let looks : Machine σ δ ε → Machine σ δ ε :=
    fun m => { m with lock := a.lock }.record (a.traces.map (.traced task))
  have hlooks : Appends looks m := ⟨_, rfl, fun _ => rfl⟩
  unfold Machine.settle
  cases a.waits with
  | some wait => exact hlooks.comp (park _ task own wait)
  | none =>
      have hgranted := hlooks.comp (record (looks m) [.granted task mode])
      exact hgranted.comp (react _ task (p.granted mode own m.shared))

theorem foldl_notify (m : Machine σ δ ε) (channels : List Channel) :
    Appends (fun m => channels.foldl notify m) m := by
  refine ⟨[], foldl_notify_history m channels, ?_⟩
  intro history
  exact List.foldl_hom (fun m : Machine σ δ ε => m.withHistory history) (fun _ _ => rfl)

theorem giveBack (p : Program σ δ ε) (m : Machine σ δ ε) (task : Nat) (own : σ) (mode : Mode) :
    Appends (·.giveBack p task own mode) m := by
  cases hrelease : m.lock.release? mode with
  | none =>
      have hmisused := (record m [.misused task mode]).comp
        (react _ task (p.misused mode own m.shared))
      refine hmisused.congr ?_
      intro history
      have hsame : (m.withHistory history).lock.release? mode = none := hrelease
      simp only [Machine.giveBack, hsame]
      rfl
  | some r =>
      let leaves : Machine σ δ ε → Machine σ δ ε := fun m =>
        ({ m with lock := r.lock }.record (r.traces.map (.traced task))).record
          [.released task mode]
      have htraced : Appends (fun m : Machine σ δ ε =>
          { m with lock := r.lock }.record (r.traces.map (.traced task))) m := ⟨_, rfl, fun _ => rfl⟩
      have hleaves : Appends leaves m := htraced.comp (record _ _)
      have hreleased := (hleaves.comp (foldl_notify _ r.notified)).comp
        (react _ task (p.released mode own m.shared))
      refine hreleased.congr ?_
      intro history
      have hsame : (m.withHistory history).lock.release? mode = some r := hrelease
      simp only [Machine.giveBack, hsame, foldl_notify_shared]
      rfl

theorem act (p : Program σ δ ε) (m : Machine σ δ ε) (task : Nat) (t : Task σ) :
    Appends (fun m => m.act p task t) m := by
  unfold Machine.act
  cases t.point with
  | outside => exact react m task _
  | waiting wait => exact settle p m task t.own wait.mode _
  | before call =>
      cases call with
      | acquire mode =>
          exact (record m _).comp (settle p _ task t.own mode (m.lock.request mode))
      | release mode => exact giveBack p m task t.own mode

end Appends

theorem step_withHistory (hstep : m.step p = some next) :
    ∃ events, next.history = events ++ m.history ∧
      ∀ history, (m.withHistory history).step p = some (next.withHistory (events ++ history)) := by
  rcases step_cases hstep with
    ⟨hrunning, c, hchoice, rfl⟩ | ⟨task, hrunning, hnone, rfl⟩ | ⟨task, t, hrunning, htask, rfl⟩
  · refine ⟨[.turn c.task], rfl, ?_⟩
    intro history
    simp only [step, withHistory, hrunning, hchoice]
    rfl
  · refine ⟨[], rfl, ?_⟩
    intro history
    simp only [step, withHistory, hrunning, hnone]
    rfl
  · obtain ⟨events, hhistory, hover⟩ := Appends.act p m task t
    refine ⟨events, hhistory, ?_⟩
    intro history
    rw [← hover history]
    simp only [step, withHistory, hrunning, htask]

theorem iterate_withHistory (p : Program σ δ ε) (m : Machine σ δ ε) (moves : Nat) :
    Appends (iterate (step p) moves) m := by
  induction moves generalizing m with
  | zero => exact ⟨[], rfl, fun _ => rfl⟩
  | succ moves ih =>
      cases hstep : m.step p with
      | none =>
          refine ⟨[], ?_, ?_⟩
          · simp [iterate, hstep]
          · intro history
            have hnone : (m.withHistory history).step p = none :=
              (step_eq_none_iff p _).mpr ((step_eq_none_iff p m).mp hstep)
            simp [iterate, hstep, hnone]
      | some next =>
          obtain ⟨first, hfirst, hover⟩ := step_withHistory hstep
          obtain ⟨second, hsecond, hrest⟩ := ih next
          refine ⟨second ++ first, ?_, ?_⟩
          · simp only [iterate, hstep]
            rw [hsecond, hfirst, List.append_assoc]
          · intro history
            simp only [iterate, hstep, hover, hrest, List.append_assoc]

/-! ## For an observer -/

/-- The machines differ only in recorded events that do not count. -/
structure Alike (counts : Event ε → Bool) (m other : Machine σ δ ε) : Prop where
  same : other = m.withHistory other.history
  history : m.history.filter counts = other.history.filter counts

namespace Alike

variable {counts : Event ε → Bool}

theorem refl (m : Machine σ δ ε) : Alike counts m m := ⟨rfl, rfl⟩

theorem symm (halike : Alike counts m other) : Alike counts other m :=
  ⟨by rw [halike.same]; rfl, halike.history.symm⟩

theorem trans (hfirst : Alike counts m next) (hsecond : Alike counts next other) :
    Alike counts m other := by
  refine ⟨?_, hfirst.history.trans hsecond.history⟩
  rw [hsecond.same, hfirst.same]
  rfl

theorem lock (halike : Alike counts m other) : other.lock = m.lock :=
  (congrArg Machine.lock halike.same).trans rfl

theorem shared (halike : Alike counts m other) : other.shared = m.shared :=
  (congrArg Machine.shared halike.same).trans rfl

theorem tasks (halike : Alike counts m other) : other.tasks = m.tasks :=
  (congrArg Machine.tasks halike.same).trans rfl

theorem waiters (halike : Alike counts m other) : other.waiters = m.waiters :=
  (congrArg Machine.waiters halike.same).trans rfl

theorem picks (halike : Alike counts m other) : other.picks = m.picks :=
  (congrArg Machine.picks halike.same).trans rfl

/-- What only adds to the history keeps machines alike. -/
theorem congr {f : Machine σ δ ε → Machine σ δ ε} (hf : Appends f m)
    (halike : Alike counts m other) : Alike counts (f m) (f other) := by
  obtain ⟨events, hhistory, hover⟩ := hf
  have hother : f other = (f m).withHistory (events ++ other.history) := by
    conv_lhs => rw [halike.same]
    exact hover other.history
  constructor
  · rw [hother]
    rfl
  · rw [hother, hhistory, withHistory_history, List.filter_append, List.filter_append, halike.history]

theorem step_eq_none (halike : Alike counts m other) (hrest : m.step p = none) :
    other.step p = none := by
  rw [step_eq_none_iff] at hrest ⊢
  rw [halike.same]
  exact hrest

end Alike

/-- The machine comes to be like the other one. -/
def Leads (p : Program σ δ ε) (counts : Event ε → Bool) (m other : Machine σ δ ε) : Prop :=
  ∃ moves, Alike counts (iterate (step p) moves m) other

namespace Leads

variable {counts : Event ε → Bool}

theorem of_alike (halike : Alike counts m other) : Leads p counts m other := ⟨0, halike⟩

theorem of_step (hstep : m.step p = some next) (halike : Alike counts next other) :
    Leads p counts m other := by
  refine ⟨1, ?_⟩
  simp only [iterate, hstep]
  exact halike

theorem trans (hfirst : Leads p counts m next) (hsecond : Leads p counts next other) :
    Leads p counts m other := by
  obtain ⟨first, hfirst⟩ := hfirst
  obtain ⟨second, hsecond⟩ := hsecond
  refine ⟨first + second, ?_⟩
  rw [iterate_add]
  exact (hfirst.congr (iterate_withHistory p _ second)).trans hsecond

/-- On its way to rest a machine passes a state like the one it leads to. -/
theorem passes (hm : Leads p counts m next) {moves : Nat}
    (hrest : (iterate (step p) moves m).step p = none) :
    ∃ passed more, Alike counts passed next ∧
      iterate (step p) moves m = iterate (step p) more passed := by
  obtain ⟨first, halike⟩ := hm
  refine ⟨_, moves, halike, ?_⟩
  rw [← iterate_add, Nat.add_comm, iterate_add, iterate_of_eq_none hrest]

/-- Machines that lead to the same one come to rest alike. -/
theorem rest (hm : Leads p counts m next) (hother : Leads p counts other next) {moves more : Nat}
    (hrest : (iterate (step p) moves m).step p = none)
    (hends : (iterate (step p) more other).step p = none) :
    Alike counts (iterate (step p) moves m) (iterate (step p) more other) := by
  obtain ⟨first, hm⟩ := hm
  obtain ⟨second, hother⟩ := hother
  have halike := (hm.trans hother.symm).congr (iterate_withHistory p _ more)
  have hend : iterate (step p) more (iterate (step p) second other) =
      iterate (step p) more other := by
    rw [← iterate_add, Nat.add_comm, iterate_add, iterate_of_eq_none hends]
  rw [hend, ← iterate_add] at halike
  rw [iterate_eq_of_eq_none hrest (halike.symm.step_eq_none hends)]
  exact halike

/-! ### A task that is alone to run -/

variable {task : Nat}

theorem begin (hrunning : m.running = none) (hready : m.ready = [task])
    (hturn : counts (.turn task) = false) :
    Leads p counts m { m with running := some task, ready := [] } := by
  have hstep : m.step p = some (m.begin ⟨task, [], m.picks⟩) := by
    simp [step, hrunning, hready, choose?]
  refine .of_step hstep ⟨rfl, ?_⟩
  simp [Machine.begin, record, hturn]

/-- Whether the others might run first or not, the task comes to stand before its call. -/
theorem approach (hrunning : m.running = some task) (hready : m.ready = [])
    (hturn : counts (.turn task) = false) (own : σ) (call : Call) :
    Leads p counts (m.approach task own call)
      { m with tasks := m.tasks.set task { point := .before call, own } } := by
  obtain ⟨lock, shared, tasks, ready, running, waiters, picks, preempt, history⟩ := m
  obtain rfl : running = some task := hrunning
  obtain rfl : ready = [] := hready
  cases preempt with
  | false => exact .of_alike (.refl _)
  | true => exact begin rfl rfl hturn

end Leads

end Machine

end ReaderWriter
