import ReaderWriter.Proofs.Rest

/-!
# Tasks that keep their own in another form

Two programs may keep what their tasks have in mind in different forms and do the same otherwise.
If the one form can be read off the other, and each reaction of the one program is the other's in
that reading, the two machines take the same steps: the reading of where the one goes is where its
reading goes.
-/

namespace ReaderWriter

variable {σ τ δ ε : Type}

def Task.mapOwn (g : σ → τ) (t : Task σ) : Task τ where
  point := t.point
  own := g t.own

def Reaction.mapOwn (g : σ → τ) (r : Reaction σ δ ε) : Reaction τ δ ε where
  own := g r.own
  shared := r.shared
  notes := r.notes
  next := r.next

/-- The second program reacts as the first one, if what a task of the first has in mind is read. -/
structure Program.Translates (p : Program σ δ ε) (q : Program τ δ ε) (g : σ → τ) : Prop where
  resume : ∀ own shared, q.resume (g own) shared = (p.resume own shared).mapOwn g
  granted : ∀ mode own shared, q.granted mode (g own) shared = (p.granted mode own shared).mapOwn g
  released : ∀ mode own shared,
    q.released mode (g own) shared = (p.released mode own shared).mapOwn g
  misused : ∀ mode own shared, q.misused mode (g own) shared = (p.misused mode own shared).mapOwn g
  remaining : ∀ point own, q.remaining point (g own) = p.remaining point own

namespace Machine

/-- The machine with what its tasks have in mind read. -/
def mapOwn (g : σ → τ) (m : Machine σ δ ε) : Machine τ δ ε where
  lock := m.lock
  shared := m.shared
  tasks := m.tasks.map (Task.mapOwn g)
  ready := m.ready
  running := m.running
  waiters := m.waiters
  picks := m.picks
  preempt := m.preempt
  history := m.history

variable (g : σ → τ) (m : Machine σ δ ε)

theorem mapOwn_tasks_getElem? (task : Nat) :
    (m.mapOwn g).tasks[task]? = m.tasks[task]?.map (Task.mapOwn g) :=
  List.getElem?_map

theorem mapOwn_foldl_notify (channels : List Channel) :
    (channels.foldl notify m).mapOwn g = channels.foldl notify (m.mapOwn g) := by
  induction channels generalizing m with
  | nil => rfl
  | cons channel channels ih => exact ih (m.notify channel)

theorem mapOwn_withTask (task : Nat) (t : Task σ) :
    Machine.mapOwn g { m with tasks := m.tasks.set task t } =
      { m.mapOwn g with tasks := (m.mapOwn g).tasks.set task (t.mapOwn g) } := by
  simp only [mapOwn, List.map_set]

theorem mapOwn_park (task : Nat) (own : σ) (wait : Wait) :
    (m.park task own wait).mapOwn g = (m.mapOwn g).park task (g own) wait := by
  have hset := mapOwn_withTask g m task { point := .waiting wait, own }
  exact congrArg (fun m : Machine τ δ ε =>
    { m with waiters := m.waiters.park task wait.channel, running := none }) hset

theorem mapOwn_approach (task : Nat) (own : σ) (call : Call) :
    (m.approach task own call).mapOwn g = (m.mapOwn g).approach task (g own) call := by
  obtain ⟨lock, shared, tasks, ready, running, waiters, picks, preempt, history⟩ := m
  cases preempt <;> simp [approach, mapOwn, Task.mapOwn, List.map_set]

theorem mapOwn_react (task : Nat) (r : Reaction σ δ ε) :
    (m.react task r).mapOwn g = (m.mapOwn g).react task (r.mapOwn g) := by
  let noted := { m with shared := r.shared }.record (r.notes.map (.noted task))
  unfold react
  cases hnext : r.next with
  | none =>
      have hset := mapOwn_withTask g noted task { own := r.own }
      simp only [Reaction.mapOwn, hnext]
      exact congrArg (fun m : Machine τ δ ε => { m with running := none }) hset
  | some call =>
      simp only [Reaction.mapOwn, hnext]
      exact mapOwn_approach g noted task r.own call

variable {g} {p : Program σ δ ε} {q : Program τ δ ε} (htranslates : p.Translates q g)
include htranslates

theorem mapOwn_settle (task : Nat) (own : σ) (mode : Mode) (a : Admission) :
    (m.settle p task own mode a).mapOwn g = (m.mapOwn g).settle q task (g own) mode a := by
  unfold settle
  cases a.waits with
  | some wait => exact mapOwn_park g _ task own wait
  | none =>
      have hreact := mapOwn_react g (({ m with lock := a.lock }.record
        (a.traces.map (.traced task))).record [.granted task mode]) task
        (p.granted mode own m.shared)
      rw [← htranslates.granted] at hreact
      exact hreact

theorem mapOwn_giveBack (task : Nat) (own : σ) (mode : Mode) :
    (m.giveBack p task own mode).mapOwn g = (m.mapOwn g).giveBack q task (g own) mode := by
  have hlock : (m.mapOwn g).lock = m.lock := rfl
  unfold giveBack
  rw [hlock]
  cases m.lock.release? mode with
  | none =>
      have hreact := mapOwn_react g (m.record [.misused task mode]) task
        (p.misused mode own m.shared)
      rw [← htranslates.misused] at hreact
      exact hreact
  | some r =>
      have hreact := mapOwn_react g (r.notified.foldl notify (({ m with lock := r.lock }.record
        (r.traces.map (.traced task))).record [.released task mode])) task
        (p.released mode own m.shared)
      rw [← htranslates.released, mapOwn_foldl_notify] at hreact
      simp only [foldl_notify_shared]
      exact hreact

theorem mapOwn_act (task : Nat) (t : Task σ) :
    (m.act p task t).mapOwn g = (m.mapOwn g).act q task (t.mapOwn g) := by
  obtain ⟨point, own⟩ := t
  cases point with
  | outside =>
      have hreact := mapOwn_react g m task (p.resume own m.shared)
      rw [← htranslates.resume] at hreact
      exact hreact
  | waiting wait => exact mapOwn_settle m htranslates task own wait.mode _
  | before call =>
      cases call with
      | acquire mode =>
          exact mapOwn_settle (m.record [.requested task mode]) htranslates task own mode _
      | release mode => exact mapOwn_giveBack m htranslates task own mode

theorem mapOwn_step : (m.mapOwn g).step q = (m.step p).map (mapOwn g) := by
  have hrunning : (m.mapOwn g).running = m.running := rfl
  unfold step
  rw [hrunning]
  cases m.running with
  | none =>
      simp only [Option.map_map]
      rfl
  | some task =>
      simp only [mapOwn_tasks_getElem?]
      cases m.tasks[task]? with
      | none => rfl
      | some t => exact congrArg some (mapOwn_act m htranslates task t).symm

theorem mapOwn_work : (m.mapOwn g).work q = m.work p := by
  have hremaining : (m.mapOwn g).remaining q = m.remaining p := by
    simp only [remaining, mapOwn, List.map_map]
    refine congrArg (List.foldr (· + ·) 0) (List.map_congr_left fun t _ => ?_)
    exact htranslates.remaining t.point t.own
  simp only [work, hremaining]
  rfl

/-- The reading of where a machine comes to rest is where its reading does. -/
theorem mapOwn_settleDown : (m.mapOwn g).settleDown q = (m.settleDown p).mapOwn g := by
  unfold settleDown
  rw [mapOwn_work m htranslates]
  exact iterate_map (P := fun _ => True) (fun _ _ _ _ => trivial)
    (fun m _ => mapOwn_step m htranslates) _ trivial

end Machine

end ReaderWriter
