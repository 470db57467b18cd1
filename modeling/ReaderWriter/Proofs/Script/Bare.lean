import ReaderWriter.Proofs.Acting
import ReaderWriter.Proofs.Script.Fairness
import ReaderWriter.Proofs.Waiting
import ReaderWriter.Script.Text

/-!
# Bare calls of the lock

In raw style nobody keeps account of the accesses, and any task may give back what another one took.
All that the lock looks at when an access is given back is whether the resource is taken and how
many readers are inside.  This is enough to tell whether such an access is there, because the two
agree with the calls that were made so far.  A call to give back what is not there leaves no trace
but its own lines in the log.
-/

namespace ReaderWriter

variable {ε : Type}

/-- An access can be given back exactly if one was granted and not given back. -/
theorem Scene.Accounts.release?_isSome_iff {s : Scene ε} (haccounts : s.Accounts) (mode : Mode) :
    (s.lock.release? mode).isSome ↔ Outstanding s.history mode := by
  have hreaders := haccounts.readers
  have hwriters := haccounts.writers
  unfold Outstanding
  cases mode with
  | shared =>
      have hsome : (s.lock.release? .shared).isSome ↔ 0 < s.lock.activeReaders := by
        simp only [Lock.release?, Lock.releaseShared?]
        split
        · simp_all
        · split <;> simp <;> omega
      rw [hsome]
      omega
  | exclusive =>
      have hsome : (s.lock.release? .exclusive).isSome ↔ 0 < s.lock.writersInside := by
        simp only [Lock.release?, Lock.releaseExclusive?, Lock.writersInside]
        split
        · split <;> simp
        · simp
      rw [hsome]
      omega

/-- There is never more than one writer inside. -/
theorem Scene.Accounts.granted_exclusive_le {s : Scene ε} (haccounts : s.Accounts) :
    s.history.countP (Event.grants .exclusive) ≤
      s.history.countP (Event.returns .exclusive) + 1 := by
  have hwriters := haccounts.writers
  have hone := s.lock.writersInside_le_one
  omega

namespace Script

/-- The call was made and came back without a panic. -/
def succeeds (call : Call) : Event Note → Bool
  | .noted _ (.called other) => other = call
  | _ => false

/-- How many calls of the kind have succeeded. -/
def succeeded (history : List (Event Note)) (call : Call) : Nat :=
  history.countP (succeeds call)

/-- By the calls that succeeded so far there is an access to give back. -/
def Returnable (history : List (Event Note)) : Mode → Prop
  | .shared => succeeded history (.release .shared) < succeeded history (.acquire .shared)
  | .exclusive =>
    succeeded history (.acquire .exclusive) = succeeded history (.release .exclusive) + 1

namespace Hand

/-- The task only makes bare calls, and it is inside of the one that it was told to make. -/
structure Bare (point : Point) (h : Hand) : Prop where
  handed : ∀ command, h.handed = some command → ∃ call, command = .call call
  command : h.command = match point with
    | .outside => none
    | .before call => some (.call call)
    | .waiting wait => some (.call (.acquire wait.mode))

theorem finish_bare {h : Hand} {point : Point} (hbare : h.Bare point) (data : List Int)
    (notes : List Note) : (h.finish data notes).own.Bare (h.finish data notes).point :=
  ⟨hbare.handed, rfl⟩

theorem Bare.looks {h : Hand} {l lock : Lock} {point : Point} {wait : Wait}
    (hbare : h.Bare point) (hlooks : l.Looks point lock wait) : h.Bare (.waiting wait) := by
  refine ⟨hbare.handed, hbare.command.trans ?_⟩
  cases hlooks with
  | arrives mode => simp [Lock.arrive_wait_mode]
  | again => rfl
  | passes hdone => rfl

theorem Bare.resume {h : Hand} (hbare : h.Bare .outside) (data : List Int) :
    (h.handed = none ∧ h.resume data = h.finish data []) ∨
      ∃ call, h.resume data =
        { own := { h with command := some (.call call), handed := none }
          shared := data
          next := some call } := by
  cases hhanded : h.handed with
  | none =>
      refine .inl ⟨rfl, ?_⟩
      simp [Hand.resume, hhanded, finish]
  | some command =>
      obtain ⟨call, rfl⟩ := hbare.handed command hhanded
      exact .inr ⟨call, by simp [Hand.resume, hhanded]⟩

theorem Bare.granted {h : Hand} {wait : Wait} (hbare : h.Bare (.waiting wait)) (data : List Int) :
    granted wait.mode h data = h.finish data [.called (.acquire wait.mode)] := by
  simp [Hand.granted, hbare.command]

theorem Bare.released {h : Hand} {mode : Mode} (hbare : h.Bare (.before (.release mode)))
    (data : List Int) : released mode h data = h.finish data [.called (.release mode)] := by
  simp [Hand.released, hbare.command]

theorem program_bare : program.Preserves (fun point h => h.Bare point) := by
  constructor
  case resume =>
    intro h data hbare
    change (h.resume data).own.Bare (h.resume data).point
    rcases hbare.resume data with ⟨_, hresume⟩ | ⟨call, hresume⟩
    · rw [hresume]
      exact finish_bare hbare data []
    · rw [hresume]
      exact ⟨by simp, rfl⟩
  case waits =>
    intro l lock point wait h hlooks hbare
    exact hbare.looks hlooks
  case granted =>
    intro wait h data hbare
    change (Hand.granted wait.mode h data).own.Bare (Hand.granted wait.mode h data).point
    rw [hbare.granted data]
    exact finish_bare hbare data _
  case released =>
    intro mode h data hbare
    change (Hand.released mode h data).own.Bare (Hand.released mode h data).point
    rw [hbare.released data]
    exact finish_bare hbare data _
  case misused =>
    intro mode h data hbare
    exact finish_bare hbare data _

end Hand

variable {s : Script} {m next : State} {task : Nat} {t : Task Hand}

theorem Reaches.bare (hm : s.Reaches m) (hraw : s.style = .raw) :
    m.Sound (fun point h => h.Bare point) := by
  refine hm.keeps ?_ ?_ ?_ ?_
  · intro m next name command? hbare hhand
    obtain ⟨index, t, command, _, _, htask, _, _, hobjection, rfl⟩ := hand_eq_ok_iff.mp hhand
    have hown := hbare t (List.mem_of_getElem? htask)
    apply hbare.set index
    refine ⟨?_, hown.command⟩
    intro other hother
    obtain rfl : command = other := by simpa using hother
    rw [hraw] at hobjection
    cases command with
    | call call => exact ⟨call, rfl⟩
    | _ => cases hobjection
  · intro m next name hbare hwake
    obtain ⟨index, _, rfl⟩ := wake_cases hwake
    exact hbare
  · intro t ht
    obtain ⟨name, _, rfl⟩ : ∃ name ∈ s.names, _ = t := List.mem_map.mp ht
    exact ⟨by simp, rfl⟩
  · intro m next hbare hstep
    exact hbare.step_of_preserves Hand.program_bare hstep

/-! ## What the log says about calls -/

/-- The calls that succeeded are the accesses that were granted and given back. -/
structure Told (history : List (Event Note)) : Prop where
  acquired : ∀ mode, succeeded history (.acquire mode) = history.countP (Event.grants mode)
  released : ∀ mode, succeeded history (.release mode) = history.countP (Event.returns mode)

namespace Told

theorem append {first second : List (Event Note)} (hfirst : Told first) (hsecond : Told second) :
    Told (first ++ second) := by
  constructor
  · intro mode
    have hnew := hfirst.acquired mode
    have hold := hsecond.acquired mode
    unfold succeeded at *
    rw [List.countP_append, List.countP_append, hnew, hold]
  · intro mode
    have hnew := hfirst.released mode
    have hold := hsecond.released mode
    unfold succeeded at *
    rw [List.countP_append, List.countP_append, hnew, hold]

theorem reverse {events : List (Event Note)} (htold : Told events) : Told events.reverse := by
  constructor
  · intro mode
    rw [succeeded, List.countP_reverse, List.countP_reverse]
    exact htold.acquired mode
  · intro mode
    rw [succeeded, List.countP_reverse, List.countP_reverse]
    exact htold.released mode

theorem traced (task : Nat) (traces : List Trace) : Told (traces.map (.traced task)) := by
  have hnone : ∀ call, succeeds call ∘ Event.traced task = fun _ => false := fun _ => rfl
  constructor <;> simp [succeeded, List.countP_map, hnone]

theorem arrival (l : Lock) (task : Nat) (point : Point) : Told (l.arrivalEvents task point) := by
  have hrequested : ∀ mode, Told [.requested task mode] :=
    fun mode => ⟨fun _ => rfl, fun _ => rfl⟩
  cases point with
  | before call =>
      cases call with
      | acquire mode => exact (hrequested mode).append (traced task (l.arrive mode).traces)
      | release mode => exact ⟨fun _ => rfl, fun _ => rfl⟩
  | _ => exact ⟨fun _ => rfl, fun _ => rfl⟩

end Told

theorem act_told (htold : Told m.history) (hbare : t.own.Bare t.point) :
    Told (m.act program task t).history := by
  have hacts := m.acts program task t
  generalize m.act program task t = next at hacts ⊢
  cases hacts with
  | resumes hpoint =>
      rw [hpoint] at hbare
      rw [Machine.react_history]
      change Told (((t.own.resume m.shared).notes.map (.noted task)).reverse ++ m.history)
      rcases hbare.resume m.shared with ⟨_, hresume⟩ | ⟨call, hresume⟩ <;> rw [hresume] <;>
        exact htold
  | parks hlooks hblocks => exact (Told.arrival m.lock task t.point).reverse.append htold
  | @enters lock wait hlooks hchannel henters =>
      rw [Machine.react_history]
      change Told (((Hand.granted wait.mode t.own m.shared).notes.map (.noted task)).reverse ++ _)
      rw [(hbare.looks hlooks).granted m.shared]
      have hcalled : Told [.noted task (.called (.acquire wait.mode)), .granted task wait.mode] := by
        constructor <;> intro mode <;>
          simp [succeeded, succeeds, Event.grants, Event.returns, List.countP_cons]
      have hevents := hcalled.append ((Told.traced task wait.admission).reverse.append
        ((Told.arrival m.lock task t.point).reverse.append htold))
      simpa [Hand.finish, Machine.record] using hevents
  | @returns mode r hpoint hrelease =>
      rw [hpoint] at hbare
      rw [Machine.react_history, Machine.foldl_notify_history]
      change Told (((Hand.released mode t.own m.shared).notes.map (.noted task)).reverse ++ _)
      rw [hbare.released m.shared]
      have hcalled : Told [.noted task (.called (.release mode)), .released task mode] := by
        constructor <;> intro other <;>
          simp [succeeded, succeeds, Event.grants, Event.returns, List.countP_cons]
      have hevents := hcalled.append ((Told.traced task r.traces).reverse.append htold)
      simpa [Hand.finish, Machine.record] using hevents
  | @misuses mode hpoint hrelease =>
      have hmisused : Told [.noted task (.misused mode), .misused task mode] :=
        ⟨fun _ => rfl, fun _ => rfl⟩
      rw [Machine.react_history]
      exact hmisused.append htold

theorem Reaches.told (hm : s.Reaches m) (hraw : s.style = .raw) : Told m.history := by
  refine hm.keeps_reached (P := fun m => Told m.history) ?_ ?_ ?_ ?_
  · intro m next name command? _ htold hhand
    have hhistory : next.history = m.history := congrArg Scene.history (hand_scene hhand)
    rw [hhistory]
    exact htold
  · intro m next name _ htold hwake
    obtain ⟨index, _, rfl⟩ := wake_cases hwake
    exact htold
  · exact ⟨fun _ => rfl, fun _ => rfl⟩
  · intro m next hm htold hstep
    rcases Machine.step_cases hstep with ⟨_, c, _, rfl⟩ | ⟨_, _, _, rfl⟩ | ⟨task, t, _, htask, rfl⟩
    · have hturn : Told [.turn c.task] := ⟨fun _ => rfl, fun _ => rfl⟩
      exact hturn.append htold
    · exact htold
    · exact act_told htold (hm.bare hraw t (List.mem_of_getElem? htask))

/-- What the lock says is what the calls that succeeded say. -/
theorem Reaches.release?_isSome_iff (hm : s.Reaches m) (hraw : s.style = .raw) (mode : Mode) :
    (m.lock.release? mode).isSome ↔ Returnable m.history mode := by
  have htold := hm.told hraw
  have hacquired := htold.acquired mode
  have hreleased := htold.released mode
  have hmost : m.history.countP (Event.grants .exclusive) ≤
      m.history.countP (Event.returns .exclusive) + 1 := hm.accounts.granted_exclusive_le
  refine (hm.accounts.release?_isSome_iff mode).trans ?_
  change m.history.countP (Event.returns mode) < m.history.countP (Event.grants mode) ↔ _
  rw [← hacquired, ← hreleased]
  cases mode with
  | shared => rfl
  | exclusive =>
      change _ ↔ succeeded m.history (.acquire .exclusive) =
        succeeded m.history (.release .exclusive) + 1
      omega

/-! ## The check of one call -/

/-- The machine after the task has given back what nobody holds. -/
def rejected (m : State) (task : Nat) (h : Hand) (mode : Mode) : State :=
  { m with
    tasks := m.tasks.set task { own := { h with command := none } }
    running := none
    history := .noted task (.misused mode) :: .misused task mode :: m.history }

/-- A call gives back an access exactly if by the calls before it there is one.  Otherwise it logs
that nobody holds one, and leaves the lock, the queues and the other tasks as they were. -/
structure Checked (s : Script) (m next : State) (task : Nat) (t : Task Hand) (mode : Mode) :
    Prop where
  succeeds : .noted task (.called (.release mode)) ∈ eventsSince m next ↔
    Returnable m.history mode
  rejects : ¬ Returnable m.history mode → next = rejected m task t.own mode ∧
    (eventsSince m next).filterMap (eventText? s.nameOf) =
      [s.nameOf task ++ " " ++ ("panicked: " ++ mode.misuse)]

theorem act_rejects {mode : Mode} (hpoint : t.point = .before (.release mode))
    (hnone : m.lock.release? mode = none) :
    m.act program task t = rejected m task t.own mode := by
  simp only [Machine.act, hpoint, Machine.giveBack, hnone]
  rfl

theorem Reaches.checked (hm : s.Reaches m) (hraw : s.style = .raw) (htask : m.tasks[task]? = some t)
    {mode : Mode} (hpoint : t.point = .before (.release mode)) :
    Checked s m (m.act program task t) task t mode := by
  have hiff := hm.release?_isSome_iff hraw mode
  have hbare := hm.bare hraw t (List.mem_of_getElem? htask)
  rw [hpoint] at hbare
  cases hrelease : m.lock.release? mode with
  | none =>
      have hnot : ¬ Returnable m.history mode := by
        rw [← hiff, hrelease]
        simp
      have hhistory : (rejected m task t.own mode).history =
          [.noted task (.misused mode), .misused task mode] ++ m.history := rfl
      have hevents := eventsSince_of_append hhistory
      rw [act_rejects hpoint hrelease]
      refine ⟨?_, fun _ => ⟨rfl, ?_⟩⟩
      · rw [hevents]
        simp [hnot]
      · rw [hevents]
        rfl
  | some r =>
      have hyes : Returnable m.history mode := by
        rw [← hiff, hrelease]
        rfl
      refine ⟨?_, fun hnot => absurd hyes hnot⟩
      have hevents : eventsSince m (m.act program task t) =
          r.traces.map (.traced task) ++
            [.released task mode, .noted task (.called (.release mode))] := by
        have hhistory : (m.act program task t).history =
            ([.noted task (.called (.release mode)), .released task mode] ++
              (r.traces.map (Event.traced task)).reverse) ++ m.history := by
          simp only [Machine.act, hpoint, Machine.giveBack, hrelease, Machine.react_history,
            Machine.foldl_notify_history]
          change ((Hand.released mode t.own _).notes.map (Event.noted task)).reverse ++ _ = _
          rw [hbare.released]
          simp [Hand.finish, Machine.record]
        rw [eventsSince_of_append hhistory]
        simp
      rw [hevents]
      simp [hyes]

end Script

end ReaderWriter
