import ReaderWriter.Proofs.Progress
import ReaderWriter.Proofs.Script.Waking
import ReaderWriter.Proofs.Turns

/-!
# The turns of scripted tasks

A scripted task has a turn for the call of the lock that it is inside of, and another one for the
command that it was handed and has not begun.  So between two steps whoever does not wait stands
outside of the lock with nothing to do, and whoever waits is parked.
-/

namespace ReaderWriter.Script

namespace Hand

/-- The turns that a task should have. -/
def owed (point : Point) (h : Hand) : Nat :=
  match point with
  | .outside => h.handed.isSome.toNat
  | _ => h.handed.isSome.toNat + 1

theorem owed_calls (h : Hand) {point : Point} (hpoint : point ≠ .outside) :
    h.owed point = h.handed.isSome.toNat + 1 := by
  cases point with
  | outside => exact absurd rfl hpoint
  | _ => rfl

theorem owed_reaction (r : React) :
    r.own.owed r.point = r.own.handed.isSome.toNat + r.next.toList.length := by
  unfold Reaction.point
  cases r.next <;> rfl

theorem unwind_handed (h : Hand) (message : String) (data : List Int) :
    (h.unwind message data).own.handed = h.handed := by
  unfold unwind
  cases h.holding.innermost? <;> rfl

theorem resume_handed (h : Hand) (data : List Int) : (h.resume data).own.handed = none := by
  unfold resume
  simp only
  split
  · rfl
  · rfl
  · cases h.holding.innermost? <;> rfl
  · exact unwind_handed _ _ data
  · rfl
  · rfl
  · rfl
  · rfl

theorem granted_handed (mode : Mode) (h : Hand) (data : List Int) :
    (granted mode h data).own.handed = h.handed := by
  unfold granted
  split <;> rfl

/-- Whoever is let in comes to rest. -/
theorem granted_point (mode : Mode) (h : Hand) (data : List Int) :
    (granted mode h data).point = .outside := by
  unfold granted
  split <;> rfl

theorem released_handed (mode : Mode) (h : Hand) (data : List Int) :
    (released mode h data).own.handed = h.handed := by
  unfold released
  simp only
  split
  · rfl
  · exact unwind_handed _ _ data
  · rfl
  · rfl

end Hand

theorem program_pays : program.Pays Hand.owed (fun _ => []) (fun _ _ _ => True) := by
  have hpays : ∀ (task : Nat) (point : Point) (h : Hand) (data : List Int) (r : React),
      h.owed point = r.own.handed.isSome.toNat + 1 →
      r.Pays Hand.owed (fun _ => []) task point h data := by
    intro task point h data r howed
    constructor
    · rw [Hand.owed_reaction, howed]
      simp only [List.count_nil]
      omega
    · simp
  constructor
  · intro own point other hpoint hother
    rw [Hand.owed_calls own hpoint, Hand.owed_calls own hother]
  · intro task own data _ howed
    have hhanded : own.handed.isSome = true := by
      cases hhanded : own.handed with
      | none => simp [Hand.owed, hhanded] at howed
      | some command => rfl
    apply hpays
    simp [program, Hand.resume_handed, Hand.owed, hhanded]
  · intro task mode point own data hpoint _
    apply hpays
    rw [Hand.owed_calls own hpoint]
    exact congrArg (·.isSome.toNat + 1) (Hand.granted_handed mode own data).symm
  · intro task mode own data _
    apply hpays
    exact congrArg (·.isSome.toNat + 1) (Hand.released_handed mode own data).symm
  · intro task mode own data _
    exact hpays _ _ _ _ _ rfl

theorem hand_booked {s : Script} {m next : State} {name : String} {command? : Option Command}
    (hbooked : m.Booked Hand.owed (fun _ => [])) (hhand : s.hand m name command? = .ok next) :
    next.Booked Hand.owed (fun _ => []) := by
  obtain ⟨index, t, command, _, _, htask, _, hhanded, _, rfl⟩ := hand_eq_ok_iff.mp hhand
  intro other
  have hcount := hbooked other
  rw [Machine.owedTo_set htask rfl]
  by_cases hother : other = index
  · subst hother
    rw [Machine.owedTo_eq Hand.owed htask] at hcount
    simp [Machine.turnList, List.count_append] at hcount ⊢
    cases hpoint : t.point <;> simp [Hand.owed, hpoint, hhanded] at hcount ⊢ <;> omega
  · simpa [Machine.turnList, List.count_append, Ne.symm hother, hother] using hcount

/-- Every task has its turns, and one that was handed anything goes by a name of the script. -/
structure Attended (s : Script) (m : State) : Prop where
  booked : m.Booked Hand.owed (fun _ => [])
  parked : m.scene.Parked
  named : ∀ (task : Nat) (t : Task Hand), m.tasks[task]? = some t →
    0 < t.own.owed t.point ∨ t.own.holding.outermostFirst ≠ [] →
    ∃ name, s.names.idxOf? name = some task

namespace Attended

variable {s : Script} {m next : State}

theorem start (s : Script) : Attended s s.start := by
  have hidle : ∀ (task : Nat) (t : Task Hand), s.start.tasks[task]? = some t →
      t = { own := { holding := .empty s.style } } := by
    intro task t htask
    obtain ⟨name, _, rfl⟩ : ∃ name ∈ s.names, _ = t :=
      List.mem_map.mp (List.mem_of_getElem? htask)
    rfl
  constructor
  · intro task
    have hnone : s.start.owedTo Hand.owed task = 0 := by
      cases htask : s.start.tasks[task]? with
      | none => simp only [Machine.owedTo, htask, Option.map_none, Option.getD_none]
      | some t =>
          rw [Machine.owedTo_eq Hand.owed htask, hidle task t htask]
          rfl
    rw [hnone]
    rfl
  · rw [start_scene]
    exact Scene.start_parked _ _
  · intro task t htask hused
    rw [hidle task t htask] at hused
    cases hstyle : s.style <;>
      simp [Hand.owed, hstyle, Holding.empty, Holding.outermostFirst] at hused

theorem hand {name : String} {command? : Option Command} (hm : Attended s m)
    (hhand : s.hand m name command? = .ok next) : Attended s next := by
  refine ⟨hand_booked hm.booked hhand, hand_scene hhand ▸ hm.parked, ?_⟩
  obtain ⟨index, t, command, hindex, _, _, _, _, _, rfl⟩ := hand_eq_ok_iff.mp hhand
  intro other u hu hused
  by_cases hother : index = other
  · exact ⟨name, hother ▸ hindex⟩
  · rw [List.getElem?_set_ne hother] at hu
    exact hm.named other u hu hused

theorem step (hm : Attended s m) (hstep : m.step program = some next) : Attended s next := by
  refine ⟨hm.booked.step program_pays (fun _ _ _ => trivial) hstep,
    (Machine.run_step hstep).parked hm.parked, ?_⟩
  rcases Machine.step_cases hstep with
    ⟨_, c, _, rfl⟩ | ⟨_, _, _, rfl⟩ | ⟨task, t, hrunning, htask, rfl⟩
  · exact hm.named
  · exact hm.named
  · intro other u hu hused
    by_cases hother : other = task
    · subst hother
      exact hm.named other t htask (.inl (hm.booked.lt_owed hrunning htask))
    · rw [Machine.act_tasks_of_ne program m t hother] at hu
      exact hm.named other u hu hused

end Attended

variable {s : Script} {m : State}

theorem Reaches.attended (hm : s.Reaches m) : Attended s m := by
  refine hm.keeps ?_ ?_ (Attended.start s) ?_
  · intro m next name command? hm hhand
    exact hm.hand hhand
  · intro m next name hm hwake
    obtain ⟨index, hcontains, rfl⟩ := wake_cases hwake
    exact ⟨hm.booked.wake hm.parked hcontains, hm.parked.move (.wake m.scene index), hm.named⟩
  · intro m next hm hstep
    exact hm.step hstep

/-! ## Between two steps -/

/-- Whoever does not wait has nothing to do. -/
theorem after_free (s : Script) (steps : List Step) {task : Nat} {t : Task Hand}
    (htask : (s.after steps).tasks[task]? = some t)
    (hfree : (s.after steps).waiters.contains task = false) :
    t.point = .outside ∧ t.own.handed = none := by
  have hbooked := (s.reaches_after steps).attended.booked
  have hnone : ¬ 0 < t.own.owed t.point := by
    intro howed
    have hcontains := hbooked.contains_of_rest (s.after_rest steps) htask howed
    rw [hfree] at hcontains
    contradiction
  cases hpoint : t.point with
  | outside =>
      refine ⟨rfl, ?_⟩
      cases hhanded : t.own.handed with
      | none => rfl
      | some command => simp [hpoint, Hand.owed, hhanded] at hnone
  | _ => simp [hpoint, Hand.owed] at hnone

theorem after_waits (s : Script) (steps : List Step) {task : Nat}
    (hparked : (s.after steps).waiters.contains task = true) :
    ∃ wait, (s.after steps).scene.At task (.waiting wait) := by
  obtain ⟨channel, hmem⟩ := Waiters.contains_iff.mp hparked
  obtain ⟨wait, hat, _⟩ := (s.reaches_after steps).parked channel task hmem
  exact ⟨wait, hat⟩

/-- Whoever stands in a call that waits is parked, and its condition does not hold. -/
theorem after_parked (s : Script) (steps : List Step) {task : Nat} {wait : Wait}
    (hat : (s.after steps).scene.At task (.waiting wait)) :
    (s.after steps).waiters.contains task = true ∧ (s.after steps).lock.Blocks wait := by
  obtain ⟨t, htask, hpoint⟩ : ∃ t, (s.after steps).tasks[task]? = some t ∧
      t.point = .waiting wait := by
    simpa [Scene.At, Machine.scene] using hat
  have hcontains : (s.after steps).waiters.contains task = true := by
    by_contra hnot
    have hfree := (s.after_free steps htask (Bool.eq_false_of_not_eq_true hnot)).1
    rw [hpoint] at hfree
    contradiction
  obtain ⟨channel, hmem⟩ := Waiters.contains_iff.mp hcontains
  obtain ⟨same, hsame, _, hblocks⟩ := (s.reaches_after steps).parked channel task hmem
  have hwait : same = wait := by simpa using hsame.symm.trans hat
  exact ⟨hcontains, hwait ▸ hblocks⟩

/-- Whoever does not wait in vain has nothing to do. -/
theorem after_cases (s : Script) (steps : List Step) {task : Nat} {t : Task Hand}
    (htask : (s.after steps).tasks[task]? = some t) :
    (t.point = .outside ∧ t.own.handed = none) ∨
      ∃ wait, t.point = .waiting wait ∧ (s.after steps).lock.Blocks wait := by
  cases hparked : (s.after steps).waiters.contains task with
  | false => exact .inl (s.after_free steps htask hparked)
  | true =>
      rcases s.after_waits steps hparked with ⟨wait, hat⟩
      have hpoint := Option.some.inj ((Machine.scene_at htask).symm.trans hat)
      exact .inr ⟨wait, hpoint, (s.after_parked steps hat).2⟩

/-- While orders are given out nobody is about to begin an admission section. -/
theorem Ordered.not_before (hm : s.Ordered m) (task : Nat) (call : Call) :
    ¬ m.scene.At task (.before call) := by
  obtain ⟨steps, step, rfl⟩ := hm
  refine giveOut_keeps (P := fun m => ¬ m.scene.At task (.before call)) ?_ ?_ ?_ step
  · intro m next name command? hm hhand
    rw [hand_scene hhand]
    exact hm
  · intro m next name hm hwake
    obtain ⟨index, _, rfl⟩ := wake_cases hwake
    exact hm
  · intro hat
    obtain ⟨t, htask, hpoint⟩ : ∃ t, (s.after steps).tasks[task]? = some t ∧
        t.point = .before call := by
      simpa [Scene.At, Machine.scene] using hat
    rcases s.after_cases steps htask with ⟨houtside, _⟩ | ⟨wait, hwaits, _⟩
    · rw [hpoint] at houtside
      cases houtside
    · rw [hpoint] at hwaits
      cases hwaits

theorem after_stuck (s : Script) (steps : List Step) : (s.after steps).scene.Stuck :=
  fun _ _ hat => (s.after_parked steps hat).2

end ReaderWriter.Script
