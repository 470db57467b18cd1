import Mathlib.Logic.Relation
import ReaderWriter.Proofs.Congruence
import ReaderWriter.Proofs.Rest

/-!
# A machine without its schedule

The core of a machine is what is left without its schedule: who runs, who is ready or parked and in
which order, the picks, and the turns in the log.  What a task does when it goes on depends on the
core alone.

A task idles if the core stays the same when it goes on.  Where all tasks idle but one, the schedule
only decides when that one goes on.  So two machines with the same core take the same course if this
is so all along, except that idle tasks may take turns in between.
-/

namespace ReaderWriter

variable {σ δ ε : Type}

/-- The event is more than a turn. -/
def Event.happens : Event ε → Bool
  | turn _ => false
  | _ => true

namespace Machine

variable {m next other : Machine σ δ ε} {p : Program σ δ ε} {task : Nat} {t : Task σ}

def core (m : Machine σ δ ε) : Machine σ δ ε where
  lock := m.lock
  shared := m.shared
  tasks := m.tasks
  history := m.history.filter Event.happens

/-- The machines have the same core. -/
structure SameCore (m other : Machine σ δ ε) : Prop where
  lock : m.lock = other.lock
  shared : m.shared = other.shared
  tasks : m.tasks = other.tasks
  history : m.history.filter Event.happens = other.history.filter Event.happens

namespace SameCore

theorem refl (m : Machine σ δ ε) : SameCore m m := ⟨rfl, rfl, rfl, rfl⟩

theorem symm (hsame : SameCore m other) : SameCore other m :=
  ⟨hsame.lock.symm, hsame.shared.symm, hsame.tasks.symm, hsame.history.symm⟩

theorem trans (hfirst : SameCore m next) (hsecond : SameCore next other) : SameCore m other :=
  ⟨hfirst.lock.trans hsecond.lock, hfirst.shared.trans hsecond.shared,
    hfirst.tasks.trans hsecond.tasks, hfirst.history.trans hsecond.history⟩

theorem core (m : Machine σ δ ε) : SameCore m m.core :=
  ⟨rfl, rfl, rfl, by simp [Machine.core]⟩

theorem iff_core_eq : SameCore m other ↔ m.core = other.core := by
  constructor
  · intro hsame
    simp only [Machine.core, hsame.lock, hsame.shared, hsame.tasks, hsame.history]
  · intro hsame
    have hcore := core m
    rw [hsame] at hcore
    exact hcore.trans (core other).symm

/-- With or without letting the others run first. -/
theorem approach (m : Machine σ δ ε) (task : Nat) (own : σ) (call : Call) :
    SameCore (m.approach task own call)
      { m with tasks := m.tasks.set task { point := .before call, own } } := by
  unfold Machine.approach
  cases m.preempt <;> exact ⟨rfl, rfl, rfl, rfl⟩

theorem congruence : Congruence id (SameCore : Machine σ δ ε → Machine σ δ ε → Prop) := by
  have hset : ∀ {m other : Machine σ δ ε} (task : Nat) (t : Task σ), SameCore m other →
      m.tasks.set task t = other.tasks.set task t := by
    intro m other task t hsame
    rw [hsame.tasks]
  constructor
  case same_lock => exact fun hsame => hsame.lock
  case same_shared => exact fun hsame => hsame.shared
  case with_lock => exact fun lock hsame => ⟨rfl, hsame.shared, hsame.tasks, hsame.history⟩
  case with_shared => exact fun shared hsame => ⟨hsame.lock, rfl, hsame.tasks, hsame.history⟩
  case record =>
    intro m other events hsame
    refine ⟨hsame.lock, hsame.shared, hsame.tasks, ?_⟩
    simp only [Machine.record, Event.map_rename_id, List.filter_append, hsame.history]
  case notify => exact fun channel hsame => ⟨hsame.lock, hsame.shared, hsame.tasks, hsame.history⟩
  case rest =>
    exact fun task own hsame => ⟨hsame.lock, hsame.shared, hset task _ hsame, hsame.history⟩
  case approach =>
    intro m other task own call hsame
    refine (approach m task own call).trans (.trans ?_ (approach other task own call).symm)
    exact ⟨hsame.lock, hsame.shared, hset task _ hsame, hsame.history⟩
  case park =>
    exact fun task own wait hsame => ⟨hsame.lock, hsame.shared, hset task _ hsame, hsame.history⟩

theorem act (p : Program σ δ ε) (hsame : SameCore m other) (task : Nat) (t : Task σ) :
    SameCore (m.act p task t) (other.act p task t) :=
  congruence.act p task t hsame

end SameCore

/-! ## Idle tasks -/

/-- The core stays the same when the task goes on. -/
def Idles (p : Program σ δ ε) (m : Machine σ δ ε) (task : Nat) (t : Task σ) : Prop :=
  SameCore (m.act p task t) m

theorem SameCore.idles_iff (hsame : SameCore m other) : m.Idles p task t ↔ other.Idles p task t := by
  constructor
  · intro hidles
    exact ((hsame.act p task t).symm.trans hidles).trans hsame
  · intro hidles
    exact ((hsame.act p task t).trans hidles).trans hsame.symm

/-- Whoever looks at a condition that does not hold waits as before. -/
theorem idles_of_blocks (htask : m.tasks[task]? = some t) {wait : Wait}
    (hpoint : t.point = .waiting wait) (hblocks : m.lock.Blocks wait) : m.Idles p task t := by
  rcases t with ⟨point, own⟩
  obtain rfl : point = .waiting wait := hpoint
  rcases List.getElem?_eq_some_iff.mp htask with ⟨hlt, hget⟩
  have hact : m.act p task { point := .waiting wait, own } = m.park task own wait := by
    simp only [act, Lock.recheck_of_blocks hblocks]
    rfl
  unfold Idles
  rw [hact]
  refine ⟨rfl, rfl, ?_, rfl⟩
  change m.tasks.set task { point := .waiting wait, own } = m.tasks
  rw [← hget, List.set_getElem_self]

/-- Every other task idles. -/
def IdleBut (p : Program σ δ ε) (m : Machine σ δ ε) (mover : Nat) : Prop :=
  ∀ other t, m.tasks[other]? = some t → other ≠ mover → m.Idles p other t

/-- The one task that does not idle goes on. -/
def Advances (p : Program σ δ ε) (m next : Machine σ δ ε) : Prop :=
  ∃ task t, m.tasks[task]? = some t ∧ ¬ m.Idles p task t ∧ m.IdleBut p task ∧
    next = (m.act p task t).core

theorem advances_rightUnique (p : Program σ δ ε) : Relator.RightUnique (Advances p) := by
  rintro m next other ⟨task, t, htask, hbusy, hbut, rfl⟩ ⟨second, u, hsecond, hbusy', hbut', rfl⟩
  obtain rfl : task = second := by
    by_contra hne
    exact hbusy (hbut' task t htask hne)
  obtain rfl : t = u := Option.some.inj (htask.symm.trans hsecond)
  rfl

/-- A step leaves the core as it is, or the one task that does not idle goes on. -/
theorem step_core {mover : Nat} (hbut : m.IdleBut p mover) (hstep : m.step p = some next) :
    next.core = m.core ∨ Advances p m.core next.core := by
  rcases step_cases hstep with
    ⟨_, c, _, rfl⟩ | ⟨_, _, _, rfl⟩ | ⟨task, t, _, htask, rfl⟩
  · exact .inl (SameCore.iff_core_eq.mp ⟨rfl, rfl, rfl, by simp [begin, record, Event.happens]⟩)
  · exact .inl rfl
  · have hcore := SameCore.core m
    by_cases hidles : m.Idles p task t
    · exact .inl (SameCore.iff_core_eq.mp hidles)
    · obtain rfl : task = mover := by
        by_contra hne
        exact hidles (hbut task t htask hne)
      refine .inr ⟨task, t, htask, ?_, ?_, SameCore.iff_core_eq.mp (hcore.act p task t)⟩
      · rwa [← hcore.idles_iff]
      · intro other u hother hne
        rw [← hcore.idles_iff]
        exact hbut other u hother hne

open Relation in
/-- While all tasks but one idle, the machine follows the one course that its core has. -/
theorem iterate_core {P : Machine σ δ ε → Prop} (hbut : ∀ m, P m → ∃ mover, m.IdleBut p mover)
    (hkeeps : ∀ m next, P m → m.step p = some next → P next) (hm : P m) (moves : Nat) :
    ReflTransGen (Advances p) m.core (iterate (step p) moves m).core := by
  induction moves generalizing m with
  | zero => exact .refl
  | succ moves ih =>
      cases hstep : m.step p with
      | none =>
          simp only [iterate, hstep]
          exact .refl
      | some next =>
          rcases hbut m hm with ⟨mover, hmover⟩
          have hrest := ih (hkeeps m next hm hstep)
          simp only [iterate, hstep]
          rcases step_core hmover hstep with hsame | hadvances
          · rw [← hsame]
            exact hrest
          · exact hrest.head hadvances

theorem not_advances (hidle : ∀ task t, m.tasks[task]? = some t → m.Idles p task t) :
    ¬ Advances p m.core next := by
  rintro ⟨task, t, htask, hbusy, _⟩
  exact hbusy ((SameCore.core m).idles_iff.mp (hidle task t htask))

open Relation in
/-- Where all tasks idle the course is at its end. -/
theorem core_eq_of_idle {start : Machine σ δ ε} (hm : ReflTransGen (Advances p) start m.core)
    (hother : ReflTransGen (Advances p) start other.core)
    (hidle : ∀ task t, m.tasks[task]? = some t → m.Idles p task t)
    (hends : ∀ task t, other.tasks[task]? = some t → other.Idles p task t) :
    m.core = other.core := by
  rcases hm.total_of_right_unique (advances_rightUnique p) hother with hon | hback
  · rcases hon.cases_head with hsame | ⟨next, hadvances, _⟩
    · exact hsame
    · exact absurd hadvances (not_advances hidle)
  · rcases hback.cases_head with hsame | ⟨next, hadvances, _⟩
    · exact hsame.symm
    · exact absurd hadvances (not_advances hends)

end Machine

end ReaderWriter
