import Mathlib.Algebra.BigOperators.Group.Finset.Piecewise
import Mathlib.Algebra.Order.BigOperators.Group.Finset
import Mathlib.Algebra.Order.Ring.Nat
import ReaderWriter.Proofs.Scene

/-!
# The accesses that are held

The fields of a lock say how many readers are inside and whether the resource is taken, and not by
whom.  The history says which accesses were granted and which were given back.  The two agree in
every scene, even if tasks give back what others took: the number of readers is the number of
shared accesses that were granted and not given back, and the resource is taken without a reader
inside exactly when there is one such exclusive access.

It follows that an access that is held can be given back, and that a lock is idle, read by a group
or written by one, and goes from one of these phases only to a neighbouring one.
-/

namespace ReaderWriter

variable {σ δ ε : Type}

/-! ## Counting grants and returns -/

namespace Event

def grants (mode : Mode) : Event ε → Bool
  | .granted _ other => other = mode
  | _ => false

def returns (mode : Mode) : Event ε → Bool
  | .released _ other => other = mode
  | _ => false

def grantsTo (task : Nat) (mode : Mode) : Event ε → Bool
  | .granted other otherMode => other = task ∧ otherMode = mode
  | _ => false

def returnsFrom (task : Nat) (mode : Mode) : Event ε → Bool
  | .released other otherMode => other = task ∧ otherMode = mode
  | _ => false

theorem task_of_traced {traces : List Trace} {task : Nat} {event : Event ε}
    (hevent : event ∈ (traces.map (.traced task)).reverse) : event.task = task := by
  obtain ⟨trace, _, rfl⟩ : ∃ trace ∈ traces, .traced task trace = event := by simpa using hevent
  rfl

@[simp] theorem grants_comp_traced (task : Nat) (mode : Mode) :
    (grants mode : Event ε → Bool) ∘ traced task = fun _ => false := rfl

@[simp] theorem returns_comp_traced (task : Nat) (mode : Mode) :
    (returns mode : Event ε → Bool) ∘ traced task = fun _ => false := rfl

@[simp] theorem grantsTo_comp_traced (other task : Nat) (mode : Mode) :
    (grantsTo task mode : Event ε → Bool) ∘ traced other = fun _ => false := rfl

@[simp] theorem returnsFrom_comp_traced (other task : Nat) (mode : Mode) :
    (returnsFrom task mode : Event ε → Bool) ∘ traced other = fun _ => false := rfl

end Event

/-- The accesses of a kind that were granted to a task and that it has not given back. -/
def held (history : List (Event ε)) (task : Nat) (mode : Mode) : Nat :=
  history.countP (Event.grantsTo task mode) - history.countP (Event.returnsFrom task mode)

/-! ## The lock against its history -/

/-- The number of writers inside, which is zero or one. -/
def Lock.writersInside (l : Lock) : Nat :=
  if l.exclusive = true ∧ l.activeReaders = 0 then 1 else 0

namespace Lock

theorem writersInside_of_readers {l : Lock} (hreaders : 0 < l.activeReaders) :
    l.writersInside = 0 := by
  simp only [writersInside]
  rw [if_neg (fun hinside => by omega)]

theorem writersInside_of_free {l : Lock} (hfree : l.exclusive = false) : l.writersInside = 0 := by
  simp [writersInside, hfree]

theorem writersInside_of_writer {l : Lock} (htaken : l.exclusive = true)
    (hempty : l.activeReaders = 0) : l.writersInside = 1 := by
  simp [writersInside, htaken, hempty]

theorem writersInside_pos_iff {l : Lock} :
    0 < l.writersInside ↔ l.exclusive = true ∧ l.activeReaders = 0 := by
  unfold writersInside
  split
  · exact iff_of_true Nat.one_pos ‹_›
  · exact iff_of_false (Nat.lt_irrefl 0) ‹_›

theorem writersInside_le_one (l : Lock) : l.writersInside ≤ 1 := by
  simp only [writersInside]
  split <;> omega

end Lock

structure Scene.Accounts (s : Scene ε) : Prop where
  readers :
    s.lock.activeReaders + s.history.countP (Event.returns .shared) =
      s.history.countP (Event.grants .shared)
  writers :
    s.lock.writersInside + s.history.countP (Event.returns .exclusive) =
      s.history.countP (Event.grants .exclusive)
  /-- A group of readers has taken the resource. -/
  group : 0 < s.lock.activeReaders → s.lock.exclusive = true

namespace Lock

@[simp] theorem arrive_activeReaders (l : Lock) (mode : Mode) :
    (l.arrive mode).lock.activeReaders = l.activeReaders := by
  rcases l.arrive_lock_cases mode with hlock | hlock | hlock <;> rw [hlock] <;> rfl

@[simp] theorem arrive_exclusive (l : Lock) (mode : Mode) :
    (l.arrive mode).lock.exclusive = l.exclusive := by
  rcases l.arrive_lock_cases mode with hlock | hlock | hlock <;> rw [hlock] <;> rfl

end Lock

namespace Scene

theorem start_accounts (policy : Policy) (tasks : Nat) :
    (start policy tasks : Scene ε).Accounts := by
  constructor <;> simp [start, Lock.new, Lock.writersInside]

theorem Accounts.empty_of_free {s : Scene ε} (haccounts : s.Accounts)
    (hfree : s.lock.exclusive = false) : s.lock.activeReaders = 0 := by
  by_contra hsome
  have htaken := haccounts.group (Nat.pos_of_ne_zero hsome)
  rw [hfree] at htaken
  contradiction

/-- Writers come in by a grant. -/
theorem Accounts.writersInside_le {s later : Scene ε} (hs : s.Accounts) (hlater : later.Accounts)
    {events : List (Event ε)} (hhistory : later.history = events ++ s.history)
    (hnone : ∀ task, .granted task .exclusive ∉ events) :
    later.lock.writersInside ≤ s.lock.writersInside := by
  have hgrants : events.countP (Event.grants .exclusive) = 0 := by
    rw [List.countP_eq_zero]
    intro event hmem hgranted
    cases event with
    | granted task mode =>
        obtain rfl : mode = .exclusive := by simpa [Event.grants] using hgranted
        exact hnone task hmem
    | _ => simp [Event.grants] at hgranted
  have hbefore := hs.writers
  have hafter := hlater.writers
  rw [hhistory, List.countP_append, List.countP_append, hgrants] at hafter
  omega

/-- Only an entry or a departure changes who is inside. -/
theorem Accounts.congr {s next : Scene ε} (haccounts : s.Accounts)
    (hreaders : next.lock.activeReaders = s.lock.activeReaders)
    (hexclusive : next.lock.exclusive = s.lock.exclusive)
    (hgrants : ∀ mode, next.history.countP (Event.grants mode) =
      s.history.countP (Event.grants mode))
    (hreturns : ∀ mode, next.history.countP (Event.returns mode) =
      s.history.countP (Event.returns mode)) : next.Accounts := by
  constructor
  · rw [hreaders, hgrants, hreturns]
    exact haccounts.readers
  · simp only [Lock.writersInside, hreaders, hexclusive, hgrants, hreturns]
    exact haccounts.writers
  · rw [hreaders, hexclusive]
    exact haccounts.group

theorem Accounts.afterEnter {s : Scene ε} (haccounts : s.Accounts) {task : Nat} {wait : Wait}
    (points : List Point) (hchannel : wait.channel = .released)
    (henters : ¬ s.lock.Blocks wait) :
    ({ s with
      lock := s.lock.enter wait.mode
      points
      history := .granted task wait.mode ::
        ((wait.admission.map (.traced task)).reverse ++ s.history) } : Scene ε).Accounts := by
  have hreaders := haccounts.readers
  have hwriters := haccounts.writers
  cases hmode : wait.mode with
  | shared =>
      have hfree := Lock.not_blocks_shared hchannel hmode henters
      have hnone : s.lock.writersInside = 0 := by
        simp only [Lock.writersInside]
        rw [if_neg (fun hinside => hfree ⟨hinside.2, hinside.1⟩)]
      have hgroup : (s.lock.enter .shared).writersInside = 0 :=
        Lock.writersInside_of_readers (Nat.succ_pos _)
      constructor
      · simp [Lock.enter, Event.grants, Event.returns]
        omega
      · simp [hgroup, Event.grants, Event.returns]
        omega
      · intro _
        cases hexclusive : s.lock.exclusive with
        | true => simp [Lock.enter, hexclusive]
        | false => simp [Lock.enter, haccounts.empty_of_free hexclusive]
  | exclusive =>
      have hfree := Lock.not_blocks_exclusive hmode henters
      have hempty := haccounts.empty_of_free hfree
      have hnone : s.lock.writersInside = 0 := Lock.writersInside_of_free hfree
      have hone : (s.lock.enter .exclusive).writersInside = 1 :=
        Lock.writersInside_of_writer rfl hempty
      constructor
      · simp [Lock.enter, Event.grants, Event.returns]
        omega
      · simp [hone, Event.grants, Event.returns]
        omega
      · simp [Lock.enter]

theorem Accounts.afterLeave {s : Scene ε} (haccounts : s.Accounts) {task : Nat} {mode : Mode}
    {r : Release} (points : List Point) (waiters : Waiters)
    (hrelease : s.lock.release? mode = some r) :
    ({ lock := r.lock
       points
       waiters
       history := .released task mode ::
         ((r.traces.map (.traced task)).reverse ++ s.history) } : Scene ε).Accounts := by
  have hreaders := haccounts.readers
  have hwriters := haccounts.writers
  cases mode with
  | shared =>
      have hsome : 0 < s.lock.activeReaders := by
        rcases Lock.release?_shared_cases hrelease with ⟨hlast, _⟩ | ⟨hmany, _⟩ <;> omega
      have hnone : s.lock.writersInside = 0 := Lock.writersInside_of_readers hsome
      rcases Lock.release?_shared_cases hrelease with ⟨hlast, rfl⟩ | ⟨hmany, rfl⟩
      · constructor
        · simp [Event.grants, Event.returns]
          omega
        · simp [Lock.writersInside_of_free, Event.grants, Event.returns]
          omega
        · simp
      · have hrest : 0 < s.lock.activeReaders - 1 := by omega
        constructor
        · simp [Event.grants, Event.returns]
          omega
        · simp [Lock.writersInside_of_readers, hrest, Event.grants, Event.returns]
          omega
        · intro _
          exact haccounts.group hsome
  | exclusive =>
      obtain ⟨⟨htaken, hempty⟩, hcases⟩ := Lock.release?_exclusive_cases hrelease
      have hone : s.lock.writersInside = 1 := Lock.writersInside_of_writer htaken hempty
      rcases hcases with ⟨_, rfl⟩ | ⟨_, rfl⟩
      · constructor
        · simp [Event.grants, Event.returns]
          omega
        · simp [Lock.writersInside_of_free, Event.grants, Event.returns]
          omega
        · simp [hempty]
      · constructor
        · simp [Event.grants, Event.returns]
          omega
        · simp [Lock.writersInside_of_free, Event.grants, Event.returns]
          omega
        · simp [hempty]

theorem Accounts.move {s next : Scene ε} (hmove : Move s next) (haccounts : s.Accounts) :
    next.Accounts := by
  cases hmove with
  | turn task => exact haccounts.congr rfl rfl (by simp [Event.grants]) (by simp [Event.returns])
  | note task note =>
      exact haccounts.congr rfl rfl (by simp [Event.grants]) (by simp [Event.returns])
  | approach call hat => exact haccounts.congr rfl rfl (fun _ => rfl) (fun _ => rfl)
  | arrive hat =>
      exact haccounts.congr (by simp) (by simp) (by simp [Event.grants]) (by simp [Event.returns])
  | park hat hblocks => exact haccounts.congr rfl rfl (fun _ => rfl) (fun _ => rfl)
  | pass hat hdone => exact haccounts.congr rfl rfl (fun _ => rfl) (fun _ => rfl)
  | enter hat hchannel henters => exact haccounts.afterEnter _ hchannel henters
  | leave hat hrelease => exact haccounts.afterLeave _ _ hrelease
  | misuse hat hrelease =>
      exact haccounts.congr rfl rfl (by simp [Event.grants]) (by simp [Event.returns])
  | wake task => exact haccounts.congr rfl rfl (fun _ => rfl) (fun _ => rfl)

theorem Run.accounts {s last : Scene ε} (hrun : Run s last) (haccounts : s.Accounts) :
    last.Accounts :=
  hrun.keeps Accounts.move haccounts

/-! ## Task by task -/

/-- Only tasks of the scene were granted an access or gave one back. -/
def Attributed (s : Scene ε) : Prop :=
  ∀ task mode, (.granted task mode ∈ s.history ∨ .released task mode ∈ s.history) →
    task < s.points.length

theorem At.lt {s : Scene ε} {task : Nat} {point : Point} (hat : s.At task point) :
    task < s.points.length :=
  (List.getElem?_eq_some_iff.mp hat).1

theorem start_attributed (policy : Policy) (tasks : Nat) :
    (start policy tasks : Scene ε).Attributed := by
  intro task mode hevent
  simp [start] at hevent

theorem Attributed.move {s next : Scene ε} (hmove : Move s next) (hattributed : s.Attributed) :
    next.Attributed := by
  intro other mode hevent
  have hold := hattributed other mode
  cases hmove with
  | turn task => exact hold (by simpa using hevent)
  | note task note => exact hold (by simpa using hevent)
  | approach call hat => simpa using hold hevent
  | arrive hat => simpa using hold (by simpa using hevent)
  | park hat hblocks => exact hold hevent
  | pass hat hdone => simpa using hold hevent
  | enter hat hchannel henters =>
      have hlt := hat.lt
      simp at hevent ⊢
      rcases hevent with (⟨rfl, _⟩ | hgranted) | hreleased
      · exact hlt
      · exact hold (.inl hgranted)
      · exact hold (.inr hreleased)
  | leave hat hrelease =>
      have hlt := hat.lt
      simp at hevent ⊢
      rcases hevent with hgranted | ⟨rfl, _⟩ | hreleased
      · exact hold (.inl hgranted)
      · exact hlt
      · exact hold (.inr hreleased)
  | misuse hat hrelease => simpa using hold (by simpa using hevent)
  | wake task => exact hold hevent

theorem Run.attributed {s last : Scene ε} (hrun : Run s last) (hattributed : s.Attributed) :
    last.Attributed :=
  hrun.keeps Attributed.move hattributed

end Scene

/-- A count splits into the counts of the parts that each element belongs to at most one of. -/
theorem sum_countP {α : Type} {n : Nat} {l : List α} {part : Nat → α → Bool} {whole : α → Bool}
    (hsplit : ∀ a ∈ l,
      ∑ i ∈ Finset.range n, (if part i a then 1 else 0) = if whole a then 1 else 0) :
    ∑ i ∈ Finset.range n, l.countP (part i) = l.countP whole := by
  induction l with
  | nil => simp
  | cons a l ih =>
      have hhead := hsplit a (by simp)
      have htail := ih (fun b hb => hsplit b (by simp [hb]))
      simp only [List.countP_cons]
      rw [Finset.sum_add_distrib, htail, hhead]

theorem sum_map_eq_sum_range {α : Type} {f : α → Nat} {g : Nat → Nat} {l : List α}
    (hsame : ∀ i a, l[i]? = some a → f a = g i) :
    (l.map f).sum = ∑ i ∈ Finset.range l.length, g i := by
  induction l generalizing g with
  | nil => rfl
  | cons head l ih =>
      have htail := ih (g := fun i => g (i + 1)) (fun i a ha => hsame (i + 1) a ha)
      rw [List.map_cons, List.sum_cons, htail, hsame 0 head rfl, List.length_cons,
        Finset.sum_range_succ', Nat.add_comm]

namespace Scene

theorem Attributed.sum_grantsTo {s : Scene ε} (hattributed : s.Attributed) (mode : Mode) :
    ∑ task ∈ Finset.range s.points.length, s.history.countP (Event.grantsTo task mode) =
      s.history.countP (Event.grants mode) := by
  apply sum_countP
  intro event hevent
  cases event with
  | granted task other =>
      have hlt := hattributed task other (.inl hevent)
      by_cases hmode : other = mode
      · simp [Event.grantsTo, Event.grants, hmode, hlt]
      · simp [Event.grantsTo, Event.grants, hmode]
  | _ => simp [Event.grantsTo, Event.grants]

theorem Attributed.sum_returnsFrom {s : Scene ε} (hattributed : s.Attributed) (mode : Mode) :
    ∑ task ∈ Finset.range s.points.length, s.history.countP (Event.returnsFrom task mode) =
      s.history.countP (Event.returns mode) := by
  apply sum_countP
  intro event hevent
  cases event with
  | released task other =>
      have hlt := hattributed task other (.inr hevent)
      by_cases hmode : other = mode
      · simp [Event.returnsFrom, Event.returns, hmode, hlt]
      · simp [Event.returnsFrom, Event.returns, hmode]
  | _ => simp [Event.returnsFrom, Event.returns]

theorem Attributed.countP_eq_zero {s : Scene ε} (hattributed : s.Attributed) {task : Nat}
    (htask : s.points.length ≤ task) (mode : Mode) :
    s.history.countP (Event.grantsTo task mode) = 0 ∧
      s.history.countP (Event.returnsFrom task mode) = 0 := by
  rw [List.countP_eq_zero, List.countP_eq_zero]
  constructor
  · intro event hevent hgrants
    cases event with
    | granted other otherMode =>
        have hlt := hattributed other otherMode (.inl hevent)
        have hother : other = task := (by simpa [Event.grantsTo] using hgrants : _ ∧ _).1
        omega
    | _ => simp [Event.grantsTo] at hgrants
  · intro event hevent hreturns
    cases event with
    | released other otherMode =>
        have hlt := hattributed other otherMode (.inr hevent)
        have hother : other = task := (by simpa [Event.returnsFrom] using hreturns : _ ∧ _).1
        omega
    | _ => simp [Event.returnsFrom] at hreturns

/-- What the tasks hold together is what the lock says. -/
theorem Accounts.sum_held {s : Scene ε} (haccounts : s.Accounts) (hattributed : s.Attributed)
    (howned : ∀ task mode, s.history.countP (Event.returnsFrom task mode) ≤
      s.history.countP (Event.grantsTo task mode)) :
    ∑ task ∈ Finset.range s.points.length, held s.history task .shared = s.lock.activeReaders ∧
    ∑ task ∈ Finset.range s.points.length, held s.history task .exclusive =
      s.lock.writersInside := by
  have hsplit : ∀ mode,
      (∑ task ∈ Finset.range s.points.length, held s.history task mode) +
        s.history.countP (Event.returns mode) = s.history.countP (Event.grants mode) := by
    intro mode
    rw [← hattributed.sum_grantsTo, ← hattributed.sum_returnsFrom, ← Finset.sum_add_distrib]
    apply Finset.sum_congr rfl
    intro task _
    exact Nat.sub_add_cancel (howned task mode)
  have hreaders := haccounts.readers
  have hwriters := haccounts.writers
  have hshared := hsplit .shared
  have hexclusive := hsplit .exclusive
  omega

theorem Attributed.lt_of_held {s : Scene ε} (hattributed : s.Attributed) {task : Nat} {mode : Mode}
    (hheld : 0 < held s.history task mode) : task < s.points.length := by
  by_contra hnot
  have hnone := (hattributed.countP_eq_zero (Nat.not_lt.mp hnot) mode).1
  unfold held at hheld
  omega

section Held

variable {s : Scene ε} (haccounts : s.Accounts) (hattributed : s.Attributed)
  (howned : ∀ task mode, s.history.countP (Event.returnsFrom task mode) ≤
    s.history.countP (Event.grantsTo task mode))
include haccounts hattributed howned

/-- What a task holds is part of what the lock counts. -/
theorem Accounts.held_le (task : Nat) :
    held s.history task .shared ≤ s.lock.activeReaders ∧
      held s.history task .exclusive ≤ s.lock.writersInside := by
  have hle : ∀ mode, held s.history task mode ≤
      ∑ other ∈ Finset.range s.points.length, held s.history other mode := by
    intro mode
    by_cases hheld : 0 < held s.history task mode
    · have hmem := Finset.mem_range.mpr (hattributed.lt_of_held hheld)
      exact Finset.single_le_sum (f := fun other => held s.history other mode)
        (fun _ _ => Nat.zero_le _) hmem
    · omega
  obtain ⟨hshared, hexclusive⟩ := haccounts.sum_held hattributed howned
  have hreaders := hle .shared
  have hwriters := hle .exclusive
  omega

theorem Accounts.release?_isSome {task : Nat} {mode : Mode}
    (hheld : 0 < held s.history task mode) : (s.lock.release? mode).isSome := by
  obtain ⟨hreaders, hwriters⟩ := haccounts.held_le hattributed howned task
  cases mode with
  | shared =>
      have hsome : s.lock.activeReaders ≠ 0 := by omega
      unfold Lock.release? Lock.releaseShared?
      simp only [if_neg hsome]
      split <;> rfl
  | exclusive =>
      have hinside : s.lock.exclusive = true ∧ s.lock.activeReaders = 0 := by
        by_contra hnot
        have hnone : s.lock.writersInside = 0 := if_neg hnot
        omega
      unfold Lock.release? Lock.releaseExclusive?
      simp only [if_pos hinside]
      split <;> rfl

theorem Accounts.exists_held_of_taken (htaken : s.lock.exclusive = true) :
    ∃ task mode, 0 < held s.history task mode := by
  obtain ⟨hshared, hexclusive⟩ := haccounts.sum_held hattributed howned
  have hsome : ∀ mode, 0 < ∑ task ∈ Finset.range s.points.length, held s.history task mode →
      ∃ task mode, 0 < held s.history task mode := by
    intro mode hpos
    obtain ⟨task, _, hheld⟩ := Finset.exists_ne_zero_of_sum_ne_zero (Nat.ne_of_gt hpos)
    exact ⟨task, mode, Nat.pos_of_ne_zero hheld⟩
  by_cases hreaders : s.lock.activeReaders = 0
  · have hinside := Lock.writersInside_of_writer htaken hreaders
    exact hsome .exclusive (by omega)
  · exact hsome .shared (by omega)

end Held

end Scene

/-! ## Phases -/

inductive Phase where
  | idle
  | reading (readers : Nat)
  | writing
  deriving DecidableEq, Repr

def Lock.phase (l : Lock) : Phase :=
  if l.activeReaders = 0 then if l.exclusive then .writing else .idle
  else .reading l.activeReaders

/-- One access begins or ends. -/
inductive Phase.Step : Phase → Phase → Prop
  | firstReader : Step .idle (.reading 1)
  | nextReader (readers : Nat) : 0 < readers → Step (.reading readers) (.reading (readers + 1))
  | oneReaderLess (readers : Nat) : 0 < readers → Step (.reading (readers + 1)) (.reading readers)
  | lastReader : Step (.reading 1) .idle
  | writerEnters : Step .idle .writing
  | writerLeaves : Step .writing .idle

def Phase.readers : Phase → Nat
  | .reading readers => readers
  | _ => 0

theorem Phase.Step.readers_le {before after : Phase} (hstep : Phase.Step before after) :
    after.readers ≤ before.readers + 1 := by
  cases hstep <;> simp only [readers] <;> omega

namespace Lock

theorem phase_readers (l : Lock) : l.phase.readers = l.activeReaders := by
  unfold phase Phase.readers
  by_cases hempty : l.activeReaders = 0
  · cases l.exclusive <;> simp [hempty]
  · simp [hempty]

theorem phase_of_readers {l : Lock} (hreaders : 0 < l.activeReaders) :
    l.phase = .reading l.activeReaders := by
  simp only [phase]
  rw [if_neg (by omega)]

theorem phase_of_free {l : Lock} (hempty : l.activeReaders = 0) (hfree : l.exclusive = false) :
    l.phase = .idle := by
  simp [phase, hempty, hfree]

theorem phase_of_writer {l : Lock} (hempty : l.activeReaders = 0) (htaken : l.exclusive = true) :
    l.phase = .writing := by
  simp [phase, hempty, htaken]

theorem phase_congr {l other : Lock} (hreaders : l.activeReaders = other.activeReaders)
    (hexclusive : l.exclusive = other.exclusive) : l.phase = other.phase := by
  simp [phase, hreaders, hexclusive]

variable {l : Lock} (hgroup : 0 < l.activeReaders → l.exclusive = true)
include hgroup

theorem enter_phase {wait : Wait} (hchannel : wait.channel = .released)
    (henters : ¬ l.Blocks wait) : Phase.Step l.phase (l.enter wait.mode).phase := by
  cases hmode : wait.mode with
  | shared =>
      have hfree := not_blocks_shared hchannel hmode henters
      have hafter : (l.enter .shared).phase = .reading (l.activeReaders + 1) :=
        phase_of_readers (Nat.succ_pos _)
      rw [hafter]
      by_cases hempty : l.activeReaders = 0
      · have hidle : l.phase = .idle := phase_of_free hempty (by simpa [hempty] using hfree)
        rw [hidle, hempty]
        exact .firstReader
      · rw [phase_of_readers (Nat.pos_of_ne_zero hempty)]
        exact .nextReader _ (Nat.pos_of_ne_zero hempty)
  | exclusive =>
      have hfree := not_blocks_exclusive hmode henters
      have hempty : l.activeReaders = 0 := by
        by_contra hsome
        simp [hgroup (Nat.pos_of_ne_zero hsome)] at hfree
      have hafter : (l.enter .exclusive).phase = .writing := phase_of_writer hempty rfl
      rw [hafter, phase_of_free hempty hfree]
      exact .writerEnters

theorem recheck_phase (wait : Wait) :
    (l.recheck wait).lock.phase = l.phase ∨ Phase.Step l.phase (l.recheck wait).lock.phase := by
  by_cases hblocks : l.Blocks wait
  · left
    rw [recheck_of_blocks hblocks]
  · by_cases hchannel : wait.channel = .released
    · right
      rw [recheck_of_enters hchannel hblocks]
      exact enter_phase hgroup hchannel hblocks
    · cases wait with
      | groupEntry => exact absurd rfl hchannel
      | writerEntry ticket? => exact absurd rfl hchannel
      | ticketDone ticket =>
          rw [recheck_of_passes (Nat.not_le.mp hblocks)]
          by_cases hpassed : l.pass.Blocks .groupEntry
          · left
            rw [recheck_of_blocks hpassed]
            exact phase_congr rfl rfl
          · right
            rw [recheck_of_enters rfl hpassed]
            exact enter_phase hgroup (rfl : Wait.groupEntry.channel = .released) hpassed

theorem request_phase (mode : Mode) :
    (l.request mode).lock.phase = l.phase ∨ Phase.Step l.phase (l.request mode).lock.phase := by
  have harrived : (l.arrive mode).lock.phase = l.phase := phase_congr (by simp) (by simp)
  have hlook := recheck_phase (l := (l.arrive mode).lock) (by simpa using hgroup)
    (l.arrive mode).wait
  rw [harrived] at hlook
  rw [request_eq_recheck_arrive]
  exact hlook

omit hgroup in
theorem release?_phase {mode : Mode} {r : Release} (hrelease : l.release? mode = some r) :
    Phase.Step l.phase r.lock.phase := by
  cases mode with
  | shared =>
      rcases release?_shared_cases hrelease with ⟨hlast, rfl⟩ | ⟨hmany, rfl⟩
      · rw [phase_of_readers (by omega), hlast]
        exact .lastReader
      · have hrest : 0 < l.activeReaders - 1 := by omega
        have hbefore : l.activeReaders = l.activeReaders - 1 + 1 := by omega
        rw [phase_of_readers (by omega), phase_of_readers hrest]
        nth_rewrite 1 [hbefore]
        exact .oneReaderLess _ hrest
  | exclusive =>
      obtain ⟨⟨htaken, hempty⟩, hcases⟩ := release?_exclusive_cases hrelease
      have hidle : r.lock.phase = .idle := by
        rcases hcases with ⟨_, rfl⟩ | ⟨_, rfl⟩
        · exact phase_of_free hempty rfl
        · exact phase_of_free hempty rfl
      rw [phase_of_writer hempty htaken, hidle]
      exact .writerLeaves

end Lock

namespace Machine

theorem settle_lock (p : Program σ δ ε) (m : Machine σ δ ε) (task : Nat) (own : σ) (mode : Mode)
    (a : Admission) : (m.settle p task own mode a).lock = a.lock := by
  cases hwaits : a.waits <;> simp [settle, hwaits, react_lock, record, park]

/-- A step is at most one admission section. -/
theorem step_lock {p : Program σ δ ε} {m next : Machine σ δ ε} (hstep : m.step p = some next) :
    next.lock = m.lock ∨ (∃ mode, next.lock = (m.lock.request mode).lock) ∨
      (∃ wait, next.lock = (m.lock.recheck wait).lock) ∨
      ∃ mode r, m.lock.release? mode = some r ∧ next.lock = r.lock := by
  rcases step_cases hstep with ⟨_, c, _, rfl⟩ | ⟨_, _, _, rfl⟩ | ⟨task, t, _, htask, rfl⟩
  · exact .inl rfl
  · exact .inl rfl
  · cases hpoint : t.point with
    | outside =>
        left
        simp only [act, hpoint, react_lock]
    | waiting wait =>
        right; right; left
        exact ⟨wait, by simp only [act, hpoint, settle_lock]⟩
    | before call =>
        cases call with
        | acquire mode =>
            right; left
            exact ⟨mode, by simp only [act, hpoint, settle_lock]⟩
        | release mode =>
            cases hrelease : m.lock.release? mode with
            | none =>
                left
                simp only [act, hpoint, giveBack, hrelease, react_lock]
                rfl
            | some r =>
                right; right; right
                refine ⟨mode, r, hrelease, ?_⟩
                simp only [act, hpoint, giveBack, hrelease, react_lock]
                exact congrArg Scene.lock (scene_foldl_notify _ _)

theorem step_phase {p : Program σ δ ε} {m next : Machine σ δ ε}
    (haccounts : m.scene.Accounts) (hstep : m.step p = some next) :
    next.lock.phase = m.lock.phase ∨ Phase.Step m.lock.phase next.lock.phase := by
  have hgroup : 0 < m.lock.activeReaders → m.lock.exclusive = true := haccounts.group
  rcases step_lock hstep with hlock | ⟨mode, hlock⟩ | ⟨wait, hlock⟩ | ⟨mode, r, hrelease, hlock⟩
  · exact .inl (by rw [hlock])
  · rw [hlock]
    exact Lock.request_phase hgroup mode
  · rw [hlock]
    exact Lock.recheck_phase hgroup wait
  · rw [hlock]
    exact .inr (Lock.release?_phase hrelease)

end Machine

end ReaderWriter
