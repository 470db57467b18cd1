import Mathlib.Logic.Relation
import ReaderWriter.Machine

/-!
# What a step can do

The laws of the lock speak of four parts of a machine: the lock, the points at which the tasks
stand, the queues of the channels and the history.  Together they are a scene.  A step of a machine,
whatever its program, whatever choice is made and whether it is preemptive or not, is a run of
moves of its scene, and there are only ten kinds of moves.  A law of the lock that every move keeps
is therefore kept by every step of every machine.

The moves are finer than admission sections.  A call for access first arrives: it samples the
tickets or takes one.  Then it looks at the condition on which it waits, in the same way in its
first section and whenever it is woken: it begins to wait or it enters.  A reader whose ticket is
completed passes to its second condition in between.
-/

namespace ReaderWriter

/-! ## The parts of an admission section -/

/-- The condition under which a call that looks again goes on waiting. -/
def Lock.Blocks (l : Lock) : Wait → Prop
  | .ticketDone ticket => l.nowServing ≤ ticket
  | .groupEntry => l.activeReaders = 0 ∧ l.exclusive = true
  | .writerEntry none => l.exclusive = true
  | .writerEntry (some ticket) => l.exclusive = true ∨ l.nowServing ≠ ticket

/-- A call for access that has looked at the tickets and not yet at its condition. -/
structure Arrival where
  lock : Lock
  wait : Wait
  traces : List Trace := []

namespace Lock

/-- A reader joins the queue behind its ticket. -/
def queueUp (l : Lock) : Lock :=
  { l with queuedReaders := l.queuedReaders + 1 }

/-- A reader leaves the queue behind its ticket. -/
def pass (l : Lock) : Lock :=
  { l with queuedReaders := l.queuedReaders - 1 }

def takeTicket (l : Lock) : Lock :=
  { l with nextWriterTicket := l.nextWriterTicket + 1 }

def enter (l : Lock) : Mode → Lock
  | .shared =>
    { l with
      exclusive := l.exclusive || l.activeReaders == 0
      activeReaders := l.activeReaders + 1 }
  | .exclusive => { l with exclusive := true }

def arrive (l : Lock) : Mode → Arrival
  | .shared =>
    match l.policy with
    | .readerPreference => { lock := l, wait := .groupEntry }
    | .fairTicket =>
      match l.newestTicket? with
      | none => { lock := l, wait := .groupEntry }
      | some ticket =>
        if ticket < l.nowServing then { lock := l, wait := .groupEntry }
        else
          { lock := l.queueUp, wait := .ticketDone ticket, traces := [.readerQueued ticket] }
  | .exclusive =>
    match l.policy with
    | .readerPreference => { lock := l, wait := .writerEntry none }
    | .fairTicket =>
      { lock := l.takeTicket
        wait := .writerEntry (some l.nextWriterTicket)
        traces := [.ticketIssued l.nextWriterTicket] }

end Lock

/-- What the lock reports when the call that waits so is granted. -/
def Wait.admission : Wait → List Trace
  | .writerEntry (some ticket) => [.ticketAdmitted ticket]
  | _ => []

namespace Lock

theorem recheck_of_blocks {l : Lock} {wait : Wait} (hblocks : l.Blocks wait) :
    l.recheck wait = { lock := l, waits := some wait } := by
  cases wait with
  | ticketDone ticket =>
      have hnot : ¬ ticket < l.nowServing := Nat.not_lt.mpr hblocks
      simp [recheck, hnot]
  | groupEntry =>
      exact if_pos hblocks
  | writerEntry ticket? =>
      cases ticket? with
      | none =>
          exact if_pos hblocks
      | some ticket =>
          exact if_pos hblocks

theorem recheck_of_passes {l : Lock} {ticket : Nat}
    (hdone : ticket < l.nowServing) :
    l.recheck (.ticketDone ticket) = l.pass.recheck .groupEntry := by
  simp only [recheck]
  rw [if_pos hdone]
  rfl

theorem recheck_of_enters {l : Lock} {wait : Wait}
    (hchannel : wait.channel = .released) (henters : ¬ l.Blocks wait) :
    l.recheck wait = { lock := l.enter wait.mode, traces := wait.admission } := by
  cases wait with
  | ticketDone ticket => simp [Wait.channel] at hchannel
  | groupEntry =>
      exact if_neg henters
  | writerEntry ticket? =>
      cases ticket? with
      | none =>
          exact if_neg henters
      | some ticket =>
          exact if_neg henters

/-- A reader enters unless a writer is inside. -/
theorem not_blocks_shared {l : Lock} {wait : Wait} (hchannel : wait.channel = .released)
    (hmode : wait.mode = .shared) (henters : ¬ l.Blocks wait) :
    ¬ (l.activeReaders = 0 ∧ l.exclusive = true) := by
  cases wait with
  | ticketDone ticket => simp [Wait.channel] at hchannel
  | groupEntry => exact henters
  | writerEntry ticket? => simp [Wait.mode] at hmode

/-- A writer enters only a free resource. -/
theorem not_blocks_exclusive {l : Lock} {wait : Wait} (hmode : wait.mode = .exclusive)
    (henters : ¬ l.Blocks wait) : l.exclusive = false := by
  cases wait with
  | ticketDone ticket => simp [Wait.mode] at hmode
  | groupEntry => simp [Wait.mode] at hmode
  | writerEntry ticket? =>
      cases ticket? with
      | none => simpa [Blocks] using henters
      | some ticket =>
          simp only [Blocks, not_or, Bool.not_eq_true] at henters
          exact henters.1

/-- The first section of a call is its arrival and a look at its condition. -/
theorem request_eq_recheck_arrive (l : Lock) (mode : Mode) :
    l.request mode =
      { (l.arrive mode).lock.recheck (l.arrive mode).wait with
        traces := (l.arrive mode).traces ++
          ((l.arrive mode).lock.recheck (l.arrive mode).wait).traces } := by
  obtain ⟨snapshot, policy⟩ := l
  cases mode with
  | exclusive => cases policy <;> rfl
  | shared =>
      cases policy with
      | readerPreference => rfl
      | fairTicket =>
          simp only [request, requestShared, arrive]
          cases snapshot.newestTicket? with
          | none => rfl
          | some ticket =>
              by_cases hdone : ticket < snapshot.nowServing
              · simp only [if_pos hdone]
                rfl
              · have hblocks :
                    (queueUp ⟨snapshot, .fairTicket⟩).Blocks (.ticketDone ticket) :=
                  Nat.not_lt.mp hdone
                simp only [if_neg hdone]
                rw [recheck_of_blocks hblocks]
                rfl

/-- A reader that arrives has no ticket to wait for, or queues up behind the newest one. -/
theorem arrive_shared_cases (l : Lock) :
    (l.arrive .shared = { lock := l, wait := .groupEntry } ∧
      (l.policy = .fairTicket → l.nextWriterTicket ≤ l.nowServing)) ∨
    (l.policy = .fairTicket ∧ ∃ ticket, ticket + 1 = l.nextWriterTicket ∧
      l.nowServing ≤ ticket ∧
      l.arrive .shared =
        { lock := l.queueUp, wait := .ticketDone ticket, traces := [.readerQueued ticket] }) := by
  cases hpolicy : l.policy with
  | readerPreference =>
      left
      simp [arrive, hpolicy]
  | fairTicket =>
      by_cases hnext : l.nextWriterTicket = 0
      · left
        simp [arrive, hpolicy, Snapshot.newestTicket?, hnext]
      · by_cases hdone : l.nextWriterTicket - 1 < l.nowServing
        · left
          simp only [arrive, hpolicy, Snapshot.newestTicket?, if_neg hnext, if_pos hdone]
          exact ⟨trivial, fun _ => by omega⟩
        · right
          refine ⟨rfl, l.nextWriterTicket - 1, by omega, by omega, ?_⟩
          simp only [arrive, hpolicy, Snapshot.newestTicket?, if_neg hnext, if_neg hdone]

theorem arrive_exclusive_cases (l : Lock) :
    (l.policy = .readerPreference ∧
      l.arrive .exclusive = { lock := l, wait := .writerEntry none }) ∨
    (l.policy = .fairTicket ∧
      l.arrive .exclusive =
        { lock := l.takeTicket
          wait := .writerEntry (some l.nextWriterTicket)
          traces := [.ticketIssued l.nextWriterTicket] }) := by
  cases hpolicy : l.policy <;> simp [arrive, hpolicy]

/-- An arrival only counts a reader that queues up or a ticket. -/
theorem arrive_lock_cases (l : Lock) (mode : Mode) :
    (l.arrive mode).lock = l ∨ (l.arrive mode).lock = l.queueUp ∨
      (l.arrive mode).lock = l.takeTicket := by
  cases mode with
  | exclusive =>
      rcases l.arrive_exclusive_cases with ⟨_, harrive⟩ | ⟨_, harrive⟩
      · left
        rw [harrive]
      · right; right
        rw [harrive]
  | shared =>
      rcases l.arrive_shared_cases with ⟨harrive, _⟩ | ⟨_, _, _, _, harrive⟩
      · left
        rw [harrive]
      · right; left
        rw [harrive]

theorem arrive_wait_mode (l : Lock) (mode : Mode) :
    (l.arrive mode).wait.mode = mode := by
  cases mode with
  | exclusive => rcases l.arrive_exclusive_cases with ⟨_, heq⟩ | ⟨_, heq⟩ <;> rw [heq] <;> rfl
  | shared =>
      rcases l.arrive_shared_cases with ⟨heq, _⟩ | ⟨_, _, _, _, heq⟩ <;> rw [heq] <;> rfl

/-- A reader that leaves is the last one of its group or not. -/
theorem release?_shared_cases {l : Lock} {r : Release} (hrelease : l.release? .shared = some r) :
    (l.activeReaders = 1 ∧
      r = { lock := { l with activeReaders := 0, exclusive := false }
            notified := [.released] }) ∨
    (1 < l.activeReaders ∧
      r = { lock := { l with activeReaders := l.activeReaders - 1 }, notified := [] }) := by
  simp only [release?, releaseShared?] at hrelease
  split at hrelease
  · simp at hrelease
  · split at hrelease
    · left
      exact ⟨‹_›, (Option.some.inj hrelease).symm⟩
    · right
      exact ⟨by omega, (Option.some.inj hrelease).symm⟩

theorem release?_exclusive_cases {l : Lock} {r : Release}
    (hrelease : l.release? .exclusive = some r) :
    (l.exclusive = true ∧ l.activeReaders = 0) ∧
    ((l.policy = .readerPreference ∧
      r = { lock := { l with exclusive := false }, notified := [.released] }) ∨
    (l.policy = .fairTicket ∧
      r = { lock := { l with lastServedTicket := some l.nowServing, exclusive := false }
            notified := [.writerDone, .released]
            traces := [.ticketCompleted l.nowServing] })) := by
  simp only [release?, releaseExclusive?] at hrelease
  split at hrelease
  · refine ⟨‹_›, ?_⟩
    split at hrelease
    · left
      exact ⟨‹_›, (Option.some.inj hrelease).symm⟩
    · right
      exact ⟨‹_›, (Option.some.inj hrelease).symm⟩
  · simp at hrelease

end Lock

/-- Where a task stands after its program has reacted. -/
def Reaction.point {σ δ ε : Type} (r : Reaction σ δ ε) : Point :=
  match r.next with
  | none => .outside
  | some call => .before call

theorem Reaction.point_ne_waiting {σ δ ε : Type} (r : Reaction σ δ ε) (wait : Wait) :
    r.point ≠ .waiting wait := by
  unfold Reaction.point
  cases r.next <;> simp

/-! ## Scenes and their moves -/

structure Scene (ε : Type) where
  lock : Lock
  /-- Where the tasks stand, by their numbers. -/
  points : List Point
  waiters : Waiters
  /-- Newest first. -/
  history : List (Event ε)

namespace Scene

variable {σ δ ε : Type}

/-- Before anything has happened. -/
def start (policy : Policy) (tasks : Nat) : Scene ε where
  lock := .new policy
  points := List.replicate tasks .outside
  waiters := {}
  history := []

def At (s : Scene ε) (task : Nat) (point : Point) : Prop :=
  s.points[task]? = some point

inductive Move : Scene ε → Scene ε → Prop
  | turn (s : Scene ε) (task : Nat) :
      Move s { s with history := .turn task :: s.history }
  | note (s : Scene ε) (task : Nat) (note : ε) :
      Move s { s with history := .noted task note :: s.history }
  | approach (s : Scene ε) {task : Nat} (call : Call) (hat : s.At task .outside) :
      Move s { s with points := s.points.set task (.before call) }
  | arrive (s : Scene ε) {task : Nat} {mode : Mode}
      (hat : s.At task (.before (.acquire mode))) :
      Move s
        { s with
          lock := (s.lock.arrive mode).lock
          points := s.points.set task (.waiting (s.lock.arrive mode).wait)
          history := ((s.lock.arrive mode).traces.map (.traced task)).reverse ++
            .requested task mode :: s.history }
  | park (s : Scene ε) {task : Nat} {wait : Wait} (hat : s.At task (.waiting wait))
      (hblocks : s.lock.Blocks wait) :
      Move s { s with waiters := s.waiters.park task wait.channel }
  | pass (s : Scene ε) {task ticket : Nat} (hat : s.At task (.waiting (.ticketDone ticket)))
      (hdone : ticket < s.lock.nowServing) :
      Move s
        { s with
          lock := s.lock.pass
          points := s.points.set task (.waiting .groupEntry) }
  | enter (s : Scene ε) {task : Nat} {wait : Wait} (hat : s.At task (.waiting wait))
      (hchannel : wait.channel = .released) (henters : ¬ s.lock.Blocks wait) :
      Move s
        { s with
          lock := s.lock.enter wait.mode
          points := s.points.set task .outside
          history := .granted task wait.mode ::
            ((wait.admission.map (.traced task)).reverse ++ s.history) }
  | leave (s : Scene ε) {task : Nat} {mode : Mode} {r : Release}
      (hat : s.At task (.before (.release mode))) (hrelease : s.lock.release? mode = some r) :
      Move s
        { lock := r.lock
          points := s.points.set task .outside
          waiters := r.notified.foldl Waiters.clear s.waiters
          history := .released task mode ::
            ((r.traces.map (.traced task)).reverse ++ s.history) }
  | misuse (s : Scene ε) {task : Nat} {mode : Mode}
      (hat : s.At task (.before (.release mode))) (hrelease : s.lock.release? mode = none) :
      Move s
        { s with
          points := s.points.set task .outside
          history := .misused task mode :: s.history }
  | wake (s : Scene ε) (task : Nat) :
      Move s { s with waiters := s.waiters.remove task }

abbrev Run : Scene ε → Scene ε → Prop := Relation.ReflTransGen Move

theorem Run.keeps {P : Scene ε → Prop} (hmove : ∀ {s next}, Move s next → P s → P next)
    {s last : Scene ε} (hrun : Run s last) (hs : P s) : P last := by
  induction hrun with
  | refl => exact hs
  | tail _ hlast ih => exact hmove hlast ih

theorem Move.history_suffix {s next : Scene ε} (hmove : Move s next) :
    s.history <:+ next.history := by
  cases hmove with
  | turn task => exact List.suffix_cons _ _
  | note task note => exact List.suffix_cons _ _
  | approach call hat => exact List.suffix_rfl
  | arrive hat => exact (List.suffix_cons _ _).trans (List.suffix_append _ _)
  | park hat hblocks => exact List.suffix_rfl
  | pass hat hdone => exact List.suffix_rfl
  | enter hat hchannel henters => exact (List.suffix_append _ _).trans (List.suffix_cons _ _)
  | leave hat hrelease => exact (List.suffix_append _ _).trans (List.suffix_cons _ _)
  | misuse hat hrelease => exact List.suffix_cons _ _
  | wake task => exact List.suffix_rfl

theorem Run.history_suffix {s last : Scene ε} (hrun : Run s last) :
    s.history <:+ last.history := by
  induction hrun with
  | refl => exact List.suffix_rfl
  | tail _ hlast ih => exact ih.trans hlast.history_suffix

theorem Move.points_length {s next : Scene ε} (hmove : Move s next) :
    next.points.length = s.points.length := by
  cases hmove <;> simp

theorem Run.points_length {s last : Scene ε} (hrun : Run s last) :
    last.points.length = s.points.length := by
  induction hrun with
  | refl => rfl
  | tail _ hlast ih => exact hlast.points_length.trans ih

theorem At.set_eq {s : Scene ε} {task : Nat} {point : Point} (hat : s.At task point) :
    s.points.set task point = s.points := by
  obtain ⟨hlt, rfl⟩ := List.getElem?_eq_some_iff.mp hat
  exact List.set_getElem_self hlt

theorem At.set_self {s : Scene ε} {task : Nat} {point : Point} (hat : s.At task point)
    (other : Point) : (s.points.set task other)[task]? = some other := by
  obtain ⟨hlt, _⟩ := List.getElem?_eq_some_iff.mp hat
  exact List.getElem?_set_self hlt

theorem At.of_set {s : Scene ε} {mover : Nat} {point target : Point} {task : Nat}
    (hset : (s.points.set mover target)[task]? = some point) :
    (task = mover ∧ point = target) ∨ (task ≠ mover ∧ s.At task point) := by
  by_cases hmover : mover = task
  · subst hmover
    left
    rw [List.getElem?_set_self'] at hset
    cases hold : s.points[mover]? <;> simp_all
  · right
    rw [List.getElem?_set_ne hmover] at hset
    exact ⟨Ne.symm hmover, hset⟩

theorem At.of_set_away {s : Scene ε} {mover task : Nat} {target : Point} {wait : Wait}
    (htarget : ∀ other, target ≠ .waiting other)
    (hset : (s.points.set mover target)[task]? = some (.waiting wait)) :
    task ≠ mover ∧ s.At task (.waiting wait) := by
  rcases At.of_set hset with ⟨_, hpoint⟩ | hother
  · exact absurd hpoint.symm (htarget wait)
  · exact hother

theorem At.set_of_ne {s : Scene ε} {mover task : Nat} {point other : Point}
    (htask : s.At task point) (hmover : s.At mover other) (hdiffers : other ≠ point)
    (target : Point) : (s.points.set mover target)[task]? = some point := by
  have hne : mover ≠ task := by
    intro heq
    subst heq
    exact hdiffers (Option.some.inj (hmover.symm.trans htask))
  rw [List.getElem?_set_ne hne]
  exact htask

/-- The task stands at another point after its program has reacted. -/
def react (s : Scene ε) (task : Nat) (point : Point) (notes : List ε) : Scene ε :=
  { s with
    points := s.points.set task point
    history := (notes.map (.noted task)).reverse ++ s.history }

/-- The task comes out of an admission section that asked for access. -/
def settle (s : Scene ε) (task : Nat) (mode : Mode) (a : Admission) : Scene ε :=
  match a.waits with
  | some wait =>
    { lock := a.lock
      points := s.points.set task (.waiting wait)
      waiters := s.waiters.park task wait.channel
      history := (a.traces.map (.traced task)).reverse ++ s.history }
  | none =>
    { s with
      lock := a.lock
      points := s.points.set task .outside
      history := .granted task mode :: ((a.traces.map (.traced task)).reverse ++ s.history) }

/-- What a task does within one section does not depend on where it stood in between. -/
theorem settle_of_moved (s : Scene ε) (task : Nat) (mode : Mode) (lock : Lock) (point : Point)
    (a : Admission) :
    ({ s with lock := lock, points := s.points.set task point } : Scene ε).settle task mode a =
      s.settle task mode a := by
  simp only [settle, List.set_set]

/-- What the lock reported before belongs to the same section. -/
theorem settle_of_traced (s : Scene ε) (task : Nat) (mode : Mode) (traces : List Trace)
    (a : Admission) :
    ({ s with history := (traces.map (.traced task)).reverse ++ s.history } : Scene ε).settle
        task mode a =
      s.settle task mode { a with traces := traces ++ a.traces } := by
  simp only [settle, List.map_append, List.reverse_append, List.append_assoc]

theorem run_notes (s : Scene ε) (task : Nat) (notes : List ε) :
    Run s { s with history := (notes.map (.noted task)).reverse ++ s.history } := by
  induction notes generalizing s with
  | nil => exact .refl
  | cons note notes ih =>
      have hrest := ih { s with history := .noted task note :: s.history }
      simpa using Relation.ReflTransGen.head (Move.note s task note) hrest

theorem run_react {s : Scene ε} {task : Nat} (hat : s.At task .outside)
    (r : Reaction σ δ ε) : Run s (s.react task r.point r.notes) := by
  have hnotes := run_notes s task r.notes
  cases hnext : r.next with
  | none => simpa [react, Reaction.point, hnext, hat.set_eq] using hnotes
  | some call =>
      simpa [react, Reaction.point, hnext] using hnotes.tail (Move.approach _ call hat)

theorem run_recheck {s : Scene ε} {task : Nat} {wait : Wait}
    (hat : s.At task (.waiting wait)) :
    Run s (s.settle task wait.mode (s.lock.recheck wait)) := by
  have hlook : ∀ {s : Scene ε} {wait : Wait}, s.At task (.waiting wait) →
      wait.channel = .released → Run s (s.settle task wait.mode (s.lock.recheck wait)) := by
    intro s wait hat hchannel
    by_cases hblocks : s.lock.Blocks wait
    · rw [Lock.recheck_of_blocks hblocks]
      simpa [settle, hat.set_eq] using Relation.ReflTransGen.single (Move.park s hat hblocks)
    · rw [Lock.recheck_of_enters hchannel hblocks]
      exact .single (Move.enter s hat hchannel hblocks)
  cases wait with
  | groupEntry => exact hlook hat rfl
  | writerEntry ticket? => exact hlook hat rfl
  | ticketDone ticket =>
      by_cases hdone : ticket < s.lock.nowServing
      · have hpassed := hlook (s := { s with
            lock := s.lock.pass
            points := s.points.set task (.waiting .groupEntry) }) (hat.set_self _) rfl
        rw [settle_of_moved] at hpassed
        rw [Lock.recheck_of_passes hdone]
        exact .head (Move.pass s hat hdone) hpassed
      · have hblocks : s.lock.Blocks (.ticketDone ticket) := Nat.not_lt.mp hdone
        rw [Lock.recheck_of_blocks hblocks]
        simpa [settle, hat.set_eq] using Relation.ReflTransGen.single (Move.park s hat hblocks)

theorem run_request {s : Scene ε} {task : Nat} {mode : Mode}
    (hat : s.At task (.before (.acquire mode))) :
    Run s
      ({ s with history := .requested task mode :: s.history }.settle task mode
        (s.lock.request mode)) := by
  -- after its arrival the call looks at its condition like one that was woken
  refine .head (Move.arrive s hat) ?_
  have hlook := run_recheck (s := { s with
      lock := (s.lock.arrive mode).lock
      points := s.points.set task (.waiting (s.lock.arrive mode).wait)
      history := ((s.lock.arrive mode).traces.map (.traced task)).reverse ++
        .requested task mode :: s.history }) (hat.set_self _)
  rw [Lock.arrive_wait_mode] at hlook
  rw [Lock.request_eq_recheck_arrive, ← settle_of_traced,
    ← settle_of_moved _ _ _ (s.lock.arrive mode).lock (.waiting (s.lock.arrive mode).wait)]
  exact hlook

end Scene

/-! ## The steps of a machine -/

namespace Machine

variable {σ δ ε : Type}

def scene (m : Machine σ δ ε) : Scene ε where
  lock := m.lock
  points := m.tasks.map (·.point)
  waiters := m.waiters
  history := m.history

theorem scene_at_iff {m : Machine σ δ ε} {task : Nat} {point : Point} :
    m.scene.At task point ↔ ∃ t, m.tasks[task]? = some t ∧ t.point = point := by
  simp [Scene.At, scene]

theorem scene_at {m : Machine σ δ ε} {task : Nat} {t : Task σ}
    (htask : m.tasks[task]? = some t) : m.scene.At task t.point :=
  scene_at_iff.mpr ⟨t, htask, rfl⟩

@[simp] theorem record_shared (m : Machine σ δ ε) (events : List (Event ε)) :
    (m.record events).shared = m.shared := rfl

@[simp] theorem scene_record (m : Machine σ δ ε) (events : List (Event ε)) :
    (m.record events).scene =
      { m.scene with history := events.reverse ++ m.scene.history } := rfl

@[simp] theorem scene_with_lock (m : Machine σ δ ε) (lock : Lock) :
    ({ m with lock } : Machine σ δ ε).scene = { m.scene with lock } := rfl

theorem scene_react (m : Machine σ δ ε) (task : Nat) (r : Reaction σ δ ε) :
    (m.react task r).scene = m.scene.react task r.point r.notes := by
  cases hnext : r.next with
  | none => simp [react, hnext, rest, record, scene, Scene.react, Reaction.point, List.map_set]
  | some call =>
      simp only [react, hnext, approach]
      split <;> simp [record, scene, Scene.react, Reaction.point, hnext, List.map_set]

theorem react_lock (m : Machine σ δ ε) (task : Nat) (r : Reaction σ δ ε) :
    (m.react task r).lock = m.lock :=
  congrArg Scene.lock (m.scene_react task r)

theorem react_waiters (m : Machine σ δ ε) (task : Nat) (r : Reaction σ δ ε) :
    (m.react task r).waiters = m.waiters :=
  congrArg Scene.waiters (m.scene_react task r)

theorem react_history (m : Machine σ δ ε) (task : Nat) (r : Reaction σ δ ε) :
    (m.react task r).history = (r.notes.map (.noted task)).reverse ++ m.history :=
  congrArg Scene.history (m.scene_react task r)

theorem scene_foldl_notify (m : Machine σ δ ε) (channels : List Channel) :
    (channels.foldl notify m).scene =
      { m.scene with waiters := channels.foldl Waiters.clear m.scene.waiters } := by
  induction channels generalizing m with
  | nil => rfl
  | cons channel channels ih => exact ih (m.notify channel)

theorem foldl_notify_lock (m : Machine σ δ ε) (channels : List Channel) :
    (channels.foldl notify m).lock = m.lock := by
  induction channels generalizing m with
  | nil => rfl
  | cons channel channels ih => exact ih (m.notify channel)

@[simp] theorem foldl_notify_shared (m : Machine σ δ ε) (channels : List Channel) :
    (channels.foldl notify m).shared = m.shared := by
  induction channels generalizing m with
  | nil => rfl
  | cons channel channels ih => exact ih (m.notify channel)

@[simp] theorem foldl_notify_tasks (m : Machine σ δ ε) (channels : List Channel) :
    (channels.foldl notify m).tasks = m.tasks := by
  induction channels generalizing m with
  | nil => rfl
  | cons channel channels ih => exact ih (m.notify channel)

theorem foldl_notify_history (m : Machine σ δ ε) (channels : List Channel) :
    (channels.foldl notify m).history = m.history :=
  congrArg Scene.history (m.scene_foldl_notify channels)

theorem run_settle (p : Program σ δ ε) {m : Machine σ δ ε} {task : Nat} {t : Task σ}
    (htask : m.tasks[task]? = some t) (own : σ) (mode : Mode) (a : Admission) :
    Scene.Run (m.scene.settle task mode a) (m.settle p task own mode a).scene := by
  cases hwaits : a.waits with
  | some wait =>
      have hscene : (m.settle p task own mode a).scene = m.scene.settle task mode a := by
        simp [settle, hwaits, park, record, scene, Scene.settle, List.map_set]
      rw [hscene]
  | none =>
      have hat : (m.scene.settle task mode a).At task .outside := by
        simpa [Scene.settle, hwaits, Scene.At] using (scene_at htask).set_self .outside
      have hscene : (m.settle p task own mode a).scene =
          (m.scene.settle task mode a).react task (p.granted mode own m.shared).point
            (p.granted mode own m.shared).notes := by
        simp only [settle, hwaits, scene_react]
        simp [Scene.react, Scene.settle, hwaits, record, scene]
      rw [hscene]
      exact Scene.run_react hat _

theorem run_giveBack (p : Program σ δ ε) {m : Machine σ δ ε} {task : Nat} {t : Task σ}
    {mode : Mode} (htask : m.tasks[task]? = some t) (hpoint : t.point = .before (.release mode))
    (own : σ) : Scene.Run m.scene (m.giveBack p task own mode).scene := by
  have hat : m.scene.At task (.before (.release mode)) := hpoint ▸ scene_at htask
  cases hrelease : m.lock.release? mode with
  | none =>
      refine .head (Scene.Move.misuse m.scene hat hrelease) ?_
      have hreact := Scene.run_react
        (s := { m.scene with
          points := m.scene.points.set task .outside
          history := .misused task mode :: m.scene.history })
        (hat.set_self .outside) (p.misused mode own m.shared)
      simpa [giveBack, hrelease, scene_react, Scene.react] using hreact
  | some r =>
      refine .head (Scene.Move.leave m.scene hat hrelease) ?_
      have hreact := Scene.run_react
        (s := {
          lock := r.lock
          points := m.scene.points.set task .outside
          waiters := r.notified.foldl Waiters.clear m.scene.waiters
          history := .released task mode ::
            ((r.traces.map (.traced task)).reverse ++ m.scene.history) })
        (hat.set_self .outside) (p.released mode own m.shared)
      simpa [giveBack, hrelease, scene_react, scene_foldl_notify, Scene.react] using hreact

theorem run_act (p : Program σ δ ε) {m : Machine σ δ ε} {task : Nat} {t : Task σ}
    (htask : m.tasks[task]? = some t) : Scene.Run m.scene (m.act p task t).scene := by
  have hat := scene_at htask
  cases hpoint : t.point with
  | outside =>
      rw [hpoint] at hat
      simp only [act, hpoint, scene_react]
      exact Scene.run_react hat _
  | before call =>
      rw [hpoint] at hat
      cases call with
      | acquire mode =>
          simp only [act, hpoint]
          exact (Scene.run_request hat).trans
            (run_settle p (m := m.record [.requested task mode]) htask t.own mode _)
      | release mode =>
          simp only [act, hpoint]
          exact run_giveBack p htask hpoint t.own
  | waiting wait =>
      rw [hpoint] at hat
      simp only [act, hpoint]
      exact (Scene.run_recheck hat).trans (run_settle p htask t.own wait.mode _)

/-- A step begins a turn, ends the turn of a task that there is not, or lets the running task act. -/
theorem step_cases {p : Program σ δ ε} {m next : Machine σ δ ε} (hstep : m.step p = some next) :
    (m.running = none ∧ ∃ c, choose? m.ready m.picks = some c ∧ next = m.begin c) ∨
    (∃ task, m.running = some task ∧ m.tasks[task]? = none ∧
      next = { m with running := none }) ∨
    ∃ task t, m.running = some task ∧ m.tasks[task]? = some t ∧ next = m.act p task t := by
  cases hrunning : m.running with
  | none =>
      left
      simp only [step, hrunning, Option.map_eq_some_iff] at hstep
      obtain ⟨c, hchoice, hbegin⟩ := hstep
      exact ⟨rfl, c, hchoice, hbegin.symm⟩
  | some task =>
      right
      cases htask : m.tasks[task]? with
      | none =>
          left
          simp only [step, hrunning, htask, Option.some.injEq] at hstep
          exact ⟨task, rfl, htask, hstep.symm⟩
      | some t =>
          right
          simp only [step, hrunning, htask, Option.some.injEq] at hstep
          exact ⟨task, t, rfl, htask, hstep.symm⟩

/-- Every step of a machine is a run of moves of its scene. -/
theorem run_step {p : Program σ δ ε} {m next : Machine σ δ ε} (hstep : m.step p = some next) :
    Scene.Run m.scene next.scene := by
  rcases step_cases hstep with ⟨_, c, _, rfl⟩ | ⟨_, _, _, rfl⟩ | ⟨task, t, _, htask, rfl⟩
  · exact .single (Scene.Move.turn m.scene c.task)
  · exact .refl
  · exact run_act p htask

end Machine

end ReaderWriter
