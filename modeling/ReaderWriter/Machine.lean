import ReaderWriter.Lock

/-!
# Tasks taking turns on one lock

A machine runs a fixed number of tasks, numbered from zero, on one lock.  One task runs at a time,
from the moment it is chosen until it waits, comes to the end of what it has to do, or, on a
preemptive machine, stands before an admission section.  A turn is made of small steps: choosing a
task, resuming it outside of the lock, or one admission section.

What the tasks do outside of the lock is a `Program`.  It sees the state of the running task and the
data that all tasks share, and never another task.

The history records every turn, request, grant and release beside the traces of the lock, newest
first, so that statements about a whole run are statements about its last state.
-/

namespace ReaderWriter

/-- Where a task stands between two steps. -/
inductive Point where
  /-- Outside of every call of the lock. -/
  | outside
  /-- About to begin the admission section of a call. -/
  | before (call : Call)
  /-- Inside a call that waits, or that was woken and has not looked again. -/
  | waiting (wait : Wait)
  deriving DecidableEq, Repr

structure Task (σ : Type) where
  point : Point := .outside
  own : σ

/-- One entry of the history; `ε` are the notes that the program makes. -/
inductive Event (ε : Type) where
  | turn (task : Nat)
  | requested (task : Nat) (mode : Mode)
  | granted (task : Nat) (mode : Mode)
  | released (task : Nat) (mode : Mode)
  | misused (task : Nat) (mode : Mode)
  | traced (task : Nat) (trace : Trace)
  | noted (task : Nat) (note : ε)
  deriving DecidableEq, Repr

def Event.task {ε : Type} : Event ε → Nat
  | turn task => task
  | requested task _ => task
  | granted task _ => task
  | released task _ => task
  | misused task _ => task
  | traced task _ => task
  | noted task _ => task

/-- What a task does outside of the lock: it changes its own state and the shared data, makes notes,
and then either calls the lock or stops. -/
structure Reaction (σ δ ε : Type) where
  own : σ
  shared : δ
  notes : List ε := []
  next : Option Call := none

/-- The behaviour of tasks with states in `σ` over shared data in `δ`. -/
structure Program (σ δ ε : Type) where
  /-- The task was chosen while it stood outside of the lock. -/
  resume : σ → δ → Reaction σ δ ε
  /-- The access it asked for was granted. -/
  granted : Mode → σ → δ → Reaction σ δ ε
  /-- The access it gave back is released. -/
  released : Mode → σ → δ → Reaction σ δ ε
  /-- It gave back an access that nobody held. -/
  misused : Mode → σ → δ → Reaction σ δ ε
  /-- At least the number of times that a task will still go on from where it stands, without being
  handed more to do. -/
  remaining : Point → σ → Nat

/-- The tasks parked on each channel, in the order in which they began to wait. -/
structure Waiters where
  released : List Nat := []
  writerDone : List Nat := []
  deriving DecidableEq, Repr

namespace Waiters

def on (w : Waiters) : Channel → List Nat
  | .released => w.released
  | .writerDone => w.writerDone

def park (w : Waiters) (task : Nat) : Channel → Waiters
  | .released => { w with released := w.released ++ [task] }
  | .writerDone => { w with writerDone := w.writerDone ++ [task] }

def clear (w : Waiters) : Channel → Waiters
  | .released => { w with released := [] }
  | .writerDone => { w with writerDone := [] }

def remove (w : Waiters) (task : Nat) : Waiters :=
  { released := w.released.erase task, writerDone := w.writerDone.erase task }

def contains (w : Waiters) (task : Nat) : Bool :=
  w.released.contains task || w.writerDone.contains task

@[simp] theorem on_park_self (w : Waiters) (task : Nat) (channel : Channel) :
    (w.park task channel).on channel = w.on channel ++ [task] := by
  cases channel <;> rfl

theorem on_park_of_ne (w : Waiters) (task : Nat) {channel other : Channel} (h : other ≠ channel) :
    (w.park task channel).on other = w.on other := by
  cases channel <;> cases other <;> simp_all [park, on]

@[simp] theorem on_clear_self (w : Waiters) (channel : Channel) :
    (w.clear channel).on channel = [] := by
  cases channel <;> rfl

theorem on_clear_of_ne (w : Waiters) {channel other : Channel} (h : other ≠ channel) :
    (w.clear channel).on other = w.on other := by
  cases channel <;> cases other <;> simp_all [clear, on]

@[simp] theorem on_remove (w : Waiters) (task : Nat) (channel : Channel) :
    (w.remove task).on channel = (w.on channel).erase task := by
  cases channel <;> rfl

end Waiters

/-- A chosen task, the others in their order, and the picks left. -/
structure Choice where
  task : Nat
  others : List Nat
  picks : List Nat
  deriving DecidableEq, Repr

/-- Takes the front of the ready list, unless there is a choice to make and a pick to make it. -/
def choose? : List Nat → List Nat → Option Choice
  | [], _ => none
  | [task], picks => some ⟨task, [], picks⟩
  | task :: others, [] => some ⟨task, others, []⟩
  | ready@(task :: _ :: _), pick :: picks =>
    let index := pick % ready.length
    some ⟨ready.getD index task, ready.eraseIdx index, picks⟩

theorem choose?_eq_none_iff (ready picks : List Nat) : choose? ready picks = none ↔ ready = [] := by
  constructor
  · intro h
    match ready, picks with
    | [], _ => rfl
    | [_], _ => simp [choose?] at h
    | _ :: _ :: _, [] => simp [choose?] at h
    | _ :: _ :: _, _ :: _ => simp [choose?] at h
  · rintro rfl
    rfl

structure Machine (σ δ ε : Type) where
  lock : Lock
  shared : δ
  tasks : List (Task σ)
  /-- The tasks that can run, the longest ready first. -/
  ready : List Nat := []
  running : Option Nat := none
  waiters : Waiters := {}
  /-- The numbers by which the next choices between ready tasks are made. -/
  picks : List Nat := []
  /-- Whether a task lets the others run right before each admission section. -/
  preempt : Bool := false
  history : List (Event ε) := []

namespace Machine

variable {σ δ ε : Type}

def record (m : Machine σ δ ε) (events : List (Event ε)) : Machine σ δ ε :=
  { m with history := events.reverse ++ m.history }

/-- Moves the tasks parked on a channel to the back of the ready list. -/
def notify (m : Machine σ δ ε) (channel : Channel) : Machine σ δ ε :=
  { m with
    ready := m.ready ++ m.waiters.on channel
    waiters := m.waiters.clear channel }

/-- Takes a parked task off its channel and makes it ready, without a notification. -/
def wake (m : Machine σ δ ε) (task : Nat) : Machine σ δ ε :=
  { m with
    ready := m.ready ++ [task]
    waiters := m.waiters.remove task }

/-- The running task comes to rest outside of the lock. -/
def rest (m : Machine σ δ ε) (task : Nat) (own : σ) : Machine σ δ ε :=
  { m with tasks := m.tasks.set task { own }, running := none }

/-- The running task stands before its next call, and lets the others run if the machine is
preemptive. -/
def approach (m : Machine σ δ ε) (task : Nat) (own : σ) (call : Call) : Machine σ δ ε :=
  let m := { m with tasks := m.tasks.set task { point := .before call, own } }
  if m.preempt then { m with ready := m.ready ++ [task], running := none } else m

def park (m : Machine σ δ ε) (task : Nat) (own : σ) (wait : Wait) : Machine σ δ ε :=
  { m with
    tasks := m.tasks.set task { point := .waiting wait, own }
    waiters := m.waiters.park task wait.channel
    running := none }

/-- The running task goes on as its program reacts. -/
def react (m : Machine σ δ ε) (task : Nat) (r : Reaction σ δ ε) : Machine σ δ ε :=
  let m := { m with shared := r.shared }.record (r.notes.map (.noted task))
  match r.next with
  | none => m.rest task r.own
  | some call => m.approach task r.own call

/-- The running task comes out of an admission section that asked for access. -/
def settle (p : Program σ δ ε) (m : Machine σ δ ε) (task : Nat) (own : σ) (mode : Mode)
    (a : Admission) : Machine σ δ ε :=
  let m := { m with lock := a.lock }.record (a.traces.map (.traced task))
  match a.waits with
  | some wait => m.park task own wait
  | none => (m.record [.granted task mode]).react task (p.granted mode own m.shared)

def giveBack (p : Program σ δ ε) (m : Machine σ δ ε) (task : Nat) (own : σ) (mode : Mode) :
    Machine σ δ ε :=
  match m.lock.release? mode with
  | none => (m.record [.misused task mode]).react task (p.misused mode own m.shared)
  | some r =>
    let m := { m with lock := r.lock }.record (r.traces.map (Event.traced task))
    let m := r.notified.foldl notify (m.record [.released task mode])
    m.react task (p.released mode own m.shared)

def act (p : Program σ δ ε) (m : Machine σ δ ε) (task : Nat) (t : Task σ) : Machine σ δ ε :=
  match t.point with
  | .outside => m.react task (p.resume t.own m.shared)
  | .before (.acquire mode) =>
    (m.record [.requested task mode]).settle p task t.own mode (m.lock.request mode)
  | .before (.release mode) => m.giveBack p task t.own mode
  | .waiting wait => m.settle p task t.own wait.mode (m.lock.recheck wait)

def begin (m : Machine σ δ ε) (c : Choice) : Machine σ δ ε :=
  { m with running := some c.task, ready := c.others, picks := c.picks }.record [.turn c.task]

/-- One step: the running task goes on, or a ready task is chosen.  `none` if no task can run. -/
def step (p : Program σ δ ε) (m : Machine σ δ ε) : Option (Machine σ δ ε) :=
  match m.running with
  | some task =>
    match m.tasks[task]? with
    | some t => some (m.act p task t)
    | none => some { m with running := none }
  | none => (choose? m.ready m.picks).map m.begin

/-- How often the tasks of the machine may go on from where they stand. -/
def remaining (p : Program σ δ ε) (m : Machine σ δ ε) : Nat :=
  (m.tasks.map fun t => p.remaining t.point t.own).foldr (· + ·) 0

/-- The turns that were given out and not used up: a task can be due more than one. -/
def turns (m : Machine σ δ ε) : Nat :=
  m.ready.length + m.running.toList.length + m.waiters.released.length + m.waiters.writerDone.length

/-- A bound for the steps until no task can run.  Going on once makes at most every turn ready, and
a turn takes two steps to come to rest. -/
def work (p : Program σ δ ε) (m : Machine σ δ ε) : Nat :=
  (2 * m.turns + 4) * m.remaining p + 2 * m.ready.length + m.running.toList.length

end Machine

/-- Repeats a step while there is one, at most `fuel` times. -/
def iterate {α : Type} (step : α → Option α) : Nat → α → α
  | 0, a => a
  | fuel + 1, a =>
    match step a with
    | none => a
    | some next => iterate step fuel next

theorem iterate_of_eq_none {α : Type} {step : α → Option α} {a : α} (h : step a = none)
    (fuel : Nat) : iterate step fuel a = a := by
  cases fuel with
  | zero => rfl
  | succ fuel => simp [iterate, h]

namespace Machine

variable {σ δ ε : Type}

def settleDown (p : Program σ δ ε) (m : Machine σ δ ε) : Machine σ δ ε :=
  iterate (step p) (m.work p) m

end Machine

end ReaderWriter
