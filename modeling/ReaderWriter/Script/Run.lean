import ReaderWriter.Script.Task

/-!
# Running a script

A script names its tasks and gives out orders step by step.  After each step the tasks take turns
until none can run, and the answer to the step is taken: what happened, what every task holds and
whether it waits, and the bookkeeping of the lock.

An order that cannot be carried out is ignored, with a reason.
-/

namespace ReaderWriter

namespace Script

inductive Order where
  /-- Hands a command to a task.  `none` stands for a command that no style knows. -/
  | hand (task : String) (command : Option Command)
  /-- Wakes each named task that waits, without a notification. -/
  | wake (tasks : List String)
  deriving DecidableEq, Repr

/-- The orders that are given out before the tasks take turns. -/
abbrev Step := List Order

inductive Reason where
  | badStep
  | blocked
  | busy
  | notAllowedHere
  | notBlocked
  deriving DecidableEq, Repr

structure Ignored where
  task : String
  reason : Reason
  deriving DecidableEq, Repr

abbrev State := Machine Hand (List Int) Note

/-- The accesses that a task holds, outermost first, and whether it waits. -/
structure TaskView where
  held : List Mode
  waits : Bool
  deriving DecidableEq, Repr

structure Answer where
  events : List (Event Note)
  tasks : List TaskView
  snapshot : Snapshot
  ignored : List Ignored
  deriving DecidableEq, Repr

/-- Why a task with these accesses cannot be handed the command, if so. -/
def Command.objection? (style : Style) (holding : Holding) (command : Command) : Option Reason :=
  match style, command with
  | .raw, .call _ => none
  | .raw, _ => some .badStep
  | _, .call _ => some .badStep
  | _, .enter _ => none
  | _, .leave _ => if holding.innermost?.isSome then none else some .notAllowedHere
  | _, .panic _ => if holding.innermost?.isSome then none else some .notAllowedHere
  | _, .get => if holding.hasGuard then none else some .notAllowedHere
  | _, .push _ => if holding.hasWriteGuard then none else some .notAllowedHere
  | _, .clear => if holding.hasWriteGuard then none else some .notAllowedHere

end Script

structure Script where
  policy : Policy
  style : Script.Style
  /-- The tasks, each once. -/
  names : List String
  steps : List Script.Step
  picks : List Nat := []
  preempt : Bool := false
  data : List Int := []
  deriving Repr

namespace Script

def start (s : Script) : State where
  lock := .new s.policy
  shared := s.data
  tasks := s.names.map fun _ => { own := { holding := .empty s.style } }
  picks := s.picks
  preempt := s.preempt

/-- Makes a task ready to carry out a command, unless there is a reason against it.  A task that was
woken inside of a call can be handed its next command: it gets a turn of its own for it. -/
def hand (s : Script) (m : State) (name : String) (command : Option Command) :
    Except Reason State :=
  match s.names.idxOf? name with
  | none => .error .badStep
  | some index =>
    match m.tasks[index]? with
    | none => .error .badStep
    | some task =>
      if m.waiters.contains index then .error .blocked
      else if task.own.handed.isSome then .error .busy
      else
        match command with
        | none => .error .badStep
        | some command =>
          match command.objection? s.style task.own.holding with
          | some reason => .error reason
          | none =>
            .ok { m with
              tasks := m.tasks.set index
                { task with own := { task.own with handed := some command } }
              ready := m.ready ++ [index] }

def wake (s : Script) (m : State) (name : String) : Except Reason State :=
  match s.names.idxOf? name with
  | none => .error .notBlocked
  | some index => if m.waiters.contains index then .ok (m.wake index) else .error .notBlocked

/-- Goes on with the outcome of an order to a task, or notes why it is ignored. -/
def carryOut (name : String) (before : State × List Ignored) (outcome : Except Reason State) :
    State × List Ignored :=
  match outcome with
  | .ok m => (m, before.2)
  | .error reason => (before.1, before.2 ++ [⟨name, reason⟩])

def giveOrder (s : Script) (before : State × List Ignored) : Order → State × List Ignored
  | .hand name command => carryOut name before (s.hand before.1 name command)
  | .wake names => names.foldl (fun b name => carryOut name b (s.wake b.1 name)) before

/-- Gives out the orders of a step, before any task takes a turn. -/
def giveOut (s : Script) (m : State) (step : Step) : State × List Ignored :=
  step.foldl s.giveOrder (m, [])

def view (m : State) : List TaskView :=
  m.tasks.zipIdx.map fun (task, index) =>
    { held := task.own.holding.outermostFirst, waits := m.waiters.contains index }

/-- What happened between two states of one run, oldest first. -/
def eventsSince (earlier later : State) : List (Event Note) :=
  (later.history.take (later.history.length - earlier.history.length)).reverse

/-- Gives out a step and lets the tasks take turns: the answer, and where they come to rest. -/
def respond (s : Script) (m : State) (step : Step) : Answer × State :=
  let (ordered, ignored) := s.giveOut m step
  let later := ordered.settleDown program
  ({ events := eventsSince m later
     tasks := view later
     snapshot := later.lock.toSnapshot
     ignored }, later)

def respondAll (s : Script) (m : State) : List Step → List Answer × State
  | [] => ([], m)
  | step :: steps =>
    let (answer, later) := s.respond m step
    let (answers, last) := s.respondAll later steps
    (answer :: answers, last)

structure Outcome where
  answers : List Answer
  /-- The shared data at the end, whoever still holds an access. -/
  data : List Int
  deriving DecidableEq, Repr

/-- The data at the end, after appending to it. -/
def Outcome.dataWith (o : Outcome) (appended : List Int) : List Int :=
  o.data ++ appended

def run (s : Script) : Outcome :=
  let (answers, last) := s.respondAll s.start s.steps
  { answers, data := last.shared }

end Script

end ReaderWriter
