import ReaderWriter.Machine
import ReaderWriter.Workload.Config

/-!
# Workers

A writer enters alone and increments the counter, a reader enters and looks at it.  Each call takes
the next position in the order of entry, is tallied for its role, and naps inside of the lock before
it leaves.  The length of a nap is drawn; a worker whose draw fails panics, which gives its access
back and ends it.

The counter, the positions and the tallies are 64-bit words.
-/

namespace ReaderWriter.Workload

inductive Role where
  | reader
  | writer
  deriving DecidableEq, Repr

namespace Role

def mode : Role → Mode
  | .reader => .shared
  | .writer => .exclusive

def word : Role → String
  | .reader => "reader"
  | .writer => "writer"

end Role

/-- Calls of one role, and the sum of their positions. -/
structure Tally where
  calls : UInt64 := 0
  positionSum : UInt64 := 0
  deriving DecidableEq, Repr

namespace Tally

def record (t : Tally) (position : UInt64) : Tally :=
  { calls := t.calls + 1, positionSum := t.positionSum + position }

/-- The mean position, and zero without calls. -/
def mean (t : Tally) : Float :=
  if t.calls = 0 then 0.0 else t.positionSum.toFloat / t.calls.toFloat

end Tally

structure Sleeper where
  worker : Nat
  wakeAt : Nat
  deriving DecidableEq, Repr

structure Site where
  counter : UInt64 := 0
  nextPosition : UInt64 := 0
  readers : Tally := {}
  writers : Tally := {}
  clock : Nat := 0
  /-- In the order in which they began to nap. -/
  sleepers : List Sleeper := []
  draws : Nat := 0
  deriving DecidableEq, Repr

namespace Site

def tally (s : Site) : Role → Tally
  | .reader => s.readers
  | .writer => s.writers

/-- A call enters: a writer increments the counter, and the call takes the next position. -/
def enter (s : Site) (role : Role) : Site :=
  match role with
  | .reader =>
    { s with
      nextPosition := s.nextPosition + 1
      readers := s.readers.record s.nextPosition }
  | .writer =>
    { s with
      counter := s.counter + 1
      nextPosition := s.nextPosition + 1
      writers := s.writers.record s.nextPosition }

end Site

structure Worker where
  index : Nat
  role : Role
  /-- The calls that it has still to finish, the one under way included. -/
  callsLeft : Nat
  napping : Bool := false
  panicked : Bool := false
  deriving DecidableEq, Repr

inductive Note where
  /-- Entered with a position, and saw the counter at a value. -/
  | entered (role : Role) (position value : UInt64)
  | napped (start length : Nat)
  | panicked
  deriving DecidableEq, Repr

/-- The numbers drawn for the naps of a run, in the order of the naps; `none` is a failing draw. -/
abbrev Draws := Nat → Option Nat

/-- Draws from a list over and over again, and zeros from an empty one. -/
def Draws.cycle (draws : Array (Option Nat)) : Draws := fun n =>
  if draws.isEmpty then some 0 else draws.getD (n % draws.size) none

namespace Config

def napLength (c : Config) (draw : Nat) : Nat :=
  c.minSleepMs + draw % (c.maxSleepMs - c.minSleepMs)

def loops (c : Config) : Role → Nat
  | .reader => c.readerLoops
  | .writer => c.writerLoops

end Config

abbrev React := Reaction Worker Site Note

namespace Worker

def name (w : Worker) : String := w.role.word ++ "-" ++ toString w.index

/-- Begins its first call, or leaves after a nap. -/
def resume (w : Worker) (site : Site) : React :=
  if w.napping then
    { own := { w with napping := false }, shared := site, next := some (.release w.role.mode) }
  else if w.callsLeft = 0 then { own := w, shared := site }
  else { own := w, shared := site, next := some (.acquire w.role.mode) }

/-- Does its work inside of the lock, and naps.  If the draw fails, this call is its last. -/
def granted (c : Config) (draws : Draws) (w : Worker) (site : Site) : React :=
  let inside := site.enter w.role
  let entered := Note.entered w.role site.nextPosition inside.counter
  let drawn := { inside with draws := inside.draws + 1 }
  match draws site.draws with
  | none =>
    { own := { w with callsLeft := 1, panicked := true }
      shared := drawn
      notes := [entered, .panicked]
      next := some (.release w.role.mode) }
  | some draw =>
    let length := c.napLength draw
    { own := { w with napping := true }
      shared := { drawn with sleepers := drawn.sleepers ++ [⟨w.index, drawn.clock + length⟩] }
      notes := [entered, .napped drawn.clock length] }

def released (w : Worker) (site : Site) : React :=
  let w := { w with callsLeft := w.callsLeft - 1 }
  { own := w
    shared := site
    next := if w.callsLeft = 0 then none else some (.acquire w.role.mode) }

def misused (w : Worker) (site : Site) : React :=
  { own := { w with callsLeft := 0, panicked := true }, shared := site, notes := [.panicked] }

/-- A call goes on at most five times: to the lock, into it, to a nap, out of the nap and out of
the lock. -/
def remaining (point : Point) (w : Worker) : Nat :=
  match point with
  | .outside => if w.napping then 5 * w.callsLeft - 3 else 5 * w.callsLeft
  | .before (.acquire _) => 5 * w.callsLeft - 1
  | .waiting _ => 5 * w.callsLeft - 2
  | .before (.release _) => 5 * w.callsLeft - 4

end Worker

def program (c : Config) (draws : Draws) : Program Worker Site Note where
  resume := Worker.resume
  granted := fun _ => Worker.granted c draws
  released := fun _ => Worker.released
  misused := fun _ => Worker.misused
  remaining := Worker.remaining

end ReaderWriter.Workload
