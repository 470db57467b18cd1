import ReaderWriter.Machine

/-!
# Scripted tasks

A scripted task carries out one command after the other: to begin an access inside of those it
holds, to leave the innermost one, to panic, which gives all of them back, or to look at the shared
data or change it.  In raw style the commands are bare calls of the lock.

How the accesses are held depends on the style.  In closure style they are calls inside of calls, so
the innermost one comes first; in guard style they are guards in the order in which they were taken,
given back from the end.  `Holding.outermostFirst` is the view that both share.
-/

namespace ReaderWriter.Script

inductive Style where
  /-- Each access is a call that runs a critical section. -/
  | closure
  /-- Each access is a guard over the shared data. -/
  | guard
  /-- Calls of the lock without bookkeeping: any task may give back what another one took. -/
  | raw
  deriving DecidableEq, Repr

inductive Holding where
  /-- Nested critical sections, the innermost one first. -/
  | sections (nested : List Mode)
  /-- Guards in the order in which they were taken. -/
  | guards (taken : List Mode)
  | untracked
  deriving DecidableEq, Repr

namespace Holding

def empty : Style → Holding
  | .closure => .sections []
  | .guard => .guards []
  | .raw => .untracked

def outermostFirst : Holding → List Mode
  | .sections nested => nested.reverse
  | .guards taken => taken
  | .untracked => []

def innermost? : Holding → Option Mode
  | .sections nested => nested.head?
  | .guards taken => taken.getLast?
  | .untracked => none

def enter (mode : Mode) : Holding → Holding
  | .sections nested => .sections (mode :: nested)
  | .guards taken => .guards (taken ++ [mode])
  | .untracked => .untracked

def leave : Holding → Holding
  | .sections nested => .sections nested.tail
  | .guards taken => .guards taken.dropLast
  | .untracked => .untracked

/-- The data can be seen through a guard, and changed if it is the innermost and a writer. -/
def hasGuard : Holding → Bool
  | .guards taken => !taken.isEmpty
  | _ => false

def hasWriteGuard : Holding → Bool
  | .guards taken => taken.getLast? == some .exclusive
  | _ => false

theorem outermostFirst_enter (mode : Mode) {h : Holding} (tracked : h ≠ .untracked) :
    (h.enter mode).outermostFirst = h.outermostFirst ++ [mode] := by
  cases h with
  | sections nested => simp [enter, outermostFirst]
  | guards taken => rfl
  | untracked => exact absurd rfl tracked

theorem outermostFirst_leave (h : Holding) :
    h.leave.outermostFirst = h.outermostFirst.dropLast := by
  cases h with
  | sections nested => simp [leave, outermostFirst, List.dropLast_reverse]
  | guards taken => rfl
  | untracked => rfl

theorem innermost?_eq_getLast? (h : Holding) : h.innermost? = h.outermostFirst.getLast? := by
  cases h with
  | sections nested => simp [innermost?, outermostFirst]
  | guards taken => rfl
  | untracked => rfl

end Holding

inductive Command where
  | enter (mode : Mode)
  | leave (value : Int)
  | panic (message : String)
  | get
  | push (value : Int)
  | clear
  | call (call : Call)
  deriving DecidableEq, Repr

inductive Note where
  | entered (mode : Mode)
  | left (mode : Mode) (value : Int)
  | panicked (message : String)
  | misused (mode : Mode)
  | saw (data : List Int)
  | pushed (value : Int)
  | cleared
  | called (call : Call)
  deriving DecidableEq, Repr

structure Hand where
  holding : Holding
  command : Option Command := none
  /-- The command that it was handed and has not begun. -/
  handed : Option Command := none
  deriving DecidableEq, Repr

abbrev React := Reaction Hand (List Int) Note

namespace Hand

def finish (h : Hand) (data : List Int) (notes : List Note) : React :=
  { own := { h with command := none }, shared := data, notes }

/-- Gives the innermost access back, or panics for good once there is none. -/
def unwind (h : Hand) (message : String) (data : List Int) : React :=
  match h.holding.innermost? with
  | some mode => { own := h, shared := data, next := some (.release mode) }
  | none => h.finish data [.panicked message]

def resume (idle : Hand) (data : List Int) : React :=
  let h := { idle with command := idle.handed, handed := none }
  match h.command with
  | none => h.finish data []
  | some (.enter mode) => { own := h, shared := data, next := some (.acquire mode) }
  | some (.leave _) =>
    match h.holding.innermost? with
    | some mode => { own := h, shared := data, next := some (.release mode) }
    | none => h.finish data []
  | some (.panic message) => h.unwind message data
  | some .get => h.finish data [.saw data]
  | some (.push value) => h.finish (data ++ [value]) [.pushed value]
  | some .clear => h.finish [] [.cleared]
  | some (.call call) => { own := h, shared := data, next := some call }

def granted (mode : Mode) (h : Hand) (data : List Int) : React :=
  match h.command with
  | some (.call call) => h.finish data [.called call]
  | _ => { h with holding := h.holding.enter mode }.finish data [.entered mode]

def released (mode : Mode) (h : Hand) (data : List Int) : React :=
  let rest := { h with holding := h.holding.leave }
  match h.command with
  | some (.leave value) => rest.finish data [.left mode value]
  | some (.panic message) => rest.unwind message data
  | some (.call call) => h.finish data [.called call]
  | _ => rest.finish data []

def misused (mode : Mode) (h : Hand) (data : List Int) : React :=
  h.finish data [.misused mode]

/-- A command calls the lock once, or once for each access that a panic gives back, and one that
waits to be begun finds at most one access more than there are now. -/
def remaining (point : Point) (h : Hand) : Nat :=
  let held := h.holding.outermostFirst.length
  let later := if h.handed.isSome then held + 3 else 0
  match point with
  | .outside => if h.handed.isSome then held + 2 else 0
  | .before _ => held + 1 + later
  | .waiting _ => later

end Hand

def program : Program Hand (List Int) Note where
  resume := Hand.resume
  granted := Hand.granted
  released := Hand.released
  misused := Hand.misused
  remaining := Hand.remaining

end ReaderWriter.Script
