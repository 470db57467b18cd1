import ReaderWriter.Policy
import ReaderWriter.Text.Structured

/-!
# What a workload is asked to do, and what can be wrong with it

A workload runs readers and writers on one lock.  A configuration is valid if there is a thread at
all, the writers are among the threads, and there is a length that a nap can have.
-/

namespace ReaderWriter.Workload

structure Config where
  policy : Policy := .fairTicket
  threads : Nat := 20
  /-- How many of the threads are writers; the others are readers. -/
  writers : Nat := 5
  readerLoops : Nat := 200
  writerLoops : Nat := 40
  /-- The least length of a nap inside of the lock. -/
  minSleepMs : Nat := 1
  /-- The bound below which the length of a nap lies. -/
  maxSleepMs : Nat := 10
  deriving DecidableEq, Repr

/-- Why a workload has no report. -/
inductive Fault where
  | noThreads
  | tooManyWriters (writers threads : Nat)
  | emptySleepRange (minMs maxMs : Nat)
  | spawnFailed (cause : String)
  | workerPanicked (name : String)
  | lostUpdate (expected actual : Nat)
  deriving DecidableEq, Repr

namespace Config

/-- The first thing that is wrong with a configuration. -/
def fault? (c : Config) : Option Fault :=
  if c.threads = 0 then some .noThreads
  else if c.threads < c.writers then some (.tooManyWriters c.writers c.threads)
  else if c.maxSleepMs ≤ c.minSleepMs then some (.emptySleepRange c.minSleepMs c.maxSleepMs)
  else none

def Valid (c : Config) : Prop :=
  0 < c.threads ∧ c.writers ≤ c.threads ∧ c.minSleepMs < c.maxSleepMs

instance (c : Config) : Decidable c.Valid := by
  unfold Valid
  infer_instance

theorem fault?_eq_none_iff (c : Config) : c.fault? = none ↔ c.Valid := by
  unfold fault? Valid
  split
  · simp_all
  · split
    · simp; omega
    · split
      · simp; omega
      · simp; omega

end Config

namespace Fault

def message : Fault → String
  | .noThreads => "at least one thread is needed"
  | .tooManyWriters writers threads =>
    toString writers ++ " writers don't fit into " ++ toString threads ++ " threads"
  | .emptySleepRange minMs maxMs =>
    "sleep range " ++ toString minMs ++ ".." ++ toString maxMs ++ "ms is empty"
  | .spawnFailed cause => "failed to spawn a worker: " ++ cause
  | .workerPanicked name => "worker " ++ name ++ " panicked"
  | .lostUpdate expected actual =>
    "counter is " ++ toString actual ++ " after " ++ toString expected ++ " writes"

/-- The name of the fault inside the text of a structured value. -/
def variantName : Fault → String
  | .noThreads => "NoThreads"
  | .tooManyWriters .. => "TooManyWriters"
  | .emptySleepRange .. => "InvalidSleepRange"
  | .spawnFailed _ => "Spawn"
  | .workerPanicked _ => "WorkerPanicked"
  | .lostUpdate .. => "LostUpdate"

/-- The text of the fault behind this one, if there is one. -/
def cause? : Fault → Option String
  | .spawnFailed cause => some cause
  | _ => none

/-- The fault as a structured value, unless the text of its cause is all there is. -/
def structuredText? (f : Fault) : Option String :=
  let fields? : Option (List (String × String)) :=
    match f with
    | .noThreads => some []
    | .tooManyWriters writers threads =>
      some [("writers", toString writers), ("threads", toString threads)]
    | .emptySleepRange minMs maxMs => some [("min_ms", toString minMs), ("max_ms", toString maxMs)]
    | .spawnFailed _ => none
    | .workerPanicked name => some [("name", Text.quoted name)]
    | .lostUpdate expected actual =>
      some [("expected", toString expected), ("actual", toString actual)]
  fields?.map (Text.structured f.variantName)

end Fault

end ReaderWriter.Workload
