import ReaderWriter.Workload.Chance
import ReaderWriter.Workload.Report

/-!
# Running a workload

All workers are ready at time zero, in the order of their numbers.  Time passes only when no worker
can run: then the sleeper with the earliest time wakes up, and of several the one that began to nap
first.

What is random in a workload is given: how the roles are shuffled, the draws for the naps, and the
choices between ready workers.

All workers are taken to start.  That one cannot be spawned is up to the system, so no run ends with
`Fault.spawnFailed`, which has its texts only.
-/

namespace ReaderWriter.Workload

open Number

abbrev State := Machine Worker Site Note

def swap (roles : List Role) (i j : Nat) : List Role :=
  match roles[i]?, roles[j]? with
  | some a, some b => (roles.set i b).set j a
  | _, _ => roles

/-- Writers first, then readers, then swapped pair by pair. -/
def roles (c : Config) (swaps : List (Nat × Nat)) : List Role :=
  swaps.foldl (fun roles (i, j) => swap roles (i % c.threads) (j % c.threads))
    (List.replicate c.writers .writer ++ List.replicate (c.threads - c.writers) .reader)

def workers (c : Config) (swaps : List (Nat × Nat)) : List Worker :=
  (roles c swaps).zipIdx.map fun (role, index) => { index, role, callsLeft := c.loops role }

def start (c : Config) (chance : Chance) : State :=
  let workers := workers c chance.swaps
  { lock := .new c.policy
    shared := {}
    tasks := workers.map fun worker => { own := worker }
    ready := (workers.filter (·.callsLeft != 0)).map (·.index)
    picks := chance.picks
    preempt := chance.preempt }

/-- The sleeper that wakes up first; of several the one that began to nap first. -/
def earliest? : List Sleeper → Option Sleeper
  | [] => none
  | first :: others =>
    some (others.foldl (fun best s => if s.wakeAt < best.wakeAt then s else best) first)

/-- Lets the time pass until the next sleeper wakes up, which then is the only ready worker. -/
def wakeNext? (m : State) : Option State :=
  (earliest? m.shared.sleepers).map fun sleeper =>
    { m with
      shared := { m.shared with
        clock := sleeper.wakeAt
        sleepers := m.shared.sleepers.erase sleeper }
      ready := [sleeper.worker] }

def step (c : Config) (chance : Chance) (m : State) : Option State :=
  match m.step (program c chance.draws) with
  | some next => some next
  | none => wakeNext? m

/-- A bound for the steps to the end.  Waking up takes one step, and two more until the worker comes
to rest. -/
def work (c : Config) (chance : Chance) (m : State) : Nat :=
  m.work (program c chance.draws) + 3 * m.shared.sleepers.length

def finish (c : Config) (chance : Chance) : State :=
  let first := start c chance
  iterate (step c chance) (work c chance first) first

/-- The workers that panicked, in the order of their numbers. -/
def panicked (m : State) : List Worker :=
  (m.tasks.map (·.own)).filter (·.panicked)

/-- What a finished run amounts to: its first panicked worker, or the report. -/
def result (c : Config) (m : State) : Except Fault Report :=
  match panicked m with
  | worker :: _ => .error (.workerPanicked worker.name)
  | [] =>
    let site := m.shared
    if site.counter = site.writers.calls then
      .ok
        { policy := c.policy
          readerCalls := site.readers.calls
          writerCalls := site.writers.calls
          readerMean := site.readers.mean
          writerMean := site.writers.mean
          finalCounter := site.counter
          elapsed := .ofMilliseconds site.clock }
    else .error (.lostUpdate site.writers.calls.toNat site.counter.toNat)

structure Outcome where
  result : Except Fault Report
  /-- How long it took, in milliseconds. -/
  clock : Nat := 0
  /-- What the workers and the lock noted, oldest first. -/
  events : List (Event Note) := []
  workers : List Worker := []

/-- Runs a workload, unless its configuration has a fault. -/
def run (c : Config) (chance : Chance) : Outcome :=
  match c.fault? with
  | some fault => { result := .error fault }
  | none =>
    let m := finish c chance
    { result := result c m
      clock := m.shared.clock
      events := m.history.reverse
      workers := m.tasks.map (·.own) }

end ReaderWriter.Workload
