import ReaderWriter.Log.Record
import ReaderWriter.Workload.Run

/-!
# The journal of a workload

The log entries of a run: those of the workers in the order in which they were made, and those of
the thread that runs the workload, before and after them.
-/

namespace ReaderWriter.Workload

open Log

def mainThread : String := "main"

def startedEntry (c : Config) : Entry where
  thread := mainThread
  record :=
    { level := .info
      target := workloadTarget
      message := "starting workload"
      fields :=
        [ ("policy", .text c.policy.name),
          ("threads", .number c.threads),
          ("writers", .number c.writers) ] }

def panickedEntry (w : Worker) : Entry where
  thread := mainThread
  record :=
    { level := .debug
      target := workloadTarget
      message := "worker panicked"
      fields := [("name", .text w.name)] }

/-- The entry for a report, with the text of the time that it took. -/
def finishedEntry (report : Report) (elapsed : String) : Entry where
  thread := mainThread
  record :=
    { level := .info
      target := workloadTarget
      message := "workload finished"
      fields := [("report", .text (report.structuredText elapsed))] }

def readRecord (value : UInt64) : Record where
  level := .debug
  target := workloadTarget
  message := "read"
  fields := [("value", .number value.toNat)]

/-- The record of an event, if it is one that is logged. -/
def record? : Event Note → Option Record
  | .noted _ (.entered .reader _ value) => some (readRecord value)
  | .traced _ trace => some (ofTrace trace)
  | _ => none

namespace Outcome

def workerEntries (o : Outcome) : List Entry :=
  let names := (o.workers.map Worker.name).toArray
  o.events.filterMap fun event => (record? event).map (⟨names.getD event.task "", ·⟩)

/-- All entries of a run, up to its report.  A refused run has none. -/
def journal (c : Config) (o : Outcome) : List Entry :=
  if c.fault?.isSome then []
  else startedEntry c :: (o.workerEntries ++ (o.workers.filter (·.panicked)).map panickedEntry)

/-- The entries of the thread that runs the workload. -/
def mainEntries (c : Config) (o : Outcome) : List Entry :=
  (o.journal c).filter (·.thread == mainThread)

end Outcome

end ReaderWriter.Workload
