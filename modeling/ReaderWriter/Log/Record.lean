import ReaderWriter.Lock

/-!
# Log records

What is logged, before it becomes a line: a level, the part of the program that speaks, a message
and named values.
-/

namespace ReaderWriter.Log

inductive Level where
  | trace
  | debug
  | info
  | warn
  | error
  deriving DecidableEq, Repr

namespace Level

def severity : Level → Nat
  | .trace => 1
  | .debug => 2
  | .info => 3
  | .warn => 4
  | .error => 5

def name : Level → String
  | .trace => "trace"
  | .debug => "debug"
  | .info => "info"
  | .warn => "warn"
  | .error => "error"

/-- The name of the level at the head of a line. -/
def banner : Level → String
  | .trace => "TRACE"
  | .debug => "DEBUG"
  | .info => "INFO"
  | .warn => "WARN"
  | .error => "ERROR"

end Level

inductive Value where
  | number (n : Nat)
  | text (s : String)
  deriving DecidableEq, Repr

def Value.render : Value → String
  | .number n => toString n
  | .text s => s

structure Record where
  level : Level
  /-- The part of the program that speaks. -/
  target : String
  message : String
  fields : List (String × Value)
  deriving DecidableEq, Repr

structure Entry where
  thread : String
  record : Record
  deriving DecidableEq, Repr

namespace Record

/-- The message and then each value behind its name. -/
def body (r : Record) : String :=
  r.fields.foldl (fun text (name, value) => text ++ " " ++ name ++ "=" ++ value.render) r.message

end Record

def Entry.brief (e : Entry) : String :=
  e.thread ++ " " ++ e.record.level.name ++ ": " ++ e.record.body

/-- The part of the program in which the ticketed lock speaks. -/
def ticketTarget : String := "rw_fairness::fair_ticket"

/-- The part of the program in which the workload speaks. -/
def workloadTarget : String := "rw_fairness::workload"

/-- The name of a present optional number, as records show it. -/
def someNumber (n : Nat) : String := "Some(" ++ toString n ++ ")"

/-- The record of what a lock reports. -/
def ofTrace (trace : Trace) : Record :=
  let (message, field) : String × String × Value :=
    match trace with
    | .ticketIssued ticket => ("writer ticket issued", "ticket", .number ticket)
    | .ticketAdmitted ticket => ("writer admitted", "ticket", .number ticket)
    | .ticketCompleted ticket => ("writer completed", "ticket", .number ticket)
    | .readerQueued ticket =>
      ("reader queued behind writer", "wait_for", .text (someNumber ticket))
  { level := .trace, target := ticketTarget, message, fields := [field] }

end ReaderWriter.Log
