import ReaderWriter.Policy

/-!
# The flags of the command

Every flag takes a value, and all of them are optional.  A flag that is not given has a default of
its own.
-/

namespace ReaderWriter.Command

inductive Flag where
  | policy
  | threads
  | writers
  | readerLoops
  | writerLoops
  | minSleepMs
  | maxSleepMs
  deriving DecidableEq, Repr

namespace Flag

/-- In the order in which the help lists them. -/
def all : List Flag :=
  [.policy, .threads, .writers, .readerLoops, .writerLoops, .minSleepMs, .maxSleepMs]

def name : Flag → String
  | .policy => "policy"
  | .threads => "threads"
  | .writers => "writers"
  | .readerLoops => "reader-loops"
  | .writerLoops => "writer-loops"
  | .minSleepMs => "min-sleep-ms"
  | .maxSleepMs => "max-sleep-ms"

def valueName : Flag → String
  | .policy => "POLICY"
  | .threads => "THREADS"
  | .writers => "WRITERS"
  | .readerLoops => "READER_LOOPS"
  | .writerLoops => "WRITER_LOOPS"
  | .minSleepMs => "MIN_SLEEP_MS"
  | .maxSleepMs => "MAX_SLEEP_MS"

/-- A flag with its value, as messages and the help show it. -/
def usage (flag : Flag) : String :=
  "--" ++ flag.name ++ " <" ++ flag.valueName ++ ">"

def ofName? (name : String) : Option Flag :=
  all.find? (·.name == name)

def purpose : Flag → String
  | .policy => "Lock policy to run, every policy one after another when omitted"
  | .threads => "Total number of threads"
  | .writers => "How many of the threads are writers"
  | .readerLoops => "Calls per reader thread"
  | .writerLoops => "Calls per writer thread"
  | .minSleepMs => "Lower bound of the time spent in a critical section"
  | .maxSleepMs => "Upper bound (exclusive) of the time spent in a critical section"

theorem ofName?_name (flag : Flag) : ofName? flag.name = some flag := by
  cases flag <;> decide

end Flag

/-- The values of the flags that are not given.  Without a policy all policies are run. -/
structure Defaults where
  threads : Nat := 20
  writers : Nat := 5
  readerLoops : Nat := 200
  writerLoops : Nat := 40
  minSleepMs : Nat := 1
  maxSleepMs : Nat := 10

/-- The default of a flag as the help shows it; for the policy its choices. -/
def Flag.remark (flag : Flag) : String :=
  let standard : Defaults := {}
  let default (n : Nat) : String := "[default: " ++ toString n ++ "]"
  match flag with
  | .policy => "[possible values: " ++ ", ".intercalate (Policy.all.map Policy.name) ++ "]"
  | .threads => default standard.threads
  | .writers => default standard.writers
  | .readerLoops => default standard.readerLoops
  | .writerLoops => default standard.writerLoops
  | .minSleepMs => default standard.minSleepMs
  | .maxSleepMs => default standard.maxSleepMs

def commandName : String := "rw-fairness"

def helpPurpose : String :=
  "Drive a reader-writer lock with random reader and writer threads and report how fair it was"

/-- The lines of the help, with all purposes in one column. -/
def helpLines : List String :=
  let column := (Flag.all.map (·.usage.length)).foldl max 0 + 2
  let line (indent usage text : String) : String :=
    indent ++ usage.pushn ' ' (column - usage.length) ++ text
  let flagLine (flag : Flag) : String :=
    line "      " flag.usage (flag.purpose ++ " " ++ flag.remark)
  [helpPurpose, "", "Usage: " ++ commandName ++ " [OPTIONS]", "", "Options:"]
    ++ Flag.all.map flagLine
    ++ [line "  -h, " "--help" "Print help"]

def helpText : String := String.join (helpLines.map (· ++ "\n"))

end ReaderWriter.Command
