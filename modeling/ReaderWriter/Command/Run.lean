import ReaderWriter.Command.Arguments
import ReaderWriter.Log.Filter
import ReaderWriter.Log.Line
import ReaderWriter.Workload.Journal

/-!
# The whole command

Runs the workload that the arguments ask for under one policy after another, with a report for each.
The first fault ends it.  The log goes to the same output as the reports.  A log filter that is
broken inside of a character ends the command before it looks at the arguments.
-/

namespace ReaderWriter.Command

open Log Number Workload

/-- The variables that the command looks at. -/
structure Environment where
  logFilter : Option String := none
  logJson : Option String := none
  deriving DecidableEq, Repr

/-- How a span of time is shown in a report, and inside of a structured value. -/
structure TimeStyle where
  report : Duration → String := Duration.text
  structured : Duration → String := Duration.exactText

inductive Line where
  | plain (text : String)
  | logged (entry : Entry)
  deriving DecidableEq, Repr

/-- The text of a line, with the time and the form for log lines. -/
def Line.text (line : Line) (time : String) (form : Form) : String :=
  match line with
  | .plain text => text
  | .logged entry => entry.line time form

structure Outcome where
  exitCode : Nat
  output : List Line
  complaint : Option String := none
  deriving DecidableEq, Repr

/-- What one policy's run puts out, and its fault if there is one. -/
def runPolicy (filter : Filter) (style : TimeStyle) (c : Config) (chance : Chance) :
    List Line × Option Fault :=
  let outcome := Workload.run c chance
  let log (entries : List Entry) : List Line :=
    (entries.filter (filter.admits ·.record)).map .logged
  let journal := outcome.journal c
  match outcome.result with
  | .error fault => (log journal, some fault)
  | .ok report =>
    let finished := finishedEntry report (style.structured report.elapsed)
    let lines := report.lines (style.report report.elapsed)
    (log (journal ++ [finished]) ++ lines.map .plain, none)

/-- Runs the policies one after another up to the first fault. -/
def runPolicies (filter : Filter) (style : TimeStyle) (chance : Config → Chance) :
    List Config → Outcome
  | [] => { exitCode := 0, output := [] }
  | c :: rest =>
    match runPolicy filter style c (chance c) with
    | (lines, some fault) =>
      { exitCode := 1, output := lines, complaint := some ("Error: " ++ Text.quoted fault.message) }
    | (lines, none) =>
      let later := runPolicies filter style chance rest
      { later with output := lines ++ later.output }

/-- The command broke down: its complaint begins with an empty line. -/
def Outcome.breakdown : Outcome := { exitCode := 101, output := [], complaint := some "" }

def runWith (filter : Filter) (arguments : List String) (style : TimeStyle)
    (chance : Config → Chance) : Outcome :=
  match read arguments with
  | .error .help => { exitCode := Stop.help.exitCode, output := helpLines.map .plain }
  | .error (.refused refusal) =>
    { exitCode := (Stop.refused refusal).exitCode
      output := []
      complaint := some refusal.complaint }
  | .ok a => runPolicies filter style chance (a.policies.map a.config)

def run (arguments : List String) (environment : Environment) (style : TimeStyle)
    (chance : Config → Chance) : Outcome :=
  match Filter.ofVariable? environment.logFilter with
  | none => .breakdown
  | some filter => runWith filter arguments style chance

end ReaderWriter.Command
