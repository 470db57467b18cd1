import ReaderWriter.Command.Run

/-!
# The program

Reads the arguments and the environment, takes a seed for everything that chance decides, and prints
the outcome of the command.  Naps take no real time: the time in a report is the time of the run's
own clock.  The time of a log line is that of the machine's clock.
-/

open ReaderWriter in
def main (arguments : List String) : IO UInt32 := do
  let environment : Command.Environment :=
    { logFilter := ← IO.getEnv "RUST_LOG", logJson := ← IO.getEnv "RW_FAIRNESS_LOG_JSON" }
  let seed := (← IO.rand 0 (UInt64.size / 4)).toUInt64
  let time := toString (← IO.monoMsNow) ++ "ms"
  let form := Log.Form.ofVariable environment.logJson
  let outcome := Command.run arguments environment {} (.ofSeed seed)
  for line in outcome.output do
    IO.println (line.text time form)
  for line in outcome.complaint do
    IO.eprintln line
  return outcome.exitCode.toUInt32
