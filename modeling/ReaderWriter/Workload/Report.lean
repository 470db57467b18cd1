import ReaderWriter.Number.Double
import ReaderWriter.Number.Duration
import ReaderWriter.Policy
import ReaderWriter.Text.Structured

/-!
# The report of a workload

For each role the number of calls and the mean position at which they entered, then the counter.
Lower positions were served earlier.
-/

namespace ReaderWriter.Workload

open Number

structure Report where
  policy : Policy
  readerCalls : UInt64
  writerCalls : UInt64
  readerMean : Float
  writerMean : Float
  finalCounter : UInt64
  elapsed : Duration

namespace Report

def roleLine (role : String) (calls : UInt64) (mean : Float) : String :=
  "  " ++ role ++ " n: " ++ toString calls.toNat ++ ", avg order: "
    ++ (Double.ofFloat mean).twoPlaces

/-- The lines of the report, with the text of the time that it took. -/
def lines (r : Report) (elapsed : String) : List String :=
  [ r.policy.name ++ " (" ++ elapsed ++ ")",
    roleLine "reader" r.readerCalls r.readerMean,
    roleLine "writer" r.writerCalls r.writerMean,
    "  data: " ++ toString r.finalCounter.toNat ]

def text (r : Report) : String :=
  String.join ((r.lines r.elapsed.text).map (· ++ "\n"))

/-- The report as a structured value, with the text of the time that it took. -/
def structuredText (r : Report) (elapsed : String) : String :=
  Text.structured "WorkloadReport"
    [ ("policy", r.policy.variantName),
      ("reader_calls", toString r.readerCalls.toNat),
      ("writer_calls", toString r.writerCalls.toNat),
      ("reader_mean_position", (Double.ofFloat r.readerMean).shortestText),
      ("writer_mean_position", (Double.ofFloat r.writerMean).shortestText),
      ("final_counter", toString r.finalCounter.toNat),
      ("elapsed", elapsed) ]

end Report

end ReaderWriter.Workload
