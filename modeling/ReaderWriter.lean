import ReaderWriter.Lock.Text
import ReaderWriter.Main
import ReaderWriter.Script.Text
import ReaderWriter.Proofs.Scene
import ReaderWriter.Proofs.Accesses
import ReaderWriter.Proofs.History
import ReaderWriter.Proofs.Parking
import ReaderWriter.Proofs.Rest
import ReaderWriter.Proofs.Acting
import ReaderWriter.Proofs.Turns
import ReaderWriter.Proofs.Tickets
import ReaderWriter.Proofs.Counters
import ReaderWriter.Proofs.Overtaking
import ReaderWriter.Proofs.Script.Course
import ReaderWriter.Proofs.Script.Holding
import ReaderWriter.Proofs.Script.Exclusion
import ReaderWriter.Proofs.Ledger
import ReaderWriter.Proofs.Script.Fairness
import ReaderWriter.Proofs.Script.Waking
import ReaderWriter.Proofs.Progress
import ReaderWriter.Proofs.Script.Turns
import ReaderWriter.Proofs.Script.Leaving
import ReaderWriter.Proofs.Script.Draining
import ReaderWriter.Proofs.Line
import ReaderWriter.Proofs.Granting
import ReaderWriter.Proofs.Serving
import ReaderWriter.Proofs.Script.Serving
import ReaderWriter.Proofs.Balance
import ReaderWriter.Proofs.Workload.Course
import ReaderWriter.Proofs.Workload.Working
import ReaderWriter.Proofs.Workload.Moves
import ReaderWriter.Proofs.Workload.Ending
import ReaderWriter.Proofs.Workload.Calls
import ReaderWriter.Proofs.Workload.Outcome
import ReaderWriter.Proofs.Workload.Positions
import ReaderWriter.Proofs.Script.Reentrance
import ReaderWriter.Proofs.Script.Spans
import ReaderWriter.Proofs.Script.Data
import ReaderWriter.Proofs.Script.Isolation
import ReaderWriter.Proofs.Plain
import ReaderWriter.Proofs.Reading
import ReaderWriter.Proofs.Script.Agreement
import ReaderWriter.Proofs.Agreement
import ReaderWriter.Proofs.Alike
import ReaderWriter.Proofs.Script.Single
import ReaderWriter.Proofs.Script.Unwinding
import ReaderWriter.Proofs.Workload.Naps
import ReaderWriter.Proofs.Renaming
import ReaderWriter.Proofs.Script.Bare
import ReaderWriter.Proofs.Script.Renaming
import ReaderWriter.Proofs.Script.Deletion
import ReaderWriter.Proofs.Schedule
import ReaderWriter.Proofs.Script.Writers
import ReaderWriter.Proofs.Script.Wakeups
import ReaderWriter.Proofs.Script.Arriving
import ReaderWriter.Proofs.Translation
import ReaderWriter.Proofs.Script.Styles
import ReaderWriter.Proofs.Script.Occupying
import ReaderWriter.Proofs.Script.Preference
import ReaderWriter.Proofs.Script.Relay
import ReaderWriter.Proofs.Number.Numerals
import ReaderWriter.Proofs.Command.Settings
import ReaderWriter.Proofs.Number.Durations
import ReaderWriter.Proofs.Workload.Printed
import ReaderWriter.Proofs.Workload.Tallies
