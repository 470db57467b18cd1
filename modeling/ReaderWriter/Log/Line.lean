import ReaderWriter.Log.Record
import ReaderWriter.Text.Json

/-!
# Log lines

An entry as one line, in words or as a JSON object, with the text of the time at which it was made.
-/

namespace ReaderWriter.Log

inductive Form where
  | words
  | json
  deriving DecidableEq, Repr

namespace Form

/-- The form asked for by a variable, which is `1` or `true` for JSON. -/
def ofVariable (value : Option String) : Form :=
  if value = some "1" ∨ value = some "true" then .json else .words

end Form

def Value.json : Value → String
  | .number n => toString n
  | .text s => Text.Json.string s

namespace Entry

def words (e : Entry) (time : String) : String :=
  " ".intercalate
    [time, e.record.level.banner, e.thread, e.record.target ++ ":", e.record.body]

def json (e : Entry) (time : String) : String :=
  let fields := ("message", Value.text e.record.message) :: e.record.fields
  Text.Json.object
    [ ("timestamp", Text.Json.string time),
      ("level", Text.Json.string e.record.level.banner),
      ("fields", Text.Json.object (fields.map fun (name, value) => (name, value.json))),
      ("target", Text.Json.string e.record.target),
      ("threadName", Text.Json.string e.thread) ]

def line (e : Entry) (time : String) : Form → String
  | .words => e.words time
  | .json => e.json time

end Entry

end ReaderWriter.Log
