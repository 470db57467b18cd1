import ReaderWriter.Script.Run
import ReaderWriter.Log.Record

/-!
# Scripts in words

The words for commands, and the text of events, views and reasons.
-/

namespace ReaderWriter

/-- What is said when an access is given back that nobody holds. -/
def Mode.misuse : Mode → String
  | .shared => "unlock_shared without a reader"
  | .exclusive => "unlock_exclusive without a writer"

def Mode.word : Mode → String
  | .shared => "read"
  | .exclusive => "write"

def Mode.letter : Mode → String
  | .shared => "r"
  | .exclusive => "w"

def Call.word : Call → String
  | .acquire .shared => "lock_shared"
  | .acquire .exclusive => "lock_exclusive"
  | .release .shared => "unlock_shared"
  | .release .exclusive => "unlock_exclusive"

namespace Script

def listText (data : List Int) : String :=
  "[" ++ ", ".intercalate (data.map toString) ++ "]"

namespace Style

def ofName? : String → Option Style
  | "closure" => some .closure
  | "guard" => some .guard
  | "raw" => some .raw
  | _ => none

end Style

/-- The command that a word stands for, with the value and the message given beside it. -/
def Command.ofWord? (word : String) (value : Int) (message : String) : Option Command :=
  match word with
  | "read" => some (.enter .shared)
  | "write" => some (.enter .exclusive)
  | "leave" => some (.leave value)
  | "panic" => some (.panic message)
  | "get" => some .get
  | "push" => some (.push value)
  | "clear" => some .clear
  | "lock_shared" => some (.call (.acquire .shared))
  | "unlock_shared" => some (.call (.release .shared))
  | "lock_exclusive" => some (.call (.acquire .exclusive))
  | "unlock_exclusive" => some (.call (.release .exclusive))
  | _ => none

/-- The text of a note; changes of the data do not show. -/
def Note.text? : Note → Option String
  | .entered mode => some ("enter " ++ mode.word)
  | .left mode value => some ("left " ++ mode.word ++ " " ++ toString value)
  | .panicked message => some ("panicked: " ++ message)
  | .misused mode => some ("panicked: " ++ mode.misuse)
  | .saw data => some ("sees " ++ listText data)
  | .called call => some ("did " ++ call.word)
  | .pushed _ => none
  | .cleared => none

/-- The text of an event, if it is one that shows. -/
def eventText? (name : Nat → String) : Event Note → Option String
  | .noted task note => note.text?.map (name task ++ " " ++ ·)
  | .traced task trace => some (Log.Entry.brief ⟨name task, Log.ofTrace trace⟩)
  | _ => none

def TaskView.text (v : TaskView) : String :=
  String.join (v.held.map Mode.letter) ++ if v.waits then "?" else ""

def Reason.text : Reason → String
  | .badStep => "bad step"
  | .blocked => "blocked"
  | .busy => "busy"
  | .notAllowedHere => "not allowed here"
  | .notBlocked => "not blocked"

def Ignored.text (i : Ignored) : String :=
  i.task ++ ": " ++ i.reason.text

def nameOf (s : Script) (task : Nat) : String :=
  s.names.getD task ""

end Script

end ReaderWriter
