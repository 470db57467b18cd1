import ReaderWriter.Log.Directive

/-!
# Which records are logged

A filter is a list of directives between commas.  Of the directives whose target begins that of a
record, and whose fields the record has, the closest one decides: the one with the longest target,
then with the most fields, then with the greatest names of fields.  No record is made inside of a
span, so a directive that names one, or the value of a field, decides nothing.
-/

namespace ReaderWriter.Log

namespace Directive

def concerns (d : Directive) (r : Record) : Bool :=
  !d.inSpan
    && (match d.target with
        | none => true
        | some target => target.toList.isPrefixOf r.target.toList)
    && d.fields.all fun field => field == "message" || r.fields.any (·.1 == field)

/-- The size of the target, where none at all is less than an empty one. -/
def targetSize (d : Directive) : Nat :=
  match d.target with
  | none => 0
  | some target => target.utf8ByteSize + 1

/-- Whether another directive about the same record describes it more closely. -/
def isLessClose (d other : Directive) : Bool :=
  d.targetSize < other.targetSize
    || d.targetSize == other.targetSize
      && (d.fields.length < other.fields.length
        || d.fields.length == other.fields.length && d.fields < other.fields)

def admits (d : Directive) (r : Record) : Bool :=
  match d.least with
  | none => false
  | some least => least.severity ≤ r.level.severity

end Directive

structure Filter where
  directives : List Directive
  deriving DecidableEq, Repr

namespace Filter

/-- Admits a level and what is severer, whatever the target. -/
def atLeast (level : Level) : Filter := ⟨[{ least := some level }]⟩

/-- Reads directives up to the first one that cannot be read. -/
def ofText (text : String) : Reading Filter :=
  let pieces := (text.splitOn ",").filter (!·.isEmpty)
  if pieces.isEmpty then .ok (atLeast .error)
  else (pieces.mapM Directive.ofText).map Filter.mk

/-- The filter that a variable asks for; without one that follows the grammar, from `info` on.
There is none at all if a part of the variable begins or ends inside of a character. -/
def ofVariable? (value : Option String) : Option Filter :=
  match value.map ofText with
  | none => some (atLeast .info)
  | some (.ok filter) => some filter
  | some (.error .malformed) => some (atLeast .info)
  | some (.error .brokenCharacter) => none

/-- The directive that decides about a record: the closest, and of equally close ones the last. -/
def deciding? (f : Filter) (r : Record) : Option Directive :=
  (f.directives.filter (·.concerns r)).foldl
    (fun best d =>
      match best with
      | none => some d
      | some b => if d.isLessClose b then some b else some d)
    none

def admits (f : Filter) (r : Record) : Bool :=
  match f.deciding? r with
  | none => false
  | some d => d.admits r

end Filter

end ReaderWriter.Log
