import ReaderWriter.Log.Pattern
import ReaderWriter.Log.Record
import ReaderWriter.Number.Numeral
import ReaderWriter.Text.Bytes

/-!
# Directives of a log filter

A directive is a level, or a target that may be followed by a span in brackets and by `=` and a
level:

    info
    target
    target=level
    target[span]=level
    target[{field}]=level
    target[span{field=value}]=level

A directive without a level admits everything.  A value is a number or a pattern.

The parts are found in the text without the blanks at its ends, and cut out of the text with them at
the same offsets.  So a blank in front shifts every part of the directive, and one behind belongs to
its last part.  The text cannot be read at all if a part would begin or end inside of a character.
-/

namespace ReaderWriter.Log

structure Directive where
  target : Option String := none
  /-- Whether it is about spans, or the value of a field. -/
  inSpan : Bool := false
  fields : List String := []
  /-- The least severity that is admitted; `none` admits nothing. -/
  least : Option Level := some .trace
  deriving DecidableEq, Repr

inductive Unreadable where
  | malformed
  /-- A part begins or ends inside of a character. -/
  | brokenCharacter
  deriving DecidableEq, Repr

abbrev Reading := Except Unreadable

namespace Directive

/-- Levels by number, from the severest on. -/
def levelOfNumber? : Nat → Option (Option Level)
  | 0 => some none
  | 1 => some (some .error)
  | 2 => some (some .warn)
  | 3 => some (some .info)
  | 4 => some (some .debug)
  | 5 => some (some .trace)
  | _ => none

def levelOfName? (name : String) : Option (Option Level) :=
  match name.toLower with
  | "off" => some none
  | "error" => some (some .error)
  | "warn" => some (some .warn)
  | "info" => some (some .info)
  | "debug" => some (some .debug)
  | "trace" => some (some .trace)
  | _ => none

/-- A level by name, in small or capital letters, or by number. -/
def level? (text : String) : Option (Option Level) :=
  match Number.readNatural (UInt64.size - 1) text with
  | .ok n => levelOfNumber? n
  | .error _ => levelOfName? text

/-- The part of a directive to which the next character belongs, with the offset at which that part
begins. -/
inductive Part where
  | nothing
  | word (first : Nat)
  | span (first : Nat)
  | field (first : Nat)
  /-- Behind the braces of a field. -/
  | fieldEnd
  /-- Behind the brackets of a span. -/
  | spanEnd
  | level (first : Nat)
  deriving DecidableEq, Repr

structure Progress where
  directive : Directive := {}
  part : Part := .nothing
  deriving DecidableEq, Repr

/-- Whether a directive that is not about a span may begin with the character. -/
def isStart (c : Char) : Bool :=
  Text.isAlphanumeric c || c == '-' || c == ':' || c == '_'

def cut (text : List Char) (first last : Nat) : Reading String :=
  match Text.cut? text first last with
  | some part => .ok (String.ofList part)
  | none => .error .brokenCharacter

def cutFrom (text : List Char) (first : Nat) : Reading String :=
  cut text first (Text.byteSize text)

/-- Adds a field, whose name ends at the first `=` and whose value at the second one. -/
def withField (d : Directive) (field : String) : Reading Directive :=
  let isPart (c : Char) : Bool := c != '='
  let name := String.ofList (field.toList.takeWhile isPart)
  match field.toList.dropWhile isPart with
  | [] => if name.isEmpty then .error .malformed else .ok { d with fields := d.fields ++ [name] }
  | _ :: rest =>
    let value := String.ofList (rest.takeWhile isPart)
    if Number.isDecimal value || Pattern.isValid value then .ok { d with inSpan := true }
    else .error .malformed

def next (text : List Char) (offset : Nat) (c : Char) (p : Progress) : Reading Progress :=
  let d := p.directive
  let goOn (d : Directive) (part : Part) : Reading Progress := .ok ⟨d, part⟩
  match p.part with
  | .nothing =>
    if c == '[' then goOn d (.span (offset + 1))
    else if isStart c then goOn d (.word offset)
    else .error .malformed
  | .word first =>
    if c == '=' || c == '[' then
      (cut text first offset).bind fun target =>
        goOn { d with target } (if c == '=' then .level (offset + 1) else .span (offset + 1))
    else .ok p
  | .span first =>
    if c == ']' then (cut text first offset).bind fun _ => goOn { d with inSpan := true } .spanEnd
    else if c == '\x7b' then
      (cut text first offset).bind fun name =>
        goOn { d with inSpan := !name.isEmpty } (.field (offset + 1))
    else .ok p
  | .field first =>
    if c == '\x7d' then
      (cut text first offset).bind fun field => (withField d field).bind (goOn · .fieldEnd)
    else .ok p
  | .fieldEnd => if c == ']' then goOn d .spanEnd else .error .malformed
  | .spanEnd => if c == '=' then goOn d (.level (offset + 1)) else .error .malformed
  | .level _ => .ok p

def finish (text : List Char) (p : Progress) : Reading Directive :=
  let d := p.directive
  match p.part with
  | .word first =>
    (cutFrom text first).map fun word =>
      match level? word with
      | some least => { d with least }
      | none => { d with target := some word }
  | .level first =>
    (cutFrom text first).bind fun level =>
      if level.isEmpty then .ok d
      else
        match level? level with
        | some least => .ok { d with least }
        | none => .error .malformed
  | .spanEnd => .ok d
  | _ => .error .malformed

def readFrom (text : List Char) (offset : Nat) (p : Progress) : List Char → Reading Directive
  | [] => finish text p
  | c :: rest => (next text offset c p).bind fun p => readFrom text (offset + c.utf8Size) p rest

def ofText (text : String) : Reading Directive :=
  readFrom text.toList 0 {} (Text.trim text.toList)

end Directive

end ReaderWriter.Log
