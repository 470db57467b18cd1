import ReaderWriter.Command.Flag
import ReaderWriter.Number.Numeral
import ReaderWriter.Text.Terminal
import ReaderWriter.Workload.Config

/-!
# Reading the arguments

Arguments are read from left to right.  A flag takes the value behind `=`, or else the next argument
unless that one begins with a dash.  An unknown argument is refused where it stands.  A flag whose
value stands behind it is taken, and its value looked at, only when the next flag follows or at the
end.
-/

namespace ReaderWriter.Command

open Number Workload
open Text.Terminal (Interruption plain)

/-- Why a numeral is no value of a flag. -/
inductive ValueFault where
  | numeral (fault : NumeralFault)
  | outOfRange (n : Int)
  deriving DecidableEq, Repr

def maxLoops : Nat := UInt32.size - 1

def maxWord : Nat := UInt64.size - 1

def ValueFault.message : ValueFault → String
  | .numeral fault => fault.message
  | .outOfRange n => toString n ++ " is not in 0..=" ++ toString maxLoops

inductive Refusal where
  | unexpectedArgument (argument : String)
  | unexpectedValue (option value : String)
  | valueMissing (flag : Flag)
  | repeated (flag : Flag)
  | unknownChoice (flag : Flag) (value : String)
  | badValue (flag : Flag) (value : String) (fault : ValueFault)
  deriving DecidableEq, Repr

namespace Refusal

/-- What is said of a refusal, with an argument between quotation marks as a terminal shows it. -/
def reason (i : Interruption) (r : Refusal) : String :=
  let quote (argument : String) : String := "'" ++ plain i argument ++ "'"
  match r with
  | .unexpectedArgument argument => "unexpected argument " ++ quote argument ++ " found"
  | .unexpectedValue option value =>
    "unexpected value " ++ quote value ++ " for " ++ quote option
      ++ " found; no more were expected"
  | .valueMissing flag => "a value is required for " ++ quote flag.usage ++ " but none was supplied"
  | .repeated flag => "the argument " ++ quote flag.usage ++ " cannot be used multiple times"
  | .unknownChoice flag value => "invalid value " ++ quote value ++ " for " ++ quote flag.usage
  | .badValue flag value fault =>
    "invalid value " ++ quote value ++ " for " ++ quote flag.usage ++ ": " ++ fault.message

/-- The first line of a text, without the carriage return at its end. -/
def firstLine (text : List Char) : List Char :=
  let line := text.takeWhile (· != '\n')
  if line.getLast? == some '\r' then line.dropLast else line

def line (i : Interruption) (r : Refusal) : String :=
  "error: " ++ String.ofList (firstLine (r.reason i).toList)

/-- The message as a text of its own: a control sequence in it is over where it is interrupted. -/
def message (r : Refusal) : String := r.line .ends

/-- The message as the command puts it out: a control sequence in it goes on behind an
interruption. -/
def complaint (r : Refusal) : String := r.line .pauses

def kind : Refusal → String
  | .unexpectedArgument _ => "UnknownArgument"
  | .unexpectedValue .. => "TooManyValues"
  | .valueMissing _ => "InvalidValue"
  | .repeated _ => "ArgumentConflict"
  | .unknownChoice .. => "InvalidValue"
  | .badValue .. => "ValueValidation"

end Refusal

/-- Why no workload is run: the help was asked for, or the arguments are refused. -/
inductive Stop where
  | help
  | refused (refusal : Refusal)
  deriving DecidableEq, Repr

structure Arguments where
  policy : Option Policy := none
  threads : Option Nat := none
  writers : Option Nat := none
  readerLoops : Option Nat := none
  writerLoops : Option Nat := none
  minSleepMs : Option Nat := none
  maxSleepMs : Option Nat := none
  deriving DecidableEq, Repr

namespace Arguments

def has (a : Arguments) : Flag → Bool
  | .policy => a.policy.isSome
  | .threads => a.threads.isSome
  | .writers => a.writers.isSome
  | .readerLoops => a.readerLoops.isSome
  | .writerLoops => a.writerLoops.isSome
  | .minSleepMs => a.minSleepMs.isSome
  | .maxSleepMs => a.maxSleepMs.isSome

def policies (a : Arguments) : List Policy :=
  match a.policy with
  | some policy => [policy]
  | none => Policy.all

def config (a : Arguments) (policy : Policy) : Config :=
  let standard : Defaults := {}
  { policy
    threads := a.threads.getD standard.threads
    writers := a.writers.getD standard.writers
    readerLoops := a.readerLoops.getD standard.readerLoops
    writerLoops := a.writerLoops.getD standard.writerLoops
    minSleepMs := a.minSleepMs.getD standard.minSleepMs
    maxSleepMs := a.maxSleepMs.getD standard.maxSleepMs }

end Arguments

def readWord (value : String) : Except ValueFault Nat :=
  (readNatural maxWord value).mapError .numeral

def readLoops (value : String) : Except ValueFault Nat :=
  match readInteger value with
  | .error fault => .error (.numeral fault)
  | .ok n => if 0 ≤ n ∧ n ≤ maxLoops then .ok n.toNat else .error (.outOfRange n)

def refuse {α : Type} (r : Refusal) : Except Stop α := .error (.refused r)

def give (a : Arguments) (flag : Flag) (value : String) : Except Stop Arguments :=
  if a.has flag then refuse (.repeated flag)
  else
    let number (read : Except ValueFault Nat) : Except Stop Nat :=
      read.mapError fun fault => .refused (.badValue flag value fault)
    match flag with
    | .policy =>
      match Policy.ofName? value with
      | some policy => .ok { a with policy := some policy }
      | none =>
        if value.isEmpty then refuse (.valueMissing flag) else refuse (.unknownChoice flag value)
    | .threads => (number (readWord value)).map fun n => { a with threads := some n }
    | .writers => (number (readWord value)).map fun n => { a with writers := some n }
    | .readerLoops => (number (readLoops value)).map fun n => { a with readerLoops := some n }
    | .writerLoops => (number (readLoops value)).map fun n => { a with writerLoops := some n }
    | .minSleepMs => (number (readWord value)).map fun n => { a with minSleepMs := some n }
    | .maxSleepMs => (number (readWord value)).map fun n => { a with maxSleepMs := some n }

inductive Shape where
  /-- Two dashes alone: no option follows. -/
  | endOfOptions
  | long (name : String) (value : Option String)
  | short (letter : Char)
  | plain
  deriving DecidableEq, Repr

def shape (argument : String) : Shape :=
  match argument.toList with
  | ['-', '-'] => .endOfOptions
  | '-' :: '-' :: rest =>
    let name := String.ofList (rest.takeWhile (· != '='))
    match rest.dropWhile (· != '=') with
    | [] => .long name none
    | _ :: value => .long name (some (String.ofList value))
  | '-' :: letter :: _ => .short letter
  | _ => .plain

/-- A flag whose value, if there is one, stands in an argument of its own. -/
structure Pending where
  flag : Flag
  value : Option String := none
  deriving DecidableEq, Repr

/-- Takes the flag that was read last, now that nothing more can belong to it. -/
def close (a : Arguments) : Option Pending → Except Stop Arguments
  | none => .ok a
  | some ⟨flag, none⟩ => refuse (.valueMissing flag)
  | some ⟨flag, some value⟩ => give a flag value

/-- Reads the arguments behind those that gave `a`. -/
def readFrom (a : Arguments) (pending : Option Pending) : List String → Except Stop Arguments
  | [] => close a pending
  | argument :: rest =>
    match shape argument with
    | .endOfOptions =>
      match rest with
      | [] => close a pending
      | next :: _ => refuse (.unexpectedArgument next)
    | .long "help" none => (close a pending).bind fun _ => .error .help
    | .long "help" (some value) => refuse (.unexpectedValue "--help" value)
    | .long name value =>
      match Flag.ofName? name, value with
      | none, _ => refuse (.unexpectedArgument ("--" ++ name))
      | some flag, none => (close a pending).bind fun a => readFrom a (some { flag }) rest
      | some flag, some value =>
        (close a pending).bind fun a => (give a flag value).bind fun a => readFrom a none rest
    | .short 'h' => (close a pending).bind fun _ => .error .help
    | .short letter => refuse (.unexpectedArgument ("-" ++ letter.toString))
    | .plain =>
      match pending with
      | some ⟨flag, none⟩ => readFrom a (some ⟨flag, some argument⟩) rest
      | _ => refuse (.unexpectedArgument argument)

def read (arguments : List String) : Except Stop Arguments :=
  readFrom {} none arguments

namespace Stop

def exitCode : Stop → Nat
  | .help => 0
  | .refused _ => 2

def kind : Stop → String
  | .help => "DisplayHelp"
  | .refused refusal => refusal.kind

def message : Stop → String
  | .help => helpText
  | .refused refusal => refusal.message

end Stop

end ReaderWriter.Command
