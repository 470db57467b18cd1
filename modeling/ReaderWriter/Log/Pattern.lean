import ReaderWriter.Log.Pattern.Depth
import ReaderWriter.Text.Blank
import ReaderWriter.Text.Letters

/-!
# Patterns for the values of fields

A directive may ask for a field whose value matches a pattern.  Nothing here is ever matched against
one, but a filter with a pattern that is none cannot be read.  `Pattern.isValid` says which texts
are patterns.

A pattern is a regular expression.  It is about characters, or about bytes where the flag `u` is
taken away, and must never match a part of a character.  There are no tables of character classes,
so letter case can only be ignored among bytes, and `\d`, `\s`, `\w` and word boundaries exist only
there.  A pattern never holds a closing brace, since that ends the field, so nothing that needs one
can be written: `x{2}`, `\x{41}`, `\p{L}`.  No pattern is nested deeper than `maxDepth`.
-/

namespace ReaderWriter.Log.Pattern

open Text

/-- What the flags at some point of a pattern say. -/
structure Mode where
  /-- It is about characters, not bytes. -/
  unicode : Bool := true
  /-- Small and capital letters are the same. -/
  caseless : Bool := false
  /-- Blanks and comments do not count. -/
  spaced : Bool := false
  deriving DecidableEq, Repr

/-- Without the blanks and comments at its beginning. -/
def skipSpace (inComment : Bool) : List Char → List Char
  | [] => []
  | c :: rest =>
    if inComment then skipSpace (c != '\n') rest
    else if isBlank c then skipSpace false rest
    else if c == '#' then skipSpace true rest
    else c :: rest

def Mode.skip (m : Mode) (text : List Char) : List Char :=
  if m.spaced then skipSpace false text else text

/-- What a single character or an escape stands for. -/
inductive Atom where
  /-- A character; `byte` if it is given by the number of a byte. -/
  | literal (c : Char) (byte : Bool)
  /-- Digits, blanks or word characters, or all others. -/
  | family (negated : Bool)
  /-- A place between characters; `ofWord` if it depends on whether they belong to words. -/
  | boundary (ofWord : Bool)
  deriving DecidableEq, Repr

namespace Atom

def isAdmitted (m : Mode) : Atom → Bool
  | literal c byte => if m.unicode then !m.caseless else !(byte && 0x80 ≤ c.toNat)
  | family negated => !m.unicode && !negated
  | boundary ofWord => !(ofWord && m.unicode)

/-- Whether it can stand inside of brackets. -/
def isMember (m : Mode) : Atom → Bool
  | literal c _ => if m.unicode then !m.caseless else c.toNat < 0x80
  | family negated => !m.unicode && !negated
  | boundary _ => false

end Atom

/-! ## Escapes -/

def hexValue? (c : Char) : Option Nat :=
  if c.isDigit then some (c.toNat - '0'.toNat)
  else if 'a' ≤ c && c ≤ 'f' then some (c.toNat - 'a'.toNat + 10)
  else if 'A' ≤ c && c ≤ 'F' then some (c.toNat - 'A'.toNat + 10)
  else none

/-- Reads a fixed number of hexadecimal digits behind the number `n`. -/
def hexNumber? (m : Mode) (n : Nat) : Nat → List Char → Option (Nat × List Char)
  | 0, text => some (n, text)
  | count + 1, text =>
    match m.skip text with
    | [] => none
    | c :: rest => (hexValue? c).bind fun value => hexNumber? m (16 * n + value) count rest

/-- Reads the number of a character in hexadecimal digits. -/
def numbered? (m : Mode) (count : Nat) (text : List Char) : Option (Atom × List Char) :=
  (hexNumber? m 0 count text).bind fun (n, rest) =>
    if n.isValidChar then some (.literal (Char.ofNat n) (count == 2), rest) else none

def escape? (m : Mode) : List Char → Option (Atom × List Char)
  | [] => none
  | c :: rest =>
    let special (d : Char) : Option (Atom × List Char) := some (.literal d false, rest)
    match c with
    | 'x' => numbered? m 2 rest
    | 'u' => numbered? m 4 rest
    | 'U' => numbered? m 8 rest
    | 'd' | 's' | 'w' => some (.family false, rest)
    | 'D' | 'S' | 'W' => some (.family true, rest)
    | 'A' | 'z' => some (.boundary false, rest)
    | 'b' | 'B' | '<' | '>' => some (.boundary true, rest)
    | 'a' => special '\x07'
    | 'f' => special '\x0c'
    | 't' => special '\t'
    | 'n' => special '\n'
    | 'r' => special '\r'
    | 'v' => special '\x0b'
    | c => if c.toNat < 0x80 && !c.isAlphanum then special c else none

/-! ## Brackets -/

/-- The names that can stand between `[:` and `:]`. -/
def familyNames : List String :=
  ["alnum", "alpha", "ascii", "blank", "cntrl", "digit", "graph", "lower", "print", "punct",
    "space", "upper", "word", "xdigit"]

/-- Reads a named family behind its bracket: whether it is negated, and the rest. -/
def namedFamily? : List Char → Option (Bool × List Char)
  | ':' :: text =>
    let negated := text.head? == some '^'
    let text := if negated then text.tail else text
    let name := String.ofList (text.takeWhile (· != ':'))
    match text.dropWhile (· != ':') with
    | ':' :: ']' :: rest => if familyNames.contains name then some (negated, rest) else none
    | _ => none
  | _ => none

/-- Reads dashes at the beginning of brackets behind some members. -/
def dashes (m : Mode) (members : Members) : Nat → List Char → Members × List Char
  | fuel + 1, '-' :: rest => dashes m (members.push 0) fuel (m.skip rest)
  | _, text => (members, text)

/-- Reads the beginning of brackets behind the bracket itself: what can only stand there, and the
rest. -/
def opening? (m : Mode) (text : List Char) : Option (Members × List Char) :=
  let text := m.skip text
  let negated := text.head? == some '^'
  let text := if negated then m.skip text.tail else text
  let (members, text) := dashes m {} text.length text
  let closing := members == {} && text.head? == some ']'
  let (members, text) :=
    if closing then (members.push 0, m.skip text.tail) else (members, text)
  if text.isEmpty || negated && !m.unicode then none
  else if members != {} && !(Atom.literal '-' false).isMember m then none
  else some (members, text)

/-- Reads a character or an escape inside of brackets. -/
def member? (m : Mode) : List Char → Option (Atom × List Char)
  | [] => none
  | '\\' :: rest => escape? m rest
  | c :: rest => some (.literal c false, rest)

/-- The character behind a dash, as far as it decides whether the dash begins a range. -/
def peek (m : Mode) (text : List Char) : Option Char :=
  if m.spaced then
    let later := text.dropWhile isBlank
    let later := if later.head? == some '#' then later.tail.dropWhile isBlank else later
    later.head?.or text.head?
  else text.head?

/-- Reads a character, an escape or a range inside of brackets. -/
def range? (m : Mode) (text : List Char) : Option (List Char) :=
  (member? m text).bind fun (first, rest) =>
    let alone (rest : List Char) : Option (List Char) :=
      if first.isMember m then some rest else none
    match m.skip rest with
    | [] => none
    | '-' :: more =>
      if peek m more == some ']' || peek m more == some '-' then alone ('-' :: more)
      else
        (member? m (m.skip more)).bind fun (last, rest) =>
          match first, last with
          | .literal c _, .literal d _ =>
            if c ≤ d && first.isMember m && last.isMember m then some rest else none
          | _, _ => none
    | rest => alone rest

/-- Reads up to the end of brackets behind some of their members, with others open `around` them,
the innermost first: the depth of the outermost ones, and the rest. -/
def brackets? (m : Mode) :
    Nat → List Members → Members → List Char → Option (Nat × List Char)
  | 0, _, _, _ => none
  | fuel + 1, around, members, text =>
    match m.skip text with
    | '[' :: rest =>
      match namedFamily? rest with
      | some (negated, rest) =>
        if if m.unicode then m.caseless else negated then none
        else brackets? m fuel around (members.push 0) rest
      | none =>
        (opening? m rest).bind fun (inner, rest) =>
          brackets? m fuel (members :: around) inner rest
    | ']' :: rest =>
      match around with
      | [] => some (members.depth + 1, rest)
      | outer :: around => brackets? m fuel around (outer.push (members.depth + 1)) rest
    | '&' :: '&' :: rest => brackets? m fuel around members.operate rest
    | '-' :: '-' :: rest => brackets? m fuel around members.operate rest
    | '~' :: '~' :: rest => brackets? m fuel around members.operate rest
    | text => (range? m text).bind (brackets? m fuel around (members.push 0))

/-! ## Groups -/

inductive Opened where
  | group (inside : Mode) (name : Option String)
  /-- Flags for what follows, without a group. -/
  | flags (later : Mode)
  deriving DecidableEq, Repr

def isName : List Char → Bool
  | [] => false
  | c :: rest =>
    (c == '_' || isAlphabetic c)
      && rest.all fun d => d == '_' || d == '.' || d == '[' || d == ']' || isAlphanumeric d

/-- Reads the name of a group up to its closing angle bracket. -/
def named? (m : Mode) (text : List Char) : Option (Opened × List Char) :=
  let name := text.takeWhile (· != '>')
  match text.dropWhile (· != '>') with
  | [] => none
  | _ :: rest => if isName name then some (.group m (some (String.ofList name)), rest) else none

/-- The mode under flags: those before a dash are given, those behind it are taken away. -/
def Mode.under (m : Mode) (flags : List Char) : Mode :=
  let given := flags.takeWhile (· != '-')
  let taken := flags.dropWhile (· != '-')
  let flag (c : Char) (old : Bool) : Bool := (old || given.contains c) && !taken.contains c
  { unicode := flag 'u' m.unicode
    caseless := flag 'i' m.caseless
    spaced := flag 'x' m.spaced }

/-- Each flag at most once, and at most one dash, which is not the last. -/
def areFlags (flags : List Char) : Bool :=
  flags.all (fun c => "imsUuRx-".toList.contains c)
    && decide flags.Nodup
    && flags.getLast? != some '-'

/-- Reads flags up to the end of the parentheses or the beginning of the group inside. -/
def flags? (m : Mode) (text : List Char) : Option (Opened × List Char) :=
  let isFlag (c : Char) : Bool := c != ':' && c != ')'
  let flags := text.takeWhile isFlag
  if !areFlags flags then none
  else
    match text.dropWhile isFlag with
    | ':' :: rest => some (.group (m.under flags) none, rest)
    | ')' :: rest => if flags.isEmpty then none else some (.flags (m.under flags), rest)
    | _ => none

def opened? (m : Mode) (text : List Char) : Option (Opened × List Char) :=
  match m.skip text with
  | '?' :: '<' :: '=' :: _ => none
  | '?' :: '<' :: '!' :: _ => none
  | '?' :: '<' :: rest => named? m rest
  | '?' :: 'P' :: '<' :: rest => named? m rest
  | '?' :: rest => flags? m rest
  | rest => some (.group m none, rest)

/-! ## Whole patterns -/

structure Progress where
  mode : Mode := {}
  /-- The innermost group that is open, or else the pattern. -/
  body : Body := {}
  /-- What is open around it, each with its mode, the innermost first. -/
  around : List (Mode × Body) := []
  names : List String := []
  /-- Whether there is something to repeat. -/
  repeatable : Bool := false
  deriving DecidableEq, Repr

namespace Progress

def push (p : Progress) (depth : Nat) : Progress :=
  { p with body := p.body.push depth, repeatable := true }

def repeatLast (p : Progress) : Progress := { p with body := p.body.repeatLast }

def change (p : Progress) (later : Mode) : Progress :=
  { p with mode := later, body := p.body.push 0, repeatable := false }

def choose (p : Progress) : Progress := { p with body := p.body.choose, repeatable := false }

/-- Begins a group, unless another one has its name. -/
def enter? (p : Progress) (inside : Mode) (name : Option String) : Option Progress :=
  if name.any p.names.contains then none
  else
    some
      { mode := inside
        around := (p.mode, p.body) :: p.around
        names := name.toList ++ p.names }

/-- Ends a group, if one is open. -/
def leave? (p : Progress) : Option Progress :=
  match p.around with
  | [] => none
  | (mode, body) :: around => some ({ p with mode, body, around }.push (p.body.depth + 1))

def isComplete (p : Progress) : Bool := p.around.isEmpty && p.body.depth ≤ maxDepth

end Progress

def isValidFrom : Nat → Progress → List Char → Bool
  | 0, _, _ => false
  | fuel + 1, p, text =>
    let again (rest : List Char) : Bool :=
      p.repeatable
        && isValidFrom fuel p.repeatLast (if rest.head? == some '?' then rest.tail else rest)
    match p.mode.skip text with
    | [] => p.isComplete
    | '(' :: rest =>
      match opened? p.mode rest with
      | none => false
      | some (.flags later, rest) => isValidFrom fuel (p.change later) rest
      | some (.group inside name, rest) =>
        match p.enter? inside name with
        | none => false
        | some p => isValidFrom fuel p rest
    | ')' :: rest =>
      match p.leave? with
      | none => false
      | some p => isValidFrom fuel p rest
    | '|' :: rest => isValidFrom fuel p.choose rest
    | '[' :: rest =>
      match (opening? p.mode rest).bind fun (members, rest) =>
          brackets? p.mode fuel [] members rest with
      | none => false
      | some (depth, rest) => isValidFrom fuel (p.push depth) rest
    | '{' :: _ => false
    | '?' :: rest => again rest
    | '*' :: rest => again rest
    | '+' :: rest => again rest
    | '\\' :: rest =>
      match escape? p.mode rest with
      | none => false
      | some (atom, rest) => atom.isAdmitted p.mode && isValidFrom fuel (p.push 0) rest
    | '.' :: rest => p.mode.unicode && isValidFrom fuel (p.push 0) rest
    | '^' :: rest => isValidFrom fuel (p.push 0) rest
    | '$' :: rest => isValidFrom fuel (p.push 0) rest
    | c :: rest =>
      (Atom.literal c false).isAdmitted p.mode && isValidFrom fuel (p.push 0) rest

/-- Whether a text without closing braces is a pattern.  Every step of the reading takes at least
one character, so the length of the text bounds them. -/
def isValid (text : String) : Bool :=
  isValidFrom (text.length + 1) {} text.toList

end ReaderWriter.Log.Pattern
