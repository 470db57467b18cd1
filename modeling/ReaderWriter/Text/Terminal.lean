/-!
# Text without terminal controls

A terminal does not show the control sequences in a text.  They begin with an escape character, and
what comes behind it says where they end.  `plain` is what is left of a text without them and
without the controls that stand alone; tabs, line ends and form feeds stay, also where they
interrupt a sequence.

A sequence consists of bytes.  Those of a character outside of ASCII mean nothing inside of one, so
the character is left out, but the byte `9C` ends a string.
-/

namespace ReaderWriter.Text.Terminal

/-- A control sequence, as far as it was read. -/
inductive Sequence where
  /-- Begun by an escape character. -/
  | escape
  /-- Begun by an escape character and punctuation. -/
  | designation
  /-- Begun by `ESC [`: parameters, then a letter. -/
  | control
  /-- Begun by `ESC ]`: any text up to a bell or the next escape character. -/
  | command
  /-- Begun by `ESC P`: parameters and punctuation, then a letter and a string. -/
  | device
  /-- The parameters behind `ESC P`. -/
  | parameters
  /-- The punctuation behind `ESC P` and its parameters. -/
  | punctuation
  /-- Any text up to the byte `9C` or the next escape character. -/
  | string
  deriving DecidableEq, Repr

/-- What the next character belongs to. -/
inductive Place where
  | text
  | inside (sequence : Sequence)
  /-- Text inside of a sequence, which goes on at the next control. -/
  | paused (sequence : Sequence)
  deriving DecidableEq, Repr

/-- What a tab, a line end or a form feed does to the sequence that it interrupts. -/
inductive Interruption where
  /-- The sequence is over. -/
  | ends
  /-- The text behind it is shown.  The sequence goes on at the next control, unless a character
  outside of ASCII comes first. -/
  | pauses
  deriving DecidableEq, Repr

def Interruption.place : Interruption → Sequence → Place
  | .ends, _ => .text
  | .pauses, sequence => .paused sequence

/-- A control that lays out text: tab, line feed, form feed or carriage return. -/
def isLayout (c : Char) : Bool :=
  c == '\t' || c == '\n' || c == '\x0c' || c == '\r'

def isControl (c : Char) : Bool := c.toNat < 0x20 || c == '\x7f'

/-- Whether the character is one of those between two others, in the order of their numbers. -/
def between (first last c : Char) : Bool := first ≤ c && c ≤ last

/-- Whether the byte `9C`, which ends a string, is one of a character's bytes. -/
def hasTerminator (c : Char) : Bool := (String.utf8EncodeChar c).contains 0x9c

namespace Sequence

/-- Whether a control that lays out text interrupts the sequence. -/
def isInterruptible : Sequence → Bool
  | escape | designation | control => true
  | command | device | parameters | punctuation | string => false

/-- Where an ASCII character that is no control leads behind an escape character. -/
def begunBy (c : Char) : Place :=
  if between ' ' '/' c then .inside designation
  else
    match c with
    | '[' => .inside control
    | ']' => .inside command
    | 'P' => .inside device
    | 'X' | '^' | '_' => .inside string
    | _ => .text

/-- Where an ASCII character that is no control leads. -/
def after (s : Sequence) (c : Char) : Place :=
  match s with
  | escape => begunBy c
  | designation => if between ' ' '/' c then .inside designation else .text
  | control => if between ' ' '?' c then .inside control else .text
  | command => .inside command
  | device =>
    .inside
      (if between ' ' '/' c then punctuation else if between '0' '?' c then parameters else string)
  | parameters =>
    .inside
      (if between ' ' '/' c then punctuation else if between '0' ';' c then parameters else string)
  | punctuation => .inside (if between ' ' '/' c then punctuation else string)
  | string => .inside string

/-- Reads one character inside of a sequence: what the one behind it belongs to, and whether it
stays. -/
def next (i : Interruption) (s : Sequence) (c : Char) : Place × Bool :=
  if isControl c then
    if isLayout c && s.isInterruptible then (i.place s, true)
    else (if c == '\x07' && s == command then .text else .inside s, false)
  else if c.toNat < 0x80 then (s.after c, false)
  else (if s == string && hasTerminator c then .text else .inside s, false)

end Sequence

/-- Reads one character: what the one behind it belongs to, and whether it stays. -/
def Place.next (i : Interruption) (place : Place) (c : Char) : Place × Bool :=
  if c == '\x1b' then (.inside .escape, false)
  else if c == '\x18' || c == '\x1a' then (.text, false)
  else
    match place with
    | .text => (.text, !isControl c || isLayout c)
    | .inside s => s.next i c
    | .paused s =>
      if isControl c && !isLayout c then (.inside s, false)
      else (if c.toNat < 0x80 then .paused s else .text, true)

def plainFrom (i : Interruption) (place : Place) : List Char → List Char
  | [] => []
  | c :: rest =>
    match place.next i c with
    | (later, true) => c :: plainFrom i later rest
    | (later, false) => plainFrom i later rest

def plain (i : Interruption) (text : String) : String :=
  String.ofList (plainFrom i .text text.toList)

/-- Text without controls stays as it is. -/
theorem plainFrom_text_of_forall (i : Interruption) {text : List Char}
    (h : ∀ c ∈ text, isControl c = false) : plainFrom i .text text = text := by
  induction text with
  | nil => rfl
  | cons c rest ih =>
    have hc : isControl c = false := h c (by simp)
    have ne {d : Char} (hd : isControl d = true) : c ≠ d := by
      rintro rfl
      simp [hd] at hc
    have step : Place.text.next i c = (.text, true) := by
      simp [Place.next, hc, ne (d := '\x1b') (by decide), ne (d := '\x18') (by decide),
        ne (d := '\x1a') (by decide)]
    simp [plainFrom, step, ih fun d hd => h d (by simp [hd])]

/-- Nothing is added, and the order is kept. -/
theorem plainFrom_sublist (i : Interruption) (place : Place) (text : List Char) :
    (plainFrom i place text).Sublist text := by
  induction text generalizing place with
  | nil => exact .slnil
  | cons c rest ih =>
    unfold plainFrom
    split
    · exact (ih _).cons_cons c
    · exact (ih _).cons c

end ReaderWriter.Text.Terminal
