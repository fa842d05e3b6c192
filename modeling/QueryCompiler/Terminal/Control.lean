/-! # `QueryCompiler.Terminal.Control` — what is left without terminal controls

A terminal takes some characters of a text for orders.  An output that is no terminal leaves these
out, whether they were put there to style the text or came in with it.  Orders are single controls
or sequences:

    inside          a character               leads to
    any             CAN, SUB                  text
    any             ESC                       escape
    escape          [   ]   P                 control, command, device
                    X   ^   _                 string
                    blank to /                designation
                    any other up to ~         text
    designation     0 to ~                    text
    control         @ to ~                    text
    device          blank to /                device, intermediate
                    0 to ?                    device, parameters
                    @ to ~                    string
    command         BEL                       text
    string          the terminator 9C         text

and any other character is part of the sequence.  Tab, line feed, form feed and carriage return are
no orders: they are kept in the text, and also where they interrupt an escape, a designation or a
control sequence.  There the text behind them is kept too, up to the next control, at which the
sequence goes on.
-/

namespace QueryCompiler.Terminal

/-- What a reader of a text is inside of. -/
inductive Sequence where
  /-- No sequence. -/
  | text
  | escape
  /-- An escape sequence with intermediate characters. -/
  | designation
  | control
  /-- A device control string before its parameters. -/
  | device
  | deviceParameters
  | deviceIntermediate
  /-- A command to the operating system. -/
  | command
  /-- A string that runs up to its terminator. -/
  | string
deriving DecidableEq, Repr

/-- The character lies between two others, both included. -/
def isWithin (low high c : Char) : Bool := low ≤ c && c ≤ high

/-- Blanks among the controls, which are kept. -/
def isSpacing (c : Char) : Bool := c = '\t' || c = '\n' || c = '\x0c' || c = '\r'

/-- Any character but the controls below the blank and the delete character. -/
def isGraphic (c : Char) : Bool := ' ' ≤ c && c ≠ '\x7f'

/-- The octet 9C, which terminates strings, stands in the encoding of the character. -/
def hasTerminator (c : Char) : Bool := (String.utf8EncodeChar c).contains 0x9c

namespace Sequence

/-- The sequence that a character behind an escape begins. -/
def begun (c : Char) : Sequence :=
  if c = '[' then .control
  else if c = ']' then .command
  else if c = 'P' then .device
  else if c = 'X' || c = '^' || c = '_' then .string
  else if isWithin ' ' '/' c then .designation
  else if isWithin '0' '~' c then .text
  else .escape

/-- What the reader is inside of after a character that neither cancels nor escapes. -/
def continued : Sequence → Char → Sequence
  | .text, _ => .text
  | .escape, c => begun c
  | .designation, c => if isWithin '0' '~' c then .text else .designation
  | .control, c => if isWithin '@' '~' c then .text else .control
  | .device, c =>
    if isWithin ' ' '/' c then .deviceIntermediate
    else if isWithin '0' '?' c then .deviceParameters
    else if isWithin '@' '~' c then .string
    else .device
  | .deviceParameters, c =>
    if isWithin ' ' '/' c then .deviceIntermediate
    else if isWithin '<' '~' c then .string
    else .deviceParameters
  | .deviceIntermediate, c => if isWithin '0' '~' c then .string else .deviceIntermediate
  | .command, c => if c = '\x07' then .text else .command
  | .string, c => if hasTerminator c then .text else .string

/-- What the reader is inside of after a character. -/
def next (s : Sequence) (c : Char) : Sequence :=
  if c = '\x18' || c = '\x1a' then .text
  else if c = '\x1b' then .escape
  else s.continued c

/-- The character is kept. -/
def keeps : Sequence → Char → Bool
  | .text, c => isGraphic c || isSpacing c
  | .escape, c => isSpacing c
  | .designation, c => isSpacing c
  | .control, c => isSpacing c
  | _, _ => false

end Sequence

/-! ## Reading a text -/

structure Reader where
  sequence : Sequence := .text
  /-- The sequence is interrupted, and characters are kept up to the next control. -/
  interrupted : Bool := false
deriving DecidableEq, Repr

namespace Reader

/-- The reader keeps a character. -/
def keeps (r : Reader) (c : Char) : Bool :=
  if r.interrupted then isGraphic c || isSpacing c else r.sequence.keeps c

/-- The reader after a character.  Outside ASCII a character that is kept ends a sequence it
interrupts. -/
def next (r : Reader) (c : Char) : Reader :=
  if r.interrupted && r.keeps c then
    if c.toNat < 0x80 then r else {}
  else
    ⟨r.sequence.next c, r.sequence ≠ .text && r.keeps c⟩

end Reader

/-- The characters that a reader keeps. -/
def kept : Reader → List Char → List Char
  | _, [] => []
  | r, c :: cs => if r.keeps c then c :: kept (r.next c) cs else kept (r.next c) cs

/-- A text without terminal controls. -/
def withoutControls (s : String) : String := String.ofList (kept {} s.toList)

end QueryCompiler.Terminal
