import QueryCompiler.Terminal.Control

/-! # `QueryCompiler.Terminal.Message` — messages with parts that stand out

A message is a row of spans.  On a terminal the marked ones stand out: a sequence in front of each
sets its style and one behind it takes the style away.  The plain form is what is left of that text
without terminal controls.  Hence a sequence left open by the text of a marked span ends with the
span, while one left open by a plain span runs on into what follows.
-/

namespace QueryCompiler.Terminal

/-- How a part of a message stands out. -/
inductive Emphasis where
  /-- The word that opens a message about an error. -/
  | alarm
  /-- What is wrong. -/
  | fault
  /-- What is to be written as it stands. -/
  | literal
deriving DecidableEq, Repr

/-- The sequence that sets a style. -/
def Emphasis.opening : Emphasis → String
  | .alarm => "\x1b[1m\x1b[31m"
  | .fault => "\x1b[33m"
  | .literal => "\x1b[1m"

/-- The sequence that takes a style away. -/
def closing : String := "\x1b[0m"

inductive Span where
  | plain (text : String)
  | marked (emphasis : Emphasis) (text : String)
deriving DecidableEq, Repr

/-- A part of a message as a terminal takes it. -/
def Span.styled : Span → String
  | .plain text => text
  | .marked emphasis text => emphasis.opening ++ text ++ closing

abbrev Message := List Span

/-- A message as a terminal takes it. -/
def Message.styled (m : Message) : String := String.join (m.map Span.styled)

/-- A message for an output that is no terminal. -/
def Message.plainText (m : Message) : String := withoutControls (Message.styled m)

end QueryCompiler.Terminal
