import MigrationSetup.Yaml.Source

/-! A place in a YAML text.

A cursor holds what is left of the text and where that begins: its index, its line and
its column, all counted from zero. Lines end with a line feed or with one of three rarer
breaks. A byte order mark takes no column. Behind the last character every place reads
as `Cursor.stop`, a character that no YAML text may hold. If the text breaks off there
instead, looking at the place is a fault, and so a cursor moves on only to a place that
can be looked at. -/
namespace MigrationSetup.Yaml

/-- Whether a line ends here. -/
def isBreak (c : Char) : Bool :=
  c == '\n' || c == '\u0085' || c == '\u2028' || c == '\u2029'

/-- The mark that a text may begin with. -/
def byteOrderMark : Char := '\ufeff'

structure Cursor where
  rest : List Char
  /-- What is wrong behind the last character. -/
  fault : Option Fault
  /-- The length of the whole text. -/
  size : Nat
  index : Nat
  line : Nat
  column : Nat

namespace Cursor

/-- What every place behind the text reads as. -/
def stop : Char := '\x00'

/-- The beginning of a text. -/
def start (s : Source) : Cursor := ⟨s.text, s.fault, s.text.length, 0, 0, 0⟩

/-- More steps than there are characters left. -/
def fuel (c : Cursor) : Nat := c.size + 1

/-- The character `n` places on. -/
def peekAt (c : Cursor) (n : Nat) : Except Fault Char :=
  match c.rest[n]?, c.fault with
  | some x, _ => .ok x
  | none, none => .ok stop
  | none, some f => .error f

/-- The character at the cursor. -/
def peek (c : Cursor) : Except Fault Char := c.peekAt 0

/-- The cursor behind the character at it. -/
def step (c : Cursor) : Cursor :=
  match c.rest with
  | [] => c
  | x :: rest =>
    if isBreak x then { c with rest, index := c.index + 1, line := c.line + 1, column := 0 }
    else
      let column := if x = byteOrderMark then c.column else c.column + 1
      { c with rest, index := c.index + 1, column }

/-- The cursor `n` characters on. -/
def skip (n : Nat) (c : Cursor) : Except Fault Cursor := do
  let _ ← c.peekAt n
  return n.repeat step c

/-- The cursor one character on. -/
def next (c : Cursor) : Except Fault Cursor := c.skip 1

/-- Takes the characters that pass a test up to the first that does not. -/
def takeWhile (c : Cursor) (p : Char → Bool) : Except Fault (List Char × Cursor) := do
  let taken := c.rest.takeWhile p
  return (taken, ← c.skip taken.length)

/-- Passes over the characters that pass a test. -/
def dropWhile (c : Cursor) (p : Char → Bool) : Except Fault Cursor := do
  return (← c.takeWhile p).2

/-- The value of the hexadecimal digit `n` places on, which has to be one. -/
def hexDigitAt (c : Cursor) (n : Nat) : Except Fault Nat := do
  match Text.hexDigit? (← c.peekAt n) with
  | some d => return d
  | none => throw .malformed

/-- Whether a space or a tab stands here. -/
def isBlank (x : Char) : Bool := x == ' ' || x == '\t'

/-- Whether the text ends here, or a blank or a break stands here. -/
def isOver (x : Char) : Bool := x == stop || isBlank x || isBreak x

/-- Whether the line ends here. -/
def isLineOver (x : Char) : Bool := x == stop || isBreak x

/-- Whether the line ends here or a space stands here. -/
def isWordOver (x : Char) : Bool := x == ' ' || isLineOver x

/-- The break at the cursor as it counts in a scalar, and the place behind it. -/
def lineBreak? (c : Cursor) : Except Fault (Option (Char × Cursor)) := do
  let x ← c.peek
  if isBreak x then return some (if x = '\u0085' then '\n' else x, ← c.next) else return none

/-- Passes over a comment. -/
def dropComment (c : Cursor) : Except Fault Cursor := do
  if (← c.peek) = '#' then c.dropWhile fun x => !isBreak x else return c

/-- Whether one of two marks of three characters stands here as a word, the marks being
those that begin and end documents. -/
def isAtDocumentMark (c : Cursor) : Except Fault Bool := do
  let _ ← c.peekAt 2
  let word := c.rest.take 3
  if word = ['-', '-', '-'] ∨ word = ['.', '.', '.'] then return isOver (← c.peekAt 3)
  else return false

end Cursor
end MigrationSetup.Yaml
