import MigrationSetup.Text.Digit
import MigrationSetup.Text.Letter
import MigrationSetup.Text.Printable

/-! Quoted text in messages.

A message that shows a value quotes texts so that nothing in them is invisible.
Single quotes surround the text, double quotes if it holds a single quote and no
double quote. The backslash and the surrounding quote are escaped, tab, line feed
and carriage return by their letters, and every other letter that is not printable, a
half of a pair included, by its code in two, four or eight hexadecimal digits. So what
is shown always is a string. Byte strings are
shown by the same rules over ASCII, with a `b` in front. -/
namespace MigrationSetup.Text

/-- The quote to surround a text with, given which quotes it holds. -/
def chooseQuote (single double : Bool) : Char := if single && !double then '"' else '\''

/-- One character inside the quote `q`. -/
def escapeChar (q c : Char) : List Char :=
  if c = q ∨ c = '\\' then ['\\', c]
  else if c = '\t' then ['\\', 't']
  else if c = '\n' then ['\\', 'n']
  else if c = '\r' then ['\\', 'r']
  else if isPrintable c then [c]
  else if c.toNat < 0x100 then '\\' :: 'x' :: hex 2 c.toNat
  else if c.toNat < 0x10000 then '\\' :: 'u' :: hex 4 c.toNat
  else '\\' :: 'U' :: hex 8 c.toNat

/-- One letter inside the quote `q`. -/
def escapeLetter (q : Char) : Letter → List Char
  | .char c => escapeChar q c
  | .half n => '\\' :: 'u' :: hex 4 (Letter.half n).code

/-- A text between quotes, with everything invisible spelled out. -/
def quoted (s : Text) : String :=
  let q := chooseQuote (s.contains (.char '\'')) (s.contains (.char '"'))
  String.ofList (q :: (s.flatMap (escapeLetter q) ++ [q]))

/-- One byte inside the quote `q`: ASCII as itself, the rest by its code. -/
def escapeByte (q : Char) (b : UInt8) : List Char :=
  if b.toNat < 0x7F then escapeChar q (Char.ofNat b.toNat)
  else '\\' :: 'x' :: hex 2 b.toNat

/-- A byte string between quotes, marked by a `b`. -/
def quotedBytes (bytes : List UInt8) : String :=
  let q := chooseQuote (bytes.contains 39) (bytes.contains 34)
  String.ofList ('b' :: q :: (bytes.flatMap (escapeByte q) ++ [q]))

example : quoted "it's" = "\"it's\"" := by decide
example : quoted "both ' and \"" = "'both \\' and \"'" := by decide
example : quoted "a\n\x00" = "'a\\n\\x00'" := by decide
example : quoted [.half 0] = "'\\ud800'" := by decide

end MigrationSetup.Text
