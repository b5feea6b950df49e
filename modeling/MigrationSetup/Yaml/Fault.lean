import MigrationSetup.Calendar
import MigrationSetup.Number.Length
import MigrationSetup.Text.Quoted
import MigrationSetup.Text.Utf8

/-! What is wrong with a YAML text.

A text that is not YAML, or whose nodes cannot become values, is `malformed`. A scalar
may also be marked as a number, a switch or a date without being one; then the cause
tells what the scalar was read as. A text may also break off at bytes that are none. -/
namespace MigrationSetup.Yaml

inductive Fault
  | malformed
  /-- The text breaks off at bytes that are not text. -/
  | bytes (fault : Text.Utf8.Fault)
  /-- Not a whole number in the base. -/
  | wholeNumber (base : Nat) (given : Text)
  | floatNumber (given : Text)
  /-- A number without any digit. -/
  | emptyNumber
  /-- More digits than a number may have. -/
  | tooManyDigits (count : Nat)
  /-- A power of sixty beyond all floats. -/
  | floatRange
  | switch (given : Text)
  | timestamp
  /-- A mapping in place of a date. -/
  | timestampMapping
  | calendar (fault : CalendarFault)
  /-- An escape beyond the last code point. -/
  | codePoint (code : Nat)
  /-- Nodes nested without end. -/
  | endless
deriving DecidableEq, Repr

/-- How much of a text is shown that should have been a whole number, with its quotes. -/
def shownLength : Nat := 200

def Fault.message : Fault → String
  | .malformed => ""
  | .bytes fault => fault.message
  | .wholeNumber base given =>
    s!"invalid literal for int() with base {base}: " ++
      String.ofList ((Text.quoted given).toList.take shownLength)
  | .floatNumber given => "could not convert string to float: " ++ Text.quoted given
  | .emptyNumber => "string index out of range"
  | .tooManyDigits count => tooManyDigitsMessage count
  | .floatRange => "int too large to convert to float"
  | .switch given => Text.quoted given
  | .timestamp => "'NoneType' object has no attribute 'groupdict'"
  | .timestampMapping => "expected string or bytes-like object, got 'list'"
  | .calendar fault => fault.message
  | .codePoint code =>
    if code < 0x80000000 then "chr() arg not in range(0x110000)"
    else "Python int too large to convert to C int"
  | .endless => "maximum recursion depth exceeded"

end MigrationSetup.Yaml
