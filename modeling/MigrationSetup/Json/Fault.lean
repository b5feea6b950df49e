/-! What is wrong with a JSON text.

A fault is named after what was expected or what was wrong, and placed by line, column
and character; lines and columns count from one, characters from zero. -/
namespace MigrationSetup.Json

inductive Problem
  | byteOrderMark
  | value
  | name
  | colon
  | comma
  | extraData
  | controlCharacter
  | unterminated
  | escape
  | unicodeEscape
deriving DecidableEq, Repr

def Problem.text : Problem → String
  | .byteOrderMark => "Unexpected UTF-8 BOM (decode using utf-8-sig)"
  | .value => "Expecting value"
  | .name => "Expecting property name enclosed in double quotes"
  | .colon => "Expecting ':' delimiter"
  | .comma => "Expecting ',' delimiter"
  | .extraData => "Extra data"
  | .controlCharacter => "Invalid control character at"
  | .unterminated => "Unterminated string starting at"
  | .escape => "Invalid \\escape"
  | .unicodeEscape => "Invalid \\uXXXX escape"

structure Fault where
  problem : Problem
  line : Nat
  column : Nat
  char : Nat
deriving DecidableEq, Repr

def Fault.message (f : Fault) : String :=
  s!"{f.problem.text}: line {f.line} column {f.column} (char {f.char})"

end MigrationSetup.Json
