import MigrationSetup.Calendar
import MigrationSetup.Mode
import MigrationSetup.Number.Shortest

/-! The values that settings are made of.

Settings come from files and from callers, and neither promises a shape: any setting
may hold any value. `Value` is what can be held, `Kind` is its kind by name, and
`isTrue` says what counts as yes where a caller may answer with anything. A mode
counts as a text, namely its name (`text?`). -/
namespace MigrationSetup

/-- A value of a settings file or of a caller. Entries of a `dict` keep the order in
which their keys came first. -/
inductive Value
  | null
  | bool (b : Bool)
  | int (n : Int)
  | float (x : Binary64)
  /-- A result that is no number, named by a number of its own. One without a name is a
  `float`; the name 0 is that of the constant of settings files. -/
  | nan (name : Nat)
  | text (s : Text)
  | mode (m : TransactionMode)
  | bytes (bs : List UInt8)
  | date (d : Date)
  | moment (t : Moment)
  | list (xs : List Value)
  | tuple (xs : List Value)
  | dict (es : List (Value × Value))
  | set (xs : List Value)
  /-- Where a list, or else a dict, holds itself. -/
  | loop (isList : Bool)
deriving Inhabited

/-- The kinds of values. -/
inductive Kind
  | null | bool | int | float | text | mode | bytes | date | moment | list | tuple | dict | set
deriving DecidableEq, Repr

/-- The name of a kind in messages. -/
def Kind.name : Kind → String
  | .null => "NoneType"
  | .bool => "bool"
  | .int => "int"
  | .float => "float"
  | .text => "str"
  | .mode => "TransactionMode"
  | .bytes => "bytes"
  | .date => "date"
  | .moment => "datetime"
  | .list => "list"
  | .tuple => "tuple"
  | .dict => "dict"
  | .set => "set"

/-- The name of a kind with the family it belongs to, where messages give it. -/
def Kind.fullName : Kind → String
  | .date => "datetime.date"
  | .moment => "datetime.datetime"
  | k => k.name

/-- Entries in the order of their keys' first appearance. -/
abbrev Entries := List (Value × Value)

namespace Value

def kind : Value → Kind
  | .null => .null
  | .bool _ => .bool
  | .int _ => .int
  | .float _ => .float
  | .nan _ => .float
  | .text _ => .text
  | .mode _ => .mode
  | .bytes _ => .bytes
  | .date _ => .date
  | .moment _ => .moment
  | .list _ => .list
  | .tuple _ => .tuple
  | .dict _ => .dict
  | .set _ => .set
  | .loop isList => if isList then .list else .dict

/-- The text of a value that counts as one. -/
def text? : Value → Option Text
  | .text s => some s
  | .mode m => some m.name
  | _ => none

def isText (v : Value) : Bool := v.text?.isSome

def isNull : Value → Bool
  | .null => true
  | _ => false

/-- What counts as yes: everything but nothing, no, zero and what is empty. -/
def isTrue : Value → Bool
  | .null => false
  | .bool b => b
  | .int n => n != 0
  | .float x => !x.isZero
  | .text s => !s.isEmpty
  | .bytes bs => !bs.isEmpty
  | .list xs => !xs.isEmpty
  | .tuple xs => !xs.isEmpty
  | .dict es => !es.isEmpty
  | .set xs => !xs.isEmpty
  | _ => true

/-- Nothing, where a field was left out. -/
def orNull : Option Value → Value
  | some v => v
  | none => .null

theorem isNull_iff {v : Value} : v.isNull = true ↔ v = .null := by
  cases v <;> simp [isNull]

theorem isText_iff {v : Value} : v.isText = true ↔ (∃ s, v = .text s) ∨ ∃ m, v = .mode m := by
  cases v <;> simp [isText, text?]

theorem text?_text (s : Text) : (Value.text s).text? = some s := rfl

theorem text?_iff {v : Value} {s : Text} :
    v.text? = some s ↔ v = .text s ∨ ∃ m : TransactionMode, v = .mode m ∧ s = m.name := by
  cases v <;> simp [text?, eq_comm]

end Value
end MigrationSetup
