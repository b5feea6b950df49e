import MigrationSetup.Number.Length
import MigrationSetup.Text.Digit
import MigrationSetup.Value.Order

/-! The canonical text of a value.

One text stands for a value however its entries were ordered: dicts are written with
their entries sorted by key, nothing is put between the marks, and only the quote, the
backslash and control characters are escaped. Tuples are written as lists. Keys that
are nothing, yes, no or numbers are written as texts once they are in order. Values of
other kinds have no canonical text, nor has a number that is too long to be written out
or a value that holds itself; of several that have none the first one that is reached is
reported. -/
namespace MigrationSetup

/-- Why a value has no canonical text. -/
inductive Unwritable
  | order (reason : Unordered)
  | key (kind : Kind)
  | value (kind : Kind)
  /-- A number is too long to be written out. -/
  | longNumber
  /-- A list or a dict holds itself. -/
  | circular
deriving DecidableEq, Repr

def Unwritable.message : Unwritable → String
  | .order reason => reason.message
  | .key kind => "keys must be str, int, float, bool or None, not " ++ kind.fullName
  | .value kind => "Object of type " ++ kind.name ++ " is not JSON serializable"
  | .longNumber => tooLongMessage
  | .circular => "Circular reference detected"

namespace Canonical

/-- Numbers as in settings, with names for what is not finite. -/
def style : Binary64.Notation :=
  { Binary64.plain with infinity := "Infinity", notANumber := "NaN" }

/-- One letter inside quotes. -/
def escape (c : Letter) : Text :=
  if c = '"' then "\\\""
  else if c = '\\' then "\\\\"
  else if c = '\n' then "\\n"
  else if c = '\r' then "\\r"
  else if c = '\t' then "\\t"
  else if c = '\x0c' then "\\f"
  else if c = '\x08' then "\\b"
  else if c.code < 0x20 then "\\u" ++ Text.ofChars (Text.hex 4 c.code)
  else [c]

def quote (cs : Text) : Text := .char '"' :: (cs.flatMap escape ++ [.char '"'])

/-- The text of a whole number. -/
def whole (n : Int) : Except Unwritable Text :=
  if isTooLong n then .error .longNumber else .ok (toString n)

/-- The text of a key. -/
def key : Value → Except Unwritable Text
  | .text s => .ok s
  | .mode m => .ok m.name
  | .float x => .ok (x.write style)
  | .nan _ => .ok style.notANumber
  | .bool b => .ok (if b then "true" else "false")
  | .null => .ok "null"
  | .int n => whole n
  | v => .error (.key v.kind)

/-- Texts with commas between them. -/
def commaJoin : List Text → Text
  | [] => []
  | [t] => t
  | t :: u :: ts => t ++ .char ',' :: commaJoin (u :: ts)

/-- The first failure, or all texts. -/
def gather : List (Except Unwritable Text) → Except Unwritable (List Text)
  | [] => .ok []
  | t :: ts => do return (← t) :: (← gather ts)

/-- An entry under its key. -/
def entry (k : Value) (text : Except Unwritable Text) : Except Unwritable Text := do
  let name ← key k
  return quote name ++ .char ':' :: (← text)

/-- A dict, from its keys and the texts of what stands under them. -/
def object (es : List (Value × Except Unwritable Text)) :
    Except Unwritable Text := do
  match Value.sortByKey es with
  | .error reason => throw (.order reason)
  | .ok sorted =>
    let texts ← gather (sorted.map fun e => entry e.1 e.2)
    return .char '\x7b' :: (commaJoin texts ++ [.char '\x7d'])

def array (texts : List (Except Unwritable Text)) : Except Unwritable Text := do
  return .char '[' :: (commaJoin (← gather texts) ++ [.char ']'])

mutual

/-- The canonical text of a value. -/
def write : Value → Except Unwritable Text
  | .text s => .ok (quote s)
  | .mode m => .ok (quote m.name)
  | .null => .ok "null"
  | .bool b => .ok (if b then "true" else "false")
  | .int n => whole n
  | .float x => .ok (x.write style)
  | .nan _ => .ok style.notANumber
  | .list xs => array (writeAll xs)
  | .tuple xs => array (writeAll xs)
  | .dict es => object (writeEntries es)
  | .bytes _ => .error (.value .bytes)
  | .date _ => .error (.value .date)
  | .moment _ => .error (.value .moment)
  | .set _ => .error (.value .set)
  | .loop _ => .error .circular

def writeAll : List Value → List (Except Unwritable Text)
  | [] => []
  | v :: vs => write v :: writeAll vs

/-- Keys with the texts of what stands under them, in the order given. -/
def writeEntries : List (Value × Value) → List (Value × Except Unwritable Text)
  | [] => []
  | (k, v) :: rest => (k, write v) :: writeEntries rest

end

end Canonical
end MigrationSetup
