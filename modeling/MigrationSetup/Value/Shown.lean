import MigrationSetup.Number.Length
import MigrationSetup.Text.Quoted
import MigrationSetup.Value.Basic

/-! Values in messages.

`shown` displays a value so that its kind can be told: texts are quoted, collections
are bracketed, dates name their fields. `spelled` is the plain spelling, in which a
text stands for itself. Neither can be had of a value that holds too long a number
(`hasLong`). -/
namespace MigrationSetup.Value

/-- The constant that a mode is. -/
def modeSpelled (m : TransactionMode) : String := "TransactionMode." ++ m.name

mutual

def shown : Value → String
  | .null => "None"
  | .bool b => if b then "True" else "False"
  | .int n => toString n
  | .float x => x.text
  | .nan _ => Binary64.plain.notANumber
  | .text s => Text.quoted s
  | .mode m => "<" ++ modeSpelled m ++ ": " ++ Text.quoted m.name ++ ">"
  | .bytes bs => Text.quotedBytes bs
  | .date d => d.shown
  | .moment t => t.shown
  | .list xs => "[" ++ ", ".intercalate (shownAll xs) ++ "]"
  | .tuple xs => "(" ++ ", ".intercalate (shownAll xs) ++ (if xs.length = 1 then ",)" else ")")
  | .dict es => "\x7b" ++ ", ".intercalate (shownEntries es) ++ "\x7d"
  | .set xs => if xs.isEmpty then "set()" else "\x7b" ++ ", ".intercalate (shownAll xs) ++ "\x7d"
  | .loop isList => if isList then "[...]" else "\x7b...\x7d"

def shownAll : List Value → List String
  | [] => []
  | v :: vs => shown v :: shownAll vs

def shownEntries : List (Value × Value) → List String
  | [] => []
  | (k, v) :: rest => (shown k ++ ": " ++ shown v) :: shownEntries rest

end

mutual

/-- Whether a value holds a number that is too long to be written out. -/
def hasLong : Value → Bool
  | .int n => isTooLong n
  | .list xs => hasLongIn xs
  | .tuple xs => hasLongIn xs
  | .dict es => hasLongUnder es
  | .set xs => hasLongIn xs
  | .null => false
  | .bool _ => false
  | .float _ => false
  | .nan _ => false
  | .text _ => false
  | .mode _ => false
  | .bytes _ => false
  | .date _ => false
  | .moment _ => false
  | .loop _ => false

def hasLongIn : List Value → Bool
  | [] => false
  | v :: vs => hasLong v || hasLongIn vs

def hasLongUnder : List (Value × Value) → Bool
  | [] => false
  | (k, v) :: rest => hasLong k || hasLong v || hasLongUnder rest

end

theorem hasLongIn_iff {xs : List Value} : hasLongIn xs = true ↔ ∃ x ∈ xs, x.hasLong = true := by
  induction xs with
  | nil => simp [hasLongIn]
  | cons x xs ih => simp [hasLongIn, ih]

theorem hasLongUnder_iff {es : Entries} :
    hasLongUnder es = true ↔ ∃ e ∈ es, e.1.hasLong = true ∨ e.2.hasLong = true := by
  induction es with
  | nil => simp [hasLongUnder]
  | cons e es ih => simp [hasLongUnder, ih]

/-- What counts as a text holds no number. -/
theorem hasLong_of_isText {v : Value} (h : v.isText = true) : v.hasLong = false := by
  cases v with
  | text => rfl
  | mode => rfl
  | _ => cases h

/-- A moment with a space between date and time. -/
def momentSpelled (t : Moment) : String :=
  String.ofList (t.text.toList.map fun c => if c = 'T' then ' ' else c)

def spelled : Value → Text
  | .text s => s
  | .mode m => modeSpelled m
  | .date d => d.text
  | .moment t => momentSpelled t
  | v => v.shown

example : (Value.dict [(.text "b", .list [.int 1, .null])]).shown = "\x7b'b': [1, None]\x7d" := by
  decide
example : (Value.tuple [.text "a"]).shown = "('a',)" := by decide

end MigrationSetup.Value
