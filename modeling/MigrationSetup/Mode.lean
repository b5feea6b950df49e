import MigrationSetup.Text.Blank
import MigrationSetup.Text.Case

/-! How much of a migration one transaction covers.

A mode has one name. A text names a mode if it is that name once blanks at its ends
are dropped and its letters are raised (`TransactionMode.ofText?`). -/
namespace MigrationSetup

inductive TransactionMode
  /-- One transaction for all statements of a migration. -/
  | perMigration
  /-- One transaction for each statement. -/
  | perStatement
deriving DecidableEq, Repr

namespace TransactionMode

/-- The mode that is used where none is given. -/
def standard : TransactionMode := .perMigration

def name : TransactionMode → String
  | .perMigration => "PER_MIGRATION"
  | .perStatement => "PER_STATEMENT"

/-- All modes, in the order in which messages list them. -/
def all : List TransactionMode := [.perMigration, .perStatement]

/-- The mode that a text names. -/
def ofText? (s : Text) : Option TransactionMode :=
  let given := Text.asciiUppercase (Text.strip s)
  all.find? fun m => Text.ofString m.name == given

/-- The names a text may have, for messages. -/
def allowed : String := ", ".intercalate (all.map name)

/-! ### Laws -/

theorem mem_all (m : TransactionMode) : m ∈ all := by cases m <;> decide

/-- A text names a mode exactly if its letters, raised, are the mode's name. -/
theorem ofText?_eq_some_iff {s : Text} {m : TransactionMode} :
    ofText? s = some m ↔ Text.asciiUppercase (Text.strip s) = m.name := by
  constructor
  · intro h
    have found := List.find?_some (p := fun m : TransactionMode =>
      Text.ofString m.name == Text.asciiUppercase (Text.strip s)) h
    exact (eq_of_beq found).symm
  · intro h
    rw [ofText?, h]
    cases m <;> decide

theorem ofText?_name (m : TransactionMode) : ofText? m.name = some m := by
  cases m <;> decide

end TransactionMode
end MigrationSetup
