import MigrationSetup.Failure

/-! Who applies the migrations.

An identity is asked for, not read from the surroundings: a `Provider` answers each
question, counted from zero, with a value or with a failure of its own. `fixed` always
gives the same name; `ofSystem` gives the name of the user of the system, and `unknown`
where the system has none. -/
namespace MigrationSetup

/-- The answer to every question, by its number. -/
abbrev Provider := Nat → Except Failure Value

namespace Identity

/-- The name where no name is known. -/
def unknown : String := "unknown"

/-- A name that never changes. It has to be a text. -/
def fixed (name : Value) : Except Failure Provider :=
  if name.isText then .ok fun _ => .ok name else .error (.identityKind name.kind)

/-- What a system says about its user. -/
structure System where
  /-- The value of a variable of the environment, if it is set. -/
  named : String → Option Text
  /-- The name in the list of users; none if it has no entry or cannot be read. -/
  account : Except Failure (Option Text)

/-- The variables that may name the user, in the order in which they are asked. -/
def userVariables : List String := ["LOGNAME", "USER", "LNAME", "USERNAME"]

/-- The first variable that is set and not empty. -/
def ofVariables (system : System) : Option Text :=
  userVariables.findSome? fun name => (system.named name).filter (· ≠ [])

/-- The name of the user of a system. -/
def ofSystem (system : System) : Provider := fun _ =>
  match ofVariables system with
  | some name => .ok (.text name)
  | none => do
    let account ← system.account
    return .text ((account.filter (· ≠ [])).getD unknown)

/-- A system that says nothing. -/
def System.silent : System := ⟨fun _ => none, .ok none⟩

end Identity
end MigrationSetup
