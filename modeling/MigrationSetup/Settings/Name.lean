import MigrationSetup.Value.Key
import MigrationSetup.Value.Shown

/-! The settings by name.

There are seven settings: five options and two switches. A key names a setting if its
spelling is the setting's name once hyphens are read as underscores (`ofKey?`), so each
setting has several spellings. -/
namespace MigrationSetup

inductive Setting
  | packages
  | locations
  | mode
  | database
  | installedBy
  | enabled
  | checkLocation
deriving DecidableEq, Repr

namespace Setting

def name : Setting → String
  | .packages => "packages_to_scan"
  | .locations => "locations_to_scan"
  | .mode => "transaction_mode"
  | .database => "database"
  | .installedBy => "installed_by"
  | .enabled => "enabled"
  | .checkLocation => "check_location"

def all : List Setting :=
  [.packages, .locations, .mode, .database, .installedBy, .enabled, .checkLocation]

/-- Reads hyphens as underscores. -/
def underscored (s : Text) : Text := s.map fun c => if c = .char '-' then .char '_' else c

/-- The setting that a text names. -/
def ofName? (s : Text) : Option Setting :=
  all.find? fun n => Text.ofString n.name == underscored s

/-- The setting that a key names. -/
def ofKey? (k : Value) : Option Setting := ofName? k.spelled

theorem mem_all (s : Setting) : s ∈ all := by cases s <;> decide

theorem ofName?_name (s : Setting) : ofName? s.name = some s := by
  cases s <;> decide

end Setting
end MigrationSetup
