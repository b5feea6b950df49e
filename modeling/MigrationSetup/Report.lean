import MigrationSetup.Value.Basic

/-! Reports of a configuration that cannot be used.

There are two findings about a configuration, each with a fixed message and a code that
does not change. A `Report` is what an operator gets to see: code, message, details and
a hint. A `Refusal` is the failure that carries a finding to the caller; its report has
the code of the finding whose message it carries (`Refusal.report`). Nothing in a
report is worth a retry, since the configuration stays what it is. -/
namespace MigrationSetup

/-- What can be found wrong with a configuration. -/
inductive Finding
  /-- Neither packages nor locations are configured. -/
  | noTargets
  /-- No packages are configured and no location exists. -/
  | noneExists
deriving DecidableEq, Repr

namespace Finding

def message : Finding → String
  | .noTargets => "Neither locations nor packages to scan are configured."
  | .noneExists =>
    "No package to scan is configured and none of the configured locations exists."

def code : Finding → String
  | .noTargets => "CONFIG_NO_SCAN_TARGETS"
  | .noneExists => "CONFIG_NO_EXISTING_LOCATION"

def hint : Finding → String
  | .noTargets =>
    "Configure ao menos um pacote (packages_to_scan) ou uma location (locations_to_scan)."
  | .noneExists =>
    "Crie ao menos uma das locations configuradas, configure um pacote ou desabilite " ++
      "check_location."

/-- The finding with exactly this message. -/
def ofMessage? (message : Text) : Option Finding :=
  [noTargets, noneExists].find? fun f => Text.ofString f.message == message

theorem ofMessage?_message (f : Finding) : ofMessage? f.message = some f := by
  cases f <;> decide

end Finding

/-- What an operator gets to see. -/
structure Report where
  code : String
  message : Value
  details : Value
  hint : Value

namespace Report

/-- Whether to try again with the same configuration. -/
def retryable (_ : Report) : Bool := false

/-- The report that nothing is configured. -/
def noTargets (hint : Value) : Report where
  code := Finding.noTargets.code
  message := .text Finding.noTargets.message
  details := .dict [(.text "packages_to_scan", .list []), (.text "locations_to_scan", .list [])]
  hint := hint

/-- The report that none of the locations exists. -/
def noneExists (checked : List Value) (hint : Value) : Report where
  code := Finding.noneExists.code
  message := .text Finding.noneExists.message
  details := .dict [(.text "checked_locations", .list checked)]
  hint := hint

end Report

/-- What kind of failure a refusal is. -/
inductive Refusal.Family
  | general
  | configuration
deriving DecidableEq, Repr

/-- The code of a failure whose message is no finding. -/
def Refusal.Family.code : Refusal.Family → String
  | .general => "MigrationsException"
  | .configuration => "MigrationsConfigError"

/-- A failure that carries what an operator should know. Its message is a text. -/
structure Refusal where
  family : Refusal.Family
  message : Value
  details : Entries
  hint : Value

/-- The message as it reads. -/
def Refusal.text (r : Refusal) : Text := r.message.text?.getD []

/-- The code of the finding if the message is one's, or else of the kind of failure. -/
def Refusal.code (r : Refusal) : String :=
  match r.family with
  | .general => r.family.code
  | .configuration =>
    match Finding.ofMessage? r.text with
    | some f => f.code
    | none => r.family.code

def Refusal.report (r : Refusal) : Report := ⟨r.code, r.message, .dict r.details, r.hint⟩

end MigrationSetup
