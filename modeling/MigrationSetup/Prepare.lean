import MigrationSetup.Builder
import MigrationSetup.Settings.Binding
import MigrationSetup.Validation

/-! Preparing a run of migrations.

Settings that switch migrations off give no configuration, and nobody is asked anything.
Otherwise the configuration is resolved and recorded with its fingerprint, and then
validated; an unusable one is refused. The log keeps what was recorded up to a failure. -/
namespace MigrationSetup

/-- What a preparation came to. -/
structure Preparation where
  /-- The configuration, or none where migrations are switched off. -/
  result : Except Failure (Option Config)
  /-- How often the provider was asked. -/
  identityAsked : Nat
  probing : Probing

namespace Preparation

/-- The component that records a preparation. -/
def component : String := "prepare"

/-- Records the resolved configuration. -/
def recordConfig (log : EventLog) (c : Config) (fingerprint : String) : EventLog :=
  log.log component "INFO" "config resolved"
    [("config", c.record), ("config_hash", .text fingerprint)]

/-- Prepares a run with these settings. -/
def run (settings : Settings) (checker : Checker) (provider : Provider) (p : Probing) :
    Preparation :=
  if !settings.enabled then
    ⟨.ok none, 0, { p with log := p.log.log component "INFO" "migrations disabled" [] }⟩
  else
    let (built, builder) := (Builder.new settings.options provider).build
    match built with
    | .error e => ⟨.error e, builder.asked, p⟩
    | .ok config =>
      match config.fingerprint with
      | .error e => ⟨.error e, builder.asked, p⟩
      | .ok fingerprint =>
        let p := { p with log := recordConfig p.log config fingerprint }
        let (outcome, p) :=
          Probing.validate config (some checker) (.bool settings.checkLocation) p
        ⟨outcome.bind fun o => o.require.map some, builder.asked, p⟩

end Preparation
end MigrationSetup
