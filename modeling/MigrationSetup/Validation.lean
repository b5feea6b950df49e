import MigrationSetup.Config
import MigrationSetup.EventLog

/-! Whether a configuration can find migrations.

The decision has four steps and the first that applies is final. Unless locations are
to be checked, every configuration is usable. Without packages and locations none is.
With a package, one is, and no location is looked at. Otherwise the locations are asked
for one by one, in their order, and the first that exists ends the search
(`Probing.search`). Every question and the decision are recorded; a location that does
not exist gives a warning, and only that none exists makes the configuration unusable. Any
value may stand in place of a location, but a warning cannot be given of one that holds too
long a number. -/
namespace MigrationSetup

/-- Answers whether a location exists. The answer may depend on the locations asked for
before, and any value is an answer. -/
abbrev Checker := List Value → Value → Except Failure Value

/-- What was found about a configuration. -/
inductive Outcome
  | valid (config : Config)
  | invalid (reason : Text) (config : Option Config)

namespace Outcome

def isValid : Outcome → Bool
  | .valid _ => true
  | .invalid _ _ => false

/-- The report of an unusable configuration with a reason. -/
def reportFor (reason : Text) (config : Option Config) : Report :=
  if reason = Finding.noTargets.message then
    Report.noTargets (.text Finding.noTargets.hint)
  else
    Report.noneExists ((config.map Config.locations).getD []) (.text Finding.noneExists.hint)

/-- The entries of a report's details. -/
def entriesOf : Value → Entries
  | .dict es => es
  | _ => []

/-- The configuration of a usable outcome; an unusable one is refused with its reason. -/
def require : Outcome → Except Failure Config
  | .valid c => .ok c
  | .invalid reason config =>
    let report := reportFor reason config
    .error (.refused ⟨.configuration, .text reason, entriesOf report.details, report.hint⟩)

end Outcome

/-! ### Asking -/

/-- What has been asked and recorded so far. -/
structure Probing where
  /-- All locations asked for, in order. -/
  asked : List Value
  log : EventLog

namespace Probing

/-- The component that records the decision. -/
def component : String := "config.validation"

/-- The event of an answered question. -/
def recordAnswer (log : EventLog) (location : Value) (found : Bool) : EventLog :=
  log.log component "DEBUG" "location checked" [("location", location), ("exists", .bool found)]

/-- The warning that a location does not exist, unless it cannot be written out. -/
def warnMissing (log : EventLog) (location : Value) : Except SettingError EventLog :=
  if location.hasLong then .error .longNumber
  else .ok (log.warn component ("location does not exist: " ++ location.spelled))

/-- What a search comes to. -/
inductive Found
  /-- A location exists. -/
  | one
  /-- None of these exists. -/
  | noneOf (checked : List Value)

/-- Asks for locations in order until one exists. `checked` are those asked for before in the
same search. -/
def search (checker : Checker) (checked : List Value) (p : Probing) :
    List Value → Except Failure Found × Probing
  | [] => (.ok (.noneOf checked), p)
  | location :: rest =>
    let asked := p.asked ++ [location]
    match checker p.asked location with
    | .error e => (.error e, { p with asked := asked })
    | .ok answer =>
      let log := recordAnswer p.log location answer.isTrue
      if answer.isTrue then (.ok .one, ⟨asked, log⟩)
      else
        match warnMissing log location with
        | .error e => (.error (.setting e), ⟨asked, log⟩)
        | .ok log => search checker (checked ++ [location]) ⟨asked, log⟩ rest

/-- Records a finding and what it is about. -/
def find (log : EventLog) (f : Finding) (extra : List (Text × Value)) : EventLog :=
  log.log component "ERROR" f.message extra

/-- Records a decision. -/
def decide (log : EventLog) (message : String) (extra : List (Text × Value)) : EventLog :=
  log.log component "INFO" message extra

/-- Whether a configuration can be used. -/
def validate (config : Config) (checker : Option Checker) (check : Value) (p : Probing) :
    Except Failure Outcome × Probing :=
  if !check.isTrue then
    (.ok (.valid config), { p with log := decide p.log "location check disabled" [] })
  else if !config.hasPlaces then
    (.ok (.invalid Finding.noTargets.message (some config)),
      { p with log := find p.log .noTargets [] })
  else if !config.packages.isEmpty then
    (.ok (.valid config),
      { p with
        log := decide p.log "packages configured, locations not checked"
          [(Setting.packages.name, .list config.packages)] })
  else
    match checker with
    | none => (.error .missingChecker, p)
    | some checker =>
      match search checker [] p config.locations with
      | (.error e, p) => (.error e, p)
      | (.ok .one, p) => (.ok (.valid config), p)
      | (.ok (.noneOf checked), p) =>
        (.ok (.invalid Finding.noneExists.message (some config)),
          { p with log := find p.log .noneExists [("checked_locations", .list checked)] })

end Probing
end MigrationSetup
