import MigrationSetup.Identity
import MigrationSetup.Options
import MigrationSetup.Sha256

/-! The configuration that migrations run under.

`resolve` is the only place where defaults are filled in. What was given is kept as it
was given, also an empty list; what was not given gets its default, and the identity is
asked for exactly if it was not given. Two configurations are the same if their five
fields are equal (`Config.equal`). The fingerprint of a configuration is the digest of
the canonical text of its record. -/
namespace MigrationSetup

structure Config where
  /-- Where migrations in code are looked for. -/
  packages : List Value
  /-- Where scripts are looked for, in this order. -/
  locations : List Value
  mode : TransactionMode
  /-- `null` for the default database. -/
  database : Value
  installedBy : Value

namespace Config

def defaultPackages : List Value := []

def defaultLocations : List Value := [.text "classpath:neo4j/migrations"]

/-- A scan list as given: nothing means the empty list, and left out the standard one. -/
def givenList (given : Option Value) (standard : List Value) : Except Failure (List Value) :=
  match given with
  | none => .ok standard
  | some v => (Options.scanList v).map (·.getD [])

/-- A configuration from values of any kind. If the identity is left out the provider is
asked for it before anything else. -/
def ofValues (packages locations : Option Value) (mode database : Value)
    (installedBy : Option Value) (provider : Provider) : Except Failure Config := do
  let installedBy ← match installedBy with
    | some v => pure v
    | none => provider 0
  let packages ← givenList packages defaultPackages
  let locations ← givenList locations defaultLocations
  let mode ← (mode.mode?).mapError .setting
  return ⟨packages, locations, mode.getD .standard, database, installedBy⟩

/-- Fills in the defaults, the identity being known. -/
def ofOptions (options : Options) (identity : Value) : Config where
  packages := options.packages.getD defaultPackages
  locations := options.locations.getD defaultLocations
  mode := options.mode.getD .standard
  database := options.database
  installedBy := if options.installedBy.isNull then identity else options.installedBy

/-- Fills in the defaults. `asked` counts the questions put to the provider before, and
the result counts them after. -/
def resolve (options : Options) (provider : Provider) (asked : Nat) :
    Except Failure Config × Nat :=
  if options.installedBy.isNull then
    ((provider asked).map (ofOptions options), asked + 1)
  else (.ok (ofOptions options .null), asked)

/-- Whether there is any place to look for migrations. -/
def hasPlaces (c : Config) : Bool := !c.packages.isEmpty || !c.locations.isEmpty

/-- The configuration as a dict. -/
def record (c : Config) : Value :=
  .dict [(.text Setting.packages.name, .list c.packages),
    (.text Setting.locations.name, .list c.locations),
    (.text Setting.mode.name, .text c.mode.name),
    (.text Setting.database.name, c.database),
    (.text Setting.installedBy.name, c.installedBy)]

/-- The fields as one value. -/
def fields (c : Config) : Value :=
  .tuple [.tuple c.packages, .tuple c.locations, .mode c.mode, c.database, c.installedBy]

def equal (c d : Config) : Bool := c.fields.equal d.fields

end Config

/-- The fields of options as one value. -/
def Options.fields (o : Options) : Value :=
  let list : Option (List Value) → Value := fun xs => Value.orNull (xs.map .tuple)
  .tuple [list o.packages, list o.locations, Value.orNull (o.mode.map .mode), o.database,
    o.installedBy]

def Options.equal (o p : Options) : Bool := o.fields.equal p.fields

/-! ### Fingerprints -/

/-- The digest of a value's canonical text. Only dicts have one, and only if the text can be
written as bytes. -/
def Value.fingerprint : Value → Except Failure String
  | .dict es => do
    let text ← (Canonical.write (.dict es)).mapError .unwritable
    let bytes ← (Text.Utf8.encodeText text).mapError .unencodable
    return Sha256.digest bytes
  | v => .error (.hashKind v.kind)

def Config.fingerprint (c : Config) : Except Failure String := c.record.fingerprint

theorem Config.resolve_of_given {o : Options} (h : o.installedBy.isNull = false) (p : Provider)
    (asked : Nat) : Config.resolve o p asked = (.ok (Config.ofOptions o .null), asked) := by
  simp [Config.resolve, h]

end MigrationSetup
