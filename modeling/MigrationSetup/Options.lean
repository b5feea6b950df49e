import MigrationSetup.Failure

/-! Options before defaults.

An option that was not given is absent (`none`, or `null` for the two texts). A list of
packages or locations that was given empty stays empty: it is a choice, not a gap. A
single text is a list of one item, and everything else that can be walked through is
the list of its items. -/
namespace MigrationSetup

/-- The items that a value gives as a list. -/
def Value.items : Value → Except Failure (List Value)
  | .list xs => .ok xs
  | .tuple xs => .ok xs
  | .set xs => .ok xs
  | .dict es => .ok (es.map Prod.fst)
  | .bytes bs => .ok (bs.map fun b => .int b.toNat)
  | .text s => .ok (s.map fun c => .text [c])
  | .mode m => .ok ((Text.ofString m.name).map fun c => .text [c])
  | v => .error (.notIterable v.kind)

/-- The items of a scan list: a text is one item. -/
def Value.scanItems (v : Value) : Except Failure (List Value) :=
  if v.isText then .ok [v] else v.items

/-- The mode that a value stands for; nothing stands for none. -/
def Value.mode? : Value → Except SettingError (Option TransactionMode)
  | .null => .ok none
  | .mode m => .ok (some m)
  | .text s =>
    match TransactionMode.ofText? s with
    | some m => .ok (some m)
    | none => .error (.unknownMode s)
  | v => .error (.modeKind v.kind)

/-- The options of a configuration, as far as they were given. -/
structure Options where
  packages : Option (List Value)
  locations : Option (List Value)
  mode : Option TransactionMode
  /-- `null` if not given. -/
  database : Value
  /-- `null` if not given. -/
  installedBy : Value

namespace Options

/-- No option given. -/
def empty : Options := ⟨none, none, none, .null, .null⟩

/-- A scan list as given, nothing meaning that it was not. -/
def scanList (v : Value) : Except Failure (Option (List Value)) :=
  if v.isNull then .ok none else v.scanItems.map some

/-- Options from values of any kind. -/
def ofValues (packages locations mode database installedBy : Value) : Except Failure Options := do
  let packages ← scanList packages
  let locations ← scanList locations
  let mode ← (mode.mode?).mapError .setting
  return ⟨packages, locations, mode, database, installedBy⟩

/-- The options made again from the values of their fields. -/
def renew (o : Options) : Except Failure Options :=
  ofValues (Value.orNull (o.packages.map .tuple)) (Value.orNull (o.locations.map .tuple))
    (Value.orNull (o.mode.map .mode)) o.database o.installedBy

end Options
end MigrationSetup
