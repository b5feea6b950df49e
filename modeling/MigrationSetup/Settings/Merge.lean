import MigrationSetup.Settings.Error

/-! Laying one dict of settings over another.

The override is gone through entry by entry. A key that the base lacks is added at the
end; where either side holds nothing the override's value is taken, so nothing in an
override takes a value back. Two dicts are merged in turn. A list or a text replaces a
list or a text, and a text replaces a truth value, since both are read later. Any other
value replaces one of its own kind, and values of two kinds conflict. The first conflict
in the order of the override ends the merge, and so does a key that cannot be written
out, for every key of the override becomes part of a path. -/
namespace MigrationSetup

namespace Value

/-- Whether a value is read as a list of items. -/
def isListed : Value → Bool
  | .list _ => true
  | .loop isList => isList
  | v => v.isText

def isBool : Value → Bool
  | .bool _ => true
  | _ => false

/-- Whether `v` may take the place of `current` where neither is nothing and not both are
dicts. -/
def replaces (v current : Value) : Bool :=
  (v.isListed && current.isListed) || (v.isText && current.isBool) || current.kind == v.kind

/-- Whether `current` gives way to `v`, if not both are dicts. -/
def yieldsTo (current v : Value) : Bool := v.isNull || current.isNull || v.replaces current

/-- Puts `v` in the place of `current`. -/
def replace (path : List Text) (current v : Value) : Except SettingError Value :=
  if current.yieldsTo v then .ok v else .error (.conflict path current.kind v.kind)

mutual

/-- What stands at a path once `v` is laid over `current`. -/
def mergeValue (path : List Text) (current : Value) : Value → Except SettingError Value
  | .dict es =>
    match current with
    | .dict base => (mergeEntries path base es).map .dict
    | current => replace path current (.dict es)
  | v => replace path current v

/-- Lays entries over those of `base`. -/
def mergeEntries (path : List Text) (base : Entries) :
    List (Value × Value) → Except SettingError Entries
  | [] => .ok base
  | (k, v) :: rest =>
    if k.hasLong then .error .longNumber
    else
      match Table.get? k base with
      | none => mergeEntries path (Table.put k v base) rest
      | some current =>
        match mergeValue (path ++ [k.spelled]) current v with
        | .ok merged => mergeEntries path (Table.put k merged base) rest
        | .error e => .error e

end

/-- Lays `override` over `base`. -/
def merge (base override : Value) : Except SettingError Value :=
  match base, override with
  | .dict b, .dict o => (mergeEntries [] b o).map .dict
  | b, o => .error (.layerKinds b.kind o.kind)

end Value
end MigrationSetup
