import MigrationSetup.Value.Key

/-! When two values are equal.

What can be a key is equal when it is the same key. Lists equal lists and tuples equal
tuples, item by item; dicts are equal when they have the same keys with equal values,
in whatever order. -/
namespace MigrationSetup.Value

mutual

def equal : Value → Value → Bool
  | .list xs, .list ys => equalAll xs ys
  | .tuple xs, .tuple ys => equalAll xs ys
  | .dict es, .dict fs => es.length == fs.length && equalUnder es fs
  | .null, b => sameKey .null b
  | .bool x, b => sameKey (.bool x) b
  | .int x, b => sameKey (.int x) b
  | .float x, b => sameKey (.float x) b
  | .nan x, b => sameKey (.nan x) b
  | .text x, b => sameKey (.text x) b
  | .mode x, b => sameKey (.mode x) b
  | .bytes x, b => sameKey (.bytes x) b
  | .date x, b => sameKey (.date x) b
  | .moment x, b => sameKey (.moment x) b
  | .set xs, .set ys => xs.length == ys.length && xs.all fun x => ys.any (sameKey x)
  | .list _, _ => false
  | .tuple _, _ => false
  | .dict _, _ => false
  | .set _, _ => false
  | .loop _, _ => false

def equalAll : List Value → List Value → Bool
  | [], [] => true
  | x :: xs, y :: ys => equal x y && equalAll xs ys
  | [], _ :: _ => false
  | _ :: _, [] => false

/-- Whether `fs` holds an equal value under every key of the first entries. -/
def equalUnder : List (Value × Value) → List (Value × Value) → Bool
  | [], _ => true
  | (k, v) :: rest, fs =>
    (match Table.get? k fs with
      | some w => equal v w
      | none => false) && equalUnder rest fs

end

end MigrationSetup.Value
