import MigrationSetup.Sorting
import MigrationSetup.Value.Equal

/-! The order of values.

Numbers are ordered among themselves, and so are texts by code point, byte strings,
dates, moments, lists and tuples. Values of different kinds have no order, and then the
two kinds are reported, that of the left one first. `sortByKey` puts entries in the
order of their keys. Keys that are all texts always have one; otherwise the first pair
without an order that is compared is the one that is reported. -/
namespace MigrationSetup

/-- Two values that cannot be put in order. -/
inductive Unordered
  | kinds (left right : Kind)
  /-- A date beside a moment. -/
  | moments (left right : Kind)
  /-- A moment with an offset beside one without. -/
  | offsets
deriving DecidableEq, Repr

def Unordered.message : Unordered → String
  | .kinds l r => s!"'<' not supported between instances of '{l.fullName}' and '{r.fullName}'"
  | .moments l r => s!"can't compare {l.fullName} to {r.fullName}"
  | .offsets => "can't compare offset-naive and offset-aware datetimes"

/-- Whether one sequence comes before another by a strict order on their items. -/
def lexLt {α : Type} (lt : α → α → Bool) : List α → List α → Bool
  | [], [] => false
  | [], _ :: _ => true
  | _ :: _, [] => false
  | x :: xs, y :: ys => if lt x y then true else if lt y x then false else lexLt lt xs ys

namespace Value

/-- The number that a value is. -/
def number? : Value → Option Binary64
  | .float x => some x
  | .nan _ => some .nan
  | _ => none

/-- The whole number that a value is. -/
def whole? : Value → Option Int
  | .bool b => some (if b then 1 else 0)
  | .int n => some n
  | _ => none

/-- Whether a whole number lies below a float, or else above it. -/
def wholeLt (n : Int) (x : Binary64) (below : Bool) : Bool :=
  match x with
  | .nan => false
  | .infinite negative => negative != below
  | x =>
    match x.units with
    | some u => if below then n * Int.pow 2 1074 < u else u < n * Int.pow 2 1074
    | none => false

def dateLt (d e : Date) : Bool :=
  lexLt (fun x y : Nat => x < y) [d.year, d.month, d.day] [e.year, e.month, e.day]

mutual

/-- `a < b`. -/
def lt : Value → Value → Except Unordered Bool
  | .list xs, .list ys => ltAll xs ys
  | .tuple xs, .tuple ys => ltAll xs ys
  | .bytes x, .bytes y => .ok (lexLt (fun a b : UInt8 => a < b) x y)
  | .date d, .date e => .ok (dateLt d e)
  | .date _, .moment _ => .error (.moments .moment .date)
  | .moment _, .date _ => .error (.moments .moment .date)
  | .moment t, .moment u =>
    match t.instant?, u.instant? with
    | some i, some j => .ok (i < j)
    | none, none => .ok (t.wallClock < u.wallClock)
    | _, _ => .error .offsets
  | a, b =>
    match a.text?, b.text? with
    | some s, some t => .ok (lexLt Letter.lt s t)
    | _, _ =>
      match a.whole?, b.whole?, a.number?, b.number? with
      | some m, some n, _, _ => .ok (m < n)
      | some m, _, _, some y => .ok (wholeLt m y true)
      | _, some n, some x, _ => .ok (wholeLt n x false)
      | _, _, some x, some y => .ok (x.lt y)
      | _, _, _, _ => .error (.kinds a.kind b.kind)

/-- Sequences are ordered by the first items that differ. -/
def ltAll : List Value → List Value → Except Unordered Bool
  | [], [] => .ok false
  | [], _ :: _ => .ok true
  | _ :: _, [] => .ok false
  | x :: xs, y :: ys => if equal x y then ltAll xs ys else lt x y

end

/-! ### Sorting -/

/-- The letters of a text, and nothing for a value that is none. -/
def letters (v : Value) : Text := v.text?.getD []

/-- Entries in the order of their keys. -/
def sortByKey {α : Type} (es : List (Value × α)) : Except Unordered (List (Value × α)) :=
  if es.all fun e => e.1.isText then
    .ok (es.mergeSort fun e f => !lexLt Letter.lt f.1.letters e.1.letters)
  else Sorting.sort (fun e f => lt e.1 f.1) es

end Value
end MigrationSetup
