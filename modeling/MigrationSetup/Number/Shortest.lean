import MigrationSetup.Number.Binary64

/-! The shortest decimal that reads back.

A finite number stands for the interval of reals that round to it. Of the decimals
in that interval, `shortest` takes one with the fewest digits, of these the nearest,
and on a tie the even one. It walks down the decimal grids, coarse to fine: if a grid has a point in
the interval, one of the number's two neighbours on that grid is in it, so only
these are tried, in exact arithmetic. `Notation` holds how such a decimal is
written; `plain` is the notation of settings and reports. -/
namespace MigrationSetup

/-- The decimal `digits * 10 ^ exponent`. -/
structure Decimal where
  digits : Nat
  exponent : Int
deriving DecidableEq, Repr

namespace Binary64

/-- The interval of a positive number in quarter units of its last place: its lower
end, the number itself and its upper end. Below a power of two the gap is half as wide. -/
def bounds (m : Nat) (e : Int) : Nat × Nat × Nat :=
  (if m = Nat.pow 2 52 ∧ minExponent < e then 4 * m - 1 else 4 * m - 2, 4 * m, 4 * m + 2)

/-- Tries the two neighbours of the number on the grid of ten to `k`. -/
def onGrid (m : Nat) (e k : Int) : Option Nat :=
  let (lo, mid, hi) := bounds m e
  -- a quarter unit is `unit / grid` steps of the grid
  let two := e - 2
  let unit := Nat.pow 2 two.toNat * Nat.pow 10 (-k).toNat
  let grid := Nat.pow 10 k.toNat * Nat.pow 2 (-two).toNat
  let inside (d : Nat) : Bool :=
    let x := d * grid
    if m % 2 = 0 then lo * unit ≤ x && x ≤ hi * unit else lo * unit < x && x < hi * unit
  let d := mid * unit / grid
  let below := d != 0 && inside d
  let above := inside (d + 1)
  if below && above then
    let twice := 2 * (mid * unit)
    let middle := (2 * d + 1) * grid
    some (if twice < middle then d else if middle < twice then d + 1 else d + d % 2)
  else if below then some d
  else if above then some (d + 1)
  else none

/-- Walks down the grids from ten to `k`. -/
def searchGrid (m : Nat) (e : Int) : Nat → Int → Decimal
  | 0, _ => ⟨m, e⟩
  | steps + 1, k =>
    match onGrid m e k with
    | some d => ⟨d, k⟩
    | none => searchGrid m e steps (k - 1)

/-- The shortest decimal of the positive number `m * 2 ^ e`. The first grid lies above
the number, and seventeen digits always suffice. -/
def shortest (m : Nat) (e : Int) : Decimal :=
  let top := ((m.log2 : Int) + e + 1) * 30103 / 100000 + 2
  searchGrid m e 24 top

/-! ### Writing -/

/-- How decimals are written: the exponents of the first digit between which no
exponent is shown, and the texts of what is not finite. -/
structure Notation where
  leastPlain : Int
  mostPlain : Int
  infinity : String
  notANumber : String

/-- Positional from 10^-4 up to below 10^16; otherwise one digit before the point and
an exponent with its sign and at least two digits. -/
def plain : Notation := ⟨-4, 15, "inf", "nan"⟩

/-- Digits without an exponent, `point` of them before the point. -/
def positional (digits : String) (point : Int) : String :=
  let n : Int := digits.length
  if point ≤ 0 then "0." ++ "".pushn '0' (-point).toNat ++ digits
  else if n ≤ point then digits ++ "".pushn '0' (point - n).toNat ++ ".0"
  else
    let cs := digits.toList
    String.ofList (cs.take point.toNat) ++ "." ++ String.ofList (cs.drop point.toNat)

/-- Digits with an exponent, the point behind the first. -/
def scientific (digits : String) (exponent : Int) : String :=
  let cs := digits.toList
  let rest := cs.drop 1
  let size := toString exponent.natAbs
  String.ofList (cs.take 1) ++ (if rest.isEmpty then "" else "." ++ String.ofList rest) ++
    (if exponent < 0 then "e-" else "e+") ++ "".pushn '0' (2 - size.length) ++ size

/-- A number in a notation. -/
def write (style : Notation) : Binary64 → String
  | .nan => style.notANumber
  | .infinite s => (if s then "-" else "") ++ style.infinity
  | .finite s m e =>
    let sign := if s then "-" else ""
    if m = 0 then sign ++ "0.0"
    else
      let d := shortest m e
      let digits := toString d.digits
      let point := (digits.length : Int) + d.exponent
      sign ++
        if style.leastPlain ≤ point - 1 ∧ point - 1 ≤ style.mostPlain then
          positional digits point
        else scientific digits (point - 1)

/-- The text of a number. -/
def text (x : Binary64) : String := x.write plain

example : shortest 7205759403792794 (-56) = ⟨1, -1⟩ := by decide
example : shortest 1 (-1074) = ⟨5, -324⟩ := by decide +kernel
example : shortest (2 ^ 52) (-51) = ⟨2, 0⟩ := by decide

end Binary64
end MigrationSetup
