/-! Binary floating-point numbers of 64 bits.

A finite number is a sign, a significand below 2^53 and an exponent of two, kept in
the one form that the format stores: the significand has 53 bits unless the exponent
is the smallest one. Every finite number is a whole multiple of 2^-1074 (`units`),
which is how numbers are compared. Results are the exact ones rounded once, to the
nearest number and on a tie to the one with an even significand (`ofRatio`). -/
namespace MigrationSetup

/-- A floating-point number. All that is not a number is one value. -/
inductive Binary64
  | finite (negative : Bool) (significand : Nat) (exponent : Int)
  | infinite (negative : Bool)
  | nan
deriving DecidableEq, Repr

namespace Binary64

/-- The exponent of the smallest numbers. -/
def minExponent : Int := -1074

/-- The exponent of the largest finite numbers. -/
def maxExponent : Int := 971

def zero (negative : Bool) : Binary64 := .finite negative 0 minExponent

def isZero : Binary64 → Bool
  | .finite _ 0 _ => true
  | _ => false

def neg : Binary64 → Binary64
  | .finite s m e => .finite (!s) m e
  | .infinite s => .infinite (!s)
  | .nan => .nan

/-- How many times 2^-1074 goes into a finite number. -/
def units : Binary64 → Option Int
  | .finite s m e =>
    let n : Int := m * Int.pow 2 (e - minExponent).toNat
    some (if s then -n else n)
  | _ => none

/-- The whole part of a number that is not negative. -/
def floor (x : Binary64) : Nat := ((x.units).getD 0).toNat / Nat.pow 2 1074

/-! ### Rounding -/

/-- The quotient to the nearest whole number, ties going to the even one. -/
def divNearest (num den : Nat) : Nat :=
  let q := num / den
  let twice := 2 * (num % den)
  if twice < den then q else if den < twice then q + 1 else q + q % 2

/-- `num / den` in units of two to `e`, as numerator and denominator. -/
def scaled (num den : Nat) (e : Int) : Nat × Nat :=
  if 0 ≤ e then (num, den * Nat.pow 2 e.toNat) else (num * Nat.pow 2 (-e).toNat, den)

/-- The exponent that gives `num / den` a significand of 53 bits, or the smallest one. -/
def exponentFor (num den : Nat) : Int :=
  let e := max ((num.log2 : Int) - den.log2 - 53) minExponent
  let (n, d) := scaled num den e
  if n / d < Nat.pow 2 53 then e else e + 1

/-- The number nearest to `num / den`. Beyond the largest one lies infinity. -/
def ofRatio (negative : Bool) (num den : Nat) : Binary64 :=
  if num = 0 then zero negative
  else
    let e := exponentFor num den
    let (n, d) := scaled num den e
    let m := divNearest n d
    let (m, e) := if m < Nat.pow 2 53 then (m, e) else (Nat.pow 2 52, e + 1)
    if maxExponent < e then .infinite negative else .finite negative m e

/-- The number nearest to `digits * 10 ^ exponent`. Exponents far outside the range
are decided by the length of the digits alone. -/
def ofDecimal (negative : Bool) (digits : Nat) (exponent : Int) : Binary64 :=
  let magnitude := ((toString digits).length : Int) + exponent
  if digits = 0 then zero negative
  else if 400 < magnitude then .infinite negative
  else if magnitude < -400 then zero negative
  else if 0 ≤ exponent then ofRatio negative (digits * Nat.pow 10 exponent.toNat) 1
  else ofRatio negative digits (Nat.pow 10 (-exponent).toNat)

/-- The number nearest to a whole number. -/
def ofInt (n : Int) : Binary64 := ofRatio (n < 0) n.natAbs 1

/-! ### Sums and products -/

/-- The number nearest to `n` times two to `e`. -/
def ofScaled (n : Int) (e : Int) : Binary64 :=
  if 0 ≤ e then ofRatio (n < 0) (n.natAbs * Nat.pow 2 e.toNat) 1
  else ofRatio (n < 0) n.natAbs (Nat.pow 2 (-e).toNat)

/-- A sum of zeros is negative only if both are; other sums that vanish are positive. -/
def add : Binary64 → Binary64 → Binary64
  | .nan, _ => .nan
  | _, .nan => .nan
  | .infinite s, .infinite t => if s = t then .infinite s else .nan
  | .infinite s, _ => .infinite s
  | _, .infinite t => .infinite t
  | .finite s m e, .finite t n f =>
    let low := min e f
    let part (negative : Bool) (k : Nat) (g : Int) : Int :=
      let v : Int := k * Int.pow 2 (g - low).toNat
      if negative then -v else v
    let sum := part s m e + part t n f
    if sum = 0 then zero (s && t) else ofScaled sum low

def mul : Binary64 → Binary64 → Binary64
  | .nan, _ => .nan
  | _, .nan => .nan
  | .infinite s, .infinite t => .infinite (s != t)
  | .infinite s, .finite t n _ => if n = 0 then .nan else .infinite (s != t)
  | .finite s m _, .infinite t => if m = 0 then .nan else .infinite (s != t)
  | .finite s m e, .finite t n f =>
    let negative := s != t
    if m * n = 0 then zero negative
    else
      let product : Int := m * n
      ofScaled (if negative then -product else product) (e + f)

/-! ### Order -/

/-- `x < y`; a value that is no number is below and above nothing. -/
def lt (x y : Binary64) : Bool :=
  match x, y with
  | .nan, _ => false
  | _, .nan => false
  | .infinite true, y => y != .infinite true
  | .infinite false, _ => false
  | _, .infinite t => !t
  | x, y =>
    match x.units, y.units with
    | some a, some b => a < b
    | _, _ => false

example : ofDecimal false 1 (-1) = .finite false 7205759403792794 (-56) := by decide
example : ofDecimal false 1 400 = .infinite false := by decide
example : ofDecimal false 5 (-324) = .finite false 1 (-1074) := by decide +kernel
example : add (ofDecimal false 1 (-1)) (ofDecimal false 2 (-1)) =
    ofDecimal false 30000000000000004 (-17) := by decide

end Binary64
end MigrationSetup
