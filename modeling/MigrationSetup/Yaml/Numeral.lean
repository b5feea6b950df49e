import MigrationSetup.Text.Blank
import MigrationSetup.Text.Case
import MigrationSetup.Value.Basic
import MigrationSetup.Yaml.Fault

/-! Scalars that are marked as numbers.

Such a scalar may be any text, so it is read with more patience than a plain one: there
may be blanks around the number, and the digits may be those of any script (`plain`).
Bars are dropped. A number in base sixty is written in parts between colons, each of
which is a number by itself. -/
namespace MigrationSetup.Yaml.Numeral

/-- A sign in front of a text, and what follows it. -/
def splitSign : Text → Bool × Text
  | .char '+' :: cs => (false, cs)
  | .char '-' :: cs => (true, cs)
  | cs => (false, cs)

/-- What a letter counts as: a digit of any script is the plain digit, and a blank
beyond ASCII is a space. -/
def plain (c : Letter) : Letter :=
  if c.code < 0x80 then c
  else if Text.isBlank c then ' '
  else
    match c.char?.bind Text.digit? with
    | some d => Char.ofNat (48 + d)
    | none => c

/-- Whether a letter may stand around a number. -/
def isSpace (c : Letter) : Bool := c == ' ' || (9 ≤ c.code && c.code ≤ 13)

/-- A text without the spaces around it. -/
def trim (cs : Text) : Text := ((cs.dropWhile isSpace).reverse.dropWhile isSpace).reverse

/-- The pieces of a text between colons. -/
def colonPieces : Text → List Text
  | [] => [[]]
  | .char ':' :: cs => [] :: colonPieces cs
  | c :: cs =>
    match colonPieces cs with
    | [] => [[c]]
    | p :: ps => (c :: p) :: ps

/-! ### Whole numbers -/

/-- The value of a digit in a base. -/
def digitIn? (base : Nat) (c : Letter) : Option Nat :=
  (c.char?.bind Text.alphaDigit?).filter (· < base)

/-- The digits at the front, and what follows them. -/
def digitsIn (base : Nat) : Text → List Nat × Text
  | [] => ([], [])
  | c :: cs =>
    match digitIn? base c with
    | some d => let (ds, rest) := digitsIn base cs; (d :: ds, rest)
    | none => ([], c :: cs)

/-- The letter that marks a base. -/
def baseMark? : Nat → Option Char
  | 2 => some 'b'
  | 8 => some 'o'
  | 16 => some 'x'
  | _ => none

/-- A text without the mark of a base at its front. -/
def unmarked (base : Nat) : Text → Text
  | .char '0' :: .char c :: cs =>
    if baseMark? base = some c.toLower then cs else .char '0' :: .char c :: cs
  | cs => cs

/-- A whole number in a base, with blanks around it and a sign. Digits in decimal are
counted before what follows them is looked at. -/
def wholeIn (base : Nat) (given : Text) : Except Fault Int :=
  let (negative, cs) := splitSign ((given.map plain).dropWhile isSpace)
  let (digits, rest) := digitsIn base (unmarked base cs)
  if base = 10 ∧ maxDigits < digits.length then .error (.tooManyDigits digits.length)
  else if digits = [] ∨ !rest.all isSpace then .error (.wholeNumber base given)
  else
    let n : Int := Text.ofDigits base digits
    .ok (if negative then -n else n)

/-- A whole number as YAML writes it, in base two, eight, ten, sixteen or sixty. -/
def whole (text : Text) : Except Fault Int := do
  let (negative, cs) := splitSign (text.filter (· ≠ .char '_'))
  let n ← match cs with
    | [] => throw .emptyNumber
    | [.char '0'] => pure 0
    | .char '0' :: .char 'b' :: rest => wholeIn 2 rest
    | .char '0' :: .char 'x' :: rest => wholeIn 16 rest
    | .char '0' :: _ => wholeIn 8 cs
    | cs =>
      if cs.contains (.char ':') then do
        let parts ← (colonPieces cs).mapM (wholeIn 10)
        pure (parts.foldl (fun n d => n * 60 + d) 0)
      else wholeIn 10 cs
  return if negative then -n else n

/-! ### Floats -/

/-- The exponent that ends a float. -/
def exponent? : Text → Option Int
  | [] => some 0
  | e :: cs =>
    let (negative, ds) := splitSign cs
    if (e == 'e' || e == 'E') && !ds.isEmpty then
      match digitsIn 10 ds with
      | (ds, []) =>
        let n : Int := Text.ofDigits 10 ds
        some (if negative then -n else n)
      | _ => none
    else none

/-- A float in decimal, with digits on at least one side of the point. -/
def decimal? (negative : Bool) (cs : Text) : Option Binary64 := do
  let (whole, rest) := digitsIn 10 cs
  let (part, rest) := match rest with
    | .char '.' :: rest => digitsIn 10 rest
    | rest => ([], rest)
  if whole = [] ∧ part = [] then none
  let power ← exponent? rest
  return Binary64.ofDecimal negative (Text.ofDigits 10 (whole ++ part)) (power - part.length)

/-- A float in decimal or by name, with blanks around it and a sign. -/
def floatIn10 (given : Text) : Except Fault Binary64 :=
  let (negative, cs) := splitSign (trim (given.map plain))
  let name := Text.lowercase cs
  if name = "inf" ∨ name = "infinity" then .ok (.infinite negative)
  else if name = "nan" then .ok .nan
  else
    match decimal? negative cs with
    | some x => .ok x
    | none => .error (.floatNumber given)

/-- Adds parts to `sum`, the first of them in units of `unit` and each in sixty times the
units of the one before. A unit beyond all floats is a fault, whatever its part is. -/
def sumSixties (sum : Binary64) (unit : Nat) : List Binary64 → Except Fault Binary64
  | [] => .ok sum
  | d :: ds =>
    match Binary64.ofInt unit with
    | .infinite _ => .error .floatRange
    | size => sumSixties (sum.add (d.mul size)) (unit * 60) ds

/-- A float as YAML writes it, in base ten or sixty. -/
def float (text : Text) : Except Fault Value := do
  let cs := Text.lowercase (text.filter (· ≠ .char '_'))
  if cs = [] then throw .emptyNumber
  let (negative, cs) := splitSign cs
  let signed (x : Binary64) : Value := .float (if negative then x.neg else x)
  if cs = ".inf" then return signed (.infinite false)
  else if cs = ".nan" then return .nan 0
  else if cs.contains (.char ':') then
    let parts ← (colonPieces cs).mapM floatIn10
    return signed (← sumSixties (.zero false) 1 parts.reverse)
  else return signed (← floatIn10 cs)

end MigrationSetup.Yaml.Numeral
