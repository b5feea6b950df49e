import MigrationSetup.Yaml.Numeral
import MigrationSetup.Yaml.Tag

/-! Scalars: what a text in a YAML document means.

A plain scalar is what it looks like (`plainTag`): a truth value, a float, a whole
number, nothing, a date or a moment, and otherwise a text. A scalar that is marked with
a tag is read as that, whatever it looks like, so the readers of this module are more
generous than the looks and have faults of their own. -/
namespace MigrationSetup.Yaml.Scalar

/-! ### What a plain scalar looks like -/

def isDigit (c : Char) : Bool := '0' ≤ c && c ≤ '9'

/-- A text without the sign at its front. -/
def unsigned : List Char → List Char
  | '+' :: cs => cs
  | '-' :: cs => cs
  | cs => cs

def isDigitOrBar (c : Char) : Bool := isDigit c || c == '_'

/-- What follows a digit and more digits or bars. -/
def behindNumber? : List Char → Option (List Char)
  | d :: cs => if isDigit d then some (cs.dropWhile isDigitOrBar) else none
  | [] => none

/-- Whether a text is an exponent with a sign, or empty. -/
def isExponent : List Char → Bool
  | [] => true
  | e :: s :: d :: cs =>
    (e == 'e' || e == 'E') && (s == '+' || s == '-') && (d :: cs).all isDigit
  | _ => false

/-- What follows one or more groups of a colon and a number below sixty. -/
def behindSixties? : List Char → Option (List Char)
  | ':' :: a :: b :: cs =>
    if '0' ≤ a ∧ a ≤ '5' ∧ isDigit b then some ((behindSixties? cs).getD cs)
    else if isDigit a then some ((behindSixties? (b :: cs)).getD (b :: cs))
    else none
  | [':', a] => if isDigit a then some [] else none
  | _ => none

/-- Digits with a point, and an exponent if it has a sign. -/
def isDecimal (cs : List Char) : Bool :=
  match behindNumber? (unsigned cs) with
  | some ('.' :: rest) => isExponent (rest.dropWhile isDigitOrBar)
  | _ =>
    match cs with
    | '.' :: rest => (behindNumber? rest).any isExponent
    | _ => false

/-- Groups of sixties with a fraction. -/
def isSexagesimalFloat (cs : List Char) : Bool :=
  match (behindNumber? (unsigned cs)).bind behindSixties? with
  | some ('.' :: rest) => rest.all isDigitOrBar
  | _ => false

def isFloat (cs : List Char) : Bool :=
  isDecimal cs || isSexagesimalFloat cs ||
    [".inf", ".Inf", ".INF"].any (fun s => s.toList == unsigned cs) ||
    [".nan", ".NaN", ".NAN"].any fun s => s.toList == cs

def isInt (cs : List Char) : Bool :=
  match unsigned cs with
  | ['0'] => true
  | '0' :: 'b' :: rest => !rest.isEmpty && rest.all fun c => c == '0' || c == '1' || c == '_'
  | '0' :: 'x' :: rest =>
    !rest.isEmpty && rest.all fun c => (Text.hexDigit? c).isSome || c == '_'
  | '0' :: rest => rest.all fun c => ('0' ≤ c && c ≤ '7') || c == '_'
  | d :: rest =>
    isDigit d &&
      (rest.all isDigitOrBar || behindSixties? (rest.dropWhile isDigitOrBar) == some [])
  | [] => false

def isBool (cs : List Char) : Bool :=
  ["yes", "Yes", "YES", "no", "No", "NO", "true", "True", "TRUE", "false", "False", "FALSE", "on",
    "On", "ON", "off", "Off", "OFF"].any fun s => s.toList == cs

def isNull (cs : List Char) : Bool :=
  ["~", "null", "Null", "NULL", ""].any fun s => s.toList == cs

/-! ### Dates and moments -/

/-- The number of one or two digits at the front. -/
def oneOrTwo? : List Char → Option (Nat × List Char)
  | a :: b :: cs =>
    if !isDigit a then none
    else if isDigit b then some (Text.ofDigits 10 [a.toNat - 48, b.toNat - 48], cs)
    else some (a.toNat - 48, b :: cs)
  | [a] => if isDigit a then some (a.toNat - 48, []) else none
  | [] => none

/-- The number of exactly two digits at the front. -/
def two? : List Char → Option (Nat × List Char)
  | a :: b :: cs =>
    if isDigit a && isDigit b then some (Text.ofDigits 10 [a.toNat - 48, b.toNat - 48], cs)
    else none
  | _ => none

/-- What follows a mark. -/
def behind? (mark : Char) : List Char → Option (List Char)
  | c :: cs => if c = mark then some cs else none
  | [] => none

/-- The offset that ends a moment: none, UTC, or a sign with hours and minutes. -/
def offset? (cs : List Char) : Option (Option Int) :=
  match cs with
  | [] => some none
  | cs =>
    match cs.dropWhile fun c => c == ' ' || c == '\t' with
    | ['Z'] => some (some 0)
    | sign :: rest => do
      if sign ≠ '+' ∧ sign ≠ '-' then none
      let (hours, rest) ← oneOrTwo? rest
      let minutes ← match rest with
        | [] => some 0
        | rest => do
          let (m, rest) ← two? (← behind? ':' rest)
          if rest = [] then some m else none
      let seconds : Int := hours * 3600 + minutes * 60
      return some (if sign = '-' then -seconds else seconds)
    | [] => none

/-- The microseconds of a fraction, of which six digits count. -/
def micros (digits : List Char) : Nat :=
  let six := (digits.take 6).map fun c => c.toNat - 48
  Text.ofDigits 10 (six ++ List.replicate (6 - six.length) 0)

/-- The time of day behind a date, on that date. -/
def time? (date : Date) (cs : List Char) : Option Moment := do
  let (hour, cs) ← oneOrTwo? cs
  let (minute, cs) ← two? (← behind? ':' cs)
  let (second, cs) ← two? (← behind? ':' cs)
  let (fraction, cs) := match cs with
    | '.' :: rest => (rest.takeWhile isDigit, rest.dropWhile isDigit)
    | cs => ([], cs)
  return ⟨date, hour, minute, second, micros fraction, ← offset? cs⟩

/-- A date, or a moment. -/
inductive Stamp
  | date (d : Date)
  | moment (t : Moment)

/-- The date or moment that a text writes, whether or not there is such a day. -/
def stamp? (cs : List Char) : Option Stamp := do
  let year := cs.take 4
  if year.length ≠ 4 ∨ !year.all isDigit then none
  let (month, rest) ← oneOrTwo? (← behind? '-' (cs.drop 4))
  let (day, rest) ← oneOrTwo? (← behind? '-' rest)
  let date : Date := ⟨Text.ofDigits 10 (year.map fun c => c.toNat - 48), month, day⟩
  match rest with
  | [] => return .date date
  | c :: cs =>
    if c = 'T' ∨ c = 't' then return .moment (← time? date cs)
    else if c = ' ' ∨ c = '\t' then
      return .moment (← time? date (cs.dropWhile fun c => c == ' ' || c == '\t'))
    else none

/-- Whether a plain scalar is a date or a moment. A date alone has two digits for the
month and for the day. -/
def isStamp (cs : List Char) : Bool :=
  match stamp? cs with
  | some (.date _) => cs.length == 10
  | some (.moment _) => true
  | none => false

/-- A text of several characters without the line feed at its end. -/
def withoutBreak (cs : List Char) : List Char :=
  if 1 < cs.length ∧ cs.getLast? = some '\n' then cs.dropLast else cs

/-- What a plain scalar with these characters is. A line feed behind it is not looked at. -/
def charsTag (chars : List Char) : Tag :=
  let cs := withoutBreak chars
  if isBool cs then .bool
  else if isFloat cs then .float
  else if isInt cs then .int
  else if cs = ['<', '<'] then .merge
  else if isNull cs then .null
  else if isStamp cs then .timestamp
  else if cs = ['='] then .value
  else .str

/-- What a plain scalar is. Only a text of characters looks like anything but a text. -/
def plainTag (text : Text) : Tag := text.chars?.elim .str charsTag

/-! ### Reading marked scalars -/

/-- A truth value by any of its names, in any letter case. -/
def readBool (text : Text) : Except Fault Bool :=
  let name := Text.lowercase text
  if name = "yes" ∨ name = "true" ∨ name = "on" then .ok true
  else if name = "no" ∨ name = "false" ∨ name = "off" then .ok false
  else .error (.switch name)

/-- A date or a moment. A line feed behind it does no harm. -/
def readStamp (text : Text) : Except Fault Value :=
  match text.chars?.bind fun cs => stamp? (withoutBreak cs) with
  | none => .error .timestamp
  | some (.date d) => do
    (d.check).mapError .calendar
    return .date d
  | some (.moment t) => do
    (t.check).mapError .calendar
    return .moment t

/-! ### Bytes -/

/-- The value of a character in base 64. -/
def sextet? (c : Char) : Option Nat :=
  if 'A' ≤ c ∧ c ≤ 'Z' then some (c.toNat - 65)
  else if 'a' ≤ c ∧ c ≤ 'z' then some (c.toNat - 71)
  else if isDigit c then some (c.toNat + 4)
  else if c = '+' then some 62
  else if c = '/' then some 63
  else none

/-- Bytes in base 64. `held` are the characters of the group of four that has begun and
`pads` counts the pads in it. What is no character of the base is passed over; a group
that is padded to its end ends the reading, and one that is cut short is a fault. -/
def base64 (held : List Nat) (pads : Nat) : List Char → Option (List UInt8)
  | [] => if held = [] then some [] else none
  | '=' :: cs =>
    if 2 ≤ held.length ∧ 4 ≤ held.length + pads + 1 then some (lastBytes held)
    else base64 held (if 2 ≤ held.length then pads + 1 else pads) cs
  | c :: cs =>
    match sextet? c with
    | none => base64 held pads cs
    | some s =>
      match held with
      | [x, y, z] => do
        let n := ((x * 64 + y) * 64 + z) * 64 + s
        return (n / 65536).toUInt8 :: (n / 256).toUInt8 :: n.toUInt8 :: (← base64 [] 0 cs)
      | held => base64 (held ++ [s]) 0 cs
where
  /-- The bytes of a group that is not full. -/
  lastBytes : List Nat → List UInt8
    | [x, y] => [(x * 4 + y / 16).toUInt8]
    | [x, y, z] => [(x * 4 + y / 16).toUInt8, (y * 16 + z / 4).toUInt8]
    | _ => []

def readBinary (text : Text) : Except Fault (List UInt8) :=
  match (text.chars?.filter fun cs => cs.all (·.toNat < 0x80)).bind (base64 [] 0) with
  | some bytes => .ok bytes
  | none => .error .malformed

/-- Reads a scalar as its tag says. -/
def read (tag : Tag) (text : Text) : Except Fault Value :=
  match tag with
  | .null => .ok .null
  | .bool => (readBool text).map .bool
  | .int => (Numeral.whole text).map .int
  | .float => Numeral.float text
  | .binary => (readBinary text).map .bytes
  | .timestamp => readStamp text
  | .str => .ok (.text text)
  | _ => .error .malformed

end MigrationSetup.Yaml.Scalar
