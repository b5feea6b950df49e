import MigrationSetup.Failure
import MigrationSetup.Text.Lines

/-! Reading JSON.

A text holds one value, with blanks around it. Numbers with a point or an exponent are
floats, and names for what is not finite are numbers too. A name that an object gives
twice keeps its first place and its last value. Reading stops at the first problem,
which is placed where the reader stood. -/
namespace MigrationSetup.Json

/-- Why reading stopped. `rest` counts the characters from the place of the problem on. -/
inductive Stop
  | problem (what : Problem) (rest : Nat)
  | tooManyDigits (count : Nat)

def fail {α : Type} (what : Problem) (rest : List Char) : Except Stop α :=
  .error (.problem what rest.length)

def isBlank (c : Char) : Bool := c == ' ' || c == '\t' || c == '\n' || c == '\r'

def skip (cs : List Char) : List Char := cs.dropWhile isBlank

/-! ### Strings -/

/-- The character that a letter behind a backslash stands for. -/
def escape? : Char → Option Char
  | '"' => some '"'
  | '\\' => some '\\'
  | '/' => some '/'
  | 'b' => some '\x08'
  | 'f' => some '\x0c'
  | 'n' => some '\n'
  | 'r' => some '\r'
  | 't' => some '\t'
  | _ => none

/-- The number of four hexadecimal digits. -/
def code? (a b c d : Char) : Option Nat := do
  return Text.ofDigits 16 [← Text.hexDigit? a, ← Text.hexDigit? b, ← Text.hexDigit? c,
    ← Text.hexDigit? d]

def isHigh (n : Nat) : Bool := 0xD800 ≤ n && n < 0xDC00

def isLow (n : Nat) : Bool := 0xDC00 ≤ n && n < 0xE000

/-- The character of the escapes at the front of `rest`, behind the first escape of
code `n`, if the two are a pair. Four digits that are none are a fault. -/
def partner (n : Nat) (rest : List Char) : Except Stop (Option Char) :=
  match rest with
  | '\\' :: 'u' :: e :: f :: g :: h :: next :: rest =>
    if isHigh n then
      match code? e f g h with
      | none => fail .unicodeEscape ('u' :: e :: f :: g :: h :: next :: rest)
      | some m =>
        .ok (if isLow m then some (Char.ofNat (0x10000 + (n - 0xD800) * 1024 + (m - 0xDC00)))
          else none)
    else .ok none
  | _ => .ok none

/-- The text up to the closing quote. Half of a pair that an escape gives alone stays a half.
`start` counts the characters from the opening quote on, and `skipped` those at the front
that have been read already. -/
def stringBody (start : Nat) (skipped : Nat) : List Char → Except Stop (Text × List Char)
  | [] => .error (.problem .unterminated start)
  | c :: rest =>
    match skipped with
    | skipped + 1 => stringBody start skipped rest
    | 0 =>
      if c = '"' then .ok ([], rest)
      else if c = '\\' then
        match rest with
        | [] => .error (.problem .unterminated start)
        | 'u' :: a :: b :: d :: e :: next :: more =>
          match code? a b d e with
          | none => fail .unicodeEscape rest
          | some n =>
            match partner n (next :: more) with
            | .error stop => .error stop
            | .ok (some x) => (stringBody start 11 rest).map fun r => (.char x :: r.1, r.2)
            | .ok none => (stringBody start 5 rest).map fun r => (.ofCode n :: r.1, r.2)
        | 'u' :: _ => fail .unicodeEscape rest
        | x :: _ =>
          match escape? x with
          | none => fail .escape (c :: rest)
          | some y => (stringBody start 1 rest).map fun r => (.char y :: r.1, r.2)
      else if c.toNat < 0x20 then fail .controlCharacter (c :: rest)
      else (stringBody start 0 rest).map fun r => (.char c :: r.1, r.2)

/-! ### Numbers -/

def digitsOf (cs : List Char) : List Nat := cs.map fun c => c.toNat - 48

/-- The fraction at the front, if a digit follows the point. -/
def fraction (cs : List Char) : List Char × List Char :=
  match cs with
  | '.' :: d :: rest =>
    if Text.isAsciiDigit d then
      ((d :: rest).takeWhile Text.isAsciiDigit, (d :: rest).dropWhile Text.isAsciiDigit)
    else ([], cs)
  | _ => ([], cs)

/-- The exponent at the front, if it has a digit. -/
def exponent (cs : List Char) : Option Int × List Char :=
  let digits (negative : Bool) (rest : List Char) : Option Int × List Char :=
    match rest.takeWhile Text.isAsciiDigit with
    | [] => (none, cs)
    | ds =>
      let n : Int := Text.ofDigits 10 (digitsOf ds)
      (some (if negative then -n else n), rest.dropWhile Text.isAsciiDigit)
  match cs with
  | 'e' :: '+' :: rest => digits false rest
  | 'E' :: '+' :: rest => digits false rest
  | 'e' :: '-' :: rest => digits true rest
  | 'E' :: '-' :: rest => digits true rest
  | 'e' :: rest => digits false rest
  | 'E' :: rest => digits false rest
  | _ => (none, cs)

/-- A number whose whole part has been read. -/
def numberTail (negative : Bool) (whole rest : List Char) : Except Stop (Value × List Char) :=
  let (part, rest) := fraction rest
  let (power, rest) := exponent rest
  if part.isEmpty && power.isNone then
    if maxDigits < whole.length then .error (.tooManyDigits whole.length)
    else
      let n : Int := Text.ofDigits 10 (digitsOf whole)
      .ok (.int (if negative then -n else n), rest)
  else
    let digits := Text.ofDigits 10 (digitsOf (whole ++ part))
    .ok (.float (Binary64.ofDecimal negative digits (power.getD 0 - part.length)), rest)

/-- A number. A whole part that starts with zero is zero. -/
def number (cs : List Char) : Except Stop (Value × List Char) :=
  let unsigned (negative : Bool) (ds : List Char) : Except Stop (Value × List Char) :=
    match ds with
    | '0' :: rest => numberTail negative ['0'] rest
    | ds =>
      match ds.takeWhile Text.isAsciiDigit with
      | [] => fail .value cs
      | whole => numberTail negative whole (ds.dropWhile Text.isAsciiDigit)
  match cs with
  | '-' :: ds => unsigned true ds
  | ds => unsigned false ds

/-! ### Values -/

mutual

/-- The value at the front. -/
def value : Nat → List Char → Except Stop (Value × List Char)
  | 0, cs => fail .value cs
  | fuel + 1, cs =>
    match cs with
    | '"' :: rest => do
      let (s, rest) ← stringBody cs.length 0 rest
      return (.text s, rest)
    | '\x7b' :: rest =>
      match skip rest with
      | '\x7d' :: rest => .ok (.dict [], rest)
      | rest => do
        let (es, rest) ← members fuel [] rest
        return (.dict es, rest)
    | '[' :: rest =>
      match skip rest with
      | ']' :: rest => .ok (.list [], rest)
      | rest => do
        let (vs, rest) ← items fuel rest
        return (.list vs, rest)
    | 'n' :: 'u' :: 'l' :: 'l' :: rest => .ok (.null, rest)
    | 't' :: 'r' :: 'u' :: 'e' :: rest => .ok (.bool true, rest)
    | 'f' :: 'a' :: 'l' :: 's' :: 'e' :: rest => .ok (.bool false, rest)
    | 'N' :: 'a' :: 'N' :: rest => .ok (.float .nan, rest)
    | 'I' :: 'n' :: 'f' :: 'i' :: 'n' :: 'i' :: 't' :: 'y' :: rest =>
      .ok (.float (.infinite false), rest)
    | '-' :: 'I' :: 'n' :: 'f' :: 'i' :: 'n' :: 'i' :: 't' :: 'y' :: rest =>
      .ok (.float (.infinite true), rest)
    | cs => number cs

/-- The members of an object from a name on, behind those in `sofar`. -/
def members : Nat → Entries → List Char → Except Stop (Entries × List Char)
  | 0, _, cs => fail .name cs
  | fuel + 1, sofar, cs =>
    match cs with
    | '"' :: rest => do
      let (name, rest) ← stringBody cs.length 0 rest
      match skip rest with
      | ':' :: rest =>
        let (v, rest) ← value fuel (skip rest)
        let sofar := Table.put (.text name) v sofar
        match skip rest with
        | '\x7d' :: rest => return (sofar, rest)
        | ',' :: rest => members fuel sofar (skip rest)
        | rest => fail .comma rest
      | rest => fail .colon rest
    | cs => fail .name cs

/-- The items of an array from one on. -/
def items : Nat → List Char → Except Stop (List Value × List Char)
  | 0, cs => fail .value cs
  | fuel + 1, cs => do
    let (v, rest) ← value fuel cs
    match skip rest with
    | ']' :: rest => return ([v], rest)
    | ',' :: rest =>
      let (vs, rest) ← items fuel (skip rest)
      return (v :: vs, rest)
    | rest => fail .comma rest

end

/-- The one value of a text. -/
def document (cs : List Char) : Except Stop Value :=
  if cs.head? = some '\ufeff' then fail .byteOrderMark cs
  else do
    let (v, rest) ← value (cs.length + 1) (skip cs)
    match skip rest with
    | [] => return v
    | rest => fail .extraData rest

/-- Reads a text. -/
def read (cs : List Char) : Except Failure Value :=
  match document cs with
  | .ok v => .ok v
  | .error (.tooManyDigits count) => .error (.jsonDigits count)
  | .error (.problem what rest) =>
    let before := cs.take (cs.length - rest)
    let (line, column) := Text.Lines.position before
    .error (.json ⟨what, line, column, before.length⟩)

end MigrationSetup.Json
