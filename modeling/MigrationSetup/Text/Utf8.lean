import MigrationSetup.Text.Digit
import MigrationSetup.Text.Letter

/-! Bytes as text.

`encode` writes characters in UTF-8. A text can be written if none of its letters is half
of a pair (`encodeText`); otherwise the first halves that stand together are at fault.
The name of a file may have halves that stand for bytes which are no character
(`nameBytes?`). `decode` reads bytes strictly: the shortest form of
each character only, no surrogates, nothing above the last code point. Where it
stops it says which bytes are at fault and why, and positions are counted from where it
began (`readFrom`). -/
namespace MigrationSetup.Text.Utf8

/-! ### Writing -/

/-- The bytes of one character. -/
def encodeChar (c : Char) : List UInt8 :=
  let n := c.toNat
  if n < 0x80 then [n.toUInt8]
  else if n < 0x800 then [(0xC0 + n / 64).toUInt8, (0x80 + n % 64).toUInt8]
  else if n < 0x10000 then
    [(0xE0 + n / 4096).toUInt8, (0x80 + n / 64 % 64).toUInt8, (0x80 + n % 64).toUInt8]
  else
    [(0xF0 + n / 262144).toUInt8, (0x80 + n / 4096 % 64).toUInt8, (0x80 + n / 64 % 64).toUInt8,
      (0x80 + n % 64).toUInt8]

def encode (cs : List Char) : List UInt8 := cs.flatMap encodeChar

/-- Halves that stand together and cannot be written: where the first of them stands, how
many there are, and what it is. -/
structure Unencodable where
  position : Nat
  length : Nat
  first : Letter
deriving DecidableEq, Repr

def Unencodable.message (f : Unencodable) : String :=
  let which :=
    if f.length = 1 then
      "character '\\u" ++ String.ofList (hex 4 f.first.code) ++ "' in position " ++
        toString f.position
    else
      "characters in position " ++ toString f.position ++ "-" ++
        toString (f.position + f.length - 1)
  "'utf-8' codec can't encode " ++ which ++ ": surrogates not allowed"

/-- The first halves that stand together, in a text behind `position` letters. -/
def firstHalves? (position : Nat) : Text → Option Unencodable
  | [] => none
  | .char _ :: cs => firstHalves? (position + 1) cs
  | .half n :: cs => some ⟨position, 1 + (cs.takeWhile Letter.isHalf).length, .half n⟩

/-- The bytes of a text. -/
def encodeText (cs : Text) : Except Unencodable (List UInt8) :=
  match firstHalves? 0 cs with
  | some f => .error f
  | none => .ok (encode (cs.filterMap Letter.char?))

/-- The bytes of a letter in the name of a file. From U+DC80 on, halves stand for the bytes
from 0x80 on. -/
def nameByte? : Letter → Option (List UInt8)
  | .char c => some (encodeChar c)
  | .half n => if 0x480 ≤ n.val ∧ n.val < 0x500 then some [(n.val - 0x400).toUInt8] else none

/-- The bytes of the name of a file, if it can be one. -/
def nameBytes? (name : Text) : Option (List UInt8) := (name.mapM nameByte?).map List.flatten

/-! ### Reading -/

/-- Why bytes are not a character. -/
inductive Reason
  | start
  | continuation
  | truncated
deriving DecidableEq, Repr

def Reason.text : Reason → String
  | .start => "invalid start byte"
  | .continuation => "invalid continuation byte"
  | .truncated => "unexpected end of data"

/-- Bytes that are not a character: where they stand, and why. `byte` is the first of them. -/
structure Fault where
  position : Nat
  length : Nat
  byte : UInt8
  reason : Reason
deriving DecidableEq, Repr

def Fault.message (f : Fault) : String :=
  let which :=
    if f.length = 1 then
      "byte 0x" ++ String.ofList (hex 2 f.byte.toNat) ++ " in position " ++ toString f.position
    else
      "bytes in position " ++ toString f.position ++ "-" ++ toString (f.position + f.length - 1)
  "'utf-8' codec can't decode " ++ which ++ ": " ++ f.reason.text

def isContinuation (b : UInt8) : Bool := 0x80 ≤ b && b < 0xC0

/-- Whether `second` may follow the lead byte `lead` of a longer form. It keeps out
overlong forms, surrogates and what lies above the last code point. -/
def mayFollow (lead second : UInt8) : Bool :=
  isContinuation second &&
    !(lead == 0xE0 && second < 0xA0) && !(lead == 0xED && 0xA0 ≤ second) &&
    !(lead == 0xF0 && second < 0x90) && !(lead == 0xF4 && 0x90 ≤ second)

/-- What the bytes at the front are: a character and how many bytes it takes, or
how many bytes are at fault. -/
inductive Front
  | char (c : Char) (length : Nat)
  | bad (length : Nat) (reason : Reason)

private def low (b : UInt8) : Nat := b.toNat % 64

/-- Reads the character at the front of `b :: rest`. -/
def front (b : UInt8) (rest : List UInt8) : Front :=
  if b < 0x80 then .char (Char.ofNat b.toNat) 1
  else if b < 0xC2 then .bad 1 .start
  else if b < 0xE0 then
    match rest with
    | [] => .bad 1 .truncated
    | c :: _ =>
      if isContinuation c then .char (Char.ofNat (b.toNat % 32 * 64 + low c)) 2
      else .bad 1 .continuation
  else if b < 0xF0 then
    match rest with
    | [] => .bad 1 .truncated
    | [c] => if mayFollow b c then .bad 2 .truncated else .bad 1 .continuation
    | c :: d :: _ =>
      if !mayFollow b c then .bad 1 .continuation
      else if !isContinuation d then .bad 2 .continuation
      else .char (Char.ofNat (b.toNat % 16 * 4096 + low c * 64 + low d)) 3
  else if b < 0xF5 then
    match rest with
    | [] => .bad 1 .truncated
    | [c] => if mayFollow b c then .bad 2 .truncated else .bad 1 .continuation
    | [c, d] =>
      if !mayFollow b c then .bad 1 .continuation
      else if !isContinuation d then .bad 2 .continuation
      else .bad 3 .truncated
    | c :: d :: e :: _ =>
      if !mayFollow b c then .bad 1 .continuation
      else if !isContinuation d then .bad 2 .continuation
      else if !isContinuation e then .bad 3 .continuation
      else .char
        (Char.ofNat (b.toNat % 8 * 262144 + low c * 4096 + low d * 64 + low e)) 4
  else .bad 1 .start

/-- What a block of bytes gives: the characters at its front, where and why reading
stopped if it stopped early, and the bytes from there on. -/
structure Part where
  text : List Char
  fault : Option Fault
  rest : List UInt8

/-- Reads characters from position `position` on. `skip` counts the bytes that belong
to the character read last. -/
def readFrom (position skip : Nat) : List UInt8 → Part
  | [] => ⟨[], none, []⟩
  | b :: rest =>
    match skip with
    | skip + 1 => readFrom (position + 1) skip rest
    | 0 =>
      match front b rest with
      | .char c length =>
        let more := readFrom (position + 1) (length - 1) rest
        ⟨c :: more.text, more.fault, more.rest⟩
      | .bad length reason => ⟨[], some ⟨position, length, b, reason⟩, b :: rest⟩

/-- Reads all bytes as text. -/
def decode (bytes : List UInt8) : Except Fault (List Char) :=
  let part := readFrom 0 0 bytes
  match part.fault with
  | none => .ok part.text
  | some fault => .error fault

example : (decode [0x61, 0xE2, 0x82]).toOption = none := by decide
example : (encodeText [.char 'a', .half 0, .half 1]).toOption = none := by decide
example : encode ['é', '漢'] = [0xC3, 0xA9, 0xE6, 0xBC, 0xA2] := by decide

end MigrationSetup.Text.Utf8
