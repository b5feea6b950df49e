import MigrationSetup.Number.Binary64
import MigrationSetup.Text.Lines
import MigrationSetup.Text.Utf8

/-! Text that is read as it is needed.

A stream gives its text in portions (`portions`). For one it takes bytes in blocks, which
are larger when more is wanted and the last block gave few characters for its bytes
(`blockLength`). The bytes of a block that only begin a character wait for the next
block, and so does a carriage return at its end, for a line feed may follow. So bytes
that are not text are met in the portion that needs their block, and their position is
counted from the first byte that waited. -/
namespace MigrationSetup.Text

structure Stream where
  /-- The bytes that have not been taken. -/
  bytes : List UInt8
  /-- The bytes that begin a character. -/
  waiting : List UInt8
  /-- Whether a carriage return waits. -/
  hasReturn : Bool
  /-- The characters that have not been given out. -/
  ready : List Char
  /-- How many bytes the last block had. -/
  taken : Nat
  /-- How many characters it gave. -/
  given : Nat

namespace Stream

def ofBytes (bytes : List UInt8) : Stream := ⟨bytes, [], false, [], 0, 0⟩

/-- The length of the smallest blocks. -/
def leastBlock : Nat := 8192

/-- How many bytes to take for `wanted` characters: as many for each as the last block
had, but no fewer than one. -/
def blockLength (s : Stream) (wanted : Nat) : Nat :=
  let needed :=
    if s.given < s.taken ∧ s.given ≠ 0 then
      ((Binary64.ofRatio false s.taken s.given).mul (.ofInt wanted)).floor
    else wanted
  max leastBlock needed

/-- Whether bytes left over may yet become a character: they were cut short, or they are
the first two bytes of a surrogate, about which nothing is said yet. -/
def mayWait (fault : Utf8.Fault) (rest : List UInt8) : Bool :=
  fault.reason == .truncated ||
    match rest with
    | [b, c] => b == 0xED && Utf8.isContinuation c
    | _ => false

/-- Takes a block, if there are bytes left or a carriage return waits. At the end nothing
may wait for more. -/
def takeBlock (s : Stream) (wanted : Nat) : Except Utf8.Fault (Option Stream) := do
  let length := s.blockLength wanted
  let block := s.bytes.take length
  let isEnd := block.isEmpty
  let part := Utf8.readFrom 0 0 (s.waiting ++ block)
  match part.fault with
  | some fault => if isEnd || !mayWait fault part.rest then throw fault
  | none => pure ()
  let isReturned := s.hasReturn && (isEnd || !part.text.isEmpty)
  let text := if isReturned then '\r' :: part.text else part.text
  let isHeld := !isEnd && text.getLast? == some '\r'
  let ready := Lines.unify (if isHeld then text.dropLast else text)
  if isEnd && ready.isEmpty then return none
  return some
    { bytes := s.bytes.drop length
      waiting := part.rest
      hasReturn := isHeld || (s.hasReturn && !isReturned)
      ready
      taken := block.length
      given := ready.length }

/-- Gives out up to `wanted` characters, fewer only at the end. -/
def portion : Nat → Nat → Stream → Except Utf8.Fault (List Char × Stream)
  | 0, _, s => .ok ([], s)
  | fuel + 1, wanted, s => do
    let now := s.ready.take wanted
    let s := { s with ready := s.ready.drop wanted }
    if now.length = wanted then return (now, s)
    match ← s.takeBlock (wanted - now.length) with
    | none => return (now, s)
    | some s =>
      let (more, s) ← portion fuel (wanted - now.length) s
      return (now ++ more, s)

/-- All portions of `size` characters, up to the end or to bytes that are not text. -/
def portionsOf (size : Nat) : Nat → Stream → List (List Char) × Option Utf8.Fault
  | 0, _ => ([], none)
  | fuel + 1, s =>
    match s.portion (s.bytes.length + 3) size with
    | .error fault => ([], some fault)
    | .ok ([], _) => ([], none)
    | .ok (now, s) =>
      let (more, fault) := portionsOf size fuel s
      (now :: more, fault)

/-- All portions of `size` characters in the text of some bytes. -/
def portions (size : Nat) (bytes : List UInt8) : List (List Char) × Option Utf8.Fault :=
  portionsOf size (bytes.length + 2) (ofBytes bytes)

end Stream
end MigrationSetup.Text
