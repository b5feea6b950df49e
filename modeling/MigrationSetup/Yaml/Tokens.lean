import MigrationSetup.Yaml.Block
import MigrationSetup.Yaml.Mark
import MigrationSetup.Yaml.Plain
import MigrationSetup.Yaml.Quoted

/-! From a YAML text to its tokens.

`ofSource` goes through the text once. Outside of brackets the column of each line opens
and closes collections (`Scan.closeTo`, `Scan.openAt`). A key is only known as a key at
the colon behind it, so every place where one may begin is kept in mind, one for each
depth of brackets, and the token of the key is put in there once the colon comes
(`Scan.value`). Such a key ends on its own line, and soon. Tokens behind a place where a
key may have begun are not settled (`Scan.settled`): if a fault comes first, it is met
instead of them. -/
namespace MigrationSetup.Yaml.Tokens
open Cursor

/-- A place where a key may have begun. -/
structure Start where
  /-- How many tokens come before it. -/
  tokens : Nat
  /-- Whether there is nothing else that it could be. -/
  isKey : Bool
  index : Nat
  line : Nat
  column : Nat

structure Scan where
  cursor : Cursor
  /-- The tokens so far, the last one first. -/
  found : List Token
  /-- How many tokens these are. -/
  count : Nat
  /-- How many brackets are open. -/
  depth : Nat
  /-- The column of the collection that the cursor is in, one column to the left of the
  text if it is in none. -/
  indent : Int
  /-- The columns of the collections around that one. -/
  outer : List Int
  /-- Whether a key without a mark may begin here. -/
  mayStart : Bool
  /-- The places where a key may have begun, by depth. -/
  starts : List (Nat × Start)

/-- The furthest that a key may be from its colon. -/
def keyLength : Nat := 1024

namespace Scan

def inFlow (s : Scan) : Bool := s.depth != 0

def emit (t : Token) (s : Scan) : Scan := { s with found := t :: s.found, count := s.count + 1 }

/-- Takes a character that is a token. -/
def emitNext (t : Token) (s : Scan) : Except Fault Scan := do
  return { s.emit t with cursor := ← s.cursor.next }

/-- Puts a token behind the first `n`. -/
def insertAt (n : Nat) (t : Token) (s : Scan) : Scan :=
  let later := s.count - n
  { s with found := s.found.take later ++ t :: s.found.drop later, count := s.count + 1 }

/-! ### Places where a key may have begun -/

/-- Gives up the place at this depth. -/
def dropStart (s : Scan) : Except Fault Scan :=
  match s.starts.find? (·.1 == s.depth) with
  | none => .ok s
  | some (_, k) =>
    if k.isKey then .error .malformed
    else .ok { s with starts := s.starts.filter (·.1 != s.depth) }

/-- Keeps the cursor as a place where a key may begin. -/
def markStart (s : Scan) : Except Fault Scan :=
  if s.mayStart then do
    let s ← s.dropStart
    let c := s.cursor
    let k : Start := ⟨s.count, !s.inFlow && s.indent == c.column, c.index, c.line, c.column⟩
    return { s with starts := (s.depth, k) :: s.starts }
  else .ok s

/-- Whether a key that began at `k` has to have ended before the cursor. -/
def isPast (s : Scan) (k : Start) : Bool :=
  k.line != s.cursor.line || k.index + keyLength < s.cursor.index

/-- Gives up the places that are too far back. -/
def dropPast (s : Scan) : Except Fault Scan :=
  if s.starts.any fun k => s.isPast k.2 && k.2.isKey then .error .malformed
  else .ok { s with starts := s.starts.filter fun k => !s.isPast k.2 }

/-! ### Indentation -/

/-- Closes the collections that are further right than `column`. -/
def closeTo (column : Int) (s : Scan) : Scan :=
  if s.inFlow then s else close s.outer s
where
  close : List Int → Scan → Scan
    | [], s => s
    | i :: outer, s =>
      if column < s.indent then
        close outer { s.emit .blockEnd with indent := i, outer }
      else s

/-- Opens a collection at `column`, unless the cursor is in it already. -/
def openAt (column : Nat) (s : Scan) : Option Scan :=
  if s.indent < column then some { s with indent := column, outer := s.indent :: s.outer }
  else none

/-- Begins a collection in block style at the cursor if there is none in this column. -/
def begin (t : Token) (s : Scan) : Except Fault Scan :=
  if s.inFlow then .ok s
  else if !s.mayStart then .error .malformed
  else .ok (((s.openAt s.cursor.column).map (·.emit t)).getD s)

/-! ### Single tokens -/

/-- Ends what is open in block style, at the end of a document. -/
def endBlocks (s : Scan) : Except Fault Scan := do
  let s ← (s.closeTo (-1)).dropStart
  return { s with mayStart := false }

def streamEnd (s : Scan) : Except Fault Scan := do
  return { (← s.endBlocks).emit .streamEnd with starts := [] }

def directive (s : Scan) : Except Fault Scan := do
  let s ← s.endBlocks
  let (d, c) ← Mark.directive s.cursor
  return { s.emit (.directive d) with cursor := c }

def documentMark (t : Token) (s : Scan) : Except Fault Scan := do
  let s ← s.endBlocks
  return { s.emit t with cursor := ← s.cursor.skip 3 }

def openBracket (t : Token) (s : Scan) : Except Fault Scan := do
  let s ← (← s.markStart).emitNext t
  return { s with depth := s.depth + 1, mayStart := true }

/-- A bracket that closes another one; one that closes none is a fault. -/
def closeBracket (t : Token) (s : Scan) : Except Fault Scan := do
  let s ← (← s.dropStart).emitNext t
  if !s.inFlow then throw .malformed
  return { s with depth := s.depth - 1, mayStart := false }

def flowEntry (s : Scan) : Except Fault Scan := do
  let s ← (← s.dropStart).emitNext .flowEntry
  return { s with mayStart := true }

def blockEntry (s : Scan) : Except Fault Scan := do
  let s ← s.begin .blockSequence
  let s ← (← s.dropStart).emitNext .blockEntry
  return { s with mayStart := true }

/-- A key with a mark. -/
def key (s : Scan) : Except Fault Scan := do
  let s ← s.begin .blockMapping
  let s ← (← s.dropStart).emitNext .key
  return { s with mayStart := !s.inFlow }

/-- The colon in front of a value. What stands before it is its key if it began where a
key may begin. -/
def value (s : Scan) : Except Fault Scan := do
  match s.starts.find? (·.1 == s.depth) with
  | some (_, k) =>
    let s := { s with starts := s.starts.filter (·.1 != s.depth) }.insertAt k.tokens .key
    let s := match if s.inFlow then none else s.openAt k.column with
      | some s => s.insertAt k.tokens .blockMapping
      | none => s
    return { ← s.emitNext .value with mayStart := false }
  | none =>
    let s ← (← s.begin .blockMapping).emitNext .value
    return { s with mayStart := !s.inFlow }

/-- Something that may be a key or the beginning of one. -/
def part (read : Cursor → Except Fault (Token × Cursor)) (s : Scan) : Except Fault Scan := do
  let s ← s.markStart
  let (t, c) ← read s.cursor
  return { s.emit t with cursor := c, mayStart := false }

def reference (c : Cursor) : Except Fault (Token × Cursor) := do
  let (n, c) ← Mark.name (← c.next)
  return (.reference n, c)

def anchor (c : Cursor) : Except Fault (Token × Cursor) := do
  let (n, c) ← Mark.name (← c.next)
  return (.anchor n, c)

def quoted (c : Cursor) : Except Fault (Token × Cursor) := do
  let (text, c) ← Quoted.read c
  return (.scalar text false, c)

def plainScalar (s : Scan) : Except Fault Scan := do
  let s ← s.markStart
  let (text, hasBreak, c) ← Plain.read s.inFlow (s.indent + 1).toNat s.cursor
  return { s.emit (.scalar (.ofChars text) true) with cursor := c, mayStart := hasBreak }

def blockScalar (isFolded : Bool) (s : Scan) : Except Fault Scan := do
  let s ← s.dropStart
  let (text, c) ← Block.read isFolded (s.indent + 1).toNat s.cursor
  return { s.emit (.scalar (.ofChars text) false) with cursor := c, mayStart := true }

/-! ### All tokens -/

/-- Passes over blanks, comments and line breaks. -/
def dropBlanks : Nat → Scan → Except Fault Scan
  | 0, s => .ok s
  | fuel + 1, s => do
    let c ← (← s.cursor.dropWhile (· == ' ')).dropComment
    match ← c.lineBreak? with
    | some (_, c) =>
      dropBlanks fuel { s with cursor := c, mayStart := if s.inFlow then s.mayStart else true }
    | none => return { s with cursor := c }

/-- Takes the token at the cursor. What follows its first character is looked at only
where that decides what it is. -/
def token (s : Scan) : Except Fault Scan := do
  let c := s.cursor
  let x ← c.peek
  if x = stop then s.streamEnd
  else if x = '%' ∧ c.column = 0 then s.directive
  else if ← if (x = '-' ∨ x = '.') ∧ c.column = 0 then c.isAtDocumentMark else pure false then
    s.documentMark (if x = '-' then .documentStart else .documentEnd)
  else
    match x with
    | '[' => s.openBracket .flowSequence
    | '{' => s.openBracket .flowMapping
    | ']' => s.closeBracket .flowSequenceEnd
    | '}' => s.closeBracket .flowMappingEnd
    | ',' => s.flowEntry
    | '*' => s.part reference
    | '&' => s.part anchor
    | '!' => s.part Mark.tag
    | '\'' => s.part quoted
    | '"' => s.part quoted
    | x =>
      let isAlone ←
        if x = '-' ∨ ((x = '?' ∨ x = ':') ∧ !s.inFlow) then pure (isOver (← c.peekAt 1))
        else pure (x = '?' ∨ x = ':')
      if x = '-' ∧ isAlone then s.blockEntry
      else if x = '?' ∧ isAlone then s.key
      else if x = ':' ∧ isAlone then s.value
      else if (x = '|' ∨ x = '>') ∧ !s.inFlow then s.blockScalar (x = '>')
      else if ← Plain.begins s.inFlow c then s.plainScalar
      else throw .malformed

/-- Takes the next token, and gives up the places that are too far back behind it. -/
def step (s : Scan) : Except Fault Scan := do
  let s ← (← s.dropBlanks s.cursor.fuel).dropPast
  (← (s.closeTo s.cursor.column).token).dropPast

/-- How many tokens can get no other in front of them. -/
def settled (s : Scan) : Nat := s.starts.foldl (fun n k => min n k.2.tokens) s.count

/-- Takes all tokens up to the end of the text or a fault. -/
def run : Nat → Scan → List Token
  | 0, s => s.found.reverse
  | fuel + 1, s =>
    match s.step with
    | .error f => s.found.reverse.take s.settled ++ [.broken f]
    | .ok s =>
      match s.found with
      | .streamEnd :: _ => s.found.reverse
      | _ => run fuel s

end Scan

/-- The cursor at the beginning of a text, behind a byte order mark. -/
def beginning (s : Source) : Except Fault Cursor := do
  let c := Cursor.start s
  if (← c.peek) = byteOrderMark then c.next else return c

/-- The tokens of a text. -/
def ofSource (s : Source) : List Token :=
  match beginning s with
  | .error f => [.broken f]
  | .ok c => Scan.run (s.text.length + 1) ⟨c, [], 0, 0, -1, [], true, []⟩

end MigrationSetup.Yaml.Tokens
