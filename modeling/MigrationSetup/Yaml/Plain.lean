import MigrationSetup.Yaml.Cursor

/-! Plain scalars.

A plain scalar begins with no character that says something else and goes on until a
comment, until a colon that ends a key and, between brackets, until what ends an item.
It may run over several lines: a single break reads as a space, and of several breaks
the first is dropped. -/
namespace MigrationSetup.Yaml.Plain
open Cursor

/-- The characters that say something at the beginning of a scalar. -/
def indicators : List Char := "-?:,[]{}#&*!|>'\"%@\x60".toList

/-- Whether the character at the cursor is no more than text, between brackets or outside
of them. What follows it is looked at only if it is a colon. -/
def isText (inFlow : Bool) (c : Cursor) : Except Fault Bool := do
  let x ← c.peek
  if isOver x then return false
  else if x = ':' then
    let following ← c.peekAt 1
    return !(isOver following || (inFlow && ",[]{}".toList.contains following))
  else return !(inFlow && ",?[]{}".toList.contains x)

/-- Whether a plain scalar begins at the cursor. -/
def begins (inFlow : Bool) (c : Cursor) : Except Fault Bool := do
  let x ← c.peek
  if !isOver x && !indicators.contains x then return true
  else
    let following ← c.peekAt 1
    return !isOver following && (x == '-' || (!inFlow && (x == '?' || x == ':')))

/-- The text at the cursor up to a blank or what ends the scalar. -/
def word (inFlow : Bool) : Nat → Cursor → Except Fault (List Char × Cursor)
  | 0, c => .ok ([], c)
  | fuel + 1, c => do
    if ← isText inFlow c then
      let x ← c.peek
      let (xs, c) ← word inFlow fuel (← c.next)
      return (x :: xs, c)
    else return ([], c)

/-- The breaks of empty lines, or nothing if a document begins or ends there. -/
def breaks : Nat → Cursor → Except Fault (Option (List Char) × Cursor)
  | 0, c => .ok (none, c)
  | fuel + 1, c => do
    if ← c.isAtDocumentMark then return (none, c)
    else
      let c ← c.dropWhile (· == ' ')
      match ← c.lineBreak? with
      | some (b, c) =>
        let (bs?, c) ← breaks fuel c
        return (bs?.map (b :: ·), c)
      | none => return (some [], c)

/-- What separates two words. -/
structure Gap where
  /-- The separation as it reads, or nothing if the scalar ends here. -/
  text : List Char
  hasBreak : Bool

def gap (c : Cursor) : Except Fault (Gap × Cursor) := do
  let (blanks, c) ← c.takeWhile (· == ' ')
  match ← c.lineBreak? with
  | some (b, c) =>
    match ← breaks c.fuel c with
    | (none, c) => return (⟨[], true⟩, c)
    | (some bs, c) =>
      return (⟨if b ≠ '\n' then b :: bs else if bs = [] then [' '] else bs, true⟩, c)
  | none => return (⟨blanks, false⟩, c)

/-- The words from the cursor on, with `between` in front of each but the first. Says
whether a line break came behind the last one. `least` is the column where lines may
begin outside of brackets. -/
def words (inFlow : Bool) (least : Nat) (between : List Char) (hasBreak : Bool) :
    Nat → Cursor → Except Fault (List Char × Bool × Cursor)
  | 0, c => .ok ([], hasBreak, c)
  | fuel + 1, c => do
    if (← c.peek) = '#' then return ([], hasBreak, c)
    let (w, after) ← word inFlow c.fuel c
    if w = [] then return ([], hasBreak, c)
    let (gap, c) ← gap after
    let ends ←
      if gap.text.isEmpty then pure true
      else pure ((← c.peek) == '#' || (!inFlow && c.column < least))
    if ends then return (between ++ w, gap.hasBreak, c)
    else
      let (text, hasBreak, c) ← words inFlow least gap.text gap.hasBreak fuel c
      return (between ++ w ++ text, hasBreak, c)

/-- Reads a plain scalar. Also says whether its last line has ended. -/
def read (inFlow : Bool) (least : Nat) (c : Cursor) : Except Fault (List Char × Bool × Cursor) :=
  words inFlow least [] false c.fuel c

end MigrationSetup.Yaml.Plain
