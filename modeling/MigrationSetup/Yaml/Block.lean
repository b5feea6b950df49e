import MigrationSetup.Yaml.Cursor

/-! Block scalars.

A block scalar is the lines below its indicator that are indented as far as the first
of them, or as far as the indicator says. In the literal style every line break counts.
In the folded style a break between two lines that begin with no blank reads as a space,
or is dropped if empty lines follow. The indicator also says what becomes of the breaks
at the end: all but the first are dropped, none is, or all are. -/
namespace MigrationSetup.Yaml.Block
open Cursor

/-- What becomes of the breaks at the end. -/
inductive Chomping
  | clip | strip | keep
deriving DecidableEq, Repr

def chomping? : Char → Option Chomping
  | '+' => some .keep
  | '-' => some .strip
  | _ => none

/-- The digit at the cursor, if there is one. Zero is no indentation. -/
def increment (c : Cursor) : Except Fault (Option Nat × Cursor) := do
  let x ← c.peek
  if x = '0' then throw .malformed
  else if '1' ≤ x ∧ x ≤ '9' then return (some (x.toNat - 48), ← c.next)
  else return (none, c)

/-- The chomping and the indentation, in either order. -/
def indicators (c : Cursor) : Except Fault (Chomping × Option Nat × Cursor) := do
  match chomping? (← c.peek) with
  | some chomping =>
    let (n, c) ← increment (← c.next)
    return (chomping, n, c)
  | none =>
    let (n, c) ← increment c
    match n, chomping? (← c.peek) with
    | some n, some chomping => return (chomping, some n, ← c.next)
    | n, _ => return (.clip, n, c)

/-- Passes over the rest of a line that may only hold a comment. -/
def lineEnd (c : Cursor) : Except Fault Cursor := do
  let c ← (← c.dropWhile (· == ' ')).dropComment
  match ← c.lineBreak? with
  | some (_, c) => return c
  | none => if (← c.peek) = stop then return c else throw .malformed

/-- The breaks in front of the first line, and the furthest column that their blanks
reach. -/
def firstBreaks : Nat → Nat → Cursor → Except Fault (List Char × Nat × Cursor)
  | 0, furthest, c => .ok ([], furthest, c)
  | fuel + 1, furthest, c => do
    if (← c.peek) = ' ' then
      let c ← c.next
      firstBreaks fuel (max furthest c.column) c
    else
      match ← c.lineBreak? with
      | some (b, c) =>
        let (bs, furthest, c) ← firstBreaks fuel furthest c
        return (b :: bs, furthest, c)
      | none => return ([], furthest, c)

/-- Passes over blanks that are indentation. -/
def dropIndent (indent : Nat) (c : Cursor) : Except Fault Cursor :=
  c.skip ((c.rest.take (indent - c.column)).takeWhile (· == ' ')).length

/-- The breaks of empty lines in front of the next line. -/
def breaks (indent : Nat) : Nat → Cursor → Except Fault (List Char × Cursor)
  | 0, c => .ok ([], c)
  | fuel + 1, c => do
    let c ← dropIndent indent c
    match ← c.lineBreak? with
    | some (b, c) =>
      let (bs, c) ← breaks indent fuel c
      return (b :: bs, c)
    | none => return ([], c)

/-- Whether a line of the scalar stands here. -/
def isAtLine (indent : Nat) (c : Cursor) : Except Fault Bool := do
  return c.column == indent && (← c.peek) != stop

/-- What a break between two lines reads as, `empty` being the breaks that follow. -/
def joint (isFolded isFlush : Bool) (b : List Char) (empty : List Char) : List Char :=
  if isFolded && b == ['\n'] && isFlush then if empty = [] then [' '] else [] else b

/-- The lines from the cursor on, and the breaks at the end: that of the last line and
those behind it. `empty` are the breaks in front. -/
def lines (isFolded : Bool) (indent : Nat) (empty : List Char) :
    Nat → Cursor → Except Fault (List Char × List Char × List Char × Cursor)
  | 0, c => .ok ([], [], empty, c)
  | fuel + 1, c => do
    if ← isAtLine indent c then
      let isFlush := !isBlank (← c.peek)
      let (line, c) ← c.takeWhile fun x => !isBreak x
      let (b, c) := match ← c.lineBreak? with
        | some (b, c) => ([b], c)
        | none => ([], c)
      let (empty', c) ← breaks indent c.fuel c
      if ← isAtLine indent c then
        let mid := joint isFolded (isFlush && !isBlank (← c.peek)) b empty'
        let (text, last, behind, c) ← lines isFolded indent empty' fuel c
        return (empty ++ line ++ mid ++ text, last, behind, c)
      else return (empty ++ line, b, empty', c)
    else return ([], [], empty, c)

/-- Reads a block scalar, at its indicator. `least` is the column where it may begin. -/
def read (isFolded : Bool) (least : Nat) (c : Cursor) : Except Fault (List Char × Cursor) := do
  let (chomping, n, c) ← indicators (← c.next)
  if !isWordOver (← c.peek) then throw .malformed
  let c ← lineEnd c
  let fuel := c.fuel
  let least := max least 1
  let (empty, indent, c) ← match n with
    | some n => do
      let (empty, c) ← breaks (least + n - 1) fuel c
      pure (empty, least + n - 1, c)
    | none => do
      let (empty, furthest, c) ← firstBreaks fuel 0 c
      pure (empty, max least furthest, c)
  let (text, last, behind, c) ← lines isFolded indent empty fuel c
  match chomping with
  | .clip => return (text ++ last, c)
  | .strip => return (text, c)
  | .keep => return (text ++ last ++ behind, c)

end MigrationSetup.Yaml.Block
