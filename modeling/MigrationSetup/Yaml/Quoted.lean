import MigrationSetup.Yaml.Cursor

/-! Quoted scalars.

Between single quotes all stands for itself and a quote is written twice. Between double
quotes a backslash begins an escape. In both a single line break with the blanks around
it reads as a space, and of several breaks the first is dropped; an escaped break is
dropped as well. No document begins or ends between quotes. -/
namespace MigrationSetup.Yaml.Quoted
open Cursor

/-- What an escape with one character stands for. -/
def escaped? : Char → Option Char
  | '0' => some '\x00'
  | 'a' => some '\x07'
  | 'b' => some '\x08'
  | 't' => some '\t'
  | '\t' => some '\t'
  | 'n' => some '\n'
  | 'v' => some '\x0b'
  | 'f' => some '\x0c'
  | 'r' => some '\r'
  | 'e' => some '\x1b'
  | ' ' => some ' '
  | '"' => some '"'
  | '\\' => some '\\'
  | '/' => some '/'
  | 'N' => some '\u0085'
  | '_' => some '\u00a0'
  | 'L' => some '\u2028'
  | 'P' => some '\u2029'
  | _ => none

/-- The count of digits behind the letter of an escape with a code. -/
def codeLength? : Char → Option Nat
  | 'x' => some 2
  | 'u' => some 4
  | 'U' => some 8
  | _ => none

/-- Whether a character has to be looked at between quotes. -/
def isSpecial (c : Char) : Bool :=
  c == '\'' || c == '"' || c == '\\' || isOver c

/-- The breaks of empty lines at the beginning of a line, and the place of what follows
them. -/
def breaks : Nat → Cursor → Except Fault (List Char × Cursor)
  | 0, _ => .error .malformed
  | fuel + 1, c => do
    if ← c.isAtDocumentMark then throw .malformed
    let c ← c.dropWhile isBlank
    match ← c.lineBreak? with
    | some (b, c) =>
      let (bs, c) ← breaks fuel c
      return (b :: bs, c)
    | none => return ([], c)

/-- Blanks and line breaks, as they read. -/
def spaces (c : Cursor) : Except Fault (List Char × Cursor) := do
  let (blanks, c) ← c.takeWhile isBlank
  match ← c.lineBreak? with
  | some (b, c) =>
    let (bs, c) ← breaks c.fuel c
    return (if b ≠ '\n' then b :: bs else if bs = [] then [' '] else bs, c)
  | none => if (← c.peek) = stop then throw .malformed else return (blanks, c)

/-- An escape with a code of `n` digits, at its first digit. The code may be that of half a
pair, and two such halves stay two. -/
def coded (n : Nat) (c : Cursor) : Except Fault (Letter × Cursor) := do
  let code := Text.ofDigits 16 (← (List.range n).mapM c.hexDigitAt)
  if 0x110000 ≤ code then throw (.codePoint code)
  return (.ofCode code, ← c.skip n)

/-- What a backslash begins, at the character behind it. -/
def escape (c : Cursor) : Except Fault (Text × Cursor) := do
  let x ← c.peek
  match escaped? x, codeLength? x with
  | some x, _ => return ([.char x], ← c.next)
  | none, some n =>
    let (x, c) ← coded n (← c.next)
    return ([x], c)
  | none, none =>
    match ← c.lineBreak? with
    | some (_, c) =>
      let (bs, c) ← breaks c.fuel c
      return (.ofChars bs, c)
    | none => throw .malformed

/-- What stands between quotes up to the one that closes, which is passed. -/
def body (isDouble : Bool) : Nat → Cursor → Except Fault (Text × Cursor)
  | 0, _ => .error .malformed
  | fuel + 1, c => do
    let go (found : Text) (c : Cursor) : Except Fault (Text × Cursor) := do
      let (more, c) ← body isDouble fuel c
      return (found ++ more, c)
    let (word, c) ← c.takeWhile fun x => !isSpecial x
    if word ≠ [] then go (.ofChars word) c
    else
      match isDouble, ← c.peek with
      | true, '"' => return ([], ← c.next)
      | false, '\'' =>
        if (← c.peekAt 1) = '\'' then go [.char '\''] (← c.skip 2) else return ([], ← c.next)
      | true, '\\' =>
        let (found, c) ← escape (← c.next)
        go found c
      | _, x =>
        if isOver x then
          let (found, c) ← spaces c
          go (.ofChars found) c
        else go [.char x] (← c.next)

/-- Reads a quoted scalar, at its first quote. -/
def read (c : Cursor) : Except Fault (Text × Cursor) := do
  body ((← c.peek) == '"') c.fuel (← c.next)

end MigrationSetup.Yaml.Quoted
