import MigrationSetup.Yaml.Cursor
import MigrationSetup.Yaml.Token

/-! What is written in front of nodes and of documents.

A node may have a name (`&name`), stand for a node with a name (`*name`) or have a tag
(`!tag`). In front of a document directives give the version and the handles of tags. -/
namespace MigrationSetup.Yaml.Mark
open Cursor

/-- The characters of names and handles. -/
def isWord (c : Char) : Bool :=
  ('0' ≤ c && c ≤ '9') || ('A' ≤ c && c ≤ 'Z') || ('a' ≤ c && c ≤ 'z') || c == '-' || c == '_'

/-- The characters of tags. -/
def isUri (c : Char) : Bool := isWord c || ";/?:@&=+$,.!~*'()[]%".toList.contains c

/-- Passes over one character that has to stand here. -/
def expect (p : Char → Bool) (c : Cursor) : Except Fault Cursor := do
  if p (← c.peek) then c.next else throw .malformed

/-- Makes sure of the character that stands here. -/
def ensure (p : Char → Bool) (c : Cursor) : Except Fault Unit := do
  if !p (← c.peek) then throw .malformed

def dropSpaces (c : Cursor) : Except Fault Cursor := c.dropWhile (· == ' ')

/-- A name, at the character behind its mark. -/
def name (c : Cursor) : Except Fault (List Char × Cursor) := do
  let (word, c) ← c.takeWhile isWord
  if word = [] then throw .malformed
  ensure (fun x => isOver x || "?:,]\x7d%@\x60".toList.contains x) c
  return (word, c)

/-! ### Tags -/

/-- The bytes of escapes, each a percent sign and two digits. -/
def escapes : Nat → Cursor → Except Fault (List UInt8 × Cursor)
  | 0, _ => .error .malformed
  | fuel + 1, c => do
    if (← c.peek) = '%' then
      let a ← c.hexDigitAt 1
      let b ← c.hexDigitAt 2
      let (bs, c) ← escapes fuel (← c.skip 3)
      return ((a * 16 + b).toUInt8 :: bs, c)
    else return ([], c)

/-- The text of a tag, which may be empty. -/
def uriText : Nat → Cursor → Except Fault (List Char × Cursor)
  | 0, _ => .error .malformed
  | fuel + 1, c => do
    let x ← c.peek
    if x = '%' then
      let (bytes, c) ← escapes c.fuel c
      match Text.Utf8.decode bytes with
      | .error _ => throw .malformed
      | .ok found =>
        let (more, c) ← uriText fuel c
        return (found ++ more, c)
    else if isUri x then
      let (more, c) ← uriText fuel (← c.next)
      return (x :: more, c)
    else return ([], c)

/-- The text of a tag. -/
def uri (c : Cursor) : Except Fault (List Char × Cursor) := do
  if !isUri (← c.peek) then throw .malformed
  uriText c.fuel c

/-- A handle: an exclamation mark, or a word between two of them. -/
def handle (c : Cursor) : Except Fault (List Char × Cursor) := do
  let c ← expect (· == '!') c
  if (← c.peek) = ' ' then return (['!'], c)
  let (word, c) ← c.takeWhile isWord
  let c ← expect (· == '!') c
  return ('!' :: word ++ ['!'], c)

/-- Whether the tag at the cursor has a handle of its own: another exclamation mark
comes before the word ends. -/
def hasHandle (c : Cursor) : Except Fault Bool := do
  let inner := (c.rest.drop 1).takeWhile fun x => x != '!' && !isWordOver x
  return (← c.peekAt (inner.length + 1)) == '!'

/-- A tag, at its exclamation mark. -/
def tag (c : Cursor) : Except Fault (Token × Cursor) := do
  let x ← c.peekAt 1
  let (found, c) ←
    if x = '<' then do
      let (suffix, c) ← uri (← c.skip 2)
      let c ← expect (· == '>') c
      pure (Token.tag none suffix, c)
    else if isOver x then pure (Token.tag none ['!'], ← c.next)
    else do
      let (start, c) ← if ← hasHandle c then handle c else pure (['!'], ← c.next)
      let (suffix, c) ← uri c
      pure (Token.tag (some start) suffix, c)
  ensure isWordOver c
  return (found, c)

/-! ### Directives -/

/-- A number of a version. -/
def versionNumber (c : Cursor) : Except Fault (Nat × Cursor) := do
  let (digits, c) ← c.takeWhile fun x => '0' ≤ x && x ≤ '9'
  if digits = [] then throw .malformed
  if maxDigits < digits.length then throw (.tooManyDigits digits.length)
  return (Text.ofDigits 10 (digits.map fun x => x.toNat - 48), c)

/-- A directive, at its percent sign. The rest of the line may hold a comment. -/
def directive (c : Cursor) : Except Fault (Directive × Cursor) := do
  let (word, c) ← (← c.next).takeWhile isWord
  if word = [] then throw .malformed
  ensure isWordOver c
  let (found, c) ←
    if word = "YAML".toList then do
      let (major, c) ← versionNumber (← dropSpaces c)
      let c ← expect (· == '.') c
      let (_, c) ← versionNumber c
      ensure isWordOver c
      pure (Directive.version major, c)
    else if word = "TAG".toList then do
      let (start, c) ← handle (← dropSpaces c)
      ensure (· == ' ') c
      let (full, c) ← uri (← dropSpaces c)
      ensure isWordOver c
      pure (Directive.handle start full, c)
    else pure (Directive.unknown, ← c.dropWhile fun x => !isBreak x)
  let c ← (← dropSpaces c).dropComment
  ensure isLineOver c
  if isBreak (← c.peek) then return (found, ← c.next) else return (found, c)

end MigrationSetup.Yaml.Mark
