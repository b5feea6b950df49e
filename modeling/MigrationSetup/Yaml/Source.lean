import MigrationSetup.Text.Stream
import MigrationSetup.Yaml.Fault

/-! What can be read of a YAML text.

A YAML text may not hold control characters and a few others (`isAllowed`). It is read in
portions, of which the first two come at once and each other one when a character in it
is looked at. A portion is refused as a whole, so a text breaks off where the first
portion begins that has something wrong with it, and what is wrong with later ones does
not matter if nobody reads that far. -/
namespace MigrationSetup.Yaml

/-- Whether a YAML text may hold the character. -/
def isAllowed (c : Char) : Bool :=
  c == '\t' || c == '\n' || (' ' ≤ c && c ≤ '~') || c == '\u0085' ||
    ('\u00a0' ≤ c && c ≤ '\ufffd') || 0x10000 ≤ c.toNat

/-- A text up to where it breaks off, and the fault that is met there. Without a fault
it is the whole text. -/
structure Source where
  text : List Char
  fault : Option Fault

namespace Source

/-- The count of characters in a portion. -/
def portionSize : Nat := 4096

/-- Where the portion begins that holds a character. -/
def portionStart (index : Nat) : Nat :=
  if index < 2 * portionSize then 0 else index / portionSize * portionSize

/-- A text that breaks off at `fault`, if not at a character before that it may not hold. -/
def ofText (cs : List Char) (fault : Option Fault) : Source :=
  match cs.findIdx? fun c => !isAllowed c with
  | none => ⟨cs, fault⟩
  | some i => ⟨cs.take (portionStart i), some .malformed⟩

/-- What can be read of the text in some bytes. -/
def ofBytes (bytes : List UInt8) : Source :=
  match Text.Utf8.decode bytes with
  | .ok cs => ofText (Text.Lines.unify cs) none
  | .error _ =>
    let (portions, fault) := Text.Stream.portions portionSize bytes
    if portions.length < 2 then ⟨[], fault.map .bytes⟩
    else ofText portions.flatten (fault.map .bytes)

end Source
end MigrationSetup.Yaml
