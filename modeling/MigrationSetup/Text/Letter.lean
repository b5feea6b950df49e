/-! What a text is made of.

A text is a sequence of code points. Nearly all of them are characters. The others are the
halves of which a pair stands for one character where text is kept in units of sixteen bits: an
escape in a file may give a half by itself, and then it is a letter like any other, until
the text is to be written as bytes. -/
namespace MigrationSetup

/-- A code point. -/
inductive Letter
  | char (c : Char)
  /-- Half of a surrogate pair, counted from the first half. -/
  | half (n : Fin 0x800)
deriving DecidableEq, Repr

abbrev Text := List Letter

namespace Letter

instance : Coe Char Letter := ⟨.char⟩

/-- The first code point that is a half. -/
def firstHalf : Nat := 0xD800

/-- The number of a code point. -/
def code : Letter → Nat
  | .char c => c.toNat
  | .half n => firstHalf + n

/-- The code point with a number. -/
def ofCode (code : Nat) : Letter :=
  if h : firstHalf ≤ code ∧ code < firstHalf + 0x800 then .half ⟨code - firstHalf, by omega⟩
  else .char (Char.ofNat code)

def char? : Letter → Option Char
  | .char c => some c
  | .half _ => none

def isHalf : Letter → Bool
  | .char _ => false
  | .half _ => true

/-- The order of code points. -/
def lt (a b : Letter) : Bool := a.code < b.code

/-- No character is a half. -/
theorem code_injective {a b : Letter} (h : a.code = b.code) : a = b := by
  have range (c : Char) : c.toNat < firstHalf ∨ firstHalf + 0x800 ≤ c.toNat := by
    rcases c.valid with h | h <;> simp only [Char.toNat, UInt32.toNat, firstHalf] at * <;> omega
  cases a with
  | char c =>
    cases b with
    | char d => rw [Char.toNat_inj.1 h]
    | half n => have := range c; simp only [code] at h; omega
  | half m =>
    cases b with
    | char d => have := range d; simp only [code] at h; omega
    | half n => simp only [code] at h; congr 1; omega

end Letter

namespace Text

/-- The text of some characters. -/
def ofChars (cs : List Char) : Text := cs.map .char

def ofString (s : String) : Text := ofChars s.toList

instance : Coe (List Char) Text := ⟨ofChars⟩

instance : Coe String Text := ⟨ofString⟩

/-- Texts with `mark` between them. -/
def between (mark : Text) (ts : List Text) : Text := mark.intercalate ts

/-- The characters of a text, unless it has a half. -/
def chars? (t : Text) : Option (List Char) := t.mapM Letter.char?

@[simp] theorem ofChars_inj {cs ds : List Char} : ofChars cs = ofChars ds ↔ cs = ds :=
  List.map_inj_right fun _ _ => Letter.char.inj

@[simp] theorem ofString_inj {s t : String} : ofString s = ofString t ↔ s = t := by
  rw [ofString, ofString, ofChars_inj, String.toList_inj]

end Text
end MigrationSetup
