import MigrationSetup.Text.Cased
import MigrationSetup.Text.Lowering

/-! Letter case.

Names of modes and switches are ASCII, and a text is compared with such a name after
its letters were raised or lowered. Raised texts are compared and never shown, so of the
upper-case forms only those inside ASCII matter (`asciiUpper`): a letter whose upper-case
form holds anything else can never become part of a name. Ten characters beyond ASCII have
an upper-case form inside it, and some of these forms have several letters. Lowered texts
are shown, so every letter is lowered. A capital sigma becomes the final small one where
a word ends: behind a letter with none behind it (`lowerFrom`). -/
namespace MigrationSetup.Text

/-- The upper-case form of a letter, if all of it is ASCII; any other letter stays as it
is. -/
def asciiUpper : Letter → Text
  | .char c =>
    match c with
    | 'ß' => "SS"
    | 'ı' => "I"
    | 'ſ' => "S"
    | 'ﬀ' => "FF"
    | 'ﬁ' => "FI"
    | 'ﬂ' => "FL"
    | 'ﬃ' => "FFI"
    | 'ﬄ' => "FFL"
    | 'ﬅ' => "ST"
    | 'ﬆ' => "ST"
    | c => [c.toUpper]
  | .half n => [.half n]

/-- Raises every letter of a text whose upper-case form is ASCII. -/
def asciiUppercase (cs : Text) : Text := cs.flatMap asciiUpper

/-- The lower-case form of a letter by itself. -/
def lower : Letter → Text
  | .char c =>
    if c.toNat < 0x80 then [c.toLower]
    else if c = 'İ' then "i\u0307"
    else
      match lowerings.findSome? (·.small? c.toNat) with
      | some n => [Char.ofNat n]
      | none => [c]
  | .half n => [.half n]

/-- Whether the next letter that letter case does not look past has case. -/
def continues (cs : Text) : Bool := (cs.find? fun c => !isCaseIgnorable c).any isCased

/-- Lowers every letter of a text. `isInWord` says whether the last letter before it
that letter case does not look past has case. -/
def lowerFrom (isInWord : Bool) : Text → Text
  | [] => []
  | c :: cs =>
    let small : Text :=
      if c = 'Σ' then [if isInWord && !continues cs then 'ς' else 'σ'] else lower c
    small ++ lowerFrom (if isCaseIgnorable c then isInWord else isCased c) cs

/-- Lowers every letter of a text. -/
def lowercase (cs : Text) : Text := lowerFrom false cs

example : asciiUppercase "per_ſtatement" = "PER_STATEMENT" := by decide
example : asciiUppercase "per_ﬆatement" = "PER_STATEMENT" := by decide
example : lowercase "ΌΔΟΣ. İΣ" = "όδος. i̇ς" := by decide +kernel

end MigrationSetup.Text
