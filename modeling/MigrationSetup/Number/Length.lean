/-! How long whole numbers may be.

A whole number in decimal has at most `maxDigits` digits, whether it is read or written.
A file may hold a longer one in another base; nothing is wrong with that until the
number has to be written out. -/
namespace MigrationSetup

/-- The most digits that a decimal number may have. -/
def maxDigits : Nat := 4300

/-- Whether a number is too long to be written out. -/
def isTooLong (n : Int) : Bool := Nat.pow 10 maxDigits ≤ n.natAbs

/-- The message for a number of `count` digits that was to be read. -/
def tooManyDigitsMessage (count : Nat) : String :=
  s!"Exceeds the limit ({maxDigits} digits) for integer string conversion: value has {count} " ++
    "digits; use sys.set_int_max_str_digits() to increase the limit"

/-- The message for a number that was to be written out. -/
def tooLongMessage : String :=
  s!"Exceeds the limit ({maxDigits} digits) for integer string conversion; " ++
    "use sys.set_int_max_str_digits() to increase the limit"

end MigrationSetup
