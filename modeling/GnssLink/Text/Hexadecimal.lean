/-!
# Hexadecimal digits

Two digits stand for one byte.  Diagnostics write a byte as `0x` and two lower-case digits; the
check field of a text sentence is two upper-case digits.

## Main definitions

* `Hexadecimal.digit` — a digit in either case.
* `Hexadecimal.pair` — the two digits of a byte.
* `Hexadecimal.literal` — a byte in a diagnostic.
-/

namespace GnssLink.Hexadecimal

/-- Whether the digits above nine are written `a` to `f` or `A` to `F`. -/
inductive LetterCase where
  | lower
  | upper
  deriving DecidableEq, Repr

/-- The digit of a value below sixteen. -/
def digit (letters : LetterCase) (value : Nat) : Char :=
  if value < 10 then Char.ofNat ('0'.toNat + value)
  else match letters with
    | .lower => Char.ofNat ('a'.toNat + (value - 10))
    | .upper => Char.ofNat ('A'.toNat + (value - 10))

/-- The two digits of a byte, high digit first. -/
def pair (letters : LetterCase) (byte : UInt8) : List Char :=
  [digit letters (byte.toNat / 16), digit letters (byte.toNat % 16)]

/-- A byte as diagnostics show it, such as `0x0a`. -/
def literal (byte : UInt8) : String :=
  "0x" ++ String.ofList (pair .lower byte)

end GnssLink.Hexadecimal
