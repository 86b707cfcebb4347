/-!
# Numerals

The three written forms of a number that the console and the error texts use: plain lower-case
hexadecimal, hexadecimal with its `0x` mark, and decimal filled up with zeroes to a least width.
-/

set_option autoImplicit false

namespace DemandPaging.Numeral

/-- Lower-case hexadecimal digits, without a mark and without leading zeroes. -/
def hexDigits (n : Nat) : String := String.ofList (Nat.toDigits 16 n)

/-- Hexadecimal as addresses are written: `0x1000`. -/
def hex (n : Nat) : String := "0x" ++ hexDigits n

/-- `digits` with zeroes in front until there are at least `width` of them. -/
def fill (width : Nat) (digits : List Char) : String :=
  String.ofList (List.replicate (width - digits.length) '0' ++ digits)

/-- Decimal of at least `width` digits. -/
def decimalFilled (width n : Nat) : String := fill width (Nat.toDigits 10 n)

/-- Hexadecimal of at least `width` digits, without a mark. -/
def hexFilled (width n : Nat) : String := fill width (Nat.toDigits 16 n)

end DemandPaging.Numeral
