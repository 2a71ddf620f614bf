/-!
# Decimal numerals

Decimal numerals in ASCII digits, and the reading of 32-bit numbers from them.
A numeral may have leading zeros; one plus sign may stand in front of a number.
-/

namespace StyleRules
namespace Text

/-- The value of a decimal digit. -/
def digitValue (c : Char) : Nat :=
  c.toNat - '0'.toNat

/-- The value of decimal digits, the most significant one first. -/
def digitsValue (digits : List Char) : Nat :=
  digits.foldl (fun value c => 10 * value + digitValue c) 0

/-- The value of a numeral: one or more decimal digits. -/
def numeral? (cs : List Char) : Option Nat :=
  if cs.isEmpty then none
  else if cs.all Char.isDigit then some (digitsValue cs)
  else none

/-- Drops one plus sign. -/
def dropPlus : List Char -> List Char
  | '+' :: rest => rest
  | cs => cs

/-- The 32-bit number that a text spells. -/
def word? (text : String) : Option UInt32 := do
  let value ← numeral? (dropPlus text.toList)
  if value < UInt32.size then some (UInt32.ofNat value) else none

end Text
end StyleRules
