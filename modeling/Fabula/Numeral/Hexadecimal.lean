/-!
# Fabula.Numeral.Hexadecimal

**Hexadecimal digits** and the characters numbered by them, as escapes use both.
-/

namespace Fabula.Numeral

/-- The value of a hexadecimal digit. -/
def hexDigit? (c : Char) : Option Nat :=
  if c.isDigit then some (c.toNat - '0'.toNat)
  else if 'a' ≤ c ∧ c ≤ 'f' then some (c.toNat - 'a'.toNat + 10)
  else if 'A' ≤ c ∧ c ≤ 'F' then some (c.toNat - 'A'.toNat + 10)
  else none

/-- The number that hexadecimal digits stand for, after digits worth `acc`. -/
def hexValue? (acc : Nat) : List Char → Option Nat
  | [] => some acc
  | c :: cs => (hexDigit? c).bind fun d => hexValue? (acc * 16 + d) cs

/-- The character with this number; surrogates and numbers past the last one have none. -/
def character? (n : Nat) : Option Char :=
  if n.isValidChar then some (Char.ofNat n) else none

end Fabula.Numeral
