import Fabula.Numeral.Binary64

/-!
# Fabula.Numeral.Reading

Numbers **read from text**. A whole number is a run of digits, a plus sign before it being allowed; a
decimal has a sign, digits on at least one side of its point, and an exponent, all but the digits
being optional. A decimal becomes the floating-point number nearest to it.
-/

namespace Fabula.Numeral

/-- The number that decimal digits stand for, after digits worth `acc`. -/
def digitsValue (acc : Nat) (cs : List Char) : Nat :=
  cs.foldl (fun n c => n * 10 + (c.toNat - '0'.toNat)) acc

theorem digitsValue_toDigits (i : Nat) : digitsValue 0 (Nat.toDigits 10 i) = i := by
  have hdigits := Nat.ofDigitChars_ten_toDigits (n := i)
  rw [Nat.ofDigitChars_eq_foldl] at hdigits
  simpa only [digitsValue, Nat.mul_comm 10] using hdigits

theorem isDigit_of_mem {i : Nat} {c : Char} (hc : c ∈ Nat.toDigits 10 i) : c.isDigit = true :=
  Nat.isDigit_of_mem_toDigits (by decide) (by decide) hc

/-- A run of digits and nothing else. -/
def readDigits? (cs : List Char) : Option Nat :=
  if !cs.isEmpty && cs.all Char.isDigit then some (digitsValue 0 cs) else none

/-- A whole number up to `bound`; a plus sign may stand before it. -/
def readNat? (bound : Nat) (cs : List Char) : Option Nat :=
  let digits := match cs with
    | '+' :: rest => rest
    | _ => cs
  (readDigits? digits).filter (· ≤ bound)

/-- The exponent part of a decimal: nothing, or `e` with an optional sign and digits. -/
def readExponent? : List Char → Option Int
  | [] => some 0
  | c :: rest =>
    if c = 'e' || c = 'E' then
      match rest with
      | '+' :: digits => (readDigits? digits).map Int.ofNat
      | '-' :: digits => (readDigits? digits).map fun n => -(n : Int)
      | digits => (readDigits? digits).map Int.ofNat
    else none

/-- The float nearest to `m * 10 ^ e`. The two bounds spare the arithmetic where the result is known
to be infinite or zero. -/
def nearestFloat (m : Nat) (e : Int) : Float :=
  let size := e + (Nat.toDigits 10 m).length
  if m = 0 then 0
  else if 400 < size then 1 / 0
  else if size < -400 then 0
  else
    match e with
    | .ofNat k => Float.ofScientific m false k
    | .negSucc k => Float.ofScientific m true (k + 1)

/-- A decimal without sign. -/
def readUnsigned? (cs : List Char) : Option Float :=
  let whole := cs.takeWhile Char.isDigit
  let rest := cs.dropWhile Char.isDigit
  let (fraction, rest) := match rest with
    | '.' :: after => (after.takeWhile Char.isDigit, after.dropWhile Char.isDigit)
    | _ => ([], rest)
  if whole.isEmpty && fraction.isEmpty then none
  else (readExponent? rest).map fun e =>
    nearestFloat (digitsValue (digitsValue 0 whole) fraction) (e - fraction.length)

/-- A decimal with an optional sign. -/
def readDecimal? : List Char → Option Float
  | '+' :: rest => readUnsigned? rest
  | '-' :: rest => (readUnsigned? rest).map (-·)
  | cs => readUnsigned? cs

/-- The words for what no decimal can say, without sign and in small letters. -/
def readSpecial? (cs : List Char) : Option Float :=
  let name := String.ofList (cs.map Char.toLower)
  if name = "inf" || name = "infinity" then some (1 / 0)
  else if name = "nan" then some (0 / 0)
  else none

/-- A decimal, or an infinity or the value that is no number, by name and with an optional sign. -/
def readFloat? (cs : List Char) : Option Float :=
  match readDecimal? cs with
  | some x => some x
  | none =>
    match cs with
    | '+' :: rest => readSpecial? rest
    | '-' :: rest => (readSpecial? rest).map (-·)
    | _ => readSpecial? cs

end Fabula.Numeral
