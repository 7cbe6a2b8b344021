import Fabula.Numeral.Binary64
import Fabula.Numeral.Reading
import Fabula.Random.Source
import Fabula.Text.Blank

/-!
# Fabula.Expand.Dice

**Dice**: how many are thrown, how many sides they have, and what is added, written like `2d6 + 1`.
-/

namespace Fabula

/-- A throw of dice. -/
structure Dice where
  /-- How many dice are thrown. -/
  count : Nat
  /-- How many sides each has. -/
  sides : Nat
  /-- What is added to the sum. -/
  bonus : Int
  deriving DecidableEq

namespace Dice

/-- The most dice in one throw. -/
def maxCount : Nat := 10000

/-- The greatest number of sides, and the greatest bonus either way. -/
def maxNumber : Nat := Nat.pow 2 63 - 1

/-- Digits at the start of a text, white space before them being passed over, and what is left. -/
def readNumber? (cs : List Char) : Option (Nat × List Char) :=
  let cs := cs.dropWhile Text.isBlank
  (Numeral.readDigits? (cs.takeWhile Char.isDigit)).map fun n => (n, cs.dropWhile Char.isDigit)

/-- The bonus: nothing, or a sign and digits, up to the end of the text. -/
def readBonus? (cs : List Char) : Option Int :=
  match cs.dropWhile Text.isBlank with
  | [] => some 0
  | sign :: cs =>
    if sign = '+' || sign = '-' then
      match readNumber? cs with
      | some (n, rest) =>
        if rest.all Text.isBlank && decide (n ≤ maxNumber) then
          some (if sign = '-' then -(n : Int) else n)
        else none
      | none => none
    else none

/-- Read a throw of dice. -/
def read? (cs : List Char) : Option Dice :=
  match readNumber? cs with
  | none => none
  | some (count, rest) =>
    match rest.dropWhile Text.isBlank with
    | [] => none
    | c :: rest =>
      if c = 'd' || c = 'D' then
        match readNumber? rest with
        | none => none
        | some (sides, rest) =>
          match readBonus? rest with
          | none => none
          | some bonus =>
            if count ≤ maxCount ∧ 1 ≤ sides ∧ sides ≤ maxNumber then some ⟨count, sides, bonus⟩
            else none
      else none

/-- The sum of two integers, kept within 64 bits. -/
def addWithin64 (a b : Int) : Int := Numeral.clamp Numeral.int64Min Numeral.int64Max (a + b)

/-- Throw `count` more dice after a total. -/
def throwFrom {σ : Type} [RandomSource σ] (sides : Nat) (total : Int) : Nat → σ → Int × σ
  | 0, s => (total, s)
  | count + 1, s =>
    let (n, s) := RandomSource.between 1 sides s
    throwFrom sides (addWithin64 total n) count s

/-- Throw the dice. -/
def roll {σ : Type} [RandomSource σ] (d : Dice) (s : σ) : Int × σ :=
  throwFrom d.sides d.bonus d.count s

end Dice

end Fabula
