/-!
# Fabula.Numeral.Binary64

A floating-point number **taken apart** into sign, whole significand and power of two. Everything
that has to be exact about a float is computed on these whole numbers: its decimal text and its
conversion to an integer.
-/

namespace Fabula.Numeral

/-- The value of a floating-point number. -/
inductive Binary64
  /-- No number. -/
  | nan
  /-- An infinity; `negative` gives its sign. -/
  | infinite (negative : Bool)
  /-- The number `significand * 2 ^ exponent`, with a sign that zero has as well. -/
  | finite (negative : Bool) (significand : Nat) (exponent : Int)

/-- The value that a pattern of 64 bits stands for. -/
def Binary64.ofBits (bits : UInt64) : Binary64 :=
  let negative := bits >>> 63 == 1
  let scale := ((bits >>> 52) &&& 0x7ff).toNat
  let fraction := (bits &&& 0xfffffffffffff).toNat
  if scale = 0x7ff then if fraction = 0 then .infinite negative else .nan
  else if scale = 0 then .finite negative fraction (-1074)
  else .finite negative (fraction + Nat.pow 2 52) (scale - 1075)

/-- The value of `x`. -/
def Binary64.ofFloat (x : Float) : Binary64 := .ofBits x.toBits

/-- The whole part of `significand * 2 ^ exponent`. -/
def wholePart (significand : Nat) (exponent : Int) : Nat :=
  match exponent with
  | .ofNat e => significand * Nat.pow 2 e
  | .negSucc e => significand / Nat.pow 2 (e + 1)

/-- `n` moved to the nearer end of `[low, high]` if it lies outside. -/
def clamp (low high n : Int) : Int := max low (min high n)

/-- The whole part of `x`, kept between `low` and `high`. The fraction is dropped toward zero, an
infinity is beyond every bound, and what is no number counts as zero. -/
def wholeWithin (low high : Int) (x : Float) : Int :=
  clamp low high <|
    match Binary64.ofFloat x with
    | .nan => 0
    | .infinite true => low
    | .infinite false => high
    | .finite true m e => -(wholePart m e : Int)
    | .finite false m e => wholePart m e

theorem wholeWithin_bounds {low high : Int} (h : low ≤ high) (x : Float) :
    low ≤ wholeWithin low high x ∧ wholeWithin low high x ≤ high := by
  unfold wholeWithin clamp
  exact ⟨Int.le_max_left _ _, Int.max_le.mpr ⟨h, Int.min_le_left _ _⟩⟩

/-- The lowest 64-bit integer. -/
def int64Min : Int := -(Nat.pow 2 63)

/-- The highest 64-bit integer. -/
def int64Max : Int := Nat.pow 2 63 - 1

/-- The highest count that fits 64 bits. -/
def countMax : Nat := Nat.pow 2 64 - 1

/-- `x` is neither infinite nor no number. -/
def isFinite (x : Float) : Bool :=
  match Binary64.ofFloat x with
  | .finite .. => true
  | _ => false

end Fabula.Numeral
