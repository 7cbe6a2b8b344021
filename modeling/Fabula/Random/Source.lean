import Fabula.Numeral.Binary64

/-!
# Fabula.Random.Source

**Sources of randomness.** A source is a state from which draws are taken one after the other; each
draw returns the state to draw from next. Nothing else in this library is random, so a run is
determined by the state it starts from.

A source whose only native draw is a float obtains the two other draws from it by `Draw.between` and
`Draw.index`. Both keep their bounds whatever the float is.
-/

namespace Fabula

/-- The draws that can be taken from a state of type `σ`. -/
class RandomSource (σ : Type) where
  /-- A float, at least 0 and below 1. -/
  next : σ → Float × σ
  /-- A 64-bit integer between two bounds, both included and given in either order. -/
  between : Int → Int → σ → Int × σ
  /-- An index into a list of this length, which is not zero. -/
  index : Nat → σ → Nat × σ

/-- Sources that can be started from a number. -/
class Seedable (σ : Type) where
  /-- The source started from `seed`. -/
  ofSeed : UInt64 → σ

namespace Draw

/-- The integer between two bounds that lies at `u` of the way, all being equally wide. -/
def between (u : Float) (a b : Int) : Int :=
  let low := min a b
  let span := max a b - low + 1
  low + Numeral.wholeWithin 0 (span - 1) (u * Float.ofInt span)

/-- A draw stays between its bounds whatever float it is made from. -/
theorem between_bounds (u : Float) (a b : Int) :
    min a b ≤ between u a b ∧ between u a b ≤ max a b := by
  have hspan : 0 ≤ max a b - min a b + 1 - 1 := by omega
  have hpart := Numeral.wholeWithin_bounds hspan (u * Float.ofInt (max a b - min a b + 1))
  unfold between
  dsimp only
  omega

/-- The index that lies at `u` of the way through a list of length `size`. -/
def index (u : Float) (size : Nat) : Nat :=
  (Numeral.wholeWithin 0 ((size - 1 : Nat) : Int) (u * Float.ofNat size)).toNat

end Draw

end Fabula
