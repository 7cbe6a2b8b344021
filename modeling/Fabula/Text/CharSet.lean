/-!
# Fabula.Text.CharSet

**Sets of characters** as sorted lists of runs, the form in which the tables of the Unicode
properties are written down.
-/

namespace Fabula.Text

/-- The code points `first`, `first + step`, … up to `last`. -/
structure Run where
  /-- The lowest member. -/
  first : Nat
  /-- The highest member. -/
  last : Nat
  /-- The distance of neighbours: 1, or 2 where capitals and small letters alternate. -/
  step : Nat

/-- `n` belongs to the run. -/
def Run.contains (r : Run) (n : Nat) : Bool :=
  r.first ≤ n && n ≤ r.last && (n - r.first) % r.step == 0

/-- A set of characters: disjoint runs, lowest first. -/
abbrev CharSet := List Run

/-- `c` belongs to the set. The search ends at the first run that starts above `c`. -/
def CharSet.contains (s : CharSet) (c : Char) : Bool :=
  match s with
  | [] => false
  | r :: rs => if c.toNat < r.first then false else r.contains c.toNat || CharSet.contains rs c

end Fabula.Text
