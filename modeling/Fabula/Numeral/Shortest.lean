import Fabula.Numeral.Binary64

/-!
# Fabula.Numeral.Shortest

The **shortest decimal** that reads back as a given floating-point number, and its text.

A float stands for an interval of reals, those that are nearer to it than to its neighbours; the ends
belong to it when its significand is even. The decimal looked for has the coarsest grid
`10 ^ k` that has a point in the interval, and of the points of that grid it is the one nearest to
the float; of two equally near ones it is the greater.
-/

namespace Fabula.Numeral

/-- The decimal number `digits * 10 ^ exponent`. -/
structure Decimal where
  /-- The digits, read as one whole number. -/
  digits : Nat
  /-- The power of ten of the last digit. -/
  exponent : Int
  deriving DecidableEq

/-- The reals that read back as one float, as four numerators over one denominator. -/
structure Basin where
  /-- The float itself. -/
  value : Nat
  /-- The lower end. -/
  low : Nat
  /-- The upper end. -/
  high : Nat
  /-- What all three are divided by. -/
  denominator : Nat
  /-- The ends belong to the basin. -/
  closed : Bool

/-- The basin of `m * 2 ^ q`. Below a power of two the floats lie twice as dense, which brings the
lower end nearer; only the lowest scale has no denser one under it. -/
def Basin.ofFinite (m : Nat) (q : Int) : Basin :=
  let below := if m = Nat.pow 2 52 && decide (-1074 < q) then 1 else 2
  let up := Nat.pow 2 (q - 2).toNat
  let down := Nat.pow 2 (2 - q).toNat
  ⟨4 * m * up, (4 * m - below) * up, (4 * m + 2) * up, down, m % 2 == 0⟩

/-- `n / d` lies in the basin. -/
def Basin.holds (b : Basin) (n d : Nat) : Bool :=
  let x := n * b.denominator
  if b.closed then b.low * d ≤ x && x ≤ b.high * d else b.low * d < x && x < b.high * d

/-- The point of the grid `10 ^ k` that lies in the basin, nearest to the float and the greater one
of two. Only the two points around the float have to be looked at. -/
def Basin.gridPoint? (b : Basin) (k : Int) : Option Nat :=
  let up := Nat.pow 10 k.toNat
  let down := Nat.pow 10 (-k).toNat
  let n := b.value * down
  let d := b.denominator * up
  let f := n / d
  let lower := b.holds (f * up) down
  let upper := b.holds ((f + 1) * up) down
  if lower && (!upper || 2 * (n % d) < d) then some f
  else if upper then some (f + 1)
  else none

/-- The first grid with a point in the basin, from `10 ^ k` on through `steps` finer ones. -/
def Basin.search (b : Basin) (k : Int) : Nat → Decimal
  | 0 => ⟨b.value * Nat.pow 10 (-k).toNat / (b.denominator * Nat.pow 10 k.toNat), k⟩
  | steps + 1 =>
    match b.gridPoint? k with
    | some n => ⟨n, k⟩
    | none => b.search (k - 1) steps

/-- The shortest decimal of `m * 2 ^ q`. The search starts at a grid wider than the number, and
seventeen digits always suffice. -/
def shortest (m : Nat) (q : Int) : Decimal :=
  if m = 0 then ⟨0, 0⟩
  else (Basin.ofFinite m q).search ((q + Nat.log2 m) * 30103 / 100000 + 2) 24

/-- A decimal in positional notation, without exponent and without a point that nothing follows. -/
def Decimal.render (d : Decimal) : String :=
  let digits := Nat.toDigits 10 d.digits
  match d.exponent with
  | .ofNat e =>
    if d.digits = 0 then "0" else String.ofList (digits ++ List.replicate e '0')
  | .negSucc e =>
    let places := e + 1
    let padded := List.replicate (places + 1 - digits.length) '0' ++ digits
    let cut := padded.length - places
    String.ofList (padded.take cut ++ '.' :: padded.drop cut)

/-- The text of a floating-point number: the shortest decimal that reads back, never with an
exponent. Negative zero keeps its sign. -/
def floatText (x : Float) : String :=
  match Binary64.ofFloat x with
  | .nan => "NaN"
  | .infinite negative => if negative then "-inf" else "inf"
  | .finite negative m q => (if negative then "-" else "") ++ (shortest m q).render

end Fabula.Numeral
