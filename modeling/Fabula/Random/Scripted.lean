import Fabula.Random.Source

/-!
# Fabula.Random.Scripted

A source that **replays a script** of floats and then repeats the last one. It makes runs that can be
foreseen.
-/

namespace Fabula

/-- A script and how often it has been drawn from. -/
structure Scripted where
  /-- The floats to come. The last one stays. -/
  script : List Float := []
  /-- How many draws have been taken. -/
  drawn : Nat := 0

namespace Scripted

/-- The greatest float that a script may hold: one less the distance of one to the next float. -/
def highest : Float := 1 - 2.220446049250313e-16

/-- `x` moved into the range of draws. What is no number stays so. -/
def confine (x : Float) : Float :=
  if x < 0 then 0 else if highest < x then highest else x

/-- The source that replays `values`. -/
def ofList (values : List Float) : Scripted := { script := values.map confine }

/-- The source that always draws `value`. -/
def fixed (value : Float) : Scripted := ofList [value]

/-- The next float of the script; an empty script holds zeros. -/
def next (s : Scripted) : Float × Scripted :=
  match s.script with
  | [] => (0, { s with drawn := s.drawn + 1 })
  | [x] => (x, { s with drawn := s.drawn + 1 })
  | x :: rest => (x, ⟨rest, s.drawn + 1⟩)

instance : RandomSource Scripted where
  next := next
  between a b s := let (u, s) := s.next; (Draw.between u a b, s)
  index size s := let (u, s) := s.next; (Draw.index u size, s)

end Scripted

end Fabula
