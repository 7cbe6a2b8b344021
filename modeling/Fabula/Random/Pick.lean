/-!
# Fabula.Random.Pick

**Weighted choice.** The weights of the candidates are laid end to end, and a draw `u` picks the
candidate whose stretch holds the point `u * total`. Candidates without weight have no stretch.

Weights may be any numbers that can be added, multiplied and compared: floats when a text is
generated, exact fractions when chances are computed.
-/

namespace Fabula

/-- A candidate and its weight. -/
structure Weighted (ι ω : Type) where
  /-- What is chosen. -/
  item : ι
  /-- How much of the total it takes. -/
  weight : ω
  deriving BEq

namespace Weighted

variable {ι ω : Type} [OfNat ω 0] [Add ω] [Mul ω] [LT ω] [LE ω] [DecidableLT ω] [DecidableLE ω]

/-- The sum of the weights in order. -/
def sum (ws : List (Weighted ι ω)) : ω := ws.foldl (fun s w => s + w.weight) 0

/-- The first candidate whose stretch ends beyond `target`, where `reached` is the end of the stretch
before and `last` the candidate before. If rounding leaves the target at or past the end of them all,
it is the last one. -/
def locate (target reached : ω) (last : Option ι) : List (Weighted ι ω) → Option ι
  | [] => last
  | w :: ws =>
    if target < reached + w.weight then some w.item
    else locate target (reached + w.weight) (some w.item) ws

/-- Candidates that have weight and that `allowed` lets pass. -/
def eligible (allowed : ι → Bool) (ws : List (Weighted ι ω)) : List (Weighted ι ω) :=
  ws.filter fun w => decide (0 < w.weight) && allowed w.item

/-- Choose among `ws` by one draw, `total` being the sum of their weights. Nothing is drawn when they
have no weight. -/
def choose {σ : Type} (next : σ → ω × σ) (total : ω) (ws : List (Weighted ι ω)) (s : σ) :
    Option ι × σ :=
  if total ≤ 0 then (none, s)
  else
    let (u, s) := next s
    (locate (u * total) 0 none ws, s)

/-- Choose among the candidates of `ws` that are not excluded, `total` being the sum of the weights in
`ws`. With exclusions the weights that are left are added up anew. -/
def pick {σ : Type} (next : σ → ω × σ) (total : ω) (ws : List (Weighted ι ω))
    (excluded : Option (ι → Bool)) (s : σ) : Option ι × σ :=
  match excluded with
  | none => choose next total (eligible (fun _ => true) ws) s
  | some isExcluded =>
    let remaining := eligible (fun item => !isExcluded item) ws
    choose next (sum remaining) remaining s

end Weighted

end Fabula
