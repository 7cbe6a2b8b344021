import Fabula.Random.Scripted
import Fabula.Random.Seeded

/-!
# Fabula.Random.Mixed

A source that is **scripted or seeded**, for programs that choose while they run.
-/

namespace Fabula

/-- A scripted or a seeded source. -/
inductive Mixed
  /-- A script. -/
  | scripted (s : Scripted)
  /-- A stream started from a number. -/
  | seeded (s : Seeded)

namespace Mixed

/-- A source that draws zeros. -/
def zeros : Mixed := .scripted {}

/-- How many draws have been taken from a script; a stream does not count them. -/
def drawn? : Mixed → Option Nat
  | .scripted s => some s.drawn
  | .seeded _ => none

/-- Take a draw from whichever source it is. -/
def draw {α : Type} (scripted : Scripted → α × Scripted) (seeded : Seeded → α × Seeded) :
    Mixed → α × Mixed
  | .scripted s => let (a, s) := scripted s; (a, .scripted s)
  | .seeded s => let (a, s) := seeded s; (a, .seeded s)

instance : RandomSource Mixed where
  next := draw RandomSource.next RandomSource.next
  between a b := draw (RandomSource.between a b) (RandomSource.between a b)
  index size := draw (RandomSource.index size) (RandomSource.index size)

instance : Seedable Mixed := ⟨fun seed => .seeded (Seeded.ofSeed seed)⟩

end Mixed

end Fabula
