import Fabula.Random.ChaCha
import Fabula.Random.Source

/-!
# Fabula.Random.Seeded

A source started **from a number**. The number is stretched into the key of a ChaCha stream of twelve
rounds, and each draw takes one or more 64-bit words of the stream. Equal numbers give equal draws.
-/

namespace Fabula

/-- A ChaCha stream and how far it has been read. -/
structure Seeded where
  /-- The key of the stream. -/
  key : Vector UInt32 8
  /-- The number of the next block. -/
  block : UInt64 := 0
  /-- The words of the last block that have not been drawn. -/
  pending : List UInt64 := []

namespace Seeded

/-- The words of a key, from the state of a linear congruential generator: each step multiplies and
adds, and the word is taken from the high bits, turned by the highest five. -/
def stretch : Nat → UInt64 → List UInt32
  | 0, _ => []
  | n + 1, state =>
    let state := state * 6364136223846793005 + 11634580027462260723
    let mixed := (((state >>> 18) ^^^ state) >>> 27).toUInt32
    let turn := (state >>> 59).toUInt32
    let word := (mixed >>> turn) ||| (mixed <<< ((32 - turn) % 32))
    word :: stretch n state

/-- The source started from `seed`. -/
def ofSeed (seed : UInt64) : Seeded :=
  let words := stretch 8 seed
  { key := Vector.ofFn fun i => words.getD i.val 0 }

/-- The next 64-bit word of the stream. -/
def nextWord (s : Seeded) : UInt64 × Seeded :=
  match s.pending with
  | w :: ws => (w, { s with pending := ws })
  | [] =>
    match ChaCha.longWords (ChaCha.block 6 s.key s.block) with
    | w :: ws => (w, { s with block := s.block + 1, pending := ws })
    | [] => (0, s)

/-- A float with 53 random bits. -/
def next (s : Seeded) : Float × Seeded :=
  let (w, s) := s.nextWord
  ((w >>> 11).toFloat * 1.1102230246251565e-16, s)

/-- Draw words until the low half of `word * range` does not exceed `zone`, and return the high half.
All results are then equally likely. At least half of all words are accepted, so of `attempts` in a
row one is, as good as certainly; the last one would be taken as it is. -/
def highProduct (range zone : Nat) : Nat → Seeded → Nat × Seeded
  | 0, s =>
    let (w, s) := s.nextWord
    (w.toNat * range / Nat.pow 2 64, s)
  | attempts + 1, s =>
    let (w, s) := s.nextWord
    let product := w.toNat * range
    if product % Nat.pow 2 64 ≤ zone then (product / Nat.pow 2 64, s)
    else highProduct range zone attempts s

/-- An integer between two bounds. A span of all 64-bit integers takes a word as it is. -/
def between (a b : Int) (s : Seeded) : Int × Seeded :=
  let low := min a b
  let range := (max a b - low + 1).toNat % Nat.pow 2 64
  if range = 0 then
    let (w, s) := s.nextWord
    (w.toInt64.toInt, s)
  else
    let zone := range * Nat.pow 2 (63 - Nat.log2 range) - 1
    let (offset, s) := highProduct range zone 1000 s
    (low + offset, s)

instance : RandomSource Seeded where
  next := next
  between := between
  index size s := let (u, s) := s.next; (Draw.index u size, s)

instance : Seedable Seeded := ⟨ofSeed⟩

end Seeded

end Fabula
