/-!
# Fabula.Random.ChaCha

The **ChaCha** stream: blocks of sixteen 32-bit words, each computed from a key of eight words and the
number of the block. The state is a four by four square of words, and a double round mixes first its
columns and then its diagonals.
-/

namespace Fabula.ChaCha

/-- Sixteen words, row by row. -/
abbrev Block := Vector UInt32 16

/-- A word with its bits turned left by `n`, where `0 < n < 32`. -/
def rotateLeft (x : UInt32) (n : UInt32) : UInt32 := (x <<< n) ||| (x >>> (32 - n))

/-- Mix four words of a block. -/
def quarterRound (s : Block) (a b c d : Fin 16) : Block :=
  let s := s.set a (s[a] + s[b])
  let s := s.set d (rotateLeft (s[d] ^^^ s[a]) 16)
  let s := s.set c (s[c] + s[d])
  let s := s.set b (rotateLeft (s[b] ^^^ s[c]) 12)
  let s := s.set a (s[a] + s[b])
  let s := s.set d (rotateLeft (s[d] ^^^ s[a]) 8)
  let s := s.set c (s[c] + s[d])
  s.set b (rotateLeft (s[b] ^^^ s[c]) 7)

/-- Mix the columns, then the diagonals. -/
def doubleRound (s : Block) : Block :=
  let s := quarterRound s 0 4 8 12
  let s := quarterRound s 1 5 9 13
  let s := quarterRound s 2 6 10 14
  let s := quarterRound s 3 7 11 15
  let s := quarterRound s 0 5 10 15
  let s := quarterRound s 1 6 11 12
  let s := quarterRound s 2 7 8 13
  quarterRound s 3 4 9 14

/-- `n` double rounds. -/
def rounds : Nat → Block → Block
  | 0, s => s
  | n + 1, s => rounds n (doubleRound s)

/-- The state before the rounds: four constants, the key, the number of the block in two words with
the low one first, and two zeros for the number of the stream. -/
def start (key : Vector UInt32 8) (counter : UInt64) : Block :=
  #v[0x61707865, 0x3320646e, 0x79622d32, 0x6b206574,
    key[0], key[1], key[2], key[3], key[4], key[5], key[6], key[7],
    counter.toUInt32, (counter >>> 32).toUInt32, 0, 0]

/-- Block number `counter` of the stream for `key`, with twice `doubleRounds` rounds. -/
def block (doubleRounds : Nat) (key : Vector UInt32 8) (counter : UInt64) : Block :=
  let s := start key counter
  Vector.zipWith (· + ·) (rounds doubleRounds s) s

/-- The words of a block in pairs, as 64-bit words with the low half first. -/
def longWords (s : Block) : List UInt64 :=
  go s.toList
where
  /-- The pairs of a list of words. -/
  go : List UInt32 → List UInt64
    | low :: high :: rest => (low.toUInt64 ||| (high.toUInt64 <<< 32)) :: go rest
    | _ => []

end Fabula.ChaCha
