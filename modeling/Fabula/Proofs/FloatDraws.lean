import Mathlib
import Fabula.Expand.Builtin
import Fabula.Proofs.TrainedModel

/-!
# Fabula.Proofs.FloatDraws

**Draws that are made from floats keep their bounds.** A source may take all its draws from its floats
(`DrawsFloats`). Whatever these floats are, numbers outside of the unit interval, infinities and what is
no number at all included, an integer lies between its bounds and an index below its size
(`float_draws_bounded`).

* The bounds are kept because the offset is cut off at both ends, not because the product were exact: the
  span of all 64-bit integers has no float of its own, and the product may be rounded beyond it.
* The same draw in machine words (`Draw.betweenInWords?`, `Draw.indexInWords`) has no step that leaves its
  type. The float is turned into a word by rounding down, which differs from dropping the fraction only
  below zero, where the offset is cut off anyway.
* So the successor that a Markov model draws is always there (`Model.generateIndexed?`), and a random
  number lies between the bounds that it is asked for.
-/

namespace Fabula

/-! ### Floats rounded down -/

namespace Numeral

/-- The greatest whole number that is not above `n * 2 ^ exponent`. -/
def floorPart (n exponent : Int) : Int :=
  match exponent with
  | .ofNat e => n * (Nat.pow 2 e : Nat)
  | .negSucc e => n / (Nat.pow 2 (e + 1) : Nat)

/-- `x` rounded down, kept between `low` and `high`. An infinity is beyond every bound, and what is no
number counts as zero. -/
def floorWithin (low high : Int) (x : Float) : Int :=
  clamp low high <|
    match Binary64.ofFloat x with
    | .nan => 0
    | .infinite true => low
    | .infinite false => high
    | .finite true m e => floorPart (-(m : Int)) e
    | .finite false m e => floorPart m e

theorem floorPart_natCast (m : Nat) (e : Int) : floorPart m e = wholePart m e := by
  cases e with
  | ofNat e => exact (Int.natCast_mul m (Nat.pow 2 e)).symm
  | negSucc e => exact (Int.natCast_ediv m (Nat.pow 2 (e + 1))).symm

theorem floorPart_neg_le (m : Nat) (e : Int) : floorPart (-(m : Int)) e ≤ 0 := by
  have hm : -(m : Int) ≤ 0 := by omega
  cases e with
  | ofNat e => exact Int.mul_nonpos_of_nonpos_of_nonneg hm (Int.natCast_nonneg _)
  | negSucc e =>
    exact Int.ediv_nonpos_of_nonpos_of_neg hm (Int.natCast_pos.mpr (Nat.pow_pos (by decide)))

/-- Between bounds from zero on it does not matter how a float is rounded, nor that it has been kept
between wider bounds before. -/
theorem clamp_floorWithin {low high last : Int} (hlow : low ≤ 0) (hlast : 0 ≤ last)
    (hhigh : last ≤ high) (x : Float) : clamp 0 last (floorWithin low high x) = wholeWithin 0 last x := by
  unfold floorWithin wholeWithin clamp
  rcases Binary64.ofFloat x with _ | negative | ⟨negative, m, e⟩
  · dsimp only
    omega
  · cases negative <;> dsimp only <;> omega
  · cases negative
    · have hfloor := floorPart_natCast m e
      dsimp only
      omega
    · have hfloor := floorPart_neg_le m e
      dsimp only
      omega

end Numeral

/-! ### Draws in machine words -/

namespace Draw

open Numeral

/-- The lowest 128-bit integer. -/
def int128Min : Int := -(Nat.pow 2 127)

/-- The highest 128-bit integer. -/
def int128Max : Int := Nat.pow 2 127 - 1

/-- A 128-bit integer; nothing if `n` is none. -/
def int128? (n : Int) : Option Int := if int128Min ≤ n ∧ n ≤ int128Max then some n else none

theorem int128?_of_bounds {n : Int} (hlow : -(2 ^ 64) ≤ n) (hhigh : n ≤ 2 ^ 64) : int128? n = some n := by
  have hmin : int128Min ≤ -(2 ^ 64) := by decide
  have hmax : 2 ^ 64 ≤ int128Max := by decide
  rw [int128?, if_pos ⟨by omega, by omega⟩]

/-- The integer between two bounds that lies at `u` of the way, computed in 128 bits; nothing if a step
does not fit them, or if the offset is to be kept between bounds in the wrong order. What is left of the
result in 64 bits is returned. -/
def betweenInWords? (u : Float) (a b : Int64) : Option Int64 := do
  let (low, high) := if a ≤ b then (a, b) else (b, a)
  let span ← int128? ((← int128? (high.toInt - low.toInt)) + 1)
  let offset := floorWithin int128Min int128Max (u * Float.ofInt span)
  let last ← int128? (span - 1)
  let kept ← if 0 ≤ last then some (clamp 0 last offset) else none
  let result ← int128? (low.toInt + kept)
  return Int64.ofInt result

/-- The last index of a list in 64 bits; zero if the list is empty. -/
def lastIndex (size : UInt64) : UInt64 := if size = 0 then 0 else size - 1

/-- The index that lies at `u` of the way through a list, computed in 64 bits. -/
def indexInWords (u : Float) (size : UInt64) : UInt64 :=
  let i := UInt64.ofNat (floorWithin 0 countMax (u * Float.ofNat size.toNat)).toNat
  if i ≤ lastIndex size then i else lastIndex size

theorem toInt_bounds (a : Int64) : -(2 ^ 63) ≤ a.toInt ∧ a.toInt ≤ 2 ^ 63 - 1 := by
  have hlow := a.le_toInt
  have hhigh := a.toInt_lt
  omega

/-- No step leaves its type, whichever bounds there are. -/
theorem betweenInWords?_eq (u : Float) (a b : Int64) :
    (betweenInWords? u a b).map Int64.toInt = some (between u a.toInt b.toInt) := by
  have ha := toInt_bounds a
  have hb := toInt_bounds b
  have hresult := between_bounds u a.toInt b.toInt
  -- the bounds in order, as integers
  obtain ⟨low, high, hswap, hlow, hhigh⟩ : ∃ low high : Int64,
      (if a ≤ b then (a, b) else (b, a)) = (low, high) ∧ low.toInt = min a.toInt b.toInt ∧
        high.toInt = max a.toInt b.toInt := by
    by_cases h : a ≤ b
    · have hle := Int64.le_iff_toInt_le.mp h
      exact ⟨a, b, if_pos h, by omega, by omega⟩
    · have hle := mt Int64.le_iff_toInt_le.mpr h
      exact ⟨b, a, if_neg h, by omega, by omega⟩
  have hdiff : int128? (high.toInt - low.toInt) = some (high.toInt - low.toInt) :=
    int128?_of_bounds (by omega) (by omega)
  have hspan : int128? (high.toInt - low.toInt + 1) = some (high.toInt - low.toInt + 1) :=
    int128?_of_bounds (by omega) (by omega)
  have hlast : int128? (high.toInt - low.toInt + 1 - 1) = some (high.toInt - low.toInt + 1 - 1) :=
    int128?_of_bounds (by omega) (by omega)
  have hmin : int128Min ≤ 0 := by decide
  have hmax : 2 ^ 64 ≤ int128Max := by decide
  have hkept : clamp 0 (high.toInt - low.toInt + 1 - 1)
      (floorWithin int128Min int128Max (u * Float.ofInt (high.toInt - low.toInt + 1))) =
        wholeWithin 0 (high.toInt - low.toInt + 1 - 1) (u * Float.ofInt (high.toInt - low.toInt + 1)) :=
    clamp_floorWithin hmin (by omega) (by omega) _
  have hbetween : between u a.toInt b.toInt =
      low.toInt + wholeWithin 0 (high.toInt - low.toInt + 1 - 1)
        (u * Float.ofInt (high.toInt - low.toInt + 1)) := by
    rw [between, hlow, hhigh]
  rw [hbetween] at hresult ⊢
  have hsum := int128?_of_bounds (n := low.toInt + wholeWithin 0 (high.toInt - low.toInt + 1 - 1)
    (u * Float.ofInt (high.toInt - low.toInt + 1))) (by omega) (by omega)
  have hnonneg : 0 ≤ high.toInt - low.toInt + 1 - 1 := by omega
  simp only [betweenInWords?, hswap, hdiff, hspan, hlast, hkept, hsum, if_pos hnonneg,
    Option.bind_eq_bind, Option.bind_some, Option.pure_def, Option.map_some]
  rw [Int64.toInt_ofInt_of_le (by omega) (by omega)]

theorem between_comm (u : Float) (a b : Int) : between u a b = between u b a := by
  rw [between, between, Int.min_comm, Int.max_comm]

theorem toNat_lastIndex (size : UInt64) : (lastIndex size).toNat = size.toNat - 1 := by
  unfold lastIndex
  split
  · rename_i h
    rw [h]
    rfl
  · rename_i h
    have hpos : size.toNat ≠ 0 := fun hzero => h (UInt64.toNat_inj.mp hzero)
    have hone : (1 : UInt64) ≤ size := UInt64.le_iff_toNat_le.mpr (Nat.pos_of_ne_zero hpos)
    rw [UInt64.toNat_sub_of_le _ _ hone]
    rfl

/-- The index in machine words is the same. -/
theorem toNat_indexInWords (u : Float) (size : UInt64) :
    (indexInWords u size).toNat = index u size.toNat := by
  have hsize := size.toNat_lt
  have hlast := toNat_lastIndex size
  have hcount : (countMax : Int) = 2 ^ 64 - 1 := by decide
  have hindex : clamp 0 ((size.toNat - 1 : Nat) : Int)
      (floorWithin 0 countMax (u * Float.ofNat size.toNat)) =
        wholeWithin 0 ((size.toNat - 1 : Nat) : Int) (u * Float.ofNat size.toNat) :=
    clamp_floorWithin (Int.le_refl 0) (Int.natCast_nonneg _) (by omega) _
  have hwithin : 0 ≤ floorWithin 0 countMax (u * Float.ofNat size.toNat) ∧
      floorWithin 0 countMax (u * Float.ofNat size.toNat) ≤ countMax := by
    unfold floorWithin clamp
    omega
  have hword : (UInt64.ofNat (floorWithin 0 countMax (u * Float.ofNat size.toNat)).toNat).toNat =
      (floorWithin 0 countMax (u * Float.ofNat size.toNat)).toNat :=
    UInt64.toNat_ofNat_of_lt' (by
      rw [UInt64.size]
      omega)
  unfold clamp at hindex
  unfold indexInWords index
  dsimp only
  split <;> rename_i h <;> rw [UInt64.le_iff_toNat_le, hword, hlast] at h <;> omega

end Draw

/-! ### Sources -/

/-- A source whose other draws are made from its floats, one for each. -/
structure DrawsFloats (σ : Type) [RandomSource σ] : Prop where
  /-- An integer is made from a float. -/
  between : ∀ (a b : Int) (s : σ), RandomSource.between a b s =
    (Draw.between (RandomSource.next s).1 a b, (RandomSource.next s).2)
  /-- So is an index. -/
  index : ∀ (size : Nat) (s : σ), RandomSource.index size s =
    (Draw.index (RandomSource.next s).1 size, (RandomSource.next s).2)

variable {σ : Type} [RandomSource σ]

theorem DrawsFloats.index_lt (h : DrawsFloats σ) {size : Nat} (hsize : 0 < size) (s : σ) :
    (RandomSource.index size s).1 < size := by
  rw [h.index]
  exact Markov.index_lt _ hsize

/-! ### Successors -/

namespace Markov

/-- Continue a text as `Model.extend` does, but come to nothing when an index is drawn for which there is
no successor. -/
def Model.extendIndexed? (m : Model) (context words : List String) (characters : Nat) :
    Nat → σ → Option (Except MarkovError (Option String) × σ)
  | 0, s => some (.error .unfinished, s)
  | draws + 1, s =>
    match (m.transitions.get? (key context)).getD [] with
    | [] => some (.error (.unknownContext (key context)), s)
    | candidate :: candidates =>
      let (i, s) := RandomSource.index (candidates.length + 1) s
      match (candidate :: candidates)[i]? with
      | none => none
      | some token =>
        if token = endToken then some (.ok (some (phrase words)), s)
        else
          let characters := characters + token.length
          if m.settings.maxCharacters < characters then some (.ok none, s)
          else m.extendIndexed? (slide context token) (token :: words) characters draws s

/-- Generate a text as `Model.generate` does, every index being checked. -/
def Model.generateIndexed? (m : Model) (s : σ) : Option (Except MarkovError (Option String) × σ) :=
  if m.transitions.isEmpty then some (.error .noData, s)
  else m.extendIndexed? (opening m.settings.order) [] 0 m.settings.drawLimit s

/-- With indices in their bounds there is always a successor. -/
theorem Model.extendIndexed?_eq
    (hindex : ∀ {size : Nat}, 0 < size → ∀ s : σ, (RandomSource.index size s).1 < size) (m : Model)
    (context words : List String) (characters draws : Nat) (s : σ) :
    m.extendIndexed? context words characters draws s =
      some (m.extend context words characters draws s) := by
  induction draws generalizing context words characters s with
  | zero => rfl
  | succ draws ih =>
    unfold extendIndexed? extend
    cases (m.transitions.get? (key context)).getD [] with
    | nil => rfl
    | cons candidate candidates =>
      have hlt : (RandomSource.index (candidates.length + 1) s).1 < (candidate :: candidates).length :=
        hindex (Nat.succ_pos _) s
      dsimp only
      rw [List.getD_eq_getElem?_getD, List.getElem?_eq_getElem hlt, Option.getD_some]
      dsimp only
      split
      · rfl
      · split
        · rfl
        · exact ih _ _ _ _

theorem Model.generateIndexed?_eq
    (hindex : ∀ {size : Nat}, 0 < size → ∀ s : σ, (RandomSource.index size s).1 < size) (m : Model)
    (s : σ) : m.generateIndexed? s = some (m.generate s) := by
  unfold generateIndexed? generate
  split
  · rfl
  · exact m.extendIndexed?_eq hindex _ _ _ _ s

end Markov

/-! ### Random numbers -/

/-- The float that an argument is, or that is written in it. -/
def Argument.float? : Argument → Option Float
  | .number x => some x
  | .text s => Numeral.readFloat? (Text.trim s.toList)

namespace Builtin

open Numeral

/-- The bound that argument `index` sets: its float if that is finite, with the fraction dropped and kept
to 64 bits. A missing argument sets `default`. -/
def boundAt (args : List Argument) (index : Nat) (default : Int) : Option Int :=
  match args[index]? with
  | none => some default
  | some a => (a.float?.filter isFinite).map (wholeWithin int64Min int64Max)

theorem integerArg_of_boundAt {args : List Argument} {index : Nat} {default n : Int}
    (h : boundAt args index default = some n) :
    ∃ bound, randomNumber.integerArg args index = .ok bound ∧ bound.getD default = n := by
  unfold boundAt at h
  unfold integerArg
  split at h
  · rename_i hmissing
    rw [hmissing]
    cases h
    exact ⟨none, rfl, rfl⟩
  · rename_i a harg
    obtain ⟨x, hx, rfl⟩ := Option.map_eq_some_iff.mp h
    obtain ⟨hfloat, hfinite⟩ := Option.filter_eq_some_iff.mp hx
    refine ⟨some (wholeWithin int64Min int64Max x), ?_, rfl⟩
    rw [harg]
    cases a with
    | number y =>
      cases hfloat
      simp [hfinite]
    | text t => simp [show readFloat? (Text.trim t.toList) = some x from hfloat, hfinite]

theorem randomBounds_of_boundAt {args : List Argument} {low high : Int}
    (hlow : boundAt args 0 0 = some low) (hhigh : boundAt args 1 99 = some high) :
    randomBounds args = .ok (low, high) := by
  obtain ⟨first, hfirst, rfl⟩ := integerArg_of_boundAt hlow
  obtain ⟨second, hsecond, rfl⟩ := integerArg_of_boundAt hhigh
  unfold randomBounds
  rw [hfirst, hsecond]
  rfl

theorem randomNumber_of_bounds (hσ : DrawsFloats σ) (g : Grammar σ) (engine : Engine σ) (value : String)
    {args : List Argument} {low high : Int} (h : randomBounds args = .ok (low, high)) (c : Context σ) :
    randomNumber.apply g engine value args c =
      .ok (toString (Draw.between (RandomSource.next c.source).1 low high))
        { c with source := (RandomSource.next c.source).2 } := by
  have hdraw := hσ.between low high c.source
  unfold apply
  rw [h]
  show EStateM.Result.ok (toString (RandomSource.between low high c.source).1)
    { c with source := (RandomSource.between low high c.source).2 } = _
  rw [hdraw]

end Builtin

/-! ### All draws -/

/-- **Draws made from floats keep their bounds**, whatever the floats are. An integer lies between its
bounds, which may be given in either order, and an index below its size; each takes one float, and in
machine words no step of either overflows. So the successors that a Markov model draws are there, and a
random number is an integer between the bounds that its arguments set, in whichever order they stand. -/
theorem float_draws_bounded (hσ : DrawsFloats σ) (s : σ) :
    (∀ a b : Int64,
      let draw := RandomSource.between a.toInt b.toInt s
      min a.toInt b.toInt ≤ draw.1 ∧ draw.1 ≤ max a.toInt b.toInt ∧
        draw.2 = (RandomSource.next s).2 ∧ RandomSource.between b.toInt a.toInt s = draw ∧
        (Draw.betweenInWords? (RandomSource.next s).1 a b).map Int64.toInt = some draw.1) ∧
      (∀ size : UInt64, 1 ≤ size →
        let draw := RandomSource.index size.toNat s
        draw.1 < size.toNat ∧ draw.2 = (RandomSource.next s).2 ∧
          (Draw.indexInWords (RandomSource.next s).1 size).toNat = draw.1) ∧
      (∀ m : Markov.Model, m.generateIndexed? s = some (m.generate s)) ∧
      ∀ (g : Grammar σ) (engine : Engine σ) (value : String) (c : Context σ) (args : List Argument)
        (low high : Int), Builtin.boundAt args 0 0 = some low → Builtin.boundAt args 1 99 = some high →
        ∃ n, min low high ≤ n ∧ n ≤ max low high ∧
          Builtin.randomNumber.apply g engine value args c =
            .ok (toString n) { c with source := (RandomSource.next c.source).2 } ∧
          ∀ args', Builtin.boundAt args' 0 0 = some high → Builtin.boundAt args' 1 99 = some low →
            Builtin.randomNumber.apply g engine value args' c =
              .ok (toString n) { c with source := (RandomSource.next c.source).2 } := by
  refine ⟨fun a b => ?_, fun size hsize => ?_, fun m => m.generateIndexed?_eq hσ.index_lt s, ?_⟩
  · have hbounds := Draw.between_bounds (RandomSource.next s).1 a.toInt b.toInt
    have hwords := Draw.betweenInWords?_eq (RandomSource.next s).1 a b
    dsimp only
    rw [hσ.between, hσ.between]
    exact ⟨hbounds.1, hbounds.2, rfl, by rw [Draw.between_comm], hwords⟩
  · have hpos : 0 < size.toNat := UInt64.le_iff_toNat_le.mp hsize
    have hwords := Draw.toNat_indexInWords (RandomSource.next s).1 size
    dsimp only
    rw [hσ.index]
    exact ⟨Markov.index_lt _ hpos, rfl, hwords⟩
  · intro g engine value c args low high hlow hhigh
    have hbounds := Draw.between_bounds (RandomSource.next c.source).1 low high
    have happly := Builtin.randomNumber_of_bounds hσ g engine value
      (Builtin.randomBounds_of_boundAt hlow hhigh) c
    refine ⟨_, hbounds.1, hbounds.2, happly, fun args' hlow' hhigh' => ?_⟩
    rw [Builtin.randomNumber_of_bounds hσ g engine value
      (Builtin.randomBounds_of_boundAt hlow' hhigh') c, Draw.between_comm]

/-- A script draws from its floats only. -/
theorem scripted_drawsFloats : DrawsFloats Scripted := ⟨fun _ _ _ => rfl, fun _ _ => rfl⟩

/-- A script that has not been confined: what it holds is no number, then far too high, then negative. -/
def wildScript : Scripted := { script := [0 / 0, 1e300, -7] }

/-- All 64-bit integers are asked for, given from the highest one down, and an index into three items. -/
theorem wildScript_draws :
    DrawsFloats Scripted ∧
      (let draw := RandomSource.between (2 ^ 63 - 1) (-(2 ^ 63)) wildScript;
      -(2 ^ 63) ≤ draw.1 ∧ draw.1 ≤ 2 ^ 63 - 1 ∧ draw.2 = wildScript.next.2 ∧
        (Draw.betweenInWords? (0 / 0) Int64.maxValue Int64.minValue).map Int64.toInt = some draw.1) ∧
      (RandomSource.index 3 wildScript).1 < 3 ∧
      ∀ m : Markov.Model, m.generateIndexed? wildScript = some (m.generate wildScript) := by
  obtain ⟨hbetween, hindex, hgenerate, -⟩ := float_draws_bounded scripted_drawsFloats wildScript
  obtain ⟨hlow, hhigh, hnext, -, hwords⟩ := hbetween Int64.maxValue Int64.minValue
  exact ⟨scripted_drawsFloats, ⟨hlow, hhigh, hnext, hwords⟩, (hindex 3 (by decide)).1, hgenerate⟩

end Fabula
