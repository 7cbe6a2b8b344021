import Mathlib
import Fabula.Numeral.Binary64
import Fabula.Random.Pick

/-!
# Fabula.Proofs.PositiveFloat

**Sums of positive floats are positive.** A sum is rounded, but never down to zero: the least positive
float divides all the others, so what is added up is no less than it. And zeros add up to zero, so a sum
of floats that are not negative is positive only if one of them is (`Weighted.exists_weight`). A zero that
is added to such a sum leaves it as it is, so zeros can as well be left out (`Weighted.sum_eligible`).

The floats of the logic are bits that are unpacked for every operation and packed again. `Positive`
says of an unpacked float that it is above zero and in the range where packing keeps it so.
-/

namespace Fabula.Numeral

open Float.Model Float.Model.UnpackedFloat

/-- A float above zero: infinity, or a multiple of the least positive float with at most 53 bits. -/
inductive Positive : UnpackedFloat → Prop
  | infinity : Positive (.infinity .positive)
  | finite {m : Nat} {e : Int} {hm : 0 < m} (short : m < 2 ^ 53) (coarse : -1074 ≤ e) :
    Positive (.finite .positive m e hm)

/-! ### Unpacking -/

theorem unpack_bounds {b : BitVec Format.binary64.numBits} {sign : Sign} {m : Nat} {e : Int}
    {hm : 0 < m} (h : UnpackedFloat.unpack Format.binary64 b = .finite sign m e hm) :
    m < 2 ^ 53 ∧ -1074 ≤ e := by
  have hmantissa : (unpackMantissa b).toNat < 2 ^ 52 := (unpackMantissa b).isLt
  have hnormal : (1#1 ++ unpackMantissa b).toNat < 2 ^ 53 := (1#1 ++ unpackMantissa b).isLt
  have hbias : (Format.binary64.exponentBias : Int) = 1023 := rfl
  unfold UnpackedFloat.unpack at h
  dsimp only at h
  rw [hbias] at h
  split at h
  · split at h <;> cases h
  · split at h
    · rename_i hzero
      split at h
      · cases h
      · cases h
        rw [hzero]
        exact ⟨by omega, by decide⟩
    · rename_i hzero
      cases h
      have hpos : 0 < (unpackExponent b).toNat :=
        Nat.pos_of_ne_zero fun h => hzero (BitVec.eq_of_toNat_eq h)
      exact ⟨hnormal, by omega⟩

theorem positive_of_lt {x : Float} (h : 0 < x) : Positive x.toModel.unpack := by
  have h : (UnpackedFloat.zero .positive).lt x.toModel.unpack = true := of_decide_eq_true h
  cases hx : x.toModel.unpack with
  | notANumber =>
    rw [hx] at h
    cases h
  | infinity sign =>
    rw [hx] at h
    cases sign with
    | positive => exact .infinity
    | negative => cases h
  | zero sign =>
    rw [hx] at h
    cases h
  | finite sign m e hm =>
    rw [hx] at h
    cases sign with
    | positive => exact .finite (unpack_bounds hx).1 (unpack_bounds hx).2
    | negative => cases h

theorem not_le_of_positive {x : Float} (h : Positive x.toModel.unpack) : ¬ x ≤ 0 := by
  intro hle
  have hle : x.toModel.unpack.le (.zero .positive) = true := of_decide_eq_true hle
  generalize x.toModel.unpack = u at h hle
  cases h with
  | infinity => cases hle
  | finite short coarse => cases hle

/-! ### Packing -/

/-- Bits with a positive sign are those of a float above zero, unless they are those of zero or of no
number. -/
theorem positive_unpack {b : BitVec Format.binary64.numBits} (hsign : unpackSign b = 0#1)
    (hnumber : unpackExponent b = -1#11 → unpackMantissa b = 0#52)
    (hzero : unpackExponent b = 0#11 → unpackMantissa b ≠ 0#52) :
    Positive (UnpackedFloat.unpack Format.binary64 b) := by
  have hmantissa : (unpackMantissa b).toNat < 2 ^ 52 := (unpackMantissa b).isLt
  have hnormal : (1#1 ++ unpackMantissa b).toNat < 2 ^ 53 := (1#1 ++ unpackMantissa b).isLt
  have hbias : (Format.binary64.exponentBias : Int) = 1023 := rfl
  unfold UnpackedFloat.unpack
  dsimp only
  rw [show Sign.ofBitVec (unpackSign b) = .positive by rw [hsign]; rfl, hbias]
  split
  · rename_i h
    rw [if_pos (hnumber h)]
    exact .infinity
  · split
    · rename_i h
      rw [dif_neg (hzero h)]
      exact .finite (by omega) (by omega)
    · rename_i h
      have hpos : 0 < (unpackExponent b).toNat :=
        Nat.pos_of_ne_zero fun h' => h (BitVec.eq_of_toNat_eq h')
      exact .finite hnormal (by omega)

theorem positive_packComponents {exponent : BitVec 11} {mantissa : BitVec 52}
    (hnumber : exponent = -1#11 → mantissa = 0#52) (hzero : exponent = 0#11 → mantissa ≠ 0#52) :
    Positive (UnpackedFloat.unpack Format.binary64
      (packComponents Format.binary64 .positive exponent mantissa)) := by
  refine positive_unpack (unpackSign_packComponents _ _ _) ?_ ?_
  · rwa [unpackExponent_packComponents, unpackMantissa_packComponents]
  · rwa [unpackExponent_packComponents, unpackMantissa_packComponents]

theorem positive_pack {u : UnpackedFloat} (h : Positive u) : Positive (pack u).unpack := by
  show Positive (UnpackedFloat.unpack Format.binary64 (UnpackedFloat.pack Format.binary64 u))
  have hinfinity : Positive (UnpackedFloat.unpack Format.binary64
      (packedInfinity Format.binary64 .positive)) :=
    positive_packComponents (fun _ => rfl) (fun h => absurd h (by decide))
  cases h with
  | infinity => exact hinfinity
  | @finite m e hm hshort hcoarse =>
    have hscale : e + Format.binary64.exponentBias + Format.binary64.mantissaBitsWithoutImplicit =
        e + 1075 := Int.add_assoc e 1023 52
    unfold UnpackedFloat.pack
    dsimp only
    rw [hscale]
    generalize hexponent : (e + 1075).toNat = exponent
    split
    · exact hinfinity
    · rename_i hfits
      split
      · -- a normal float: its exponent is neither the least nor the greatest
        have hmod : (BitVec.ofNat 11 exponent).toNat = exponent := by
          rw [BitVec.toNat_ofNat, Nat.mod_eq_of_lt (by omega)]
        refine positive_packComponents (fun h => ?_) fun h => ?_
        · have h : (BitVec.ofNat 11 exponent).toNat = 2 ^ 11 - 1 := congrArg BitVec.toNat h
          omega
        · have h : (BitVec.ofNat 11 exponent).toNat = 0 := congrArg BitVec.toNat h
          omega
      · -- a subnormal one: its significand is not zero
        rename_i hlog
        have hlog : m.log2 + 1 ≠ 53 := hlog
        have hlog' : m.log2 < 53 := (Nat.log2_lt hm.ne').mpr hshort
        have hmod : (BitVec.ofNat 52 m).toNat = m := by
          rw [BitVec.toNat_ofNat, Nat.mod_eq_of_lt ((Nat.log2_lt hm.ne').mp (by omega))]
        refine positive_packComponents (fun h => absurd h (by decide)) fun _ h => ?_
        have h : (BitVec.ofNat 52 m).toNat = 0 := congrArg BitVec.toNat h
        omega

/-! ### Rounding -/

theorem shiftRight_mantissa (em : ExtendedMantissa) (k : Nat) :
    (em >>> k).mantissa = em.mantissa / 2 ^ k := by
  induction k with
  | zero => exact (Nat.div_one _).symm
  | succ k ih =>
    show (em >>> k).mantissa / 2 = _
    rw [ih, Nat.div_div_eq_div_mul, Nat.pow_succ]

theorem le_roundedMantissa (em : ExtendedMantissa) : em.mantissa ≤ em.roundedMantissa := by
  obtain ⟨m, _ | _, _ | _⟩ := em
  · exact Nat.le_refl m
  · exact Nat.le_refl m
  · exact Nat.le_add_right m _
  · exact Nat.le_succ m

/-- A significand without all its bits but the first 53 is still above zero. -/
theorem div_bounds {m : Nat} (hm : 0 < m) :
    0 < m / 2 ^ (m.log2 - 52) ∧ m / 2 ^ (m.log2 - 52) < 2 ^ 53 := by
  have hlow : 2 ^ (m.log2 - 52) ≤ m :=
    Nat.le_trans (Nat.pow_le_pow_right (by decide) (Nat.sub_le _ _)) (Nat.log2_self_le hm.ne')
  have hhigh : m < 2 ^ (m.log2 - 52) * 2 ^ 53 := by
    rw [← Nat.pow_add]
    exact Nat.lt_of_lt_of_le Nat.lt_log2_self (Nat.pow_le_pow_right (by decide) (by omega))
  exact ⟨Nat.div_pos hlow (Nat.two_pow_pos _), Nat.div_lt_of_lt_mul hhigh⟩

theorem targetExponent_eq (m : Nat) (e : Int) :
    Format.binary64.targetExponent (totalExponent m e) = max (m.log2 + e - 52) (-1074) := by
  show max ((m.log2 : Int) + 1 + e - 53) (3 - 2 ^ 10 - 53) = _
  omega

/-- Dropping the bits that do not fit leaves a significand above zero, of at most 53 bits. -/
theorem shift_bounds {m : Nat} {e : Int} (hm : 0 < m) (he : -1074 ≤ e) :
    ∃ em e', shiftToTargetExponent Format.binary64 m e .exact = (em, e') ∧
      0 < em.mantissa ∧ em.mantissa < 2 ^ 53 ∧ -1074 ≤ e' := by
  have hshift : (Format.binary64.targetExponent (totalExponent m e) - e).toNat = m.log2 - 52 := by
    rw [targetExponent_eq]
    omega
  refine ⟨_, _, rfl, ?_⟩
  rw [hshift, shiftRight_mantissa]
  exact ⟨(div_bounds hm).1, (div_bounds hm).2, by omega⟩

theorem positive_roundWithAccuracy {m : Nat} {e : Int} (hm : 0 < m) (he : -1074 ≤ e) :
    Positive (roundWithAccuracy Format.binary64 .positive m e .exact) := by
  obtain ⟨em, e₁, hfirst, hpos, -, he₁⟩ := shift_bounds hm he
  obtain ⟨em', e₂, hsecond, hpos', hshort, he₂⟩ :=
    shift_bounds (Nat.lt_of_lt_of_le hpos (le_roundedMantissa em)) he₁
  unfold roundWithAccuracy
  rw [hfirst]
  simp only [hsecond]
  rw [dif_neg hpos'.ne']
  exact .finite hshort he₂

theorem positive_round {m : Nat} {e : Int} (hm : 0 < m) (he : -1074 ≤ e) :
    Positive (UnpackedFloat.round Format.binary64 .positive m e) := by
  unfold UnpackedFloat.round decreaseExponent
  rw [targetExponent_eq]
  refine positive_roundWithAccuracy ?_ (by omega)
  rw [Nat.shiftLeft_eq]
  exact Nat.mul_pos hm (Nat.two_pow_pos _)

/-! ### Addition -/

theorem positive_add {u v : UnpackedFloat} (hu : Positive u) (hv : Positive v) :
    Positive (UnpackedFloat.add Format.binary64 u v) := by
  cases hu with
  | infinity => cases hv <;> exact .infinity
  | @finite m e hm hshort hcoarse =>
    cases hv with
    | infinity => exact .infinity
    | @finite m' e' hm' hshort' hcoarse' =>
      have hsum : 0 < m <<< (e - min e e').toNat := by
        rw [Nat.shiftLeft_eq]
        exact Nat.mul_pos hm (Nat.two_pow_pos _)
      unfold UnpackedFloat.add decreaseExponent UnpackedFloat.normalize
      dsimp only [Sign.apply]
      generalize m <<< (e - min e e').toNat = a, m' <<< (e' - min e e').toNat = a' at hsum
      rw [← Int.natCast_add, Int.compare_eq_gt.mpr (by omega), Int.toNat_natCast]
      exact positive_round (Nat.add_pos_left hsum _) (by omega)

theorem zero_add_eq {v : UnpackedFloat} (hv : Positive v) :
    UnpackedFloat.add Format.binary64 (.zero .positive) v = v := by
  cases hv <;> rfl

/-- Adding a float above zero to one that is not below gives one above zero. -/
theorem positive_sum_step {x y : Float} (hx : x = 0 ∨ Positive x.toModel.unpack) (hy : 0 < y) :
    Positive (x + y).toModel.unpack := by
  have hy := positive_of_lt hy
  show Positive (pack (UnpackedFloat.add Format.binary64 x.toModel.unpack y.toModel.unpack)).unpack
  refine positive_pack ?_
  rcases hx with rfl | hx
  · rw [show (0 : Float).toModel.unpack = .zero .positive from rfl, zero_add_eq hy]
    exact hy
  · exact positive_add hx hy

/-! ### Nothing added to nothing -/

/-- A float that is neither above nor below zero: a zero, or no number. -/
inductive Weightless : UnpackedFloat → Prop
  | zero (sign : Sign) : Weightless (.zero sign)
  | notANumber : Weightless .notANumber

theorem weightless_of_not_lt {x : Float} (hneg : ¬ x < 0) (hpos : ¬ 0 < x) :
    Weightless x.toModel.unpack := by
  have hneg : ¬ x.toModel.unpack.lt (.zero .positive) = true := fun h => hneg (decide_eq_true h)
  have hpos : ¬ (UnpackedFloat.zero .positive).lt x.toModel.unpack = true := fun h => hpos (decide_eq_true h)
  generalize x.toModel.unpack = u at hneg hpos
  cases u with
  | notANumber => exact .notANumber
  | zero sign => exact .zero sign
  | infinity sign => cases sign <;> first | exact absurd rfl hneg | exact absurd rfl hpos
  | finite sign m e hm => cases sign <;> first | exact absurd rfl hneg | exact absurd rfl hpos

theorem weightless_pack {u : UnpackedFloat} (h : Weightless u) : Weightless (pack u).unpack := by
  cases h with
  | zero sign => cases sign <;> exact .zero _
  | notANumber => exact .notANumber

theorem weightless_add {u v : UnpackedFloat} (hu : Weightless u) (hv : Weightless v) :
    Weightless (UnpackedFloat.add Format.binary64 u v) := by
  cases hu with
  | zero sign =>
    cases hv with
    | zero sign' => cases sign <;> cases sign' <;> exact .zero _
    | notANumber => exact .notANumber
  | notANumber => cases hv <;> exact .notANumber

/-! ### Nothing added to something -/

/-- What is no number is not finite. -/
theorem number_of_isFinite {x : Float} (h : Numeral.isFinite x = true) : x.toModel.unpack ≠ .notANumber := by
  intro hnan
  have hbits : x.toModel.toBits.toBitVec = packedNaN Format.binary64 :=
    (unpack_eq_notANumber_iff_of_valid x.toModel.valid).mp hnan
  have hbits : x.toBits = ⟨packedNaN Format.binary64⟩ := congrArg UInt64.ofBitVec hbits
  unfold Numeral.isFinite Binary64.ofFloat at h
  rw [hbits] at h
  exact absurd h (by decide)

/-- A float is what its unpacked form is packed into. -/
theorem ofModel_pack_unpack (x : Float) : Float.ofModel (pack x.toModel.unpack) = x := by
  obtain ⟨⟨bits, hvalid⟩⟩ := x
  have hbits : UnpackedFloat.pack Format.binary64
      (UnpackedFloat.unpack Format.binary64 bits.toBitVec) = bits.toBitVec :=
    pack_unpack_of_valid hvalid
  unfold Float.Model.pack Float.Model.unpack
  simp only [hbits]

/-- Adding a zero of either sign to a float that is not below zero changes nothing. -/
theorem add_of_weightless {x w : Float} (hx : x = 0 ∨ Positive x.toModel.unpack)
    (hfinite : Numeral.isFinite w = true) (hneg : ¬ w < 0) (hpos : ¬ 0 < w) : x + w = x := by
  have hw := weightless_of_not_lt hneg hpos
  have hnumber := number_of_isFinite hfinite
  have hsum : UnpackedFloat.add Format.binary64 x.toModel.unpack w.toModel.unpack =
      x.toModel.unpack := by
    generalize w.toModel.unpack = v at hw hnumber
    cases hw with
    | notANumber => exact absurd rfl hnumber
    | zero sign =>
      rcases hx with rfl | hx
      · cases sign <;> rfl
      · generalize x.toModel.unpack = u at hx
        cases hx <;> rfl
  show Float.ofModel (pack (UnpackedFloat.add Format.binary64 _ _)) = x
  rw [hsum, ofModel_pack_unpack]

end Fabula.Numeral

namespace Fabula.Weighted

open Numeral

variable {ι : Type}

theorem positive_foldl {ws : List (Weighted ι Float)} (hpos : ∀ w ∈ ws, 0 < w.weight) {x : Float}
    (hx : Positive x.toModel.unpack) :
    Positive (ws.foldl (fun s w => s + w.weight) x).toModel.unpack := by
  induction ws generalizing x with
  | nil => exact hx
  | cons w ws ih =>
    exact ih (fun w' hw' => hpos w' (List.mem_cons_of_mem w hw'))
      (positive_sum_step (Or.inr hx) (hpos w List.mem_cons_self))

/-- The weights of some candidates that all have weight do not add up to nothing. -/
theorem sum_not_le {ws : List (Weighted ι Float)} (hne : ws ≠ []) (hpos : ∀ w ∈ ws, 0 < w.weight) :
    ¬ sum ws ≤ 0 := by
  cases ws with
  | nil => exact absurd rfl hne
  | cons w ws =>
    refine not_le_of_positive (positive_foldl (fun w' hw' => hpos w' (List.mem_cons_of_mem w hw')) ?_)
    exact positive_sum_step (Or.inl rfl) (hpos w List.mem_cons_self)

theorem weightless_foldl {ws : List (Weighted ι Float)} (hws : ∀ w ∈ ws, ¬ w.weight < 0)
    (hnone : ∀ w ∈ ws, ¬ 0 < w.weight) {x : Float} (hx : Weightless x.toModel.unpack) :
    Weightless (ws.foldl (fun s w => s + w.weight) x).toModel.unpack := by
  induction ws generalizing x with
  | nil => exact hx
  | cons w ws ih =>
    rw [List.forall_mem_cons] at hws hnone
    exact ih hws.2 hnone.2 (weightless_pack (weightless_add hx (weightless_of_not_lt hws.1 hnone.1)))

/-- Weights that are not negative add up to nothing, unless there is one above zero. -/
theorem exists_weight {ws : List (Weighted ι Float)} (hws : ∀ w ∈ ws, ¬ w.weight < 0)
    (hsum : 0 < sum ws) : ∃ w ∈ ws, 0 < w.weight := by
  by_contra hnone
  push Not at hnone
  have hzero : Weightless (sum ws).toModel.unpack :=
    weightless_foldl hws hnone (x := 0) (.zero .positive)
  have hpos := positive_of_lt hsum
  generalize (sum ws).toModel.unpack = u at hzero hpos
  cases hzero <;> cases hpos

/-- Weights that are nothing can be left out of a sum. -/
theorem foldl_eligible {ws : List (Weighted ι Float)}
    (hws : ∀ w ∈ ws, Numeral.isFinite w.weight = true ∧ ¬ w.weight < 0) {x : Float}
    (hx : x = 0 ∨ Positive x.toModel.unpack) :
    (eligible (fun _ => true) ws).foldl (fun s w => s + w.weight) x =
      ws.foldl (fun s w => s + w.weight) x := by
  induction ws generalizing x with
  | nil => rfl
  | cons w ws ih =>
    have ⟨⟨hfinite, hneg⟩, hws⟩ := List.forall_mem_cons.mp hws
    by_cases hpos : 0 < w.weight
    · rw [eligible, List.filter_cons_of_pos (by simp [hpos]), List.foldl_cons, List.foldl_cons]
      exact ih hws (.inr (positive_sum_step hx hpos))
    · rw [eligible, List.filter_cons_of_neg (by simp [hpos]), List.foldl_cons,
        add_of_weightless hx hfinite hneg hpos]
      exact ih hws hx

theorem sum_eligible {ws : List (Weighted ι Float)}
    (hws : ∀ w ∈ ws, Numeral.isFinite w.weight = true ∧ ¬ w.weight < 0) :
    sum (eligible (fun _ => true) ws) = sum ws :=
  foldl_eligible hws (.inl rfl)

end Fabula.Weighted
