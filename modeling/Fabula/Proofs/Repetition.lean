import Mathlib.Algebra.Group.Nat.Defs
import Mathlib.Tactic.ByContra
import Fabula.Expand.Builtin

/-!
# Fabula.Proofs.Repetition

**Repetition gives every text within its limit and none above.** The limit is put to the test with
room for one space after each copy, so a text that is just short enough must not be refused for the
space that the last copy does not need. That space is why the test goes one byte beyond the limit: the
copies of a value and the spaces between them take one byte less than all the room together, whatever
the value is, the empty one included (`Builtin.joined_size`).

A machine computes the size with words of 64 bits and a product that is given up if it does not fit one
(`Builtin.setAside?`). No count that an argument can deliver and no value that fits into memory make
that computation wrap, so it comes to what is computed here without bounds (`Builtin.setAside?_eq`).
-/

namespace Fabula.Builtin

/-! ### The size of what is built -/

/-- Copies of a value with spaces between them. -/
def joined (value : String) (count : Nat) : String :=
  String.intercalate " " (List.replicate count value)

theorem joined_size (value : String) (count : Nat) :
    (joined value (count + 1)).utf8ByteSize + 1 = (value.utf8ByteSize + 1) * (count + 1) := by
  induction count with
  | zero => simp [joined]
  | succ count ih =>
    have hspace : (" " : String).utf8ByteSize = 1 := by decide
    have hcons : joined value (count + 2) = value ++ " " ++ joined value (count + 1) :=
      String.intercalate_cons_cons
    rw [hcons, String.utf8ByteSize_append, String.utf8ByteSize_append, hspace, Nat.mul_succ, ← ih]
    omega

/-- The test passes exactly if the result is within the limit. -/
theorem room_iff (value : String) (count : Nat) :
    (value.utf8ByteSize + 1) * count ≤ maxRepetition + 1 ↔
      count = 0 ∨ (joined value count).utf8ByteSize ≤ maxRepetition := by
  cases count with
  | zero => simp
  | succ count =>
    have hsize := joined_size value count
    omega

/-! ### The computation in machine words -/

/-- The product of two words, unless it does not fit one. -/
def checkedMul (a b : UInt64) : Option UInt64 :=
  if a.toNat * b.toNat < 2 ^ 64 then some (a * b) else none

/-- The room for `count` copies of a value of so many bytes, each with a space, if it is not too
much. -/
def setAside? (size count : UInt64) : Option UInt64 :=
  (checkedMul (size + 1) count).filter (· ≤ UInt64.ofNat (maxRepetition + 1))

/-- No step of the computation wraps. -/
theorem setAside?_eq {size count : Nat} (hsize : size < 2 ^ 63) (hcount : count < 2 ^ 64) :
    (setAside? (.ofNat size) (.ofNat count)).map UInt64.toNat =
      if (size + 1) * count ≤ maxRepetition + 1 then some ((size + 1) * count) else none := by
  have hone : (UInt64.ofNat size + 1).toNat = size + 1 := by
    have hword : size < UInt64.size := Nat.lt_trans hsize (by decide)
    rw [UInt64.toNat_add, UInt64.toNat_ofNat_of_lt' hword]
    exact Nat.mod_eq_of_lt (by change size + 1 < 2 ^ 64; omega)
  have hlimit : (UInt64.ofNat (maxRepetition + 1)).toNat = maxRepetition + 1 := by decide
  have hfits : maxRepetition + 1 < 2 ^ 64 := by decide
  unfold setAside? checkedMul
  rw [hone, UInt64.toNat_ofNat_of_lt' hcount]
  by_cases h : (size + 1) * count < 2 ^ 64
  · have hproduct : ((UInt64.ofNat size + 1) * UInt64.ofNat count).toNat = (size + 1) * count := by
      rw [UInt64.toNat_mul, hone, UInt64.toNat_ofNat_of_lt' hcount, Nat.mod_eq_of_lt h]
    rw [if_pos h]
    simp only [Option.filter_some, UInt64.le_iff_toNat_le, hproduct, hlimit, decide_eq_true_eq]
    split <;> simp [hproduct]
  · rw [if_neg h, if_neg (by omega)]
    rfl

/-! ### Counts -/

/-- A count is a float without its fraction, cut off at the highest word. -/
theorem countArg_number (b : Builtin) {x : Float} {negative : Bool} {m : Nat} {e : Int}
    (hx : Numeral.Binary64.ofFloat x = .finite negative m e) (hpos : 0 ≤ x) (args : List Argument) :
    b.countArg (.number x :: args) 0 =
      .ok (some (min (2 ^ 64 - 1) (if negative then 0 else Numeral.wholePart m e))) := by
  have hfinite : Numeral.isFinite x = true := by
    unfold Numeral.isFinite
    rw [hx]
  have hwhole : (Numeral.wholeWithin 0 Numeral.countMax x).toNat =
      min (2 ^ 64 - 1) (if negative then 0 else Numeral.wholePart m e) := by
    have hmax : Numeral.countMax = 2 ^ 64 - 1 := rfl
    unfold Numeral.wholeWithin Numeral.clamp
    rw [hx, hmax]
    cases negative with
    | true =>
      dsimp only
      rw [if_pos rfl]
      omega
    | false =>
      dsimp only
      rw [if_neg Bool.false_ne_true]
      omega
  unfold countArg
  simp [hfinite, hpos, hwhole]

theorem countArg_lt {b : Builtin} {args : List Argument} {index count : Nat}
    (h : b.countArg args index = .ok (some count)) : count < 2 ^ 64 := by
  have hmax : (0 : Int) ≤ Numeral.countMax := by decide
  unfold countArg at h
  split at h
  · cases h
  · rename_i x _
    split at h
    · have hbounds := Numeral.wholeWithin_bounds hmax x
      cases h
      have hword : (Numeral.countMax : Int) < 2 ^ 64 := by decide
      omega
    · cases h
  · cases h

/-! ### Repetition -/

theorem repeated_eq (value : String) (count : Nat) :
    repeated value count =
      if count = 0 ∨ (joined value count).utf8ByteSize ≤ maxRepetition then .ok (joined value count)
      else .error (.badArguments "times" (toString count ++ " repetitions would exceed " ++
        toString maxRepetition ++ " bytes")) := by
  unfold repeated
  simp only [room_iff]
  rfl

/-- **Repetition gives every text within its limit and none above.** It gives the copies with spaces
between them exactly if these have at most `2 ^ 20` bytes, and is refused otherwise. Every count that an
argument can deliver fits a word, a float that is too great being cut off there; and with such a count
the size is computed in words without wrapping, for every value that fits into memory. -/
theorem repetition_exact (value : String) :
    (∀ count, count < 2 ^ 64 →
      ((∃ text, repeated value count = .ok text) ↔
        count = 0 ∨ (joined value count).utf8ByteSize ≤ 2 ^ 20) ∧
      (∀ text, repeated value count = .ok text → text = joined value count) ∧
      (¬ (count = 0 ∨ (joined value count).utf8ByteSize ≤ 2 ^ 20) →
        repeated value count = .error (.badArguments "times" (toString count ++
          " repetitions would exceed " ++ toString (2 ^ 20) ++ " bytes"))) ∧
      (value.utf8ByteSize < 2 ^ 63 →
        (setAside? (.ofNat value.utf8ByteSize) (.ofNat count)).map UInt64.toNat =
          if (value.utf8ByteSize + 1) * count ≤ 2 ^ 20 + 1 then
            some ((value.utf8ByteSize + 1) * count) else none)) ∧
    (∀ (b : Builtin) args index count,
      b.countArg args index = .ok (some count) → count < 2 ^ 64) ∧
    (∀ (b : Builtin) x negative m e args,
      Numeral.Binary64.ofFloat x = .finite negative m e → 0 ≤ x →
      b.countArg (.number x :: args) 0 =
        .ok (some (min (2 ^ 64 - 1) (if negative then 0 else Numeral.wholePart m e)))) := by
  refine ⟨fun count hcount => ?_, fun _ _ _ _ h => countArg_lt h,
    fun b _ _ _ _ args hx hpos => countArg_number b hx hpos args⟩
  have heq := repeated_eq value count
  have hlimit : maxRepetition = 2 ^ 20 := rfl
  rw [hlimit] at heq
  refine ⟨⟨?_, ?_⟩, ?_, ?_, fun hsize => setAside?_eq hsize hcount⟩
  · rintro ⟨text, hok⟩
    by_contra hlong
    rw [heq, if_neg hlong] at hok
    cases hok
  · intro hshort
    exact ⟨_, heq.trans (if_pos hshort)⟩
  · intro text hok
    rw [heq] at hok
    split at hok
    · exact (Except.ok.inj hok).symm
    · cases hok
  · intro hlong
    rw [heq, if_neg hlong]

/-- Spaces alone, which the empty text has between its copies, up to the limit and beyond. -/
theorem repetition_exact_empty :
    (∃ text, repeated "" (2 ^ 20 + 1) = .ok text) ∧ ¬ ∃ text, repeated "" (2 ^ 20 + 1 + 1) = .ok text := by
  constructor
  · have hfits := joined_size "" (2 ^ 20)
    rw [show ("" : String).utf8ByteSize = 0 from rfl] at hfits
    exact ((repetition_exact "").1 (2 ^ 20 + 1) (by decide)).1.mpr (.inr (by omega))
  · have hlong := joined_size "" (2 ^ 20 + 1)
    rw [show ("" : String).utf8ByteSize = 0 from rfl] at hlong
    rw [((repetition_exact "").1 (2 ^ 20 + 1 + 1) (by decide)).1]
    omega

end Fabula.Builtin
