import Mathlib.Data.List.TakeWhile
import Fabula.Numeral.Reading

/-!
# Fabula.Proofs.DecimalGrammar

**The grammar of decimals**: which texts are read as numbers. A decimal has a sign, digits with a point
between or beside them, and an exponent, of which only the digits have to be there
(`Numeral.IsDecimal`). Its reader gives a value for those texts and for no others
(`Numeral.readDecimal?_isSome_iff`); which value that is, the grammar does not say.

The reader cuts off the longest run of digits wherever digits may stand. So for each part of a decimal it
has to be known that the next part begins with no digit.
-/

namespace Fabula.Numeral

/-! ### The grammar -/

/-- A text of decimal digits, which may be empty. -/
def Digits (w : List Char) : Prop := ∀ c ∈ w, c.isDigit = true

/-- A sign, or none. -/
def SignPart (w : List Char) : Prop := w = [] ∨ w = ['+'] ∨ w = ['-']

/-- The texts of decimals without sign and exponent. -/
inductive Mantissa : List Char → Prop
  /-- Digits alone. -/
  | whole {w : List Char} (hw : Digits w) (hne : w ≠ []) : Mantissa w
  /-- Digits in front of a point, behind it, or both. -/
  | pointed {w f : List Char} (hw : Digits w) (hf : Digits f) (hne : w ≠ [] ∨ f ≠ []) :
    Mantissa (w ++ '.' :: f)

/-- The texts of exponents. -/
inductive Exponent : List Char → Prop
  /-- No exponent. -/
  | none : Exponent []
  /-- Digits with or without a sign after the letter of an exponent. -/
  | power {e : Char} {s w : List Char} (he : e = 'e' ∨ e = 'E') (hs : SignPart s) (hw : Digits w)
    (hne : w ≠ []) : Exponent (e :: (s ++ w))

/-- The texts of decimals. -/
inductive IsDecimal : List Char → Prop
  /-- A sign, digits and an exponent. -/
  | intro {s m e : List Char} (hs : SignPart s) (hm : Mantissa m) (he : Exponent e) :
    IsDecimal (s ++ (m ++ e))

/-! ### How texts begin -/

/-- The text does not begin with a digit. -/
def NoDigit (rest : List Char) : Prop := ∀ c ∈ rest.head?, c.isDigit = false

theorem Digits.takeWhile {w rest : List Char} (hw : Digits w) (hrest : NoDigit rest) :
    (w ++ rest).takeWhile Char.isDigit = w ∧ (w ++ rest).dropWhile Char.isDigit = rest := by
  rw [List.takeWhile_append_of_pos hw, List.dropWhile_append_of_pos hw]
  cases rest with
  | nil => simp
  | cons c rest =>
    have hc : c.isDigit = false := hrest c rfl
    simp [hc]

theorem digits_takeWhile (cs : List Char) : Digits (cs.takeWhile Char.isDigit) :=
  fun _ hc => List.mem_takeWhile_imp hc

theorem noDigit_dropWhile (cs : List Char) : NoDigit (cs.dropWhile Char.isDigit) := by
  intro c hc
  have hhead := List.head?_dropWhile_not Char.isDigit cs
  rw [Option.mem_def.mp hc] at hhead
  simpa using hhead

theorem Exponent.noDigit {e : List Char} (h : Exponent e) : NoDigit e := by
  intro c hc
  cases h with
  | none => cases hc
  | power he =>
    cases hc
    rcases he with rfl | rfl <;> rfl

/-- A decimal begins with a digit or a point, once its sign is left out. -/
theorem Mantissa.cases_cons {m : List Char} (h : Mantissa m) :
    ∃ c tail, m = c :: tail ∧ (c = '.' ∨ c.isDigit = true) := by
  cases h with
  | whole hw hne =>
    obtain ⟨c, tail, rfl⟩ := List.exists_cons_of_ne_nil hne
    exact ⟨c, tail, rfl, .inr (hw c List.mem_cons_self)⟩
  | @pointed w f hw hf hne =>
    cases w with
    | nil => exact ⟨'.', f, rfl, .inl rfl⟩
    | cons c w => exact ⟨c, w ++ '.' :: f, rfl, .inr (hw c List.mem_cons_self)⟩

/-! ### Exponents -/

theorem readDigits?_isSome_iff (w : List Char) :
    (readDigits? w).isSome = true ↔ Digits w ∧ w ≠ [] := by
  unfold readDigits? Digits
  by_cases h : w = []
  · simp [h]
  · simp [h]

theorem readExponent?_sound {cs : List Char} {n : Int} (h : readExponent? cs = some n) :
    Exponent cs := by
  have hpower {e : Char} {s digits : List Char} (he : (decide (e = 'e') || decide (e = 'E')) = true)
      (hs : SignPart s) (h : (readDigits? digits).isSome = true) : Exponent (e :: (s ++ digits)) := by
    have ⟨hw, hne⟩ := (readDigits?_isSome_iff digits).mp h
    exact .power (by simpa using he) hs hw hne
  unfold readExponent? at h
  split at h
  · exact .none
  · split at h
    · rename_i hletter
      replace h := congrArg Option.isSome h
      split at h
      · exact hpower (s := ['+']) hletter (.inr (.inl rfl)) (by simpa using h)
      · rename_i digits
        refine hpower (s := ['-']) hletter (.inr (.inr rfl)) ?_
        cases hd : readDigits? digits with
        | none =>
          rw [hd] at h
          cases h
        | some n => rfl
      · exact hpower (s := []) hletter (.inl rfl) (by simpa using h)
    · cases h

theorem Exponent.readExponent? {e : List Char} (h : Exponent e) :
    (readExponent? e).isSome = true := by
  cases h with
  | none => rfl
  | @power e s w he hs hw hne =>
    have hsome := (readDigits?_isSome_iff w).mpr ⟨hw, hne⟩
    unfold Numeral.readExponent?
    dsimp only
    rw [if_pos (by simpa using he)]
    rcases hs with rfl | rfl | rfl
    · obtain ⟨c, tail, rfl⟩ := List.exists_cons_of_ne_nil hne
      have hdigit := hw c List.mem_cons_self
      -- a digit is no sign
      split
      · rename_i heq
        cases heq
        cases hdigit
      · rename_i heq
        cases heq
        cases hdigit
      · simpa using hsome
    · simpa using hsome
    · obtain ⟨n, hn⟩ := Option.isSome_iff_exists.mp hsome
      simp only [List.singleton_append, hn]
      rfl

/-! ### Decimals -/

theorem readUnsigned?_sound {cs : List Char} {x : Float} (h : readUnsigned? cs = some x) :
    ∃ m e, cs = m ++ e ∧ Mantissa m ∧ Exponent e := by
  have hsplit := List.takeWhile_append_dropWhile (p := Char.isDigit) (l := cs)
  have hwhole := digits_takeWhile cs
  unfold readUnsigned? at h
  dsimp only at h
  generalize cs.takeWhile Char.isDigit = w at h hsplit hwhole
  generalize cs.dropWhile Char.isDigit = rest at h hsplit
  subst hsplit
  split at h
  · -- a point, and the digits behind it
    rename_i after
    split at h
    · cases h
    · rename_i hempty
      obtain ⟨n, hn, -⟩ := Option.map_eq_some_iff.mp h
      refine ⟨w ++ '.' :: after.takeWhile Char.isDigit, after.dropWhile Char.isDigit, ?_,
        .pointed hwhole (digits_takeWhile after) ?_, readExponent?_sound hn⟩
      · rw [List.append_assoc, List.cons_append, List.takeWhile_append_dropWhile]
      · simpa [or_iff_not_imp_left] using hempty
  · split at h
    · cases h
    · rename_i hempty
      obtain ⟨n, hn, -⟩ := Option.map_eq_some_iff.mp h
      exact ⟨w, rest, rfl, .whole hwhole (by simpa using hempty), readExponent?_sound hn⟩

theorem Mantissa.readUnsigned? {m e : List Char} (hm : Mantissa m) (he : Exponent e) :
    (readUnsigned? (m ++ e)).isSome = true := by
  have hexponent := he.readExponent?
  unfold Numeral.readUnsigned?
  cases hm with
  | whole hw hne =>
    obtain ⟨htake, hdrop⟩ := hw.takeWhile he.noDigit
    rw [htake, hdrop]
    cases he with
    | none => simp [hne, Numeral.readExponent?]
    | power hletter =>
      -- the letter of the exponent is no point
      rcases hletter with rfl | rfl <;> simpa [hne] using hexponent
  | @pointed w f hw hf hne =>
    have hpoint : NoDigit ('.' :: (f ++ e)) := by
      intro c hc
      cases hc
      rfl
    obtain ⟨htake, hdrop⟩ := hw.takeWhile hpoint
    obtain ⟨htake', hdrop'⟩ := hf.takeWhile he.noDigit
    rw [List.append_assoc, List.cons_append, htake, hdrop]
    simp only [htake', hdrop']
    have hempty : (w.isEmpty && f.isEmpty) = false := by
      rcases hne with h | h <;> simp [h]
    simpa [hempty] using hexponent

theorem readDecimal?_sound {cs : List Char} {x : Float} (h : readDecimal? cs = some x) :
    IsDecimal cs := by
  unfold readDecimal? at h
  split at h
  · obtain ⟨m, e, rfl, hm, he⟩ := readUnsigned?_sound h
    exact .intro (s := ['+']) (.inr (.inl rfl)) hm he
  · obtain ⟨y, hy, -⟩ := Option.map_eq_some_iff.mp h
    obtain ⟨m, e, rfl, hm, he⟩ := readUnsigned?_sound hy
    exact .intro (s := ['-']) (.inr (.inr rfl)) hm he
  · obtain ⟨m, e, rfl, hm, he⟩ := readUnsigned?_sound h
    exact .intro (s := []) (.inl rfl) hm he

theorem IsDecimal.readDecimal? {w : List Char} (h : IsDecimal w) : (readDecimal? w).isSome = true := by
  obtain @⟨s, m, e, hs, hm, he⟩ := h
  have hunsigned := hm.readUnsigned? he
  rcases hs with rfl | rfl | rfl
  · obtain ⟨c, tail, rfl, hc⟩ := hm.cases_cons
    have hplus : c ≠ '+' := by rintro rfl; rcases hc with hc | hc <;> cases hc
    have hminus : c ≠ '-' := by rintro rfl; rcases hc with hc | hc <;> cases hc
    show (Numeral.readDecimal? (c :: (tail ++ e))).isSome = true
    unfold Numeral.readDecimal?
    split
    · rename_i heq
      exact absurd (List.cons.inj heq).1 hplus
    · rename_i heq
      exact absurd (List.cons.inj heq).1 hminus
    · exact hunsigned
  · exact hunsigned
  · show ((Numeral.readUnsigned? (m ++ e)).map (-·)).isSome = true
    simpa using hunsigned

/-- A text is read as a decimal exactly if it is one. -/
theorem readDecimal?_isSome_iff (w : List Char) : (readDecimal? w).isSome = true ↔ IsDecimal w := by
  refine ⟨fun h => ?_, IsDecimal.readDecimal?⟩
  obtain ⟨x, hx⟩ := Option.isSome_iff_exists.mp h
  exact readDecimal?_sound hx

end Fabula.Numeral
