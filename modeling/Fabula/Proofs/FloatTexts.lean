import Fabula.Proofs.DecimalGrammar
import Fabula.Proofs.RonReading

/-!
# Fabula.Proofs.FloatTexts

**The text of a float shows that it is one.** Whatever finite float it is, the number that stands for it has
digits on both sides of a point, perhaps behind a minus sign, and no exponent (`Ron.FloatText`). So it is
neither a whole number nor a name, and a reader passes over the whole of it and no further
(`Ron.FloatText.numberReads`). Which float is read from it is another question.
-/

namespace Fabula

open Numeral (Digits)

/-! ### Texts of decimals -/

namespace Numeral

theorem digits_toDigits (n : Nat) : Digits (Nat.toDigits 10 n) := fun _ => isDigit_of_mem

theorem digits_zeros (n : Nat) : Digits (List.replicate n '0') := by
  intro c hc
  rw [List.eq_of_mem_replicate hc]
  rfl

theorem Digits.append {v w : List Char} (hv : Digits v) (hw : Digits w) : Digits (v ++ w) := by
  intro c hc
  exact (List.mem_append.mp hc).elim (hv c) (hw c)

/-- A decimal is rendered as digits, or as digits with a point between them. -/
theorem Decimal.render_cases (d : Decimal) :
    (∃ w, d.render = String.ofList w ∧ Digits w ∧ w ≠ []) ∨
      ∃ w f, d.render = String.ofList (w ++ '.' :: f) ∧ Digits w ∧ w ≠ [] ∧ Digits f ∧ f ≠ [] := by
  unfold Decimal.render
  dsimp only
  split
  · left
    split
    · exact ⟨['0'], rfl, digits_zeros 1, by decide⟩
    · exact ⟨_, rfl, (digits_toDigits _).append (digits_zeros _), by simp [Nat.toDigits_ne_nil]⟩
  · rename_i e _
    right
    have hpadded := (digits_zeros (e + 1 + 1 - (Nat.toDigits 10 d.digits).length)).append
      (digits_toDigits d.digits)
    have hlength : e + 2 ≤ (List.replicate (e + 1 + 1 - (Nat.toDigits 10 d.digits).length) '0' ++
        Nat.toDigits 10 d.digits).length := by
      simp only [List.length_append, List.length_replicate]
      omega
    generalize List.replicate (e + 1 + 1 - (Nat.toDigits 10 d.digits).length) '0' ++
      Nat.toDigits 10 d.digits = padded at hpadded hlength ⊢
    refine ⟨_, _, rfl, fun c hc => hpadded c (List.mem_of_mem_take hc), ?_,
      fun c hc => hpadded c (List.mem_of_mem_drop hc), ?_⟩
    · rw [← List.length_pos_iff, List.length_take]
      omega
    · rw [← List.length_pos_iff, List.length_drop]
      omega

end Numeral

/-! ### Texts of floats -/

namespace Ron

/-- A point between digits, and perhaps a minus sign in front of them. -/
inductive FloatText : List Char → Prop
  /-- Digits, a point and digits follow the sign. -/
  | intro {sign w f : List Char} (hsign : sign = [] ∨ sign = ['-']) (hw : Digits w) (hne : w ≠ [])
    (hf : Digits f) (hfne : f ≠ []) : FloatText (sign ++ (w ++ '.' :: f))

/-- By its point a float is told from a whole number. -/
theorem all_digits {sign w : List Char} (hsign : sign = [] ∨ sign = ['-']) (hw : Digits w)
    (f : List Char) :
    (sign ++ w).all (fun c => c.isDigit || c = '-') = true ∧
      (sign ++ (w ++ '.' :: f)).all (fun c => c.isDigit || c = '-') = false := by
  have hall : w.all (fun c => c.isDigit || c = '-') = true :=
    List.all_eq_true.mpr fun c hc => by simp [hw c hc]
  rcases hsign with rfl | rfl <;> simp [hall]

/-- The number that stands for a finite float. -/
theorem floatText_floatValue {x : Float} (h : Numeral.isFinite x = true) :
    ∃ cs, floatValue x = .number (String.ofList cs) ∧ FloatText cs := by
  obtain ⟨sign, d, hsign, htext⟩ : ∃ (sign : List Char) (d : Numeral.Decimal),
      (sign = [] ∨ sign = ['-']) ∧ Numeral.floatText x = String.ofList sign ++ d.render := by
    unfold Numeral.isFinite at h
    unfold Numeral.floatText
    split at h
    · rename_i negative m q hx
      rw [hx]
      refine ⟨if negative then ['-'] else [], Numeral.shortest m q, ?_, ?_⟩ <;> cases negative <;> simp
    · cases h
  unfold floatValue
  rw [htext]
  rcases d.render_cases with ⟨w, hrender, hw, hne⟩ | ⟨w, f, hrender, hw, hne, hf, hfne⟩
  · refine ⟨sign ++ (w ++ '.' :: ['0']), ?_, .intro hsign hw hne (Numeral.digits_zeros 1) (by decide)⟩
    simp only [hrender, ← String.ofList_append, String.toList_ofList, (all_digits hsign hw []).1, if_true]
    rw [show ".0" = String.ofList ['.', '0'] from rfl, ← String.ofList_append, List.append_assoc]
  · refine ⟨sign ++ (w ++ '.' :: f), ?_, .intro hsign hw hne hf hfne⟩
    simp only [hrender, ← String.ofList_append, String.toList_ofList, (all_digits hsign hw f).2, if_false,
      Bool.false_eq_true]

/-! ### Reading them -/

section Reading

variable {w f : List Char} (hw : Digits w) (hf : Digits f)
include hw hf

theorem spanUnsigned_pointed {rest : List Char} (hrest : Ends rest) :
    spanUnsigned (w ++ '.' :: f ++ rest) = w ++ '.' :: f := by
  have hdecimal : (w ++ '.' :: f ++ rest).takeWhile isDecimalChar = w ++ '.' :: f := by
    refine hrest.takeWhile_append (fun c hc => ?_) fun c hc => (enders_stop c hc).2.2.1
    simp only [List.mem_append, List.mem_cons] at hc
    rcases hc with hc | rfl | hc
    · simp [isDecimalChar, hw c hc]
    · rfl
    · simp [isDecimalChar, hf c hc]
  have hcount : (w ++ '.' :: f ++ rest).takeWhile isCountChar = w := by
    rw [List.append_assoc, List.takeWhile_append_of_pos fun c hc => by
      simp [isCountChar, Numeral.hexDigit?, hw c hc]]
    simp [isCountChar, Numeral.hexDigit?]
  unfold spanUnsigned
  simp only [hdecimal, hcount]
  rw [if_pos (by simp)]

end Reading

namespace FloatText

variable {cs : List Char} (h : FloatText cs)
include h

/-- It starts with a digit or, if a digit follows, with a minus sign. -/
theorem cases_cons : ∃ c tail, cs = c :: tail ∧
    (c.isDigit = true ∨ c = '-' ∧ ∃ d after, tail = d :: after ∧ d.isDigit = true) := by
  obtain @⟨sign, w, f, hsign, hw, hne, -, -⟩ := h
  obtain ⟨d, w, rfl⟩ := List.exists_cons_of_ne_nil hne
  have hd := hw d List.mem_cons_self
  rcases hsign with rfl | rfl
  · exact ⟨d, _, rfl, .inl hd⟩
  · exact ⟨'-', _, rfl, .inr ⟨rfl, d, _, rfl, hd⟩⟩

theorem isDecimal : Numeral.IsDecimal cs := by
  obtain @⟨sign, w, f, hsign, hw, hne, hf, -⟩ := h
  have hmantissa : Numeral.Mantissa (w ++ '.' :: f) := .pointed hw hf (.inl hne)
  have hdecimal := Numeral.IsDecimal.intro (hsign.imp_right .inr) hmantissa .none
  rwa [List.append_nil] at hdecimal

theorem spanNumber_append {rest : List Char} (hrest : Ends rest) : spanNumber (cs ++ rest) = cs := by
  obtain @⟨sign, w, f, hsign, hw, hne, hf, -⟩ := h
  have hspan := spanUnsigned_pointed hw hf hrest
  rcases hsign with rfl | rfl
  · obtain ⟨d, w, rfl⟩ := List.exists_cons_of_ne_nil hne
    have hd : d.isDigit = true := hw d List.mem_cons_self
    unfold spanNumber
    split
    · rename_i heq
      cases heq
      cases hd
    · rename_i heq
      cases heq
      cases hd
    · exact hspan
  · exact congrArg (List.cons '-') hspan

theorem readNumber_append {rest : List Char} (hrest : Ends rest) :
    readNumber (cs ++ rest) = some (.number (String.ofList cs), rest) := by
  have hfloat : (floatOf? (String.ofList cs)).isSome = true := by
    unfold floatOf?
    rw [String.toList_ofList]
    split
    · rfl
    · split
      · rfl
      · exact h.isDecimal.readDecimal?
  rw [readNumber, h.spanNumber_append hrest, if_pos hfloat, List.drop_left]

/-- No word that stands for a value starts like a number. -/
theorem wordless_append (rest : List Char) :
    readFixedWord (cs ++ rest) = none ∧ afterWord? "Some" (cs ++ rest) = none := by
  obtain ⟨c, tail, rfl, hc | ⟨rfl, d, after, rfl, hd⟩⟩ := h.cases_cons
  · exact wordless_digit hc _
  · have hletter {e : Char} (he : e.isDigit = false) : e ≠ d := by
      rintro rfl
      rw [he] at hd
      cases hd
    refine ⟨?_, afterWord?_of_ne (d := 'S') rfl (by decide) _⟩
    -- two words start with the sign, but then goes a letter
    have hi := hletter (e := 'i') (by decide)
    have hN := hletter (e := 'N') (by decide)
    simp [readFixedWord, fixedWords, namedFloats, afterWord?, hi, hN]

/-- It is read where it stands. -/
theorem numberReads : NumberReads (String.ofList cs) := by
  have hread {rest : List Char} (hrest : Ends rest) := h.readNumber_append hrest
  have hwords := h.wordless_append
  obtain ⟨c, tail, rfl, hc⟩ := h.cases_cons
  have hstart : c.isDigit = true ∨ c = '-' := hc.imp_right And.left
  refine ⟨⟨c, tail, String.toList_ofList, ?_⟩, fun scope item payload rest hrest => ?_⟩
  · rcases hstart with hc | rfl
    · exact opening_of_isNameChar (by simp [isNameChar, Char.isAlphanum, hc])
    · decide
  · rw [String.toList_ofList]
    exact readForm_number (hwords rest) hstart (hread hrest)

end FloatText

/-- The number that stands for a finite float is read where it stands. -/
theorem numberReads_floatValue {x : Float} (h : Numeral.isFinite x = true) :
    ∃ raw, floatValue x = .number raw ∧ NumberReads raw := by
  obtain ⟨cs, hvalue, hcs⟩ := floatText_floatValue h
  exact ⟨_, hvalue, hcs.numberReads⟩

end Ron

end Fabula
