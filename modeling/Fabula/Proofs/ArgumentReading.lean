import Fabula.Proofs.ArgumentGrammar
import Fabula.Proofs.ArgumentScan

/-!
# Fabula.Proofs.ArgumentReading

**Argument lists are read as the grammar has it** (`ArgumentList.read_iff_derives`). For every
reader there are two lemmas: what it takes belongs to the grammar and stands for what it returns
(`…_sound`), and it takes what belongs to the grammar, whatever follows (`…_complete`).

Where a number ends is not said by the number. The reader takes all characters that could go on with
it, also a sign if the letter of an exponent stands before it, and gives up if they make no number.
So all characters of a decimal have to go on with it (`goesOn_decimal`), and white space and commas,
which may follow it, must not (`Stops`).
-/

namespace Fabula.ArgumentList

open Numeral (IsDecimal Digits Mantissa Exponent)

/-! ### Escapes -/

theorem readCodePoint_sound {n count : Nat} {cs rest : List Char} {c : Char}
    (h : readCodePoint n count cs = .ok (c, rest)) :
    ∃ digits value, cs = digits ++ rest ∧ digits.length = count ∧
      Numeral.hexValue? n digits = some value ∧ Numeral.character? value = some c := by
  induction count generalizing n cs with
  | zero =>
    unfold readCodePoint at h
    split at h
    · rename_i hc
      cases h
      exact ⟨[], n, rfl, rfl, rfl, hc⟩
    · cases h
  | succ count ih =>
    cases cs with
    | nil => cases h
    | cons d cs =>
      unfold readCodePoint at h
      split at h
      · rename_i digit hdigit
        obtain ⟨digits, value, rfl, hlength, hvalue, hc⟩ := ih h
        refine ⟨d :: digits, value, rfl, congrArg (· + 1) hlength, ?_, hc⟩
        rw [Numeral.hexValue?, hdigit]
        exact hvalue
      · cases h

theorem readCodePoint_complete {n value : Nat} {digits : List Char} {c : Char}
    (hvalue : Numeral.hexValue? n digits = some value) (hc : Numeral.character? value = some c)
    (rest : List Char) : readCodePoint n digits.length (digits ++ rest) = .ok (c, rest) := by
  induction digits generalizing n with
  | nil =>
    cases hvalue
    rw [List.length_nil, readCodePoint, hc]
    rfl
  | cons d digits ih =>
    rw [Numeral.hexValue?] at hvalue
    obtain ⟨digit, hdigit, hvalue⟩ := Option.bind_eq_some_iff.mp hvalue
    rw [List.length_cons, List.cons_append, readCodePoint, hdigit]
    exact ih hvalue

/-- A character that stands for no control character stands for itself. -/
theorem simpleEscape_of_not_control {c : Char} (hc : ∀ d, (c, d) ∉ controls) :
    simpleEscape c = c := by
  have hne : ∀ p ∈ controls, c ≠ p.1 := fun p hp heq => hc p.2 (heq ▸ hp)
  simp only [controls, List.forall_mem_cons] at hne
  simp [simpleEscape, hne]

theorem simpleEscape_of_control {c d : Char} (hc : (c, d) ∈ controls) :
    c ≠ 'u' ∧ simpleEscape c = d := by
  simp only [controls, List.mem_cons, Prod.mk.injEq, List.not_mem_nil, or_false] at hc
  rcases hc with h | h | h | h | h | h | h
  all_goals
    obtain ⟨rfl, rfl⟩ := h
    decide

theorem escape_simpleEscape {c : Char} (hu : c ≠ 'u') : Escape [c] (simpleEscape c) := by
  by_cases hc : ∃ d, (c, d) ∈ controls
  · obtain ⟨d, hd⟩ := hc
    rw [(simpleEscape_of_control hd).2]
    exact .control hd
  · have hc : ∀ d, (c, d) ∉ controls := fun d hd => hc ⟨d, hd⟩
    rw [simpleEscape_of_not_control hc]
    exact .itself hc hu

theorem readEscape_sound {cs rest : List Char} {c : Char} (h : readEscape cs = .ok (c, rest)) :
    ∃ e, cs = e ++ rest ∧ Escape e c := by
  cases cs with
  | nil => cases h
  | cons d cs =>
    rw [readEscape] at h
    split at h
    · rename_i hu
      obtain ⟨digits, value, rfl, hlength, hvalue, hc⟩ := readCodePoint_sound h
      exact ⟨'u' :: digits, by rw [hu]; rfl, .codePoint hlength hvalue hc⟩
    · rename_i hu
      cases h
      exact ⟨[d], rfl, escape_simpleEscape hu⟩

theorem readEscape_complete {e : List Char} {c : Char} (h : Escape e c) (rest : List Char) :
    readEscape (e ++ rest) = .ok (c, rest) := by
  cases h with
  | control h =>
    obtain ⟨hu, rfl⟩ := simpleEscape_of_control h
    rw [List.singleton_append, readEscape, if_neg hu]
  | codePoint hlength hn hc =>
    have hread := readCodePoint_complete hn hc rest
    rw [hlength] at hread
    exact hread
  | itself hc hu =>
    rw [List.singleton_append, readEscape, if_neg hu, simpleEscape_of_not_control hc]

/-! ### Texts -/

theorem readText_sound {quote : Char} {acc cs out rest : List Char}
    (h : readText quote acc cs = .ok (out, rest)) :
    ∃ w text, cs = w ++ quote :: rest ∧ Content quote w text ∧ out = acc.reverse ++ text := by
  fun_induction readText quote acc cs with
  | case1 => cases h
  | case2 acc cs =>
    -- the closing quotation mark
    cases h
    exact ⟨[], [], rfl, .empty, (List.append_nil _).symm⟩
  | case3 => cases h
  | case4 acc cs d rest' hescape _ _ ih =>
    obtain ⟨e, rfl, he⟩ := readEscape_sound hescape
    obtain ⟨w, text, rfl, hw, rfl⟩ := ih h
    exact ⟨'\\' :: (e ++ w), d :: text, by simp, .escape he hw, by simp⟩
  | case5 acc c cs hquote hslash ih =>
    obtain ⟨w, text, rfl, hw, rfl⟩ := ih h
    exact ⟨c :: w, c :: text, rfl, .plain hquote hslash hw, by simp⟩

theorem readText_escape {quote : Char} (hquote : IsQuote quote) (acc cs : List Char) {c : Char}
    {rest : List Char} (h : readEscape cs = .ok (c, rest)) :
    readText quote acc ('\\' :: cs) = readText quote (c :: acc) rest := by
  rw [readText, if_neg hquote.ne_slash, if_pos rfl]
  split
  · rename_i he
    rw [h] at he
    cases he
  · rename_i he
    rw [h] at he
    cases he
    rfl

theorem readText_complete {quote : Char} (hquote : IsQuote quote) {w text : List Char}
    (h : Content quote w text) (acc rest : List Char) :
    readText quote acc (w ++ quote :: rest) = .ok (acc.reverse ++ text, rest) := by
  induction h generalizing acc with
  | empty => rw [List.nil_append, readText, if_pos rfl, List.append_nil]
  | @plain c w text hne hslash _ ih =>
    rw [List.cons_append, readText, if_neg hne, if_neg hslash, ih]
    simp
  | @escape c e w text he _ ih =>
    rw [List.cons_append, List.append_assoc,
      readText_escape hquote _ _ (readEscape_complete he (w ++ quote :: rest)), ih]
    simp

/-! ### Numbers -/

/-- A number stands for a finite float. -/
theorem number?_iff (raw : List Char) (x : Float) :
    number? raw = some x ↔
      IsDecimal raw ∧ Numeral.readFloat? raw = some x ∧ Numeral.isFinite x = true := by
  have hfloat {y : Float} (hy : Numeral.readDecimal? raw = some y) :
      Numeral.readFloat? raw = some y := by
    unfold Numeral.readFloat?
    rw [hy]
  unfold number?
  rw [Option.filter_eq_some_iff]
  constructor
  · rintro ⟨hx, hfinite⟩
    exact ⟨Numeral.readDecimal?_sound hx, hfloat hx, hfinite⟩
  · rintro ⟨hraw, hx, hfinite⟩
    obtain ⟨y, hy⟩ := Option.isSome_iff_exists.mp hraw.readDecimal?
    rw [hfloat hy] at hx
    exact ⟨hx ▸ hy, hfinite⟩

/-- White space goes on with no number. -/
theorem continuesNumber_of_isBlank {c : Char} (hc : Text.isBlank c = true) (previous : Char) :
    continuesNumber previous c = false := by
  have hsigns : ∀ d, Text.isBlank d = false → c ≠ d := by
    rintro d hd rfl
    rw [hc] at hd
    cases hd
  have hpoint := hsigns '.' (by decide)
  have hline := hsigns '_' (by decide)
  have hminus := hsigns '-' (by decide)
  have hplus := hsigns '+' (by decide)
  have halphanum : c.isAlphanum = false := by
    rw [Bool.eq_false_iff]
    simp only [Text.isBlank, Char.isAlphanum, Char.isAlpha, Char.isUpper, Char.isLower,
      Char.isDigit, Char.toNat, Bool.or_eq_true, Bool.and_eq_true, decide_eq_true_iff, beq_iff_eq,
      ge_iff_le, ne_eq, UInt32.le_iff_toNat_le, Char.reduceVal, UInt32.reduceToNat] at hc ⊢
    omega
  unfold continuesNumber
  simp [halphanum, hpoint, hline, hminus, hplus]

/-- What may follow a number: nothing, white space or a comma. -/
def Stops (rest : List Char) : Prop := ∀ c ∈ rest.head?, Text.isBlank c = true ∨ c = ','

theorem spanNumber_of_stops {rest : List Char} (h : Stops rest) (previous : Char) :
    spanNumber previous rest = ([], rest) := by
  cases rest with
  | nil => rfl
  | cons c tail =>
    have hc : continuesNumber previous c = false := by
      rcases h c rfl with hc | rfl
      · exact continuesNumber_of_isBlank hc previous
      · rfl
    rw [spanNumber, if_neg (Bool.eq_false_iff.mp hc)]

/-- Each character goes on with the number that ends with the one before it. -/
abbrev GoesOn (w : List Char) : Prop := w.IsChain fun p c => continuesNumber p c = true

theorem spanNumber_complete {previous : Char} {w rest : List Char} (hw : GoesOn (previous :: w))
    (hrest : Stops rest) : spanNumber previous (w ++ rest) = (w, rest) := by
  induction w generalizing previous with
  | nil => exact spanNumber_of_stops hrest previous
  | cons c w ih =>
    obtain ⟨hc, hw⟩ := List.isChain_cons_cons.mp hw
    rw [List.cons_append, spanNumber, if_pos hc, ih hw]

/-- Characters that go on with every number may stand in front. -/
theorem GoesOn.append {w rest : List Char}
    (hw : ∀ c ∈ w, ∀ previous, continuesNumber previous c = true)
    (hrest : ∀ previous, GoesOn (previous :: rest)) (previous : Char) :
    GoesOn (previous :: (w ++ rest)) := by
  induction w generalizing previous with
  | nil => exact hrest previous
  | cons c w ih =>
    have hc := hw c List.mem_cons_self previous
    exact .cons_cons hc (ih (fun d hd => hw d (List.mem_cons_of_mem c hd)) c)

theorem continuesNumber_of_isDigit {c : Char} (hc : c.isDigit = true) (previous : Char) :
    continuesNumber previous c = true := by
  simp [continuesNumber, Char.isAlphanum, hc]

theorem goesOn_digits {w : List Char} (hw : Digits w) (previous : Char) :
    GoesOn (previous :: w) := by
  have hgoes := GoesOn.append (fun c hc => continuesNumber_of_isDigit (hw c hc))
    (fun p => List.IsChain.singleton p) previous
  rwa [List.append_nil] at hgoes

/-- A sign goes on with a number behind the letter of its exponent. -/
theorem goesOn_exponent {e : List Char} (h : Exponent e) (previous : Char) :
    GoesOn (previous :: e) := by
  cases h with
  | none => exact .singleton previous
  | @power e s w he hs hw hne =>
    have hletter : continuesNumber previous e = true := by
      rcases he with rfl | rfl <;> rfl
    refine .cons_cons hletter ?_
    rcases hs with rfl | rfl | rfl
    · exact goesOn_digits hw e
    · refine .cons_cons ?_ (goesOn_digits hw '+')
      rcases he with rfl | rfl <;> rfl
    · refine .cons_cons ?_ (goesOn_digits hw '-')
      rcases he with rfl | rfl <;> rfl

theorem continuesNumber_of_mem {m : List Char} (h : Mantissa m) :
    ∀ c ∈ m, ∀ previous, continuesNumber previous c = true := by
  cases h with
  | whole hw => exact fun c hc => continuesNumber_of_isDigit (hw c hc)
  | pointed hw hf =>
    intro c hc
    rcases List.mem_append.mp hc with hc | hc
    · exact continuesNumber_of_isDigit (hw c hc)
    · rcases List.mem_cons.mp hc with rfl | hc
      · exact fun _ => rfl
      · exact continuesNumber_of_isDigit (hf c hc)

/-- How a number begins. -/
def StartsNumber (c : Char) : Prop := c = '-' ∨ c = '+' ∨ c = '.' ∨ c.isDigit = true

/-- A decimal is taken as a whole once its first character is there. -/
theorem goesOn_decimal {w : List Char} (h : IsDecimal w) :
    ∃ first tail, w = first :: tail ∧ StartsNumber first ∧ GoesOn w := by
  obtain @⟨s, m, e, hs, hm, he⟩ := h
  have hbody := GoesOn.append (continuesNumber_of_mem hm) (goesOn_exponent he)
  rcases hs with rfl | rfl | rfl
  · obtain ⟨c, tail, rfl, hc⟩ := hm.cases_cons
    exact ⟨c, tail ++ e, rfl, .inr (.inr hc), (List.isChain_cons_cons.mp (hbody c)).2⟩
  · exact ⟨'+', m ++ e, rfl, .inr (.inl rfl), hbody '+'⟩
  · exact ⟨'-', m ++ e, rfl, .inl rfl, hbody '-'⟩

theorem readNumber_sound {first : Char} {cs rest : List Char} {value : Argument}
    (h : readNumber first cs = .ok (value, rest)) :
    ∃ w, first :: cs = w ++ rest ∧ Value w value := by
  have hsplit := (Template.spanNumber_passes first cs).1
  unfold readNumber at h
  dsimp only at h
  split at h
  · rename_i x hx
    cases h
    obtain ⟨hw, hx, hfinite⟩ := (number?_iff _ x).mp hx
    exact ⟨first :: (spanNumber first cs).1, congrArg (first :: ·) hsplit, .number hw hx hfinite⟩
  · cases h

theorem readNumber_complete {first : Char} {tail rest : List Char} {x : Float}
    (hw : GoesOn (first :: tail)) (hx : number? (first :: tail) = some x) (hrest : Stops rest) :
    readNumber first (tail ++ rest) = .ok (.number x, rest) := by
  unfold readNumber
  rw [spanNumber_complete hw hrest]
  dsimp only
  rw [hx]

/-! ### Values -/

theorem readValue_sound {first : Char} {cs rest : List Char} {value : Argument}
    (h : readValue first cs = .ok (value, rest)) :
    ∃ v, first :: cs = v ++ rest ∧ Value v value := by
  unfold readValue at h
  split at h
  · rename_i hquote
    cases htext : readText first [] cs with
    | error e =>
      rw [htext] at h
      cases h
    | ok p =>
      rw [htext] at h
      cases h
      obtain ⟨w, text, rfl, hw, hout⟩ := readText_sound htext
      refine ⟨first :: (w ++ [first]), by simp, ?_⟩
      show Value _ (.text (String.ofList p.1))
      rw [hout]
      refine .text ?_ hw
      simpa [IsQuote] using hquote
  · split at h
    · exact readNumber_sound h
    · split at h <;> cases h

/-- What a value begins with is no white space, and the reader takes the value from there. -/
theorem readValue_complete {v rest : List Char} {value : Argument} (hv : Value v value)
    (hrest : Stops rest) :
    ∃ first tail, v = first :: tail ∧ Text.isBlank first = false ∧
      readValue first (tail ++ rest) = .ok (value, rest) := by
  cases hv with
  | @text quote w text hquote hw =>
    refine ⟨quote, w ++ [quote], rfl, ?_, ?_⟩
    · rcases hquote with rfl | rfl <;> decide
    · have hfirst : (decide (quote = '\'') || decide (quote = '"')) = true := by
        simpa [IsQuote] using hquote
      unfold readValue
      rw [if_pos hfirst, List.append_assoc, List.singleton_append, readText_complete hquote hw]
      rfl
  | @number _ x hw hx hfinite =>
    obtain ⟨first, tail, rfl, hfirst, hgoes⟩ := goesOn_decimal hw
    have hread := readNumber_complete hgoes ((number?_iff _ x).mpr ⟨hw, hx, hfinite⟩) hrest
    refine ⟨first, tail, rfl, ?_, ?_⟩
    · rcases hfirst with rfl | rfl | rfl | hdigit
      · decide
      · decide
      · decide
      · rw [← Bool.not_eq_true]
        intro hblank
        have := continuesNumber_of_isBlank hblank first
        rw [continuesNumber_of_isDigit hdigit] at this
        cases this
    · have hquote : (decide (first = '\'') || decide (first = '"')) = false := by
        rw [← Bool.not_eq_true]
        intro h
        rw [Bool.or_eq_true, decide_eq_true_iff, decide_eq_true_iff] at h
        rcases h with rfl | rfl <;> simp [StartsNumber] at hfirst
      unfold readValue
      rw [if_neg (Bool.eq_false_iff.mp hquote),
        if_pos (by simpa [StartsNumber, or_assoc] using hfirst)]
      exact hread

/-! ### Lists -/

theorem Blank.dropWhile {a : List Char} (ha : Blank a) {c : Char} (hc : Text.isBlank c = false)
    (rest : List Char) : (a ++ c :: rest).dropWhile Text.isBlank = c :: rest := by
  rw [List.dropWhile_append_of_pos ha, List.dropWhile_cons_of_neg (Bool.eq_false_iff.mp hc)]

theorem blank_takeWhile (cs : List Char) : Blank (cs.takeWhile Text.isBlank) :=
  fun _ hc => List.mem_takeWhile_imp hc

/-- A list with another value in front. -/
theorem Derives.cons {a v b after : List Char} {value : Argument} {values : List Argument}
    (ha : Blank a) (hv : Value v value) (hb : Blank b) (h : Derives after values) :
    Derives (a ++ (v ++ (b ++ ',' :: after))) (value :: values) := by
  cases h with
  | empty hafter => exact .filled ha hv .none hb (.inr ⟨after, hafter, rfl⟩)
  | @filled a' v' w' b' t' value' values' ha' hv' hw' hb' ht' =>
    have hother : Derives (a ++ (v ++ ((b ++ ',' :: (a' ++ (v' ++ w'))) ++ (b' ++ t'))))
        (value :: value' :: values') := .filled ha hv (.cons hb ha' hv' hw') hb' ht'
    simpa using hother

/-- A list with a first value ends there or has a comma behind it, and what follows is a list
again. -/
theorem Derives.uncons {cs : List Char} {value : Argument} {values : List Argument}
    (h : Derives cs (value :: values)) :
    ∃ a v b, Blank a ∧ Value v value ∧ Blank b ∧
      (cs = a ++ (v ++ b) ∧ values = [] ∨
        ∃ after, cs = a ++ (v ++ (b ++ ',' :: after)) ∧ Derives after values) := by
  cases h with
  | @filled a v w b t _ _ ha hv hw hb ht =>
    cases hw with
    | none =>
      refine ⟨a, v, b, ha, hv, hb, ?_⟩
      rcases ht with rfl | ⟨after, hafter, rfl⟩
      · exact .inl ⟨by simp, rfl⟩
      · exact .inr ⟨after, rfl, .empty hafter⟩
    | @cons a' b' v' w' value' values' ha' hb' hv' hw' =>
      exact ⟨a, v, a', ha, hv, ha',
        .inr ⟨b' ++ (v' ++ (w' ++ (b ++ t))), by simp, .filled hb' hv' hw' hb ht⟩⟩

theorem readValues_sound {acc out : List Argument} {cs : List Char}
    (h : readValues acc cs = .ok out) :
    ∃ values, out = acc.reverse ++ values ∧ Derives cs values := by
  fun_induction readValues acc cs with
  | case1 acc cs hend =>
    cases h
    exact ⟨[], (List.append_nil _).symm, .empty (List.dropWhile_eq_nil_iff.mp hend)⟩
  | case2 => cases h
  | case3 acc cs first tail hfirst value rest hvalue hend =>
    cases h
    obtain ⟨v, hsplit, hv⟩ := readValue_sound hvalue
    have hcs := List.takeWhile_append_dropWhile (p := Text.isBlank) (l := cs)
    rw [hfirst, hsplit] at hcs
    refine ⟨[value], by simp, ?_⟩
    have hlist := Derives.filled (blank_takeWhile cs) hv .none
      (List.dropWhile_eq_nil_iff.mp hend) (.inl rfl)
    simpa [hcs] using hlist
  | case4 acc cs first tail hfirst value rest hvalue after hafter _ ih =>
    obtain ⟨values, rfl, hvalues⟩ := ih h
    obtain ⟨v, hsplit, hv⟩ := readValue_sound hvalue
    have hcs := List.takeWhile_append_dropWhile (p := Text.isBlank) (l := cs)
    have hrest := List.takeWhile_append_dropWhile (p := Text.isBlank) (l := rest)
    rw [hafter] at hrest
    rw [hfirst, hsplit, ← hrest] at hcs
    refine ⟨value :: values, by simp, ?_⟩
    rw [← hcs]
    exact .cons (blank_takeWhile cs) hv (blank_takeWhile rest) hvalues
  | case5 => cases h

/-- One turn of the loop over the values. -/
theorem readValues_value {cs tail rest : List Char} {first : Char} {value : Argument}
    (hcs : cs.dropWhile Text.isBlank = first :: tail)
    (hv : readValue first tail = .ok (value, rest)) (acc : List Argument) :
    readValues acc cs =
      match rest.dropWhile Text.isBlank with
      | [] => .ok (acc.reverse ++ [value])
      | c :: after =>
        if c = ',' then readValues (value :: acc) after
        else .error ⟨.expectedComma c, c :: after⟩ := by
  rw [readValues]
  split
  · rename_i hnil
    rw [hcs] at hnil
    cases hnil
  · rename_i hfirst
    rw [hcs] at hfirst
    cases hfirst
    split
    · rename_i he
      rw [hv] at he
      cases he
    · rename_i hvalue
      rw [hv] at hvalue
      cases hvalue
      split
      · rename_i hnil
        rw [hnil, List.reverse_cons]
      · rename_i hafter
        simp only [hafter]

theorem readValues_complete {cs : List Char} {values : List Argument} (h : Derives cs values)
    (acc : List Argument) : readValues acc cs = .ok (acc.reverse ++ values) := by
  induction values generalizing cs acc with
  | nil =>
    obtain ⟨hcs⟩ := h
    rw [readValues]
    split
    · rw [List.append_nil]
    · rename_i hfirst
      rw [List.dropWhile_eq_nil_iff.mpr hcs] at hfirst
      cases hfirst
  | cons value values ih =>
    obtain ⟨a, v, b, ha, hv, hb, hend⟩ := h.uncons
    rcases hend with ⟨rfl, rfl⟩ | ⟨after, rfl, hafter⟩
    · have hstops : Stops b := fun c hc => .inl (hb c (List.mem_of_mem_head? hc))
      obtain ⟨first, tail, rfl, hfirst, hread⟩ := readValue_complete hv hstops
      have hcs : (a ++ (first :: tail ++ b)).dropWhile Text.isBlank = first :: (tail ++ b) :=
        ha.dropWhile hfirst _
      rw [readValues_value hcs hread, List.dropWhile_eq_nil_iff.mpr hb]
    · have hstops : Stops (b ++ ',' :: after) := by
        intro c hc
        cases b with
        | nil =>
          cases hc
          exact .inr rfl
        | cons d b =>
          cases hc
          exact .inl (hb _ List.mem_cons_self)
      obtain ⟨first, tail, rfl, hfirst, hread⟩ := readValue_complete hv hstops
      have hcomma : (b ++ ',' :: after).dropWhile Text.isBlank = ',' :: after :=
        hb.dropWhile (by decide) after
      have hcs : (a ++ (first :: tail ++ (b ++ ',' :: after))).dropWhile Text.isBlank =
          first :: (tail ++ (b ++ ',' :: after)) := ha.dropWhile hfirst _
      rw [readValues_value hcs hread, hcomma]
      dsimp only
      rw [if_pos rfl, ih hafter, List.reverse_cons, List.append_assoc]
      rfl

/-! ### Texts that have been written -/

theorem Spelling.content (s : Spelling) (text : List Char) :
    Content s.quote (text.flatMap s.mark) text := by
  induction text with
  | nil => exact .empty
  | cons c text ih =>
    rw [List.flatMap_cons]
    unfold mark
    split
    · rename_i hc
      -- neither quotation marks nor backslashes stand for anything else after a backslash
      have hitself : Escape [c] c := by
        rcases s.marked_only c hc with (rfl | rfl) | rfl
        all_goals exact .itself (by simp [controls]) (by decide)
      exact .escape hitself ih
    · rename_i hc
      refine .plain ?_ ?_ ih
      · rintro rfl
        exact hc s.quote_marked
      · rintro rfl
        exact hc s.slash_marked

theorem Spelling.value (s : Spelling) (text : String) : Value (s.literal text) (.text text) := by
  have hvalue := Value.text s.isQuote (s.content text.toList)
  rwa [String.ofList_toList] at hvalue

theorem derives_literals (texts : List (Spelling × String)) :
    Derives ([','].intercalate (texts.map fun p => p.1.literal p.2))
      (texts.map fun p => .text p.2) := by
  have hblank : Blank [] := fun _ hc => absurd hc List.not_mem_nil
  induction texts with
  | nil => exact .empty hblank
  | cons p texts ih =>
    have hp := p.1.value p.2
    cases texts with
    | nil =>
      have hlist := Derives.filled hblank hp .none hblank (.inl rfl)
      simpa [List.intercalate] using hlist
    | cons p' texts =>
      have hlist := Derives.cons hblank hp hblank ih
      simpa [List.intercalate] using hlist

/-- **Argument lists are read as the grammar has it.** A text is read, and as certain values, if and
only if it stands for them. So texts that are written between quotation marks, with commas between
them, are read as they were. -/
theorem read_iff_derives :
    (∀ cs values, read cs = .ok values ↔ Derives cs values) ∧
    ∀ texts : List (Spelling × String),
      read ([','].intercalate (texts.map fun p => p.1.literal p.2)) =
        .ok (texts.map fun p => .text p.2) := by
  refine ⟨fun cs values => ⟨fun h => ?_, fun h => readValues_complete h []⟩, fun texts => ?_⟩
  · obtain ⟨values', rfl, hvalues⟩ := readValues_sound h
    exact hvalues
  · exact readValues_complete (derives_literals texts) []

end Fabula.ArgumentList
