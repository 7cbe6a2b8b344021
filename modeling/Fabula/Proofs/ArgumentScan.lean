import Mathlib
import Fabula.Template.Parser

/-!
# Fabula.Proofs.ArgumentScan

**Two scanners agree.** The end of an argument list is found by a scan for its parenthesis
(`Template.spanArguments`), and only then is the list read (`ArgumentList.read`). The scan knows no
values, only quotation marks and backslashes. Still, what can be read as an argument list is passed as
a whole: the scan is inside a text exactly where the reader is, so the parenthesis after the list is
the one that it finds (`Template.spanArguments_of_read`).
-/

namespace Fabula.Template

/-- The scan takes all of `w` and then is where `within'` says, if it was where `within` says. -/
def Passes (within within' : Option (Char × List Char)) (w : List Char) : Prop :=
  ∀ paren rest, spanArguments paren within (w ++ rest) =
    (spanArguments paren within' rest).map fun p => (w ++ p.1, p.2)

/-- The characters that the scan looks for outside of texts. -/
def scanStops : List Char := [')', '(', '\'', '"']

namespace Passes

variable {within within' within'' : Option (Char × List Char)} {w w' start : List Char}
variable {c quote : Char}

/-! ### Single characters -/

theorem nil : Passes within within [] := by
  intro paren rest
  show spanArguments paren within rest = _
  cases spanArguments paren within rest <;> rfl

theorem append (h : Passes within within' w) (h' : Passes within' within'' w') :
    Passes within within'' (w ++ w') := by
  intro paren rest
  rw [List.append_assoc, h, h']
  cases spanArguments paren within'' rest with
  | error e => rfl
  | ok p =>
    show Except.ok (w ++ (w' ++ p.1), p.2) = Except.ok ((w ++ w') ++ p.1, p.2)
    rw [List.append_assoc]

theorem cons (h : Passes within within' [c]) (h' : Passes within' within'' w) :
    Passes within within'' (c :: w) := h.append h'

theorem all (h : ∀ c ∈ w, Passes within within [c]) : Passes within within w := by
  induction w with
  | nil => exact nil
  | cons c w ih =>
    exact (h c List.mem_cons_self).cons (ih fun d hd => h d (List.mem_cons_of_mem c hd))

/-- Outside of texts, all but quotation marks and parentheses is passed. -/
theorem outside (h : c ∉ scanStops) : Passes none none [c] := by
  intro paren rest
  simp only [scanStops, List.mem_cons, List.not_mem_nil, or_false, not_or] at h
  obtain ⟨hclose, hopen, hsingle, hdouble⟩ := h
  show spanArguments paren none (c :: rest) = _
  rw [spanArguments]
  simp only [hclose, hopen, hsingle, hdouble, if_false, decide_false, Bool.or_false]
  rfl

/-- Inside a text, all but its quotation mark and backslashes is passed. -/
theorem inside (hquote : c ≠ quote) (hslash : c ≠ '\\') :
    Passes (some (quote, start)) (some (quote, start)) [c] := by
  intro paren rest
  show spanArguments paren (some (quote, start)) (c :: rest) = _
  rw [spanArguments.eq_def]
  dsimp only
  rw [if_neg hquote, if_neg hslash]
  rfl

/-- A backslash passes with the next character. -/
theorem escaped (hslash : '\\' ≠ quote) (c : Char) :
    Passes (some (quote, start)) (some (quote, start)) ['\\', c] := by
  intro paren rest
  show spanArguments paren (some (quote, start)) ('\\' :: c :: rest) = _
  rw [spanArguments]
  simp only [hslash, if_false]
  rfl

theorem close : Passes (some (quote, start)) none [quote] := by
  intro paren rest
  show spanArguments paren (some (quote, start)) (quote :: rest) = _
  rw [spanArguments.eq_def]
  dsimp only
  rw [if_pos rfl]
  rfl

theorem quoted (hquote : quote = '\'' ∨ quote = '"')
    (h : ∀ start, Passes (some (quote, start)) none w) : Passes none none (quote :: w) := by
  intro paren rest
  show spanArguments paren none (quote :: (w ++ rest)) = _
  have hspan : spanArguments paren none (quote :: (w ++ rest)) =
      (spanArguments paren (some (quote, quote :: (w ++ rest))) (w ++ rest)).map
        fun p => (quote :: p.1, p.2) := by
    rcases hquote with rfl | rfl <;> rfl
  rw [hspan, h]
  cases spanArguments paren none rest <;> rfl

end Passes

/-! ### What the reader takes -/

open ArgumentList

theorem readCodePoint_split {n count : Nat} {cs rest : List Char} {c : Char}
    (h : readCodePoint n count cs = .ok (c, rest)) :
    ∃ w, cs = w ++ rest ∧ ∀ d ∈ w, (Numeral.hexDigit? d).isSome = true := by
  induction count generalizing n cs with
  | zero =>
    unfold readCodePoint at h
    split at h
    · cases h
      exact ⟨[], rfl, fun d hd => absurd hd List.not_mem_nil⟩
    · cases h
  | succ count ih =>
    cases cs with
    | nil => cases h
    | cons d cs =>
      unfold readCodePoint at h
      split at h
      · rename_i value hd
        obtain ⟨w, rfl, hw⟩ := ih h
        refine ⟨d :: w, rfl, fun e he => ?_⟩
        rcases List.mem_cons.mp he with rfl | he
        · rw [hd]
          rfl
        · exact hw e he
      · cases h

/-- An escape is a character followed by hexadecimal digits, if by anything. -/
theorem readEscape_split {cs rest : List Char} {c : Char} (h : readEscape cs = .ok (c, rest)) :
    ∃ d w, cs = d :: w ++ rest ∧ ∀ e ∈ w, (Numeral.hexDigit? e).isSome = true := by
  cases cs with
  | nil => cases h
  | cons d cs =>
    rw [readEscape] at h
    split at h
    · obtain ⟨w, rfl, hw⟩ := readCodePoint_split h
      exact ⟨d, w, rfl, hw⟩
    · cases h
      exact ⟨d, [], rfl, fun e he => absurd he List.not_mem_nil⟩

/-- Hexadecimal digits stand for themselves in a text. -/
theorem ne_of_hexDigit {c quote : Char} (hquote : quote = '\'' ∨ quote = '"')
    (hc : (Numeral.hexDigit? c).isSome = true) : c ≠ quote ∧ c ≠ '\\' := by
  constructor
  · rintro rfl
    rcases hquote with rfl | rfl <;> exact absurd hc (by decide)
  · rintro rfl
    exact absurd hc (by decide)

theorem readText_passes {quote : Char} {text cs out rest : List Char}
    (hquote : quote = '\'' ∨ quote = '"') (h : readText quote text cs = .ok (out, rest)) :
    ∃ w, cs = w ++ rest ∧ ∀ start, Passes (some (quote, start)) none w := by
  have hslash : '\\' ≠ quote := by rcases hquote with rfl | rfl <;> decide
  fun_induction readText quote text cs with
  | case1 => cases h
  | case2 text cs =>
    -- the closing quotation mark
    cases h
    exact ⟨[quote], rfl, fun _ => .close⟩
  | case3 => cases h
  | case4 text cs d rest' hescape _ _ ih =>
    obtain ⟨w, rfl, hw⟩ := ih h
    obtain ⟨e, w', rfl, hw'⟩ := readEscape_split hescape
    -- the scan skips only one character behind a backslash, but the others are digits
    have hdigits : ∀ start, Passes (some (quote, start)) (some (quote, start)) w' := by
      intro start
      refine .all fun d hd => ?_
      obtain ⟨hne, hplain⟩ := ne_of_hexDigit hquote (hw' d hd)
      exact .inside hne hplain
    refine ⟨'\\' :: e :: (w' ++ w), by simp, fun start => ?_⟩
    exact (Passes.escaped hslash e).append ((hdigits start).append (hw start))
  | case5 text c cs hne hplain ih =>
    obtain ⟨w, rfl, hw⟩ := ih h
    exact ⟨c :: w, rfl, fun start => (Passes.inside hne hplain).cons (hw start)⟩

/-- Characters of a kind that the scan does not look for are passed. -/
theorem Passes.ofKind {p : Char → Bool} {c : Char} (h : p c = true)
    (hp : ∀ d ∈ scanStops, p d = false) : Passes none none [c] := by
  refine .outside fun hc => ?_
  rw [hp c hc] at h
  cases h

theorem forall_scanStops {p : Char → Bool} (hclose : p ')' = false) (hopen : p '(' = false)
    (hsingle : p '\'' = false) (hdouble : p '"' = false) : ∀ c ∈ scanStops, p c = false := by
  intro c hc
  simp only [scanStops, List.mem_cons, List.not_mem_nil, or_false] at hc
  rcases hc with rfl | rfl | rfl | rfl
  · exact hclose
  · exact hopen
  · exact hsingle
  · exact hdouble

theorem spanNumber_passes (previous : Char) (cs : List Char) :
    cs = (spanNumber previous cs).1 ++ (spanNumber previous cs).2 ∧
      Passes none none (spanNumber previous cs).1 := by
  induction cs generalizing previous with
  | nil => exact ⟨rfl, .nil⟩
  | cons c cs ih =>
    unfold spanNumber
    split
    · rename_i hc
      obtain ⟨hsplit, hpass⟩ := ih c
      have hc : Passes none none [c] := .ofKind hc (forall_scanStops rfl rfl rfl rfl)
      exact ⟨congrArg (c :: ·) hsplit, hc.cons hpass⟩
    · exact ⟨rfl, .nil⟩

theorem readValue_passes {first : Char} {cs rest : List Char} {a : Argument}
    (h : readValue first cs = .ok (a, rest)) :
    ∃ w, first :: cs = w ++ rest ∧ Passes none none w := by
  unfold readValue at h
  split at h
  · rename_i hquote
    cases htext : readText first [] cs with
    | error e =>
      rw [htext] at h
      cases h
    | ok p =>
      rw [htext] at h
      cases h
      rw [Bool.or_eq_true, decide_eq_true_iff, decide_eq_true_iff] at hquote
      obtain ⟨w, rfl, hw⟩ := readText_passes hquote htext
      exact ⟨first :: w, rfl, .quoted hquote hw⟩
  · split at h
    · rename_i hfirst
      obtain ⟨hsplit, hpass⟩ := spanNumber_passes first cs
      unfold readNumber at h
      dsimp only at h
      split at h
      · cases h
        refine ⟨first :: (spanNumber first cs).1, congrArg (first :: ·) hsplit, ?_⟩
        have hfirst : Passes none none [first] :=
          .ofKind (p := fun c => c = '-' || c = '+' || c = '.' || c.isDigit) hfirst
            (forall_scanStops rfl rfl rfl rfl)
        exact hfirst.cons hpass
      · cases h
    · split at h <;> cases h

/-- White space is passed. -/
theorem Passes.dropBlank {cs rest w : List Char} (hcs : cs.dropWhile Text.isBlank = w ++ rest)
    (h : Passes none none w) : ∃ w', cs = w' ++ rest ∧ Passes none none w' := by
  refine ⟨cs.takeWhile Text.isBlank ++ w, ?_, Passes.append ?_ h⟩
  · rw [List.append_assoc, ← hcs, List.takeWhile_append_dropWhile]
  · exact .all fun c hc => .ofKind (List.mem_takeWhile_imp hc)
      (forall_scanStops (by decide) (by decide) (by decide) (by decide))

theorem readValues_passes {values out : List Argument} {cs : List Char}
    (h : readValues values cs = .ok out) : Passes none none cs := by
  fun_induction readValues values cs with
  | case1 values cs hend =>
    obtain ⟨w, rfl, hw⟩ := Passes.dropBlank (hend : cs.dropWhile Text.isBlank = [] ++ []) .nil
    rwa [List.append_nil]
  | case2 => cases h
  | case3 values cs first tail hfirst value rest hvalue hend =>
    obtain ⟨w, hsplit, hw⟩ := readValue_passes hvalue
    obtain ⟨blank, rfl, hblank⟩ :=
      Passes.dropBlank (hend : rest.dropWhile Text.isBlank = [] ++ []) .nil
    obtain ⟨w', rfl, hw'⟩ := Passes.dropBlank (hfirst.trans hsplit) hw
    rw [List.append_nil]
    exact hw'.append hblank
  | case4 values cs first tail hfirst value rest hvalue after hafter _ ih =>
    obtain ⟨w, hsplit, hw⟩ := readValue_passes hvalue
    obtain ⟨comma, rfl, hcomma⟩ :=
      Passes.dropBlank (hafter : rest.dropWhile Text.isBlank = [','] ++ after)
        (.outside (by decide))
    obtain ⟨w', rfl, hw'⟩ := Passes.dropBlank (hfirst.trans hsplit) hw
    exact hw'.append (hcomma.append (ih h))
  | case5 => cases h

/-- An argument list that can be read ends at its parenthesis. -/
theorem spanArguments_of_read {a : List Char} {args : List Argument}
    (h : ArgumentList.read a = .ok args) (paren rest : List Char) :
    spanArguments paren none (a ++ ')' :: rest) = .ok (a, ')' :: rest) := by
  rw [readValues_passes h paren (')' :: rest)]
  show Except.ok (a ++ [], ')' :: rest) = _
  rw [List.append_nil]

end Fabula.Template
