import Fabula.Proofs.ArgumentGrammar
import Fabula.Proofs.ReferenceReading

/-!
# Fabula.Proofs.UnclosedTexts

**Texts that are not closed** are found by the scan for the end of an argument list, and the reader
of the list never meets one. The scan passes over plain characters and over texts that are closed
(`Template.Closed`), and comes to a halt at a parenthesis, at the quotation mark of a text that is
not closed (`Template.Unclosed`), or at the end (`Template.exists_halt`). What it hands to the
reader is therefore closed.

The reader may take up to five characters after a backslash where the scan takes one, but the other
four are digits, which are plain inside a text. So if the list ends while the reader is inside a
text, the text is not closed for the scan either (`Template.readText_unended`).
-/

namespace Fabula.Template

open ArgumentList

/-! ### Closed and unclosed texts -/

/-- What may stand inside a text, as the scan has it: a backslash takes the next character. -/
inductive Within (quote : Char) : List Char → Prop
  /-- Nothing is written. -/
  | empty : Within quote []
  /-- A character that neither ends the text nor takes the next one. -/
  | plain {c : Char} {w : List Char} (hquote : c ≠ quote) (hslash : c ≠ '\\') (h : Within quote w) :
    Within quote (c :: w)
  /-- A backslash and any character. -/
  | escaped {c : Char} {w : List Char} (h : Within quote w) : Within quote ('\\' :: c :: w)

/-- Plain characters and texts, of which each has both its quotation marks. -/
inductive Closed : List Char → Prop
  /-- Nothing is written. -/
  | empty : Closed []
  /-- A character that the scan does not look for. -/
  | plain {c : Char} {w : List Char} (hc : c ∉ scanStops) (h : Closed w) : Closed (c :: w)
  /-- A text between two quotation marks. -/
  | text {quote : Char} {u w : List Char} (hquote : IsQuote quote) (hu : Within quote u)
    (h : Closed w) : Closed (quote :: (u ++ quote :: w))

/-- What follows a quotation mark that is the last one of its text. -/
inductive Unended (quote : Char) : List Char → Prop
  /-- Nothing follows. -/
  | empty : Unended quote []
  /-- A backslash stands at the end. -/
  | slash : Unended quote ['\\']
  /-- A character that neither ends the text nor takes the next one. -/
  | plain {c : Char} {w : List Char} (hquote : c ≠ quote) (hslash : c ≠ '\\')
    (h : Unended quote w) : Unended quote (c :: w)
  /-- A backslash and any character. -/
  | escaped {c : Char} {w : List Char} (h : Unended quote w) : Unended quote ('\\' :: c :: w)

/-- A quotation mark, and then no other one that would end the text. -/
inductive Unclosed : List Char → Prop
  /-- The quotation mark and what follows it. -/
  | intro {quote : Char} {w : List Char} (hquote : IsQuote quote) (hw : Unended quote w) :
    Unclosed (quote :: w)

/-! ### The scan passes what is closed -/

section Scan

variable {quote : Char} {w cs inner rest start : List Char}

theorem Within.passes (hquote : IsQuote quote) (h : Within quote w) :
    Passes (some (quote, start)) (some (quote, start)) w := by
  induction h with
  | empty => exact .nil
  | plain hne hplain _ ih => exact (Passes.inside hne hplain).cons ih
  | escaped _ ih => exact (Passes.escaped hquote.ne_slash _).append ih

theorem Closed.passes (h : Closed w) : Passes none none w := by
  induction h with
  | empty => exact .nil
  | plain hc _ ih => exact (Passes.outside hc).cons ih
  | @text quote u w hquote hu _ ih =>
    have htext : Passes none none (quote :: (u ++ [quote])) :=
      .quoted hquote fun start => (hu.passes hquote).append .close
    have happend := htext.append ih
    rwa [List.cons_append, List.append_assoc] at happend

theorem Unended.spanArguments_eq (hquote : IsQuote quote) (h : Unended quote w)
    (paren start : List Char) :
    spanArguments paren (some (quote, start)) w = .error ⟨.unterminatedString, start⟩ := by
  induction h with
  | empty => rfl
  | slash =>
    rw [spanArguments.eq_def]
    dsimp only
    rw [if_neg hquote.ne_slash, if_pos rfl]
  | @plain c w hne hplain _ ih =>
    have hpass : Passes (some (quote, start)) (some (quote, start)) [c] := .inside hne hplain
    have hspan := hpass paren w
    rwa [ih] at hspan
  | @escaped c w _ ih =>
    have hpass : Passes (some (quote, start)) (some (quote, start)) ['\\', c] :=
      .escaped hquote.ne_slash c
    have hspan := hpass paren w
    rwa [ih] at hspan

/-- The fault lies at the quotation mark. -/
theorem Unclosed.spanArguments_eq (h : Unclosed start) (paren : List Char) :
    spanArguments paren none start = .error ⟨.unterminatedString, start⟩ := by
  obtain @⟨quote, w, hquote, hw⟩ := h
  have hspan := hw.spanArguments_eq hquote paren (quote :: w)
  have hfirst : spanArguments paren none (quote :: w) =
      (spanArguments paren (some (quote, quote :: w)) w).map fun p => (quote :: p.1, p.2) := by
    rcases hquote with rfl | rfl <;> rfl
  rw [hfirst, hspan]
  rfl

/-! ### Where the scan comes to a halt -/

theorem within_or_unended (quote : Char) (cs : List Char) :
    (∃ w rest, cs = w ++ quote :: rest ∧ Within quote w) ∨ Unended quote cs := by
  match cs with
  | [] => exact .inr .empty
  | c :: cs =>
    by_cases hquote : c = quote
    · exact .inl ⟨[], cs, by rw [hquote]; rfl, .empty⟩
    · by_cases hslash : c = '\\'
      · subst hslash
        match cs with
        | [] => exact .inr .slash
        | d :: cs =>
          obtain ⟨w, rest, rfl, hw⟩ | hcs := within_or_unended quote cs
          · exact .inl ⟨'\\' :: d :: w, rest, rfl, .escaped hw⟩
          · exact .inr (.escaped hcs)
      · obtain ⟨w, rest, rfl, hw⟩ | hcs := within_or_unended quote cs
        · exact .inl ⟨c :: w, rest, rfl, .plain hquote hslash hw⟩
        · exact .inr (.plain hquote hslash hcs)

/-- What the scan does not pass. -/
inductive Halt : List Char → Prop
  /-- The end of the text. -/
  | last : Halt []
  /-- The parenthesis that closes the list. -/
  | close (rest : List Char) : Halt (')' :: rest)
  /-- Another parenthesis. -/
  | another (rest : List Char) : Halt ('(' :: rest)
  /-- A text that is not closed. -/
  | unclosed {start : List Char} (h : Unclosed start) : Halt start

theorem exists_halt (cs : List Char) :
    ∃ before rest, cs = before ++ rest ∧ Closed before ∧ Halt rest := by
  match cs with
  | [] => exact ⟨[], [], rfl, .empty, .last⟩
  | c :: cs =>
    by_cases hquote : IsQuote c
    · obtain ⟨u, after, rfl, hu⟩ | hcs := within_or_unended c cs
      · obtain ⟨before, rest, rfl, hbefore, hrest⟩ := exists_halt after
        exact ⟨c :: (u ++ c :: before), rest, by simp, .text hquote hu hbefore, hrest⟩
      · exact ⟨[], c :: cs, rfl, .empty, .unclosed (.intro hquote hcs)⟩
    · by_cases hclose : c = ')'
      · exact ⟨[], c :: cs, rfl, .empty, hclose ▸ .close cs⟩
      · by_cases hopen : c = '('
        · exact ⟨[], c :: cs, rfl, .empty, hopen ▸ .another cs⟩
        · obtain ⟨before, rest, rfl, hbefore, hrest⟩ := exists_halt cs
          refine ⟨c :: before, rest, rfl, .plain ?_ hbefore, hrest⟩
          simpa [scanStops, hclose, hopen, IsQuote] using hquote
termination_by cs.length
decreasing_by
  all_goals subst_vars; simp only [List.length_cons, List.length_append]; omega

/-- What is handed to the reader is closed. -/
theorem spanArguments_closed {paren : List Char}
    (h : spanArguments paren none cs = .ok (inner, rest)) : Closed inner := by
  obtain ⟨before, rest', rfl, hbefore, hrest⟩ := exists_halt cs
  rw [hbefore.passes] at h
  obtain ⟨p, hspan, hp⟩ := map_inv h
  cases hp
  cases hrest with
  | last | another => cases hspan
  | close =>
    cases hspan
    rwa [List.append_nil]
  | unclosed hstart =>
    rw [hstart.spanArguments_eq] at hspan
    cases hspan

end Scan

/-! ### Parts of closed texts -/

theorem closed_iff (w : List Char) :
    Closed w ↔ spanArguments [] none (w ++ [')']) = .ok (w, [')']) := by
  refine ⟨fun h => ?_, spanArguments_closed⟩
  rw [h.passes]
  show Except.ok (w ++ [], [')']) = _
  rw [List.append_nil]

theorem Closed.of_append {a b : List Char} (h : Closed (a ++ b)) (ha : Passes none none a) :
    Closed b := by
  rw [closed_iff, List.append_assoc, ha] at h
  obtain ⟨⟨inner, rest⟩, hspan, hp⟩ := map_inv h
  obtain ⟨hinner, rfl⟩ := Prod.mk.inj hp
  obtain rfl : inner = b := List.append_cancel_left hinner
  rwa [closed_iff]

/-- The scan tells the two apart. -/
theorem Closed.not_unclosed {w : List Char} (h : Closed w) : ¬ Unclosed w := by
  intro hstart
  have hend := h.passes [] []
  rw [List.append_nil, hstart.spanArguments_eq] at hend
  cases hend

/-! ### The reader inside a text -/

/-- The list has ended while the reader was inside a text. -/
def EndsInside : Cause → Prop
  | .unterminatedText | .unterminatedEscape => True
  | _ => False

section Reader

variable {quote first : Char} {cs : List Char} {e : ArgumentList.Fault}

theorem readCodePoint_fault {n count : Nat} (h : readCodePoint n count cs = .error e) :
    e.cause = .invalidCodePoint := by
  induction count generalizing n cs with
  | zero =>
    unfold readCodePoint at h
    split at h <;> cases h
    rfl
  | succ count ih =>
    cases cs with
    | nil =>
      cases h
      rfl
    | cons c cs =>
      unfold readCodePoint at h
      split at h
      · exact ih h
      · cases h
        rfl

theorem readEscape_fault (h : readEscape cs = .error e) (he : EndsInside e.cause) : cs = [] := by
  cases cs with
  | nil => rfl
  | cons c cs =>
    rw [readEscape] at h
    split at h
    · rw [readCodePoint_fault h] at he
      exact he.elim
    · cases h

theorem Unended.append {digits rest : List Char} (hquote : IsQuote quote)
    (hdigits : ∀ c ∈ digits, (Numeral.hexDigit? c).isSome = true) (h : Unended quote rest) :
    Unended quote (digits ++ rest) := by
  induction digits with
  | nil => exact h
  | cons c digits ih =>
    have hc := ne_of_hexDigit hquote (hdigits c List.mem_cons_self)
    exact .plain hc.1 hc.2 (ih fun d hd => hdigits d (List.mem_cons_of_mem c hd))

theorem readText_unended {text : List Char} (hquote : IsQuote quote)
    (h : readText quote text cs = .error e) (he : EndsInside e.cause) : Unended quote cs := by
  fun_induction readText quote text cs with
  | case1 => exact .empty
  | case2 => cases h
  | case3 _ cs e' hescape =>
    cases h
    rw [readEscape_fault hescape he]
    exact .slash
  | case4 _ cs _ rest hescape _ _ ih =>
    obtain ⟨c, digits, rfl, hdigits⟩ := readEscape_split hescape
    exact .escaped (.append hquote hdigits (ih h))
  | case5 _ c cs hne hplain ih => exact .plain hne hplain (ih h)

theorem readValue_unclosed (h : readValue first cs = .error e) (he : EndsInside e.cause) :
    Unclosed (first :: cs) := by
  unfold readValue at h
  split at h
  · rename_i hquote
    have hquote : IsQuote first := by simpa [IsQuote] using hquote
    cases htext : readText first [] cs with
    | error e' =>
      rw [htext] at h
      cases h
      exact .intro hquote (readText_unended hquote htext he)
    | ok p =>
      rw [htext] at h
      cases h
  · -- all other values fail for other reasons
    split at h
    · unfold readNumber at h
      dsimp only at h
      split at h <;> cases h
      exact he.elim
    · split at h <;> cases h <;> exact he.elim

theorem readValues_unclosed {values : List Argument} (h : readValues values cs = .error e)
    (he : EndsInside e.cause) :
    ∃ before start, cs = before ++ start ∧ Passes none none before ∧ Unclosed start := by
  fun_induction readValues values cs with
  | case1 => cases h
  | case2 values cs first tail hfirst e' hvalue =>
    cases h
    obtain ⟨blank, rfl, hblank⟩ := Passes.dropBlank (w := []) hfirst .nil
    exact ⟨blank, first :: tail, rfl, hblank, readValue_unclosed hvalue he⟩
  | case3 => cases h
  | case4 values cs first tail hfirst value rest hvalue after hafter _ ih =>
    obtain ⟨before, start, rfl, hbefore, hstart⟩ := ih h
    obtain ⟨w, hsplit, hw⟩ := readValue_passes hvalue
    obtain ⟨comma, rfl, hcomma⟩ := Passes.dropBlank (w := [',']) hafter (.outside (by decide))
    obtain ⟨w', rfl, hw'⟩ := Passes.dropBlank (hfirst.trans hsplit) hw
    exact ⟨w' ++ (comma ++ before), start, by simp, hw'.append (hcomma.append hbefore), hstart⟩
  | case5 =>
    cases h
    exact he.elim

/-- In a closed text the reader never comes to the end inside a text. -/
theorem Closed.read_fault (h : Closed cs) (hread : ArgumentList.read cs = .error e) :
    ¬ EndsInside e.cause := by
  intro he
  obtain ⟨before, start, rfl, hbefore, hstart⟩ := readValues_unclosed hread he
  exact (h.of_append hbefore).not_unclosed hstart

end Reader

/-! ### Faults of argument lists -/

section Arguments

variable {paren cs start : List Char}

/-- The scan reports what is not closed before the reader sees anything. -/
theorem readArguments_of_unclosed {before : List Char} (hbefore : Closed before)
    (hstart : Unclosed start) (paren : List Char) :
    readArguments paren (before ++ start) = .error ⟨.unterminatedString, start⟩ := by
  unfold readArguments
  rw [hbefore.passes, hstart.spanArguments_eq]
  rfl

theorem readArguments_fault {e : Fault} (h : readArguments paren cs = .error e) :
    spanArguments paren none cs = .error e ∨
      ∃ cause, e.kind = .invalidArguments cause ∧ ¬ EndsInside cause := by
  unfold readArguments at h
  cases hspan : spanArguments paren none cs with
  | error e' =>
    rw [hspan] at h
    cases h
    exact .inl rfl
  | ok p =>
    rw [hspan] at h
    dsimp only at h
    cases hread : ArgumentList.read p.1 with
    | ok args =>
      rw [hread] at h
      cases h
    | error e' =>
      rw [hread] at h
      cases h
      exact .inr ⟨e'.cause, rfl, (spanArguments_closed hspan).read_fault hread⟩

theorem spanArguments_fault {e : Fault} (h : spanArguments paren none cs = .error e) :
    e = ⟨.unterminatedArguments, paren⟩ ∨
      ∃ before rest, cs = before ++ rest ∧ Closed before ∧
        (e = ⟨.unexpectedOpenParen, rest⟩ ∧ rest.head? = some '(' ∨
          e = ⟨.unterminatedString, rest⟩ ∧ Unclosed rest) := by
  obtain ⟨before, rest, rfl, hbefore, hrest⟩ := exists_halt cs
  rw [hbefore.passes] at h
  cases hrest with
  | last =>
    cases h
    exact .inl rfl
  | close => cases h
  | another rest =>
    cases h
    exact .inr ⟨before, _, rfl, hbefore, .inl ⟨rfl, rfl⟩⟩
  | unclosed hstart =>
    rw [hstart.spanArguments_eq] at h
    cases h
    exact .inr ⟨before, rest, rfl, hbefore, .inr ⟨rfl, hstart⟩⟩

/-- A text is reported as not closed exactly if it is not. -/
theorem readArguments_unclosed_iff (paren cs start : List Char) :
    readArguments paren cs = .error ⟨.unterminatedString, start⟩ ↔
      ∃ before, cs = before ++ start ∧ Closed before ∧ Unclosed start := by
  constructor
  · intro h
    obtain hspan | ⟨cause, hkind, -⟩ := readArguments_fault h
    · obtain he | ⟨before, rest, rfl, hbefore, ⟨he, -⟩ | ⟨he, hrest⟩⟩ := spanArguments_fault hspan
      · cases he
      · cases he
      · cases he
        exact ⟨before, rfl, hbefore, hrest⟩
    · cases hkind
  · rintro ⟨before, rfl, hbefore, hstart⟩
    exact readArguments_of_unclosed hbefore hstart paren

-- the backslash takes the second quotation mark
example : readArguments [] "1, 'c\\')".toList =
    .error ⟨.unterminatedString, "'c\\')".toList⟩ := by cbv

end Arguments

end Fabula.Template
