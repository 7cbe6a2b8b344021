import Mathlib.Data.List.Forall2
import Mathlib.Data.Nat.Digits.Defs
import Fabula.Ron.Reader
import Fabula.Ron.Writer

/-!
# Fabula.Proofs.RonReading

**Values that are written are read back.** The reader takes a value from the start of a text and returns
what is left, so the statement about it is that the characters of a value stand for it in front of
anything that may follow (`ReadsBack`): a comma, a colon, a closing bracket or nothing. Words, names and
numbers end there because none of these marks can be part of one.

* The leaves are read back whatever layout they stand in: texts with all their escapes
  (`readForm_text`), counts (`readForm_count`) and truth values.
* Items between brackets are read one after the other (`readItems_lines`), whatever reads a single one, so
  lists, maps and records take one argument.
* Entries and fields are read from their parts, in any layout, and just as far as these can be read
  (`ReadsIf`): a limit on the depth may forbid it.
* Values are put together from these, and the induction is on what they are made of
  (`Storable.readsBack`). It counts the steps that are left for the reading, two for each bracket.
-/

namespace Fabula.Ron

/-! ### Gaps -/

/-- A character that starts something: it is neither white space nor the start of a comment. -/
def Solid (c : Char) : Prop := isSpace c = false ∧ c ≠ '/'

instance (c : Char) : Decidable (Solid c) := inferInstanceAs (Decidable (_ ∧ _))

theorem skip_solid {c : Char} (h : Solid c) (cs : List Char) : skip (c :: cs) = some (c :: cs) := by
  have hc := h.2
  rw [skip, skipGap.eq_4 c cs (by grind) (by grind) (by grind), h.1]
  rfl

theorem skip_space {c : Char} (h : isSpace c = true) (cs : List Char) : skip (c :: cs) = skip cs := by
  have hc : c ≠ '/' := by rintro rfl; revert h; decide
  rw [skip, skipGap.eq_4 c cs (by grind) (by grind) (by grind), h]
  rfl

theorem skip_gap {gap : List Char} (h : ∀ c ∈ gap, isSpace c = true) (cs : List Char) :
    skip (gap ++ cs) = skip cs := by
  induction gap with
  | nil => rfl
  | cons c gap ih =>
    have ⟨hc, hgap⟩ := List.forall_mem_cons.mp h
    rw [List.cons_append, skip_space hc, ih hgap]

/-! ### Texts -/

theorem hexDigit?_digitChar : ∀ d < 16, Numeral.hexDigit? (Nat.digitChar d) = some d := by
  decide

theorem hexValue?_append (acc : Nat) (cs ds : List Char) :
    Numeral.hexValue? acc (cs ++ ds) = (Numeral.hexValue? acc cs).bind (Numeral.hexValue? · ds) := by
  induction cs generalizing acc with
  | nil => rfl
  | cons c cs ih =>
    simp only [List.cons_append, Numeral.hexValue?]
    cases Numeral.hexDigit? c with
    | none => rfl
    | some d => exact ih _

theorem hexValue?_toDigits (n : Nat) : Numeral.hexValue? 0 (Nat.toDigits 16 n) = some n := by
  induction n using Nat.strong_induction_on with
  | _ n ih =>
    rw [Nat.toDigits_eq_if (by decide)]
    split
    · rename_i h
      simp [Numeral.hexValue?, hexDigit?_digitChar n h]
    · rename_i h
      have hdigit := hexDigit?_digitChar (n % 16) (Nat.mod_lt n (by decide))
      rw [hexValue?_append, ih (n / 16) (by omega)]
      simp only [Numeral.hexValue?, hdigit, Option.bind_some, Option.some.injEq]
      omega

theorem character?_toNat (c : Char) : Numeral.character? c.toNat = some c := by
  unfold Numeral.character?
  rw [if_pos (show c.toNat.isValidChar from c.valid), Char.ofNat_toNat]

theorem ne_brace_of_mem {n : Nat} {c : Char} (h : c ∈ Nat.toDigits 16 n) : c ≠ '}' := by
  induction n using Nat.strong_induction_on with
  | _ n ih =>
    rw [Nat.toDigits_eq_if (by decide)] at h
    have hdigit : ∀ d < 16, Nat.digitChar d ≠ '}' := by decide
    split at h
    · rename_i hless
      rw [List.mem_singleton.mp h]
      exact hdigit n hless
    · rename_i hless
      rcases List.mem_append.mp h with h | h
      · exact ih (n / 16) (by omega) h
      · rw [List.mem_singleton.mp h]
        exact hdigit _ (Nat.mod_lt n (by decide))

/-- The number of a character in braces is read back. -/
theorem readLongNumber_toDigits (c : Char) (rest : List Char) :
    readLongNumber ('{' :: (Nat.toDigits 16 c.toNat ++ '}' :: rest)) = some (c, rest) := by
  have hdigits : ∀ d ∈ Nat.toDigits 16 c.toNat, decide (d ≠ '}') = true := fun d hd =>
    decide_eq_true (ne_brace_of_mem hd)
  have hlength : (Nat.toDigits 16 c.toNat).length ≤ 6 := by
    refine Nat.toDigits_length _ _ _ (by decide) ?_
    have hvalid : c.toNat.isValidChar := c.valid
    unfold Nat.isValidChar at hvalid
    omega
  have hempty : (Nat.toDigits 16 c.toNat).isEmpty = false := by
    simp [Nat.toDigits_ne_nil]
  simp only [readLongNumber]
  rw [List.takeWhile_append_of_pos hdigits, List.dropWhile_append_of_pos hdigits]
  simp [hempty, hexValue?_toDigits, character?_toNat, Nat.not_lt.mpr hlength]

section Quoted

variable {text tail rest : List Char} {c d : Char}

theorem readQuoted_close : readQuoted text ('"' :: tail) = some (String.ofList text.reverse, tail) := by
  rw [readQuoted, if_pos rfl]

theorem readQuoted_plain (hquote : c ≠ '"') (hslash : c ≠ '\\') :
    readQuoted text (c :: tail) = readQuoted (c :: text) tail := by
  rw [readQuoted, if_neg hquote, if_neg hslash]

theorem readEscape_simple (h : simpleEscape? c = some d) : readEscape (c :: tail) = some (d, tail) := by
  simp only [readEscape, h]

theorem readQuoted_escape (h : readEscape tail = some (d, rest)) :
    readQuoted text ('\\' :: tail) = readQuoted (d :: text) rest := by
  rw [readQuoted, if_neg (by decide), if_pos rfl]
  split
  · rename_i heq
    cases h.symm.trans heq
    rfl
  · rename_i heq
    cases h.symm.trans heq

/-- A character is read back from how it is written between quotation marks. -/
theorem readQuoted_escapeChar (c : Char) :
    readQuoted text (Text.escapeChar true c ++ tail) = readQuoted (c :: text) tail := by
  unfold Text.escapeChar
  split_ifs with hnull htab hreturn hfeed hmark hhidden
  · exact hnull ▸ readQuoted_escape rfl
  · exact htab ▸ readQuoted_escape rfl
  · exact hreturn ▸ readQuoted_escape rfl
  · exact hfeed ▸ readQuoted_escape rfl
  · refine readQuoted_escape (readEscape_simple ?_)
    rw [simpleEscape?, if_pos]
    grind
  · refine readQuoted_escape ?_
    simp [readEscape, simpleEscape?, readLongNumber_toDigits]
  · refine readQuoted_plain ?_ ?_ <;> grind

/-- A text is read back from its literal. -/
theorem readQuoted_flatMap (cs : List Char) :
    readQuoted text (cs.flatMap (Text.escapeChar true) ++ '"' :: rest) =
      some (String.ofList (text.reverse ++ cs), rest) := by
  induction cs generalizing text with
  | nil => simp [readQuoted_close]
  | cons c cs ih =>
    rw [List.flatMap_cons, List.append_assoc, readQuoted_escapeChar, ih]
    simp

end Quoted

/-! ### What may follow a value -/

/-- The marks that end a value: what stands between and behind items. -/
def enders : List Char := [',', ':', ')', ']', '}']

/-- The characters that are left start with such a mark, if there are any. -/
def Ends (rest : List Char) : Prop := ∀ c ∈ rest.head?, c ∈ enders

/-- No name and no number goes on with such a mark. -/
theorem enders_stop : ∀ c ∈ enders, isNameChar c = false ∧ isMarkedNameChar c = false ∧
    isDecimalChar c = false ∧ isCountChar c = false := by
  simp [enders, isNameChar, isMarkedNameChar, isDecimalChar, isCountChar, Numeral.hexDigit?]

theorem Ends.nil : Ends [] := nofun

theorem Ends.cons {c : Char} (h : c ∈ enders) (rest : List Char) : Ends (c :: rest) := by
  intro d hd
  cases hd
  exact h

theorem Ends.takeWhile_append {rest cs : List Char} (h : Ends rest) {p : Char → Bool}
    (hcs : ∀ c ∈ cs, p c = true) (hp : ∀ c ∈ enders, p c = false) : (cs ++ rest).takeWhile p = cs := by
  rw [List.takeWhile_append_of_pos hcs]
  cases rest with
  | nil => simp
  | cons c rest => simp [hp c (h c rfl)]

theorem Ends.head_false {rest : List Char} (h : Ends rest) {p : Char → Bool}
    (hp : ∀ c ∈ enders, p c = false) : (rest.head?.map p).getD false = false := by
  cases rest with
  | nil => rfl
  | cons c rest => exact hp c (h c rfl)

/-! ### Words -/

theorem afterWord?_append (word : String) {rest : List Char} (h : Ends rest) :
    afterWord? word (word.toList ++ rest) = some rest := by
  have hhead := h.head_false fun c hc => (enders_stop c hc).1
  have hstarts : word.toList.isPrefixOf (word.toList ++ rest) = true :=
    List.isPrefixOf_iff_prefix.mpr (List.prefix_append _ _)
  rw [afterWord?, show word.length = word.toList.length from String.length_toList.symm, List.drop_left]
  simp [hstarts, hhead]

/-- The first characters of the words that stand for values. -/
def wordStarts : List Char := ['t', 'f', 'N', 'i', '+', '-', 'S']

theorem fixedWords_starts : ∀ entry ∈ fixedWords, ∃ c ∈ wordStarts, entry.1.toList.head? = some c := by
  simp [fixedWords, namedFloats, wordStarts]

theorem afterWord?_of_ne {word : String} {c d : Char} (hword : word.toList.head? = some d)
    (h : d ≠ c) (cs : List Char) : afterWord? word (c :: cs) = none := by
  obtain ⟨ds, hcons⟩ := List.head?_eq_some_iff.mp hword
  simp [afterWord?, hcons, List.isPrefixOf, h]

/-- A text that starts with none of these characters starts with no such word. -/
theorem wordless {c : Char} (h : c ∉ wordStarts) (cs : List Char) :
    readFixedWord (c :: cs) = none ∧ afterWord? "Some" (c :: cs) = none := by
  have hne {d : Char} (hd : d ∈ wordStarts) : d ≠ c := by
    rintro rfl
    exact h hd
  constructor
  · unfold readFixedWord
    rw [List.findSome?_eq_none_iff]
    intro entry hentry
    obtain ⟨d, hd, hhead⟩ := fixedWords_starts entry hentry
    rw [Option.map_eq_none_iff]
    exact afterWord?_of_ne hhead (hne hd) cs
  · exact afterWord?_of_ne (d := 'S') rfl (hne (by decide)) cs

theorem wordless_digit {d : Char} (hd : d.isDigit = true) (cs : List Char) :
    readFixedWord (d :: cs) = none ∧ afterWord? "Some" (d :: cs) = none := by
  refine wordless (fun hmem => ?_) cs
  simp only [wordStarts, List.mem_cons, List.not_mem_nil, or_false] at hmem
  rcases hmem with rfl | rfl | rfl | rfl | rfl | rfl | rfl <;> cases hd

theorem readFixedWord_flag (b : Bool) {rest : List Char} (h : Ends rest) :
    readFixedWord ((if b then "true" else "false").toList ++ rest) = some (.flag b, rest) := by
  cases b with
  | true =>
    have htrue := afterWord?_append "true" h
    rw [if_pos rfl]
    simp only [readFixedWord, fixedWords, List.cons_append, List.findSome?_cons, htrue, Option.map_some]
  | false =>
    have htrue : afterWord? "true" ("false".toList ++ rest) = none :=
      afterWord?_of_ne (d := 't') rfl (by decide) _
    have hfalse := afterWord?_append "false" h
    rw [if_neg Bool.false_ne_true]
    simp only [readFixedWord, fixedWords, List.cons_append, List.findSome?_cons, htrue, hfalse,
      Option.map_none, Option.map_some]

/-! ### Names -/

/-- A name that needs no mark. -/
def IsName (name : String) : Prop :=
  name.toList.all isNameChar = true ∧ name.toList.head?.any (fun c => c.isAlpha || c = '_') = true

instance (name : String) : Decidable (IsName name) := inferInstanceAs (Decidable (_ ∧ _))

theorem readName_append {name : String} (h : IsName name) {rest : List Char} (hrest : Ends rest) :
    readName (name.toList ++ rest) = some (name, rest) := by
  obtain ⟨hall, hhead⟩ := h
  have hname := hrest.takeWhile_append (List.all_eq_true.mp hall) fun c hc => (enders_stop c hc).1
  have hmarked := hrest.head_false fun c hc => (enders_stop c hc).2.1
  cases hcs : name.toList with
  | nil =>
    rw [hcs] at hhead
    cases hhead
  | cons c cs =>
    rw [hcs] at hall hhead hname
    have hplain : ∀ tail, c = 'r' → cs ++ rest ≠ '#' :: tail := by
      intro tail _ htail
      cases cs with
      | nil => exact absurd (hrest '#' (by simp [show rest = _ from htail])) (by decide)
      | cons d cs =>
        cases htail
        exact absurd hall (by simp [show isNameChar '#' = false by decide +kernel])
    have hstart : (c.isAlpha || decide (c = '_')) = true := hhead
    have hlength : (c :: cs ++ rest).drop (c :: cs).length = rest := List.drop_left
    rw [List.cons_append] at hname hlength ⊢
    rw [readName.eq_2 _ _ hplain, if_pos hstart]
    simp only [hname, hlength, hmarked]
    simp [← hcs]

/-! ### Counts -/

section Counts

variable {cs : List Char} (h : ∀ c ∈ cs, c.isDigit = true)
include h

theorem digitsInBase?_digits (acc : Nat) :
    digitsInBase? 10 acc cs = some (Numeral.digitsValue acc cs) := by
  induction cs generalizing acc with
  | nil => rfl
  | cons c cs ih =>
    have ⟨hc, hcs⟩ := List.forall_mem_cons.mp h
    have hmark : c ≠ '_' := by rintro rfl; exact absurd hc (by decide)
    have hvalue : c.toNat - '0'.toNat < 10 := by
      have hcode : c.val.toNat = c.toNat := rfl
      have hzero : '0'.toNat = 48 := rfl
      simp [Char.isDigit, UInt32.le_iff_toNat_le] at hc
      omega
    rw [digitsInBase?, if_neg hmark, Numeral.hexDigit?, if_pos hc, Option.bind_some, if_pos hvalue,
      ih hcs]
    rfl

theorem wholeNumber?_digits (hne : cs ≠ []) : wholeNumber? cs = some (Numeral.digitsValue 0 cs) := by
  have hletter {b : Char} (hb : b.isDigit = false) (d : Char) (rest : List Char) :
      cs ≠ d :: b :: rest := by
    rintro rfl
    rw [h b (by simp)] at hb
    cases hb
  have hmark (rest : List Char) : cs ≠ '_' :: rest := by
    rintro rfl
    exact absurd (h '_' (by simp)) (by decide)
  unfold wholeNumber?
  split
  rename_i base digits hsplit
  split at hsplit
  · exact absurd rfl (hletter (by decide) _ _)
  · exact absurd rfl (hletter (by decide) _ _)
  · exact absurd rfl (hletter (by decide) _ _)
  · cases hsplit
    split
    · exact absurd rfl hne
    · exact absurd rfl (hmark _)
    · exact digitsInBase?_digits h 0

/-- Digits are passed over as one number. -/
theorem spanNumber_digits (hne : cs ≠ []) {rest : List Char} (hrest : Ends rest) :
    spanNumber (cs ++ rest) = cs := by
  have hdecimal : (cs ++ rest).takeWhile isDecimalChar = cs :=
    hrest.takeWhile_append (fun c hc => by simp [isDecimalChar, h c hc])
      fun c hc => (enders_stop c hc).2.2.1
  have hcount : (cs ++ rest).takeWhile isCountChar = cs :=
    hrest.takeWhile_append (fun c hc => by simp [isCountChar, Numeral.hexDigit?, h c hc])
      fun c hc => (enders_stop c hc).2.2.2
  obtain ⟨d, ds, rfl⟩ := List.exists_cons_of_ne_nil hne
  have hunsigned : spanUnsigned (d :: ds ++ rest) = d :: ds := by
    unfold spanUnsigned
    simp only [hdecimal, hcount, Nat.lt_irrefl, if_false]
    split
    · -- the second character is a digit or follows the number, so it is no mark of a base
      rename_i b tail heq
      have hsecond : b.isDigit = true ∨ b ∈ enders := by
        cases ds with
        | nil =>
          cases heq
          exact .inr (hrest b rfl)
        | cons e ds =>
          cases heq
          exact .inl (h b (by simp))
      rw [if_neg]
      intro hbase
      simp only [Bool.or_eq_true, decide_eq_true_eq] at hbase
      rcases hbase with (rfl | rfl) | rfl <;> exact absurd hsecond (by decide)
    · rfl
  have hfirst := h d List.mem_cons_self
  unfold spanNumber
  split
  · rename_i heq
    cases heq
    exact absurd hfirst (by decide)
  · rename_i heq
    cases heq
    exact absurd hfirst (by decide)
  · exact hunsigned

end Counts

theorem signedNumber?_toDigits {n : Nat} (hn : n ≤ Numeral.countMax) :
    signedNumber? (Nat.toDigits 10 n) = some (n : Int) := by
  have hdigits : ∀ c ∈ Nat.toDigits 10 n, c.isDigit = true := fun _ => Numeral.isDigit_of_mem
  have hwhole : wholeNumber? (Nat.toDigits 10 n) = some n := by
    rw [wholeNumber?_digits hdigits Nat.toDigits_ne_nil, Numeral.digitsValue_toDigits]
  unfold signedNumber?
  split
  · rename_i heq
    exact absurd (hdigits '+' (heq ▸ List.mem_cons_self)) (by decide)
  · rename_i heq
    exact absurd (hdigits '-' (heq ▸ List.mem_cons_self)) (by decide)
  · rw [hwhole]
    simp [hn]

theorem readNumber_count {n : Nat} (hn : n ≤ Numeral.countMax) {rest : List Char} (hrest : Ends rest) :
    readNumber ((toString n).toList ++ rest) = some (countValue n, rest) := by
  have hdigits : (toString n).toList = Nat.toDigits 10 n := by simp
  have hspan : spanNumber ((toString n).toList ++ rest) = (toString n).toList := by
    rw [hdigits]
    exact spanNumber_digits (fun _ => Numeral.isDigit_of_mem) Nat.toDigits_ne_nil hrest
  have hfloat : (floatOf? (toString n)).isSome = true := by
    rw [floatOf?, hdigits, signedNumber?_toDigits hn]
    rfl
  rw [readNumber, hspan, String.ofList_toList, if_pos hfloat, List.drop_left]
  rfl

/-! ### Forms -/

/-- A character that a value can start with: it is neither that of a gap, nor of an end, nor of an
attribute. -/
def Opening (c : Char) : Prop := Solid c ∧ c ∉ enders ∧ c ≠ '#'

instance (c : Char) : Decidable (Opening c) := inferInstanceAs (Decidable (_ ∧ _))

section Forms

variable {scope : Scope} {item : Option (List Char → Option (Value × List Char))}
variable {payload : List Char → Option (Value × List Char)}

/-- What starts with no word and no bracket is read as a value that holds no other one. -/
theorem readForm_leaf {c : Char} {cs rest : List Char} {v : Value}
    (hwords : readFixedWord (c :: cs) = none ∧ afterWord? "Some" (c :: cs) = none)
    (hbracket : c ∉ ['(', '[', '{']) (hleaf : readLeaf (c :: cs) = some (v, rest))
    (hv : ∀ name, v ≠ .word name) : readForm scope item payload (c :: cs) = some (v, rest) := by
  have ⟨hfixed, hsome⟩ := hwords
  simp only [List.mem_cons, List.not_mem_nil, or_false, not_or] at hbracket
  unfold readForm
  rw [hfixed, hsome]
  split <;> simp_all

theorem readForm_flag (b : Bool) {rest : List Char} (hrest : Ends rest) :
    readForm scope item payload ((if b then "true" else "false").toList ++ rest) =
      some (.flag b, rest) := by
  unfold readForm
  rw [readFixedWord_flag b hrest]

theorem readForm_text (s : String) (rest : List Char) :
    readForm scope item payload ((textLiteral s).toList ++ rest) = some (.text s, rest) := by
  have hlist : (textLiteral s).toList ++ rest =
      '"' :: (s.toList.flatMap (Text.escapeChar true) ++ '"' :: rest) := by
    simp [textLiteral, Text.quotedWith]
  rw [hlist]
  refine readForm_leaf (wordless (by decide) _) (by decide) ?_ nofun
  simp [readLeaf, readQuoted_flatMap]

/-- A number starts with a digit or a minus sign. -/
theorem readForm_number {c : Char} {cs rest : List Char} {raw : String}
    (hwords : readFixedWord (c :: cs) = none ∧ afterWord? "Some" (c :: cs) = none)
    (hc : c.isDigit = true ∨ c = '-') (hread : readNumber (c :: cs) = some (.number raw, rest)) :
    readForm scope item payload (c :: cs) = some (.number raw, rest) := by
  have hother {d : Char} (hd : d.isDigit = false ∧ d ≠ '-') : c ≠ d := by
    rintro rfl
    rcases hc with hc | hc
    · rw [hd.1] at hc
      cases hc
    · exact hd.2 hc
  refine readForm_leaf hwords ?_ ?_ nofun
  · simp only [List.mem_cons, List.not_mem_nil, or_false, not_or]
    exact ⟨hother (by decide), hother (by decide), hother (by decide)⟩
  · have hstart : (c.isDigit || decide (c = '+') || decide (c = '-') || decide (c = '.')) = true := by
      rcases hc with hc | rfl <;> simp [*]
    have hplain : (decide (c = 'r') && opensRawText cs) = false := by
      rw [decide_eq_false (hother (by decide)), Bool.false_and]
    simp only [readLeaf, if_neg (hother (d := '"') (by decide)), if_neg (hother (d := '\'') (by decide)),
      hplain, hstart, if_true, Bool.false_eq_true, if_false]
    exact hread

theorem readForm_count {n : Nat} (hn : n ≤ Numeral.countMax) {rest : List Char} (hrest : Ends rest) :
    readForm scope item payload ((toString n).toList ++ rest) = some (countValue n, rest) := by
  have hdigits : (toString n).toList = Nat.toDigits 10 n := by simp
  have hread := readNumber_count hn hrest
  obtain ⟨d, ds, hcons⟩ := List.exists_cons_of_ne_nil (Nat.toDigits_ne_nil (n := n) (b := 10))
  have hd : d.isDigit = true := Numeral.isDigit_of_mem (hcons ▸ List.mem_cons_self)
  rw [hdigits, hcons] at hread ⊢
  exact readForm_number (wordless_digit hd _) (.inl hd) hread

end Forms

/-! ### Items -/

section Items

variable {α : Type} {item : List Char → Option (α × List Char)} {close c : Char}
variable {items : List α} {a : α} {more : Nat} {cs tail rest after : List Char}

/-- At the closing bracket there are no more items. -/
theorem readItems_close (hskip : skip cs = some (close :: rest)) :
    readItems item close items (more + 1) cs = some (items.reverse, rest) := by
  simp only [readItems, hskip, if_true]

/-- An item with a comma after it is followed by the others. -/
theorem readItems_comma (hskip : skip cs = some (c :: tail)) (hc : c ≠ close)
    (hitem : item (c :: tail) = some (a, rest)) (hcomma : skip rest = some (',' :: after))
    (hclose : ',' ≠ close) :
    readItems item close items (more + 1) cs = readItems item close (a :: items) more after := by
  simp only [readItems, hskip, if_neg hc, hitem, hcomma, if_neg hclose, if_true]

end Items

/-- These characters stand for `a`, which can be read if `p`: in front of anything that may follow, `a` is
read from them if `p` holds, and nothing is if it does not. There are no more characters left than the whole
text has. -/
def ReadsIf {α : Type} (p : Prop) [Decidable p] (size : Nat) (item : List Char → Option (α × List Char))
    (cs : List Char) (a : α) : Prop :=
  (∃ c tail, cs = c :: tail ∧ Opening c) ∧
    ∀ rest, Ends rest → (cs ++ rest).length ≤ size →
      item (cs ++ rest) = if p then some (a, rest) else none

theorem ReadsIf.congr {α : Type} {p q : Prop} [Decidable p] [Decidable q] {size : Nat}
    {item : List Char → Option (α × List Char)} {cs : List Char} {a : α} (h : ReadsIf p size item cs a)
    (hpq : p ↔ q) : ReadsIf q size item cs a :=
  ⟨h.1, fun rest hrest hsize => (h.2 rest hrest hsize).trans (if_congr hpq rfl rfl)⟩

/-- These characters stand for `a`: that is what is read from them in front of anything that may follow, if
there are no more characters left than the whole text has. -/
def ReadsBack {α : Type} (size : Nat) (item : List Char → Option (α × List Char)) (cs : List Char)
    (a : α) : Prop :=
  (∃ c tail, cs = c :: tail ∧ Opening c) ∧
    ∀ rest, Ends rest → (cs ++ rest).length ≤ size → item (cs ++ rest) = some (a, rest)

/-- The lines between the brackets, and what follows them. -/
def linesText (level : Nat) (lines : List (List Char)) (rest : List Char) : List Char :=
  lines.flatMap (fun line => (indent (level + 1)).toList ++ line ++ [',', '\n']) ++
    (indent level).toList ++ rest

theorem linesText_cons (level : Nat) (line : List Char) (lines : List (List Char)) (rest : List Char) :
    linesText level (line :: lines) rest =
      (indent (level + 1)).toList ++ (line ++ ',' :: '\n' :: linesText level lines rest) := by
  simp [linesText]

theorem toList_pushn (s : String) (c : Char) (n : Nat) :
    (s.pushn c n).toList = s.toList ++ List.replicate n c := by
  induction n with
  | zero => simp [String.pushn, Nat.repeat]
  | succ n ih =>
    have hpush : s.pushn c (n + 1) = (s.pushn c n).push c := rfl
    rw [hpush, String.toList_push, ih, List.append_assoc, ← List.replicate_succ']

theorem indent_space (level : Nat) : ∀ c ∈ (indent level).toList, isSpace c = true := by
  intro c hc
  rw [indent, toList_pushn] at hc
  rw [List.eq_of_mem_replicate hc]
  rfl

/-- Lines that stand for some items are read as these. -/
theorem readItems_lines {α : Type} {size : Nat} {item : List Char → Option (α × List Char)}
    {close : Char} (hclose : close ∈ enders) (hsolid : Solid close) (hcomma : ',' ≠ close)
    (level : Nat) {lines : List (List Char)} {as : List α}
    (hlines : List.Forall₂ (ReadsBack size item) lines as) {gap rest : List Char}
    (hgap : ∀ c ∈ gap, isSpace c = true) {items : List α} {more : Nat}
    (hmore : (gap ++ linesText level lines (close :: rest)).length ≤ more) (hsize : more ≤ size) :
    readItems item close items more (gap ++ linesText level lines (close :: rest)) =
      some (items.reverse ++ as, rest) := by
  induction hlines generalizing gap items more with
  | nil =>
    have hskip : skip (gap ++ linesText level [] (close :: rest)) = some (close :: rest) := by
      rw [skip_gap hgap, linesText, List.flatMap_nil, List.nil_append, skip_gap (indent_space level),
        skip_solid hsolid]
    cases more with
    | zero => simp [linesText] at hmore
    | succ more => rw [readItems_close hskip, List.append_nil]
  | @cons line a lines as hline hlines ih =>
    obtain ⟨⟨c, tail, rfl, hopening⟩, hitem⟩ := hline
    rw [linesText_cons] at hmore ⊢
    simp only [List.length_append, List.length_cons] at hmore
    cases more with
    | zero => omega
    | succ more =>
      have hskip := skip_solid hopening.1 (tail ++ ',' :: '\n' :: linesText level lines (close :: rest))
      rw [← List.cons_append, ← skip_gap (indent_space (level + 1)), ← skip_gap hgap] at hskip
      have hread := hitem (',' :: '\n' :: linesText level lines (close :: rest))
        (.cons (by decide) _) (by simp only [List.length_append, List.length_cons]; omega)
      have hne : c ≠ close := by
        rintro rfl
        exact hopening.2.1 hclose
      -- what is left after the comma starts with the end of the line, and is shorter
      have hless : (['\n'] ++ linesText level lines (close :: rest)).length ≤ more := by
        simp only [List.length_append, List.length_cons, List.length_nil]
        omega
      have hrest : readItems item close (a :: items) more
          (['\n'] ++ linesText level lines (close :: rest)) = some ((a :: items).reverse ++ as, rest) :=
        ih (by simp [isSpace]) hless (Nat.le_of_succ_le hsize)
      rw [readItems_comma hskip hne hread (skip_solid (by decide) _) hcomma]
      simpa using hrest

/-! ### Entries and fields -/

section Parts

variable {p q : Prop} [Decidable p] [Decidable q] {size : Nat}
variable {value : List Char → Option (Value × List Char)} {gap cs ks : List Char} {v k : Value}

/-- After a key the colon is read, and the value behind it. -/
theorem ReadsIf.afterColon (hgap : ∀ c ∈ gap, isSpace c = true) (hv : ReadsIf p size value cs v)
    {rest : List Char} (hrest : Ends rest)
    (hsize : (ks ++ (':' :: (gap ++ cs) ++ rest)).length ≤ size) :
    readAfterColon value (':' :: (gap ++ cs) ++ rest) = if p then some (v, rest) else none := by
  have hlength : (cs ++ rest).length ≤ size := by
    simp only [List.length_append, List.length_cons] at hsize ⊢
    omega
  have hvalue := hv.2 rest hrest hlength
  obtain ⟨⟨c, tail, rfl, hopening⟩, -⟩ := hv
  have hskip := skip_solid hopening.1 (tail ++ rest)
  rw [← skip_gap hgap] at hskip
  simpa only [readAfterColon, List.cons_append, List.append_assoc, skip_solid (c := ':') (by decide),
    hskip, Option.bind_some] using hvalue

theorem ReadsIf.entry (hk : ReadsIf p size value ks k) (hgap : ∀ c ∈ gap, isSpace c = true)
    (hv : ReadsIf q size value cs v) :
    ReadsIf (p ∧ q) size (readEntry value) (ks ++ ':' :: (gap ++ cs)) (k, v) := by
  obtain ⟨⟨c, tail, rfl, hopening⟩, hk⟩ := hk
  refine ⟨⟨c, _, rfl, hopening⟩, fun rest hrest hsize => ?_⟩
  rw [List.append_assoc] at hsize ⊢
  have hkey := hk (':' :: (gap ++ cs) ++ rest) (.cons (by decide) _) hsize
  have hvalue := hv.afterColon hgap hrest hsize
  rw [readEntry, hkey]
  by_cases hp : p
  · simp only [hp, if_true, Option.bind_eq_bind, Option.bind_some, hvalue, true_and]
    split <;> rfl
  · simp [hp]

theorem opening_of_isNameChar {c : Char} (h : isNameChar c = true) : Opening c := by
  have hmark {d : Char} (hd : isNameChar d = false) : c ≠ d := by
    rintro rfl
    rw [h] at hd
    cases hd
  refine ⟨⟨?_, hmark (by decide)⟩, fun hend => ?_, hmark (by decide)⟩
  · simp [isSpace, hmark (d := ' ') (by decide), hmark (d := '\n') (by decide),
      hmark (d := '\t') (by decide), hmark (d := '\r') (by decide)]
  · exact hmark (enders_stop c hend).1 rfl

theorem IsName.opening {name : String} (h : IsName name) : ∃ c cs, name.toList = c :: cs ∧ Opening c := by
  obtain ⟨hall, hhead⟩ := h
  cases hcs : name.toList with
  | nil =>
    rw [hcs] at hhead
    cases hhead
  | cons c cs =>
    rw [hcs] at hall
    exact ⟨c, cs, rfl, opening_of_isNameChar (List.all_eq_true.mp hall c List.mem_cons_self)⟩

theorem ReadsIf.field {name : String} (hname : IsName name) (hgap : ∀ c ∈ gap, isSpace c = true)
    (hv : ReadsIf p size value cs v) :
    ReadsIf p size (readField value) (name.toList ++ ':' :: (gap ++ cs)) (name, v) := by
  obtain ⟨c, tail, hcons, hopening⟩ := hname.opening
  refine ⟨⟨c, tail ++ ':' :: (gap ++ cs), by rw [hcons]; rfl, hopening⟩, fun rest hrest hsize => ?_⟩
  rw [List.append_assoc] at hsize ⊢
  have hread : readName (name.toList ++ (':' :: (gap ++ cs) ++ rest)) =
      some (name, ':' :: (gap ++ cs) ++ rest) := readName_append hname (.cons (by decide) _)
  have hvalue := hv.afterColon hgap hrest hsize
  simp only [readField, hread, hvalue, Option.bind_eq_bind, Option.bind_some, Option.pure_def]
  split <;> rfl

theorem readsBack_iff {α : Type} {item : List Char → Option (α × List Char)} {a : α} :
    ReadsBack size item cs a ↔ ReadsIf True size item cs a := by
  simp only [ReadsBack, ReadsIf, if_true]

theorem ReadsBack.entry (hk : ReadsBack size value ks k) (hgap : ∀ c ∈ gap, isSpace c = true)
    (hv : ReadsBack size value cs v) :
    ReadsBack size (readEntry value) (ks ++ ':' :: (gap ++ cs)) (k, v) := by
  rw [readsBack_iff] at *
  exact (hk.entry hgap hv).congr (and_self_iff)

theorem ReadsBack.field {name : String} (hname : IsName name) (hgap : ∀ c ∈ gap, isSpace c = true)
    (hv : ReadsBack size value cs v) :
    ReadsBack size (readField value) (name.toList ++ ':' :: (gap ++ cs)) (name, v) := by
  rw [readsBack_iff] at *
  exact hv.field hname hgap

end Parts

/-! ### Brackets -/

/-- What stands after an opening bracket when there are these lines up to the closing one. -/
def bracketBody (level : Nat) (lines : List (List Char)) (rest : List Char) : List Char :=
  if lines.isEmpty then rest else '\n' :: linesText level lines rest

theorem toList_bracketed (level : Nat) (opening closing : String) (lines : List String)
    (rest : List Char) :
    (bracketed level opening closing lines).toList ++ rest =
      opening.toList ++ bracketBody level (lines.map String.toList) (closing.toList ++ rest) := by
  unfold bracketed bracketBody
  cases lines with
  | nil => simp
  | cons line lines => simp [linesText, String.toList_join, List.flatMap_map]

theorem readItems_bracketBody {α : Type} {size : Nat} {item : List Char → Option (α × List Char)}
    {close : Char} (hclose : close ∈ enders) (hsolid : Solid close) (hcomma : ',' ≠ close)
    {level : Nat} {lines : List (List Char)} {as : List α}
    (hlines : List.Forall₂ (ReadsBack size item) lines as) {rest : List Char}
    (hsize : (bracketBody level lines (close :: rest)).length ≤ size) :
    readItems item close [] size (bracketBody level lines (close :: rest)) = some (as, rest) := by
  cases hlines with
  | nil =>
    cases size with
    | zero => cases hsize
    | succ size => exact readItems_close (skip_solid hsolid _)
  | cons hline hlines =>
    have hgap : ∀ c ∈ ['\n'], isSpace c = true := by simp [isSpace]
    exact readItems_lines hclose hsolid hcomma level (.cons hline hlines) hgap hsize (Nat.le_refl _)

/-- After the bracket the first line is found. -/
theorem skip_bracketBody (level : Nat) {line : List Char}
    (hline : ∃ c tail, line = c :: tail ∧ Opening c) (lines : List (List Char)) (rest : List Char) :
    skip (bracketBody level (line :: lines) rest) =
      some (line ++ ',' :: '\n' :: linesText level lines rest) := by
  obtain ⟨c, tail, rfl, hopening⟩ := hline
  rw [bracketBody, if_neg (by simp), linesText_cons, skip_space (by decide),
    skip_gap (indent_space (level + 1))]
  exact skip_solid hopening.1 _

section Brackets

variable {scope : Scope} {item payload : List Char → Option (Value × List Char)} {cs rest : List Char}

/-- What is between square brackets is a list, if brackets can be opened. -/
theorem readForm_bracket (item : Option (List Char → Option (Value × List Char))) :
    readForm scope item payload ('[' :: cs) = item.bind fun item =>
      (readItems item ']' [] scope.size cs).map fun (items, rest) => (.list items, rest) := by
  have ⟨hfixed, hsome⟩ := wordless (c := '[') (by decide) cs
  unfold readForm
  rw [hfixed, hsome]
  rfl

theorem readForm_list {items : List Value}
    (h : readItems item ']' [] scope.size cs = some (items, rest)) :
    readForm scope (some item) payload ('[' :: cs) = some (.list items, rest) := by
  rw [readForm_bracket, Option.bind_some, h]
  rfl

/-- What is between braces is a map, if brackets can be opened. -/
theorem readForm_brace (item : Option (List Char → Option (Value × List Char))) :
    readForm scope item payload ('{' :: cs) = item.bind fun item =>
      (readItems (readEntry item) '}' [] scope.size cs).map fun (es, rest) => (.map es, rest) := by
  have ⟨hfixed, hsome⟩ := wordless (c := '{') (by decide) cs
  unfold readForm
  rw [hfixed, hsome]
  rfl

theorem readForm_map {entries : List (Value × Value)}
    (h : readItems (readEntry item) '}' [] scope.size cs = some (entries, rest)) :
    readForm scope (some item) payload ('{' :: cs) = some (.map entries, rest) := by
  rw [readForm_brace, Option.bind_some, h]
  rfl

theorem readForm_emptyRecord (item : Option (List Char → Option (Value × List Char))) :
    readForm scope item payload ('(' :: ')' :: rest) = some (.record none [], rest) := by
  have ⟨hfixed, hsome⟩ := wordless (c := '(') (by decide) (')' :: rest)
  unfold readForm
  rw [hfixed, hsome]
  rfl

/-- Between parentheses there is something, if they can be opened. -/
theorem readForm_parenthesis (item : Option (List Char → Option (Value × List Char)))
    (hopening : ∀ tail, cs ≠ ')' :: tail) :
    readForm scope item payload ('(' :: cs) = item.bind fun item =>
      readParenthesized scope item none cs := by
  have ⟨hfixed, hsome⟩ := wordless (c := '(') (by decide) cs
  unfold readForm
  rw [hfixed, hsome]
  split <;> simp_all

/-- It is a record if it starts with a name and a colon. -/
theorem readParenthesized_named {name : String} {after : List Char} (hname : IsName name)
    (hskip : skip cs = some (name.toList ++ ':' :: after)) :
    readParenthesized scope item none cs =
      (readItems (readField item) ')' [] scope.size cs).map fun (fields, rest) =>
        (.record none fields, rest) := by
  have hread : readName (name.toList ++ ':' :: after) = some (name, ':' :: after) :=
    readName_append hname (.cons (by decide) _)
  have hcolon : ((skip cs).bind fun cs => (readName cs).bind fun p => skip p.2).bind List.head? =
      some ':' := by
    simp only [hskip, Option.bind_some, hread, skip_solid (c := ':') (by decide), List.head?_cons]
  rw [readParenthesized]
  simp [hcolon]

theorem readForm_record {fields : List (String × Value)} {name : String} {after : List Char}
    (hname : IsName name) (hskip : skip cs = some (name.toList ++ ':' :: after))
    (hopening : ∀ tail, cs ≠ ')' :: tail)
    (h : readItems (readField item) ')' [] scope.size cs = some (fields, rest)) :
    readForm scope (some item) payload ('(' :: cs) = some (.record none fields, rest) := by
  rw [readForm_parenthesis _ hopening, Option.bind_some, readParenthesized_named hname hskip, h]
  rfl

end Brackets

/-! ### Values -/

/-- A number is read back where it stands. -/
def NumberReads (raw : String) : Prop :=
  (∃ c cs, raw.toList = c :: cs ∧ Opening c) ∧
    ∀ scope item payload rest, Ends rest →
      readForm scope item payload (raw.toList ++ rest) = some (.number raw, rest)

theorem numberReads_count {n : Nat} (hn : n ≤ Numeral.countMax) : NumberReads (toString n) := by
  refine ⟨?_, fun scope item payload rest hrest => readForm_count hn hrest⟩
  have hdigits : (toString n).toList = Nat.toDigits 10 n := by simp
  obtain ⟨c, cs, hcons⟩ := List.exists_cons_of_ne_nil (Nat.toDigits_ne_nil (n := n) (b := 10))
  have hc : c.isDigit = true := Numeral.isDigit_of_mem (hcons ▸ List.mem_cons_self)
  refine ⟨c, cs, hdigits.trans hcons, opening_of_isNameChar ?_⟩
  simp [isNameChar, Char.isAlphanum, hc]

/-- Values that can be read back when so many steps are left: truth values, numbers, texts, lists, maps and
records without names. -/
inductive Storable : Nat → Value → Prop
  /-- A truth value. -/
  | flag {n} (b : Bool) : Storable n (.flag b)
  /-- A number. -/
  | number {n raw} (h : NumberReads raw) : Storable n (.number raw)
  /-- A text. -/
  | text {n} (s : String) : Storable n (.text s)
  /-- A list. -/
  | list {n items} (h : ∀ v ∈ items, Storable n v) : Storable (n + 2) (.list items)
  /-- A map. -/
  | map {n entries} (hkeys : ∀ e ∈ entries, Storable n e.1) (hvalues : ∀ e ∈ entries, Storable n e.2) :
    Storable (n + 2) (.map entries)
  /-- A record. -/
  | record {n fields} (hnames : ∀ f ∈ fields, IsName f.1) (hvalues : ∀ f ∈ fields, Storable n f.2) :
    Storable (n + 2) (.record none fields)

namespace Value

theorem prettyAll_eq (level : Nat) (vs : List Value) :
    prettyAt.prettyAll level vs = vs.map (prettyAt level) := by
  induction vs with
  | nil => rfl
  | cons v vs ih => rw [prettyAt.prettyAll, ih, List.map_cons]

theorem prettyEntries_eq (level : Nat) (es : List (Value × Value)) :
    prettyAt.prettyEntries level es =
      es.map fun e => e.1.prettyAt level ++ ": " ++ e.2.prettyAt level := by
  induction es with
  | nil => rfl
  | cons e es ih => rw [prettyAt.prettyEntries, ih, List.map_cons]

theorem prettyFields_eq (level : Nat) (fs : List (String × Value)) :
    prettyAt.prettyFields level fs = fs.map fun f => f.1 ++ ": " ++ f.2.prettyAt level := by
  induction fs with
  | nil => rfl
  | cons f fs ih => rw [prettyAt.prettyFields, ih, List.map_cons]

end Value

theorem readValue_eq (scope : Scope) (n : Nat) :
    ∃ item payload, readValue scope n = readForm scope item payload := by
  match n with
  | 0 => exact ⟨_, _, rfl⟩
  | 1 => exact ⟨_, _, rfl⟩
  | n + 2 => exact ⟨_, _, rfl⟩

theorem opening_textLiteral (s : String) : ∃ c cs, (textLiteral s).toList = c :: cs ∧ Opening c :=
  ⟨'"', s.toList.flatMap (Text.escapeChar true) ++ ['"'], by simp [textLiteral, Text.quotedWith],
    by decide⟩

theorem opening_bracketed (level : Nat) {opening : String} {c : Char} (hopening : opening.toList = [c])
    (hc : Opening c) (closing : String) (lines : List String) :
    ∃ d cs, (bracketed level opening closing lines).toList = d :: cs ∧ Opening d := by
  have h := toList_bracketed level opening closing lines []
  rw [List.append_nil, hopening] at h
  exact ⟨c, _, h, hc⟩

/-- What stands on the line of an entry or a field. -/
def labeled (label text : String) : List Char := label.toList ++ ':' :: ([' '] ++ text.toList)

theorem toList_labeled (label text : String) :
    (label ++ ": " ++ text).toList = labeled label text := by
  simp [labeled]

/-- Values that are written with one item on each line are read back. -/
theorem Storable.readsBack {n : Nat} {v : Value} (h : Storable n v) (scope : Scope) (level : Nat) :
    ReadsBack scope.size (readValue scope n) (v.prettyAt level).toList v := by
  have hspace : ∀ c ∈ [' '], isSpace c = true := by simp [isSpace]
  induction h generalizing level with
  | @flag n b =>
    obtain ⟨item, payload, hform⟩ := readValue_eq scope n
    rw [hform]
    refine ⟨?_, fun rest hrest _ => readForm_flag b hrest⟩
    cases b
    · exact ⟨'f', ['a', 'l', 's', 'e'], by simp [Value.prettyAt, Value.leafText], by decide⟩
    · exact ⟨'t', ['r', 'u', 'e'], by simp [Value.prettyAt, Value.leafText], by decide⟩
  | @number n raw h =>
    obtain ⟨item, payload, hform⟩ := readValue_eq scope n
    rw [hform]
    exact ⟨h.1, fun rest hrest _ => h.2 scope item payload rest hrest⟩
  | @text n s =>
    obtain ⟨item, payload, hform⟩ := readValue_eq scope n
    rw [hform]
    exact ⟨opening_textLiteral s, fun rest _ _ => readForm_text s rest⟩
  | @list n items _ ih =>
    rw [Value.prettyAt, Value.prettyAll_eq]
    refine ⟨opening_bracketed level (c := '[') rfl (by decide) _ _, fun rest hrest hsize => ?_⟩
    rw [toList_bracketed, List.map_map] at hsize ⊢
    refine readForm_list (readItems_bracketBody (by decide) (by decide) (by decide) ?_ ?_)
    · exact List.forall₂_map_left_iff.mpr (List.forall₂_same.mpr fun v hv => ih v hv (level + 1))
    · exact Nat.le_of_succ_le hsize
  | @map n entries _ _ ihkeys ihvalues =>
    rw [Value.prettyAt, Value.prettyEntries_eq]
    refine ⟨opening_bracketed level (c := '{') rfl (by decide) _ _, fun rest hrest hsize => ?_⟩
    rw [toList_bracketed, List.map_map] at hsize ⊢
    refine readForm_map (readItems_bracketBody (by decide) (by decide) (by decide) ?_ ?_)
    · refine List.forall₂_map_left_iff.mpr (List.forall₂_same.mpr fun e he => ?_)
      rw [Function.comp_apply, toList_labeled]
      exact (ihkeys e he (level + 1)).entry hspace (ihvalues e he (level + 1))
    · exact Nat.le_of_succ_le hsize
  | @record n fields hnames _ ih =>
    rw [Value.prettyAt, Value.prettyFields_eq, show (none : Option String).getD "" ++ "(" = "(" by simp]
    refine ⟨opening_bracketed level (c := '(') rfl (by decide) _ _, fun rest hrest hsize => ?_⟩
    have hlines : (fields.map fun f => f.1 ++ ": " ++ f.2.prettyAt (level + 1)).map String.toList =
        fields.map fun f => labeled f.1 (f.2.prettyAt (level + 1)) := by
      simp [labeled]
    rw [toList_bracketed, hlines] at hsize ⊢
    have hfields : ∀ f ∈ fields, ReadsBack scope.size (readField (readValue scope n))
        (labeled f.1 (f.2.prettyAt (level + 1))) f := fun f hf =>
      (ih f hf (level + 1)).field (hnames f hf) hspace
    have hitems : readItems (readField (readValue scope n)) ')' [] scope.size
        (bracketBody level (fields.map fun f => labeled f.1 (f.2.prettyAt (level + 1))) (')' :: rest)) =
          some (fields, rest) :=
      readItems_bracketBody (by decide) (by decide) (by decide)
        (List.forall₂_map_left_iff.mpr (List.forall₂_same.mpr hfields)) (Nat.le_of_succ_le hsize)
    cases fields with
    | nil => exact readForm_emptyRecord _
    | cons f fields =>
      have hskip := skip_bracketBody level (hfields f List.mem_cons_self).1
        (fields.map fun f => labeled f.1 (f.2.prettyAt (level + 1))) (')' :: rest)
      rw [labeled, List.append_assoc] at hskip
      exact readForm_record (hnames f List.mem_cons_self) hskip nofun hitems

/-- A text that starts a value has no attributes, so it is read as a value and nothing else. -/
theorem read?_of_opening {text : String} (h : ∃ c tail, text.toList = c :: tail ∧ Opening c) :
    read? text = (readValue ⟨text.toList.length, false⟩ depthLimit text.toList).bind fun (v, rest) =>
      (skip rest).bind fun rest => if rest.isEmpty then some v else none := by
  obtain ⟨c, tail, hcons, hopening⟩ := h
  have hattributes : readAttributes [] text.toList = some ([], text.toList) := by
    rw [hcons, readAttributes, skip_solid hopening.1]
    split
    · rename_i heq
      cases heq
    · rename_i heq
      cases heq
      exact absurd rfl hopening.2.2
    · rename_i _ heq
      cases heq
      rfl
  have hnames : ([] : List String).contains shortOptions = false := rfl
  rw [read?]
  simp only [hattributes, Option.bind_eq_bind, Option.bind_some, hnames]

/-- **A value that is written with one item on each line is read back**, if it has as many steps left as
the limit allows. -/
theorem read?_pretty {v : Value} (h : Storable depthLimit v) : read? v.pretty = some v := by
  obtain ⟨hopening, hvalue⟩ := h.readsBack ⟨v.pretty.toList.length, false⟩ 0
  have hread := hvalue [] .nil (by simp [Value.pretty])
  rw [List.append_nil] at hread
  rw [Value.pretty] at *
  rw [read?_of_opening hopening, hread]
  rfl

/-- What is got back one by one is got back together. -/
theorem mapM_map_eq {α β : Type} {f : α → β} {g : β → Option α} {as : List α}
    (h : ∀ a ∈ as, g (f a) = some a) : (as.map f).mapM g = some as := by
  induction as with
  | nil => rfl
  | cons a as ih =>
    have ⟨ha, has⟩ := List.forall_mem_cons.mp h
    rw [List.map_cons, List.mapM_cons, ha, ih has]
    rfl

end Fabula.Ron
