import Fabula.Proofs.NestedTemplates
import Fabula.Template.Format

/-!
# Fabula.Proofs.Filling

**Reading a template and filling it in fit together.** The pattern of a template that has been read is
plain text with the marks `{0}`, `{1}` and so on between it, and filling it in puts a value in the place
of every mark that has one, whatever the values look like (`Template.fill_of_parse`). If every reference
gives way to its own text, then the text of the template comes out again, without its declarations.

* What is filled in is found by looking for braces. That finds the marks and nothing else because plain
  text has no braces (`literalsOf`), because the digits of a mark read as its number again
  (`Numeral.readNat?_toDigits`), and because a value is not looked at once it is in.
* The text of a template is divided into parts, of which each is the text of one piece (`Part`). That a
  reference is written in a certain part is said by the grammar, so no reader is needed to find it.
-/

namespace Fabula

/-! ### Numbers of marks -/

namespace Numeral

/-- A number is read from its digits, if it is not too large for that. -/
theorem readNat?_toDigits {bound i : Nat} (hi : i ≤ bound) :
    readNat? bound (Nat.toDigits 10 i) = some i := by
  have hall : (Nat.toDigits 10 i).all Char.isDigit = true :=
    List.all_eq_true.mpr fun _ hc => isDigit_of_mem hc
  have hdigits : readDigits? (Nat.toDigits 10 i) = some i := by
    simp [readDigits?, hall, Nat.toDigits_ne_nil, digitsValue_toDigits]
  unfold readNat?
  split
  · rename_i rest heq
    -- a digit is no plus sign
    have hplus : ('+' : Char).isDigit = true := isDigit_of_mem (heq ▸ List.mem_cons_self)
    exact absurd hplus (by decide)
  · simp [hdigits, hi]

end Numeral

namespace Template

/-! ### Literal pieces with texts between them -/

/-- The first piece, the first text, the second piece and so on, up to the last piece. -/
def weave : List String → List String → String
  | [], _ => ""
  | p :: _, [] => p
  | p :: ps, x :: xs => p ++ x ++ weave ps xs

theorem weave_modifyHead {pieces : List String} (hpieces : pieces ≠ []) (s : String)
    (texts : List String) :
    weave (pieces.modifyHead (s ++ ·)) texts = s ++ weave pieces texts := by
  cases pieces with
  | nil => exact absurd rfl hpieces
  | cons p pieces => cases texts <;> simp [weave, String.append_assoc]

theorem weave_nil_cons {pieces : List String} (x : String) (texts : List String) :
    weave ("" :: pieces) (x :: texts) = x ++ weave pieces texts := by
  simp [weave]

/-- The plain text in front of the first reference, between the first and the second one, and so on. -/
def literalsOf : List Piece → List String
  | [] => [""]
  | .text c :: ps => (literalsOf ps).modifyHead (String.singleton c ++ ·)
  | .reference _ :: ps => "" :: literalsOf ps
  | .declaration .. :: ps => literalsOf ps

@[simp]
theorem length_literalsOf (ps : List Piece) :
    (literalsOf ps).length = (referencesOf ps).length + 1 := by
  induction ps with
  | nil => rfl
  | cons p ps ih => cases p <;> simp [literalsOf, referencesOf, ih]

theorem literalsOf_ne_nil (ps : List Piece) : literalsOf ps ≠ [] := by
  intro hnil
  have hlength := length_literalsOf ps
  simp [hnil] at hlength

/-- The pieces hold no brace as plain text. -/
def Braceless (ps : List Piece) : Prop := ∀ c, Piece.text c ∈ ps → c ≠ '{' ∧ c ≠ '}'

theorem Braceless.tail {p : Piece} {ps : List Piece} (h : Braceless (p :: ps)) : Braceless ps :=
  fun c hc => h c (List.mem_cons_of_mem p hc)

theorem Braceless.of_mem_literalsOf {ps : List Piece} (h : Braceless ps) :
    ∀ p ∈ literalsOf ps, ∀ c ∈ p.toList, c ≠ '{' ∧ c ≠ '}' := by
  induction ps with
  | nil => simp [literalsOf]
  | cons q ps ih =>
    have ih := ih h.tail
    cases q with
    | text d =>
      have hd := h d List.mem_cons_self
      cases hps : literalsOf ps with
      | nil => exact absurd hps (literalsOf_ne_nil ps)
      | cons p rest =>
        rw [hps] at ih
        simp only [List.forall_mem_cons] at ih
        simpa [literalsOf, hps] using ⟨⟨hd, ih.1⟩, ih.2⟩
    | reference r => simpa [literalsOf] using ih
    | declaration name value => exact ih

/-! ### The pattern and what is filled in -/

theorem patternOf_reference (next : Nat) (r : Reference) (ps : List Piece) :
    patternOf next (.reference r :: ps) = (mark next).toList ++ patternOf (next + 1) ps := by
  simp [patternOf, toList_mark]

/-- In the pattern there are marks between the plain text. -/
theorem ofList_patternOf (next : Nat) (ps : List Piece) :
    String.ofList (patternOf next ps) =
      weave (literalsOf ps) ((List.range' next (referencesOf ps).length).map mark) := by
  induction ps generalizing next with
  | nil => rfl
  | cons p ps ih =>
    cases p with
    | text c =>
      simp only [patternOf, literalsOf, referencesOf, weave_modifyHead (literalsOf_ne_nil ps), ← ih]
      rw [← String.toList_inj]
      simp
    | reference r =>
      simp only [patternOf_reference, literalsOf, referencesOf, List.length_cons, List.range'_succ,
        List.map_cons, weave_nil_cons, ← ih, String.ofList_append, String.ofList_toList]
    | declaration name value => exact ih next

section Values

variable {values : Array String}

theorem fillFrom_plain {c : Char} (hc : c ≠ '{') (out : String) (cs : List Char) :
    fillFrom values out (c :: cs) = fillFrom values (out.push c) cs := by
  rw [fillFrom, if_neg hc]

/-- Text without opening braces stays as it is. -/
theorem fillFrom_text {s : List Char} (hs : ∀ c ∈ s, c ≠ '{') (out : String) (cs : List Char) :
    fillFrom values out (s ++ cs) = fillFrom values (out ++ String.ofList s) cs := by
  induction s generalizing out with
  | nil => simp
  | cons c s ih =>
    simp only [List.forall_mem_cons] at hs
    rw [List.cons_append, fillFrom_plain hs.1, ih hs.2]
    congr 1
    rw [← String.toList_inj]
    simp

/-- The number of a mark is read behind its brace. -/
theorem placeholderValue?_mark {i : Nat} (hi : i ≤ Numeral.countMax) (cs : List Char) :
    placeholderValue? values (Nat.toDigits 10 i ++ '}' :: cs) =
      values[i]?.map fun value => (value, cs) := by
  have hdigits : ∀ c ∈ Nat.toDigits 10 i, decide (c ≠ '}') = true := by
    intro c hc
    refine decide_eq_true ?_
    rintro rfl
    exact absurd (Numeral.isDigit_of_mem hc) (by decide)
  unfold placeholderValue? placeholder?
  rw [List.dropWhile_append_of_pos hdigits, List.takeWhile_append_of_pos hdigits]
  simp [Numeral.readNat?_toDigits hi]

/-- A mark gives way to its value, and stays if it has none. -/
theorem fillFrom_mark {i : Nat} (hi : i ≤ Numeral.countMax) (out : String) (cs : List Char) :
    fillFrom values out ((mark i).toList ++ cs) =
      fillFrom values (out ++ values[i]?.getD (mark i)) cs := by
  have hmark : (mark i).toList ++ cs = '{' :: (Nat.toDigits 10 i ++ '}' :: cs) := by
    simp [toList_mark]
  have hvalue : placeholderValue? values (Nat.toDigits 10 i ++ '}' :: cs) =
      values[i]?.map fun value => (value, cs) := placeholderValue?_mark hi cs
  rw [hmark, fillFrom, if_pos rfl]
  split
  · rename_i value rest heq
    rw [hvalue, Option.map_eq_some_iff] at heq
    obtain ⟨_, hget, hpair⟩ := heq
    cases hpair
    rw [hget, Option.getD_some]
  · rename_i heq
    rw [hvalue, Option.map_eq_none_iff] at heq
    -- the brace stays, and what follows it is plain text up to the end of the mark
    have hdigits : ∀ c ∈ Nat.toDigits 10 i ++ ['}'], c ≠ '{' := by
      intro c hc
      rcases List.mem_append.mp hc with hc | hc
      · rintro rfl
        exact absurd (Numeral.isDigit_of_mem hc) (by decide)
      · simp [List.mem_singleton.mp hc]
    have hplain : Nat.toDigits 10 i ++ '}' :: cs = Nat.toDigits 10 i ++ ['}'] ++ cs := by simp
    rw [hplain, fillFrom_text hdigits, heq, Option.getD_none]
    congr 1
    rw [← String.toList_inj]
    simp [toList_mark]

/-- Values are filled in between the plain text. -/
theorem fillFrom_patternOf {ps : List Piece} (hps : Braceless ps) {next : Nat}
    (hnext : next + (referencesOf ps).length ≤ Numeral.countMax + 1) (out : String) :
    fillFrom values out (patternOf next ps) =
      out ++ weave (literalsOf ps)
        ((List.range' next (referencesOf ps).length).map fun i => values[i]?.getD (mark i)) := by
  induction ps generalizing next out with
  | nil => simp [patternOf, literalsOf, referencesOf, weave, fillFrom]
  | cons p ps ih =>
    have htail := hps.tail
    cases p with
    | text c =>
      have hc := hps c List.mem_cons_self
      simp only [patternOf, literalsOf, referencesOf, weave_modifyHead (literalsOf_ne_nil ps)] at hnext ⊢
      rw [fillFrom_plain hc.1, ih htail hnext, ← String.toList_inj]
      simp
    | reference r =>
      simp only [referencesOf, List.length_cons] at hnext
      rw [patternOf_reference, fillFrom_mark (by omega), ih htail (by omega)]
      simp only [literalsOf, referencesOf, List.length_cons, List.range'_succ, List.map_cons,
        weave_nil_cons, String.append_assoc]
    | declaration name value => exact ih htail hnext out

end Values

/-! ### The parts of a text -/

/-- The texts of single pieces. -/
inductive Spells : List Char → Piece → Prop
  /-- Plain text. -/
  | text {c : Char} (hopen : c ≠ '{') (hclose : c ≠ '}') : Spells [c] (.text c)
  /-- A reference with its braces. -/
  | reference {body : List Char} {symbol : String} {calls : List ModifierCall}
    (hr : Referring body symbol calls) (hplain : IsPlain (body ++ ['}'])) :
    Spells ('{' :: body ++ ['}']) (.reference ⟨symbol, calls, false⟩)
  /-- A decorator with its braces. -/
  | decorator {body : List Char} {symbol : String} {calls : List ModifierCall}
    (hr : Referring body symbol calls) :
    Spells ('{' :: '{' :: body ++ ['}', '}']) (.reference ⟨symbol, calls, true⟩)
  /-- A declaration with its braces. -/
  | declaration {v u : List Char} {value : Template} (hv : IsVariableName v) (hu : Derives u value) :
    Spells ('{' :: v ++ '=' :: ' ' :: u ++ ['}']) (.declaration (String.ofList v) value)

theorem Spells.length_pos {w : List Char} {piece : Piece} (h : Spells w piece) : 0 < w.length := by
  cases h <;> simp

theorem Spells.of_text {w : List Char} {c : Char} (h : Spells w (.text c)) :
    w = [c] ∧ c ≠ '{' ∧ c ≠ '}' := by
  cases h with
  | text hopen hclose => exact ⟨rfl, hopen, hclose⟩

/-- A piece with the text that it is written as. -/
structure Part where
  /-- The piece. -/
  piece : Piece
  /-- Its text. -/
  text : String
  /-- The text is one of the piece. -/
  spells : Spells text.toList piece

namespace Part

/-- The part is a reference. -/
def isReference (p : Part) : Bool :=
  match p.piece with
  | .reference _ => true
  | _ => false

/-- The part is a declaration. -/
def isDeclaration (p : Part) : Bool :=
  match p.piece with
  | .declaration .. => true
  | _ => false

end Part

/-- The text that parts make up. -/
def textOf (parts : List Part) : String := String.join (parts.map Part.text)

@[simp]
theorem textOf_cons (p : Part) (parts : List Part) : textOf (p :: parts) = p.text ++ textOf parts := by
  simp [textOf]

/-- The texts of the references among parts. -/
def referenceTexts (parts : List Part) : List String := (parts.filter Part.isReference).map Part.text

/-- The parts without declarations. -/
def undeclared (parts : List Part) : List Part := parts.filter fun p => !p.isDeclaration

/-- A part adds its piece to the template of the text before it. -/
theorem Derives.part {s : List Char} {ps : List Piece} (h : Derives s (ofPieces s ps)) (p : Part) :
    Derives (s ++ p.text.toList) (ofPieces (s ++ p.text.toList) (ps ++ [p.piece])) := by
  obtain ⟨piece, text, hspells⟩ := p
  dsimp only
  generalize text.toList = w at hspells
  cases hspells with
  | text hopen hclose =>
    rw [ofPieces_text s]
    exact h.text hopen hclose
  | reference hr hplain =>
    rw [ofPieces_reference s]
    simpa using h.reference hr hplain
  | decorator hr =>
    rw [ofPieces_reference s]
    simpa using h.decorator hr
  | declaration hv hu =>
    rw [ofPieces_declaration s]
    simpa using h.declaration hv hu

/-- Parts make up a text that stands for their pieces. -/
theorem derives_textOf (parts : List Part) :
    Derives (textOf parts).toList (ofPieces (textOf parts).toList (parts.map Part.piece)) := by
  induction parts using List.reverseRecOn with
  | nil => exact .empty
  | append_singleton parts p ih => simpa [textOf] using ih.part p

/-- Every text that stands for a template is made up of parts. -/
theorem Derives.exists_parts {s : List Char} {t : Template} (h : Derives s t) :
    ∃ parts, (textOf parts).toList = s := by
  have hsnoc {s w : List Char} {piece : Piece} (hw : Spells w piece)
      (hs : ∃ parts, (textOf parts).toList = s) : ∃ parts, (textOf parts).toList = s ++ w := by
    obtain ⟨parts, rfl⟩ := hs
    exact ⟨parts ++ [⟨piece, String.ofList w, by simpa using hw⟩], by simp [textOf]⟩
  induction h with
  | empty => exact ⟨[], rfl⟩
  | text _ hopen hclose ih => exact hsnoc (.text hopen hclose) ih
  | reference _ hr hplain ih => simpa using hsnoc (.reference hr hplain) ih
  | decorator _ hr ih => simpa using hsnoc (.decorator hr) ih
  | declaration _ hv hu ih => simpa using hsnoc (.declaration hv hu) ih

/-- Parts of the text of a template have its pieces, however that text has been divided. -/
theorem eq_ofPieces {text : String} {t : Template} (h : parse text = .ok t) {parts : List Part}
    (hparts : textOf parts = text) : t = ofPieces text.toList (parts.map Part.piece) := by
  subst hparts
  rw [(derives_textOf parts).parse_eq] at h
  exact (Except.ok.inj h).symm

theorem braceless_parts (parts : List Part) : Braceless (parts.map Part.piece) := by
  intro c hc
  obtain ⟨p, -, hp⟩ := List.mem_map.mp hc
  exact (hp ▸ p.spells).of_text.2

theorem length_referenceTexts (parts : List Part) :
    (referenceTexts parts).length = (referencesOf (parts.map Part.piece)).length := by
  induction parts with
  | nil => rfl
  | cons p parts ih =>
    obtain ⟨piece, text, hspells⟩ := p
    rw [referenceTexts, List.length_map] at ih ⊢
    cases piece <;> simp [referencesOf, Part.isReference, List.filter_cons, ih]

/-- No text is too short for its references. -/
theorem length_references_le (parts : List Part) :
    (referencesOf (parts.map Part.piece)).length ≤ (textOf parts).length := by
  have hlength (p : Part) : 1 ≤ p.text.length := by
    rw [← String.length_toList]
    exact p.spells.length_pos
  calc (referencesOf (parts.map Part.piece)).length
      = (parts.filter Part.isReference).length := by
        rw [← length_referenceTexts, referenceTexts, List.length_map]
    _ ≤ parts.length := List.length_filter_le _ _
    _ ≤ (textOf parts).length := by
        induction parts with
        | nil => simp
        | cons p parts ih =>
          have hp := hlength p
          simp only [textOf_cons, String.length_append, List.length_cons]
          omega

/-- With the texts of the references in it, the plain text is the text without its declarations. -/
theorem weave_referenceTexts (parts : List Part) :
    weave (literalsOf (parts.map Part.piece)) (referenceTexts parts) = textOf (undeclared parts) := by
  induction parts with
  | nil => rfl
  | cons p parts ih =>
    obtain ⟨piece, text, hspells⟩ := p
    unfold referenceTexts undeclared at ih ⊢
    cases piece with
    | text c =>
      have htext : text = String.singleton c := by
        rw [← String.toList_inj, hspells.of_text.1]
        simp
      simp [literalsOf, Part.isReference, Part.isDeclaration, weave_modifyHead (literalsOf_ne_nil _),
        ih, htext]
    | reference r =>
      simp [literalsOf, Part.isReference, Part.isDeclaration, List.filter_cons, weave_nil_cons, ih]
    | declaration name value =>
      simp [literalsOf, Part.isReference, Part.isDeclaration, ih]

/-! ### Filling in -/

section Filled

variable {text : String} {t : Template} (h : parse text = .ok t) {parts : List Part}
variable (hparts : textOf parts = text)
include h hparts

theorem length_referenceTexts_eq : (referenceTexts parts).length = t.references.length := by
  rw [eq_ofPieces h hparts]
  exact length_referenceTexts parts

/-- Values are filled in between the plain text of the parts, if the numbers of the marks can be read. -/
theorem fill_eq_weave (hlength : text.length ≤ Numeral.countMax) (values : List String) :
    t.fill values = weave (literalsOf (parts.map Part.piece))
      ((List.range t.references.length).map fun i => values.getD i (mark i)) := by
  have hcount := length_references_le parts
  rw [hparts] at hcount
  rw [eq_ofPieces h hparts]
  simp only [fill, ofPieces, String.toList_ofList]
  rw [fillFrom_patternOf (braceless_parts parts) (by omega)]
  simp [List.range_eq_range']

/-- With the texts of the references filled in, nothing but the declarations is missing. -/
theorem fill_referenceTexts (hlength : text.length ≤ Numeral.countMax) :
    t.fill (referenceTexts parts) = textOf (undeclared parts) := by
  have hcount := length_referenceTexts_eq h hparts
  -- every reference has a text, so no mark stays
  have hvalues : (List.range t.references.length).map
      (fun i => (referenceTexts parts).getD i (mark i)) = referenceTexts parts := by
    refine List.ext_getElem (by simp [hcount]) fun i hi hi' => ?_
    simp [hi']
  rw [fill_eq_weave h hparts hlength, hvalues, weave_referenceTexts]

end Filled

/-- **Reading and filling in fit together.** For a template that has been read there are as many texts
without braces as there are references, and one more, such that the pattern is these texts with the marks
between them, and what is filled in has the values in the places of the marks, a mark without a value
staying as it is. The text that was read can be divided into the texts of single pieces, and however that
is done, the template with the texts of its references filled in is that text without its declarations.

The text is no longer than can be counted, as every text is that a machine holds; marks with greater
numbers than that would not be read as such. -/
theorem fill_of_parse {text : String} {t : Template} (h : parse text = .ok t)
    (hlength : text.length ≤ Numeral.countMax) :
    (∃ literals : List String, literals.length = t.references.length + 1 ∧
      (∀ p ∈ literals, ∀ c ∈ p.toList, c ≠ '{' ∧ c ≠ '}') ∧
      t.pattern = weave literals ((List.range t.references.length).map mark) ∧
      ∀ values : List String, t.fill values =
        weave literals ((List.range t.references.length).map fun i => values.getD i (mark i))) ∧
    (∃ parts, textOf parts = text) ∧
    ∀ parts, textOf parts = text →
      t = ofPieces text.toList (parts.map Part.piece) ∧
      (referenceTexts parts).length = t.references.length ∧
      t.fill (referenceTexts parts) = textOf (undeclared parts) := by
  obtain ⟨parts, hparts⟩ := (derives_of_parse h).exists_parts
  rw [String.toList_inj] at hparts
  refine ⟨⟨literalsOf (parts.map Part.piece), ?_, ?_, ?_, fill_eq_weave h hparts hlength⟩,
    ⟨parts, hparts⟩, fun parts hparts => ?_⟩
  · rw [eq_ofPieces h hparts]
    exact length_literalsOf _
  · exact (braceless_parts parts).of_mem_literalsOf
  · rw [eq_ofPieces h hparts, List.range_eq_range']
    exact ofList_patternOf 0 _
  · exact ⟨eq_ofPieces h hparts, length_referenceTexts_eq h hparts,
      fill_referenceTexts h hparts hlength⟩

end Template

/-! ### A pair -/

/-- A pet, declared in place, and its owner. -/
def pair : Template where
  source := "{pet= tom {cat}}The {{pet}} and {owner.upper}!"
  pattern := "The {0} and {1}!"
  references := [⟨"pet", [], true⟩, ⟨"owner", [⟨"upper", []⟩], false⟩]
  declarations := [("pet", ⟨"tom {cat}", "tom {0}", [⟨"cat", [], false⟩], []⟩)]

/-- Its first mark can take a text that looks like the second one, which stays; and with the texts of its
references in it, nothing but the declaration is missing. -/
theorem pair_filled : Template.parse pair.source = .ok pair ∧
    pair.source.length ≤ Numeral.countMax ∧
    (∃ literals, literals.length = 3 ∧
      pair.fill ["{1}"] = Template.weave literals ["{1}", Template.mark 1]) ∧
    ∃ parts, Template.textOf parts = pair.source ∧
      pair.fill (Template.referenceTexts parts) = Template.textOf (Template.undeclared parts) := by
  have hparse : Template.parse pair.source = .ok pair := by with_unfolding_all rfl
  have hlength : pair.source.length ≤ Numeral.countMax := by decide
  obtain ⟨⟨literals, hliterals, -, -, hfill⟩, ⟨parts, hparts⟩, hown⟩ :=
    Template.fill_of_parse hparse hlength
  exact ⟨hparse, hlength, ⟨literals, hliterals, hfill ["{1}"]⟩, parts, hparts, (hown parts hparts).2.2⟩

example : pair.fill ["{1}"] = "The {1} and {1}!" := by decide +kernel

end Fabula
