import Fabula.Proofs.NestedTemplates

/-!
# Fabula.Proofs.EscapedNames

**Names written with backslashes.** A name with a backslash before each character that ends a symbol is a
symbol that stands for the name (`Template.Symbol.escape`), so between doubled braces it is read as a
decorator of that name, whatever the name is.

Between single braces the look ahead for declarations comes first, and it takes the equals sign of `\=`
for any other. Backslashes are no delimiters, so what the look ahead finds first in a name that is written
is what it finds first in the name (`Template.find?_escape`): a name is read back as a plain reference
exactly if that is no equals sign (`Template.escaped_name_parse`).
-/

namespace Fabula.Template

/-! ### Writing names -/

/-- A character of a name as it is written. -/
def escapeChar (c : Char) : List Char := if c ∈ symbolEnds then ['\\', c] else [c]

/-- The characters of a name as they are written. -/
def escape (name : List Char) : List Char := name.flatMap escapeChar

/-- The text of a reference to a symbol without modifiers. -/
def referenceText (name : String) (decorator : Bool) : String :=
  let body := String.ofList (escape name.toList)
  if decorator then "\x7b\x7b" ++ body ++ "\x7d\x7d" else "\x7b" ++ body ++ "\x7d"

/-- The template that only refers to a symbol. -/
def referringTo (name : String) (decorator : Bool) : Template where
  source := referenceText name decorator
  pattern := "\x7b0\x7d"
  references := [⟨name, [], decorator⟩]
  declarations := []

theorem escape_cons (c : Char) (name : List Char) :
    escape (c :: name) = escapeChar c ++ escape name := rfl

theorem Symbol.escape (name : List Char) : Symbol (Template.escape name) name := by
  induction name with
  | nil => exact .empty
  | cons c name ih =>
    rw [escape_cons]
    by_cases hc : c ∈ symbolEnds
    · simpa [escapeChar, hc] using ih.escaped
    · simpa [escapeChar, hc] using ih.plain hc

theorem referring_escape (name : String) : Referring (escape name.toList) name [] := by
  have h := Referring.intro (Symbol.escape name.toList) .empty
  rwa [List.append_nil, String.ofList_toList] at h

/-! ### What the look ahead sees -/

/-- A backslash is no delimiter, and every delimiter is written in its place. -/
theorem find?_escape (name : List Char) :
    (escape name).find? isDelimiter = name.find? isDelimiter := by
  have hslash : isDelimiter '\\' = false := by decide
  induction name with
  | nil => rfl
  | cons c name ih =>
    rw [escape_cons, List.find?_append, List.find?_cons, ih]
    by_cases hc : c ∈ symbolEnds <;> cases hd : isDelimiter c <;> simp [escapeChar, hc, hd, hslash]

/-- No name makes a reference look like a decorator. -/
theorem head?_escape (name rest : List Char) (hrest : rest.head? ≠ some '{') :
    (escape name ++ rest).head? ≠ some '{' := by
  cases name with
  | nil => exact hrest
  | cons c name =>
    rw [escape_cons]
    by_cases hc : c ∈ symbolEnds
    · simp [escapeChar, hc]
    · have hbrace : c ≠ '{' := by
        rintro rfl
        exact hc (by decide)
      simpa [escapeChar, hc] using hbrace

theorem isPlain_escape (name : List Char) :
    IsPlain (escape name ++ ['}']) ↔ name.find? isDelimiter ≠ some '=' := by
  have hfind : (escape name ++ ['}']).find? isDelimiter = some '=' ↔
      name.find? isDelimiter = some '=' := by
    rw [List.find?_append, find?_escape]
    cases name.find? isDelimiter with
    | none => decide
    | some c => rfl
  exact ⟨fun h hname => h.undeclared (hfind.mpr hname),
    fun h => ⟨head?_escape name ['}'] (by decide), fun hname => h (hfind.mp hname)⟩⟩

/-- If a text begins with a brace, then it goes on like a reference: the first delimiter after that brace
is no equals sign. -/
def OpensPlain (s : List Char) : Prop :=
  ∀ tail, s = '{' :: tail → ∃ c, tail.find? isDelimiter = some c ∧ c ≠ '='

/-- Whatever follows a delimiter leaves it the first. -/
theorem OpensPlain.append {s u : List Char} (hs : OpensPlain s) (hu : s = [] → OpensPlain u) :
    OpensPlain (s ++ u) := by
  intro tail htail
  cases s with
  | nil => exact hu rfl tail htail
  | cons d s =>
    obtain ⟨rfl, rfl⟩ := List.cons_eq_cons.mp htail
    obtain ⟨c, hfind, hc⟩ := hs s rfl
    exact ⟨c, by simp [List.find?_append, hfind], hc⟩

theorem Derives.opensPlain {s : List Char} {t : Template} (h : Derives s t)
    (ht : t.declarations = []) : OpensPlain s := by
  induction h with
  | empty =>
    intro tail htail
    cases htail
  | text _ hopen _ ih =>
    refine (ih ht).append ?_
    rintro - tail htail
    cases htail
    exact absurd rfl hopen
  | @reference s body t symbol calls _ _ hplain ih =>
    rw [List.append_assoc]
    refine (ih ht).append ?_
    rintro - tail htail
    cases htail
    -- there is a delimiter: the closing brace, if no other
    cases hfind : (body ++ ['}']).find? isDelimiter with
    | none => simp [isDelimiter] at hfind
    | some c => exact ⟨c, rfl, fun hc => hplain.undeclared (by rw [hfind, hc])⟩
  | decorator _ _ ih =>
    rw [List.append_assoc]
    refine (ih ht).append ?_
    rintro - tail htail
    cases htail
    exact ⟨'{', rfl, by decide⟩
  | @declaration _ v _ t value =>
    have hput : Table.put t.declarations (String.ofList v) value = [] := ht
    have hentry := Table.get?_put t.declarations (String.ofList v) value (String.ofList v)
    rw [hput, if_pos rfl] at hentry
    cases hentry

/-! ### Reading names back -/

theorem toList_referenceText (name : String) : ∀ decorator, (referenceText name decorator).toList =
    if decorator then '{' :: '{' :: escape name.toList ++ ['}', '}']
    else '{' :: escape name.toList ++ ['}']
  | true => by simp [referenceText]
  | false => by simp [referenceText]

theorem readPieces_undeclared {bound : Nat} {nested : Bool} {pieces : List Piece} {tail : List Char}
    {e : Fault} (hstarts : startsDeclaration tail = true)
    (hd : readDeclared ('{' :: tail) tail = .error e) (h : ('{' :: tail).length ≤ bound) :
    readPieces bound nested pieces ('{' :: tail) h = .error e := by
  rw [readPieces, if_pos hstarts]
  split
  · rename_i he
    exact congrArg Except.error (Except.error.inj (he.symm.trans hd))
  · rename_i he
    cases he.symm.trans hd

/-- Where the name of a declaration would stand, an equals sign without a space after it is a fault. -/
theorem parse_unspaced {text : String} {v after : List Char} (hv : ∀ c ∈ v, isDelimiter c = false)
    (hne : v ≠ []) (hafter : after.head? ≠ some ' ') (htext : text.toList = '{' :: (v ++ '=' :: after)) :
    parse text = .error (Fault.locate ⟨.missingSpaceAfterEquals, after⟩ text.toList) := by
  have hdeclared : readDeclared ('{' :: (v ++ '=' :: after)) (v ++ '=' :: after) =
      .error ⟨.missingSpaceAfterEquals, after⟩ := by
    obtain ⟨htake, hdrop⟩ := takeWhile_name hv after
    rw [readDeclared, htake, hdrop, List.tail_cons, if_neg (by simpa using hne)]
    split
    · exact absurd rfl hafter
    · rfl
  have hstarts := startsDeclaration_of_name hv after
  rw [parse, parseChars, htext, readPieces_undeclared hstarts hdeclared]

/-- An equals sign that comes before all other delimiters, and before no space, is a fault. -/
theorem escaped_name_fault {before after : List Char} (hbefore : ∀ c ∈ before, isDelimiter c = false)
    (hafter : after.head? ≠ some ' ') :
    ∃ e, parse (referenceText (String.ofList (before ++ '=' :: after)) false) = .error e ∧
      e.kind = .missingSpaceAfterEquals := by
  have hsplit : escape (before ++ '=' :: after) ++ ['}'] =
      (escape before ++ ['\\']) ++ '=' :: (escape after ++ ['}']) := by
    simp [escape, escapeChar, symbolEnds]
  have hname : ∀ c ∈ escape before ++ ['\\'], isDelimiter c = false := by
    have hnone : (escape before ++ ['\\']).find? isDelimiter = none := by
      rw [List.find?_append, find?_escape, List.find?_eq_none.mpr (by simpa using hbefore)]
      decide
    simpa using List.find?_eq_none.mp hnone
  have hhead : (escape after ++ ['}']).head? ≠ some ' ' := by
    cases after with
    | nil => decide
    | cons c after =>
      have hc : c ≠ ' ' := by simpa using hafter
      rw [escape_cons]
      by_cases h : c ∈ symbolEnds <;> simp [escapeChar, h, hc]
  refine ⟨_, parse_unspaced hname (by simp) hhead ?_, rfl⟩
  rw [toList_referenceText, if_neg Bool.false_ne_true, String.toList_ofList, List.cons_append, hsplit]

/-- **Which names can be written in a template.** With a backslash before every character that ends a
symbol, a name is read back between doubled braces, always; between single braces it is read back exactly
if no equals sign comes before the first brace, point, opening parenthesis or blank in it. -/
theorem escaped_name_parse (name : String) :
    parse (referenceText name true) = .ok (referringTo name true) ∧
      (parse (referenceText name false) = .ok (referringTo name false) ↔
        name.toList.find? isDelimiter ≠ some '=') := by
  have hdecorator := Derives.empty.decorator (referring_escape name)
  have htemplate : ∀ decorator, (⟨"", "", [], []⟩ : Template).withReference
      (referenceText name decorator).toList ⟨name, [], decorator⟩ = referringTo name decorator := by
    intro decorator
    rw [withReference, String.ofList_toList]
    rfl
  constructor
  · have htext := toList_referenceText name true
    rw [if_pos rfl] at htext
    apply Derives.parse_eq
    rw [← htemplate, htext]
    exact hdecorator
  · have htext := toList_referenceText name false
    rw [if_neg Bool.false_ne_true] at htext
    rw [← isPlain_escape]
    constructor
    · intro h
      obtain ⟨c, hfind, hc⟩ := (derives_of_parse h).opensPlain rfl _ htext
      refine ⟨head?_escape _ ['}'] (by decide), ?_⟩
      intro hequals
      exact hc (Option.some.inj (hfind.symm.trans hequals))
    · intro hplain
      apply Derives.parse_eq
      rw [← htemplate, htext]
      exact Derives.empty.reference (referring_escape name) hplain

/-- An equals sign in a name cannot be written between single braces: it is taken for a declaration that
lacks its space, and where the name has a space there, for a declaration. -/
theorem equation_misread :
    parse (referenceText "a=b" false) = .error ⟨.missingSpaceAfterEquals, 4, "\x7ba\\=b\x7d"⟩ ∧
      parse (referenceText "a= b" false) =
        .ok ⟨"\x7ba\\= b\x7d", "", [], [("a\\", ⟨"b", "b", [], []⟩)]⟩ :=
  ⟨by with_unfolding_all rfl, by with_unfolding_all rfl⟩

end Fabula.Template
