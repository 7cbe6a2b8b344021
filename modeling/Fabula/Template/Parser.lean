import Fabula.Template.Basic
import Fabula.Template.SyntaxError

/-!
# Fabula.Template.Parser

Reading a **template** from its text.

The text is first read into *pieces*, one for each character of plain text, each reference and each
declaration, and the template is then put together from its pieces (`Template.ofPieces`): references
are numbered in the pattern, and declarations are entered into a table, where a later value for a name
replaces the earlier one in its place.

Design points:

* Every reader takes the characters that are left and returns what it read with the characters left
  after it. These never get more, and each step of a loop takes at least one (`…_length`), so all
  loops end.
* A fault carries the characters left at the place that it points at, which may lie before the place
  where reading stopped: an unclosed reference is reported at its opening brace.
* A declaration is told from a reference by a look ahead (`startsDeclaration`): an equals sign comes
  before any white space, brace, point or parenthesis. A second brace ends the look ahead, so a
  decorator is never taken for a declaration.
-/

namespace Fabula.Template

/-- A failed reading: what is wrong, and the characters left at the place of the fault. -/
structure Fault where
  /-- What is wrong. -/
  kind : SyntaxError.Kind
  /-- What is left where the fault lies. -/
  rest : List Char
  deriving DecidableEq

/-- The result of a reader: a value and the characters left after it. -/
abbrev Reading (α : Type) := Except Fault (α × List Char)

/-! ### Names and modifiers -/

/-- The symbol of a reference that opened at `brace`. A backslash takes the next character as it is;
otherwise the symbol ends at a point or a closing brace. -/
def readSymbol (brace : List Char) : List Char → Reading (List Char)
  | [] => .error ⟨.unterminatedExpansion, brace⟩
  | '\\' :: [] => .error ⟨.unterminatedExpansion, brace⟩
  | '\\' :: c :: cs => (readSymbol brace cs).map fun (name, rest) => (c :: name, rest)
  | c :: cs =>
    if c = '.' || c = '}' then .ok ([], c :: cs)
    else if c = '{' then .error ⟨.unexpectedOpenBrace, c :: cs⟩
    else if c = '=' then .error ⟨.unexpectedEquals, c :: cs⟩
    else if c = '(' then .error ⟨.unexpectedOpenParen, c :: cs⟩
    else if c = ')' then .error ⟨.unmatchedCloseParen, c :: cs⟩
    else (readSymbol brace cs).map fun (name, rest) => (c :: name, rest)

/-- The name of a modifier, which ends at a point, a closing brace or an argument list. -/
def readModifierName (brace : List Char) : List Char → Reading (List Char)
  | [] => .error ⟨.unterminatedExpansion, brace⟩
  | c :: cs =>
    if c = '.' || c = '}' || c = '(' then .ok ([], c :: cs)
    else if c = '{' then .error ⟨.unexpectedOpenBrace, c :: cs⟩
    else if c = '=' then .error ⟨.unexpectedEquals, c :: cs⟩
    else if c = ')' then .error ⟨.unmatchedCloseParen, c :: cs⟩
    else (readModifierName brace cs).map fun (name, rest) => (c :: name, rest)

/-- The text of an argument list that opened at `paren`, up to the closing parenthesis. Inside a text,
`within` holds its quotation mark and the place where it began, and parentheses do not count there. -/
def spanArguments (paren : List Char) (within : Option (Char × List Char)) :
    List Char → Reading (List Char)
  | [] =>
    match within with
    | none => .error ⟨.unterminatedArguments, paren⟩
    | some (_, start) => .error ⟨.unterminatedString, start⟩
  | c :: cs =>
    match within with
    | none =>
      if c = ')' then .ok ([], c :: cs)
      else if c = '(' then .error ⟨.unexpectedOpenParen, c :: cs⟩
      else if c = '\'' || c = '"' then
        (spanArguments paren (some (c, c :: cs)) cs).map fun (inner, rest) => (c :: inner, rest)
      else (spanArguments paren none cs).map fun (inner, rest) => (c :: inner, rest)
    | some (quote, start) =>
      if c = quote then
        (spanArguments paren none cs).map fun (inner, rest) => (c :: inner, rest)
      else if c = '\\' then
        match cs with
        | [] => .error ⟨.unterminatedString, start⟩
        | d :: cs =>
          (spanArguments paren within cs).map fun (inner, rest) => (c :: d :: inner, rest)
      else (spanArguments paren within cs).map fun (inner, rest) => (c :: inner, rest)

/-- The argument list that opened at `paren`, read from the characters after its parenthesis. -/
def readArguments (paren cs : List Char) : Reading (List Argument) :=
  match spanArguments paren none cs with
  | .error e => .error e
  | .ok (inner, rest) =>
    match ArgumentList.read inner with
    | .ok args => .ok (args, rest.tail)
    | .error e => .error ⟨.invalidArguments e.cause, e.rest ++ rest⟩

/-- What may follow an argument list: another modifier, or the end of the reference. -/
def checkAfterArguments : List Char → Except Fault Unit
  | [] => .ok ()
  | c :: cs =>
    if c = '.' || c = '}' then .ok ()
    else if c = ')' then .error ⟨.unmatchedCloseParen, c :: cs⟩
    else if c = '(' then .error ⟨.unexpectedOpenParen, c :: cs⟩
    else if c = '{' then .error ⟨.unexpectedOpenBrace, c :: cs⟩
    else .error ⟨.unexpectedCharacter c, c :: cs⟩

/-- A modifier, from the characters after its point. -/
def readModifier (brace cs : List Char) : Reading ModifierCall :=
  match readModifierName brace cs with
  | .error e => .error e
  | .ok (name, rest) =>
    if name.isEmpty then .error ⟨.emptyModifierName, rest⟩
    else
      match rest with
      | '(' :: inner =>
        match readArguments rest inner with
        | .error e => .error e
        | .ok (args, rest) =>
          match checkAfterArguments rest with
          | .error e => .error e
          | .ok () => .ok (⟨String.ofList name, args⟩, rest)
      | _ => .ok (⟨String.ofList name, []⟩, rest)

/-! ### Readers do not add characters -/

theorem readSymbol_length {brace cs name rest : List Char}
    (h : readSymbol brace cs = .ok (name, rest)) : rest.length ≤ cs.length := by
  fun_induction readSymbol brace cs generalizing name rest with
  | case1 => simp at h
  | case2 => simp at h
  | case3 c cs ih =>
    cases hr : readSymbol brace cs with
    | error e => simp [hr, Except.map] at h
    | ok p =>
      have := ih hr
      simp only [hr, Except.map, Except.ok.injEq, Prod.mk.injEq] at h
      obtain ⟨_, rfl⟩ := h
      simp only [List.length_cons]; omega
  | case4 =>
    simp only [Except.ok.injEq, Prod.mk.injEq] at h
    obtain ⟨_, rfl⟩ := h
    exact Nat.le_refl _
  | case5 => simp at h
  | case6 => simp at h
  | case7 => simp at h
  | case8 => simp at h
  | case9 c cs _ _ _ _ _ _ _ ih =>
    cases hr : readSymbol brace cs with
    | error e => simp [hr, Except.map] at h
    | ok p =>
      have := ih hr
      simp only [hr, Except.map, Except.ok.injEq, Prod.mk.injEq] at h
      obtain ⟨_, rfl⟩ := h
      simp only [List.length_cons]; omega

theorem readModifierName_length {brace cs name rest : List Char}
    (h : readModifierName brace cs = .ok (name, rest)) :
    rest.length + name.length = cs.length := by
  induction cs generalizing name rest with
  | nil => simp [readModifierName] at h
  | cons c cs ih =>
    unfold readModifierName at h
    split at h
    · simp only [Except.ok.injEq, Prod.mk.injEq] at h
      obtain ⟨rfl, rfl⟩ := h
      rfl
    · split at h
      · simp at h
      · split at h
        · simp at h
        · split at h
          · simp at h
          · cases hr : readModifierName brace cs with
            | error e => simp [hr, Except.map] at h
            | ok p =>
              have := ih hr
              simp only [hr, Except.map, Except.ok.injEq, Prod.mk.injEq] at h
              obtain ⟨rfl, rfl⟩ := h
              simp only [List.length_cons]; omega

theorem spanArguments_length {paren cs inner rest : List Char}
    {within : Option (Char × List Char)}
    (h : spanArguments paren within cs = .ok (inner, rest)) :
    inner.length + rest.length = cs.length := by
  fun_induction spanArguments paren within cs generalizing inner rest
  all_goals first
    | contradiction
    | (simp only [Except.ok.injEq, Prod.mk.injEq] at h
       obtain ⟨rfl, rfl⟩ := h
       exact Nat.zero_add _)
    | (rename_i ih
       simp only [Except.map] at h
       split at h
       · contradiction
       · rename_i p hp
         have := ih hp
         simp only [Except.ok.injEq, Prod.mk.injEq] at h
         obtain ⟨rfl, rfl⟩ := h
         simp only [List.length_cons]; omega)

theorem readArguments_length {paren cs rest : List Char} {args : List Argument}
    (h : readArguments paren cs = .ok (args, rest)) : rest.length ≤ cs.length := by
  unfold readArguments at h
  split at h
  · simp at h
  · rename_i inner r hs
    split at h
    · simp only [Except.ok.injEq, Prod.mk.injEq] at h
      have := spanArguments_length hs
      obtain ⟨_, rfl⟩ := h
      rw [List.length_tail]; omega
    · simp at h

/-- A modifier takes at least one character. -/
theorem readModifier_length {brace cs rest : List Char} {call : ModifierCall}
    (h : readModifier brace cs = .ok (call, rest)) : rest.length ≤ cs.length := by
  unfold readModifier at h
  split at h
  · simp at h
  · rename_i name r hn
    have hlen := readModifierName_length hn
    split at h
    · simp at h
    · split at h
      · split at h
        · simp at h
        · rename_i ha
          have := readArguments_length ha
          split at h
          · simp at h
          · simp only [Except.ok.injEq, Prod.mk.injEq] at h
            simp only [List.length_cons] at hlen
            obtain ⟨_, rfl⟩ := h
            omega
      · simp only [Except.ok.injEq, Prod.mk.injEq] at h
        obtain ⟨_, rfl⟩ := h
        omega

/-! ### References -/

/-- The modifiers of a reference that opened at `brace`. -/
def readModifiers (brace : List Char) (cs : List Char) : Reading (List ModifierCall) :=
  match cs with
  | '.' :: tail =>
    match h : readModifier brace tail with
    | .error e => .error e
    | .ok (call, rest) =>
      have := readModifier_length h
      (readModifiers brace rest).map fun (calls, rest) => (call :: calls, rest)
  | _ => .ok ([], cs)
termination_by cs.length

/-- A reference that opened at `brace`, from the characters after its braces. -/
def readReference (brace : List Char) (decorator : Bool) (cs : List Char) : Reading Reference :=
  match readSymbol brace cs with
  | .error e => .error e
  | .ok (symbol, rest) =>
    match readModifiers brace rest with
    | .error e => .error e
    | .ok (calls, rest) =>
      match rest with
      | '}' :: after =>
        if decorator then
          match after with
          | '}' :: after => .ok (⟨String.ofList symbol, calls, true⟩, after)
          | _ => .error ⟨.unterminatedDecorator, after⟩
        else .ok (⟨String.ofList symbol, calls, false⟩, after)
      | _ => .error ⟨.unterminatedExpansion, brace⟩

theorem readModifiers_length {brace cs rest : List Char} {calls : List ModifierCall}
    (h : readModifiers brace cs = .ok (calls, rest)) : rest.length ≤ cs.length := by
  fun_induction readModifiers brace cs generalizing calls rest with
  | case1 => simp at h
  | case2 tail call rest' hm _ ih =>
    cases hr : readModifiers brace rest' with
    | error e => simp [hr, Except.map] at h
    | ok p =>
      have := ih hr
      simp only [hr, Except.map, Except.ok.injEq, Prod.mk.injEq] at h
      obtain ⟨_, rfl⟩ := h
      simp only [List.length_cons]; omega
  | case3 =>
    simp only [Except.ok.injEq, Prod.mk.injEq] at h
    obtain ⟨_, rfl⟩ := h
    exact Nat.le_refl _

/-- A reference takes at least its closing brace. -/
theorem readReference_length {brace cs rest : List Char} {decorator : Bool} {r : Reference}
    (h : readReference brace decorator cs = .ok (r, rest)) : rest.length < cs.length := by
  unfold readReference at h
  split at h
  · simp at h
  · rename_i hs
    have h1 := readSymbol_length hs
    split at h
    · simp at h
    · rename_i hm
      have h2 := readModifiers_length hm
      split at h
      · simp only [List.length_cons] at h2
        split at h
        · split at h
          · simp only [Except.ok.injEq, Prod.mk.injEq] at h
            simp only [List.length_cons] at h2
            obtain ⟨_, rfl⟩ := h
            omega
          · simp at h
        · simp only [Except.ok.injEq, Prod.mk.injEq] at h
          obtain ⟨_, rfl⟩ := h
          omega
      · simp at h

/-- A reference from what follows its first brace. A second brace makes it a decorator. -/
def readOpened (tail : List Char) : Reading Reference :=
  match tail with
  | '{' :: after => readReference ('{' :: '{' :: after) true after
  | _ => readReference ('{' :: tail) false tail

theorem readOpened_length {tail rest : List Char} {r : Reference}
    (h : readOpened tail = .ok (r, rest)) : rest.length < tail.length := by
  unfold readOpened at h
  split at h
  · exact Nat.lt_succ_of_lt (readReference_length h)
  · exact readReference_length h

/-! ### Pieces -/

/-- A piece of a template's text. -/
inductive Piece
  /-- A character of plain text. -/
  | text (c : Char)
  /-- A reference. -/
  | reference (r : Reference)
  /-- A declaration. -/
  | declaration (name : String) (value : Template)

/-- The pattern of a list of pieces, `next` being the number of its first reference. -/
def patternOf (next : Nat) : List Piece → List Char
  | [] => []
  | .text c :: ps => c :: patternOf next ps
  | .reference _ :: ps => '{' :: (Nat.toDigits 10 next ++ '}' :: patternOf (next + 1) ps)
  | .declaration .. :: ps => patternOf next ps

/-- The references among pieces. -/
def referencesOf : List Piece → List Reference
  | [] => []
  | .reference r :: ps => r :: referencesOf ps
  | _ :: ps => referencesOf ps

/-- The declarations among pieces, entered after those in `table`. -/
def declarationsOf (table : Table Template) : List Piece → Table Template
  | [] => table
  | .declaration name value :: ps => declarationsOf (table.put name value) ps
  | _ :: ps => declarationsOf table ps

/-- The template that a text stands for, given its pieces. -/
def ofPieces (source : List Char) (pieces : List Piece) : Template where
  source := String.ofList source
  pattern := String.ofList (patternOf 0 pieces)
  references := referencesOf pieces
  declarations := declarationsOf [] pieces

/-- An equals sign comes before white space and before every character that a reference uses. -/
def startsDeclaration : List Char → Bool
  | [] => false
  | c :: cs =>
    if c = '=' then true
    else if c = '}' || c = '{' || c = '.' || c = '(' || Text.isBlank c then false
    else startsDeclaration cs

/-- The name of a declaration that opened at `brace`, with its equals sign and the space after it. -/
def readDeclared (brace cs : List Char) : Reading (List Char) :=
  let name := cs.takeWhile (· ≠ '=')
  let rest := (cs.dropWhile (· ≠ '=')).tail
  if name.isEmpty then .error ⟨.emptyVariableName, brace⟩
  else
    match rest with
    | ' ' :: after => .ok (name, after)
    | _ => .error ⟨.missingSpaceAfterEquals, rest⟩

theorem readDeclared_length {brace cs name rest : List Char}
    (h : readDeclared brace cs = .ok (name, rest)) : rest.length < cs.length := by
  unfold readDeclared at h
  simp only at h
  have hd := ArgumentList.length_dropWhile_le (· ≠ '=') cs
  split at h
  · simp at h
  · split at h
    · rename_i after heq
      simp only [Except.ok.injEq, Prod.mk.injEq] at h
      have : (cs.dropWhile (· ≠ '=')).tail.length = after.length + 1 := by rw [heq]; rfl
      rw [List.length_tail] at this
      obtain ⟨_, rfl⟩ := h
      omega
    · simp at h

/-- The pieces up to the end of the text or, when `nested`, up to the closing brace of a declaration;
`pieces` have been read, last piece first. No more characters are left than the `bound` that holds
for those given. -/
def readPieces (bound : Nat) (nested : Bool) (pieces : List Piece) (cs : List Char)
    (hcs : cs.length ≤ bound) :
    Except Fault (List Piece × { rest : List Char // rest.length ≤ bound }) :=
  match cs with
  | [] =>
    if nested then .error ⟨.unterminatedVariable, []⟩ else .ok (pieces.reverse, ⟨[], hcs⟩)
  | '}' :: tail =>
    if nested then .ok (pieces.reverse, ⟨'}' :: tail, hcs⟩)
    else .error ⟨.unmatchedCloseBrace, '}' :: tail⟩
  | '{' :: tail =>
    if startsDeclaration tail then
      match h : readDeclared ('{' :: tail) tail with
      | .error e => .error e
      | .ok (name, value) =>
        have := readDeclared_length h
        match readPieces value.length true [] value (Nat.le_refl _) with
        | .error e => .error e
        | .ok (inner, ⟨rest, _⟩) =>
          let source := value.take (value.length - rest.length)
          let piece := Piece.declaration (String.ofList name) (ofPieces source inner)
          readPieces bound nested (piece :: pieces) rest.tail
            (by simp only [List.length_tail, List.length_cons] at *; omega)
    else
      match h : readOpened tail with
      | .error e => .error e
      | .ok (r, rest) =>
        have := readOpened_length h
        readPieces bound nested (.reference r :: pieces) rest
          (by simp only [List.length_cons] at hcs; omega)
  | c :: tail =>
    readPieces bound nested (.text c :: pieces) tail (by simp only [List.length_cons] at hcs; omega)
termination_by cs.length
decreasing_by
  all_goals simp only [List.length_tail, List.length_cons] at *
  all_goals omega

/-! ### Whole templates -/

/-- The number of bytes of a text. -/
def byteSize (cs : List Char) : Nat := cs.foldl (fun n c => n + c.utf8Size) 0

theorem byteSize_append (a b : List Char) : byteSize (a ++ b) = byteSize a + byteSize b := by
  have hfrom : ∀ (cs : List Char) (n : Nat),
      cs.foldl (fun n c => n + c.utf8Size) n = n + byteSize cs := by
    intro cs
    unfold byteSize
    induction cs with
    | nil => exact fun _ => rfl
    | cons c cs ih =>
      intro n
      rw [List.foldl_cons, List.foldl_cons, ih, ih (0 + _)]
      omega
  rw [byteSize, List.foldl_append, hfrom]
  rfl

/-- A fault in `cs` with its place counted from the start. -/
def Fault.locate (e : Fault) (cs : List Char) : SyntaxError :=
  ⟨e.kind, byteSize cs - byteSize e.rest, String.ofList cs⟩

/-- Read a template. -/
def parseChars (cs : List Char) : Except SyntaxError Template :=
  match readPieces cs.length false [] cs (Nat.le_refl _) with
  | .ok (pieces, _) => .ok (ofPieces cs pieces)
  | .error e => .error (e.locate cs)

/-- Read a template. -/
def parse (text : String) : Except SyntaxError Template := parseChars text.toList

end Fabula.Template
