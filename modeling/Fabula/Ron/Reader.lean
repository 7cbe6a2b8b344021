import Fabula.Ron.Value

/-!
# Fabula.Ron.Reader

Reading **RON text**. White space and comments may stand between any two parts of a value; a comma may
stand after the last item of a list, a map or a record. Attributes that enable extensions may stand in
front of the value.

Readers take the characters that are left and return what they read with the characters after it, or
nothing when the text is malformed. Items are divided by commas, so there are no more of them in any
bracket than the text has characters (`Scope.size`).
-/

namespace Fabula.Ron

/-! ### Gaps -/

/-- What is being passed over. -/
inductive Gap
  /-- White space. -/
  | space
  /-- A comment up to the end of the line. -/
  | line
  /-- A comment in a comment, with the number of openings that are not closed, less one. -/
  | block (depth : Nat)

/-- The characters that count as white space. -/
def isSpace (c : Char) : Bool := c = ' ' || c = '\n' || c = '\t' || c = '\r'

/-- What is left after white space and comments. -/
def skipGap : Gap → List Char → Option (List Char)
  | .space, '/' :: '/' :: cs => skipGap .line cs
  | .space, '/' :: '*' :: cs => skipGap (.block 0) cs
  | .space, '/' :: _ => none
  | .space, c :: cs => if isSpace c then skipGap .space cs else some (c :: cs)
  | .line, c :: cs => if c = '\n' then skipGap .space cs else skipGap .line cs
  | .block d, '/' :: '*' :: cs => skipGap (.block (d + 1)) cs
  | .block 0, '*' :: '/' :: cs => skipGap .space cs
  | .block (d + 1), '*' :: '/' :: cs => skipGap (.block d) cs
  | .block d, _ :: cs => skipGap (.block d) cs
  | .space, [] => some []
  | .line, [] => some []
  | .block _, [] => none

/-- What is left after white space and comments. -/
def skip (cs : List Char) : Option (List Char) := skipGap .space cs

/-! ### Leaves -/

/-- What a character after a backslash stands for by itself. -/
def simpleEscape? (c : Char) : Option Char :=
  if c = '\'' || c = '"' || c = '\\' then some c
  else if c = 'n' then some '\n'
  else if c = 'r' then some '\r'
  else if c = 't' then some '\t'
  else if c = '0' then some '\x00'
  else none

/-- The character with a number of two digits, which follow `x`. -/
def readShortNumber : List Char → Option (Char × List Char)
  | a :: b :: rest => (Numeral.hexValue? 0 [a, b]).map fun n => (Char.ofNat n, rest)
  | _ => none

/-- The character with a number of one to six digits, which follow `u` in braces. -/
def readLongNumber : List Char → Option (Char × List Char)
  | '{' :: rest =>
    let digits := rest.takeWhile (· ≠ '}')
    match rest.dropWhile (· ≠ '}') with
    | [] => none
    | _ :: after =>
      if digits.isEmpty || 6 < digits.length then none
      else ((Numeral.hexValue? 0 digits).bind Numeral.character?).map fun c => (c, after)
  | _ => none

/-- A character after a backslash. -/
def readEscape : List Char → Option (Char × List Char)
  | [] => none
  | c :: cs =>
    match simpleEscape? c with
    | some d => some (d, cs)
    | none =>
      if c = 'x' then readShortNumber cs
      else if c = 'u' then readLongNumber cs
      else none

theorem readShortNumber_length {cs rest : List Char} {c : Char}
    (h : readShortNumber cs = some (c, rest)) : rest.length ≤ cs.length := by
  unfold readShortNumber at h
  split at h
  · simp only [Option.map_eq_some_iff, Prod.mk.injEq] at h
    obtain ⟨_, _, _, rfl⟩ := h
    simp only [List.length_cons]; omega
  · simp at h

theorem readLongNumber_length {cs rest : List Char} {c : Char}
    (h : readLongNumber cs = some (c, rest)) : rest.length ≤ cs.length := by
  unfold readLongNumber at h
  split at h
  · rename_i tail
    have hd := (List.dropWhile_suffix (l := tail) (· ≠ '}')).length_le
    simp only at h
    split at h
    · simp at h
    · rename_i heq
      rw [heq] at hd
      split at h
      · simp at h
      · simp only [Option.map_eq_some_iff, Prod.mk.injEq] at h
        obtain ⟨_, _, _, rfl⟩ := h
        simp only [List.length_cons] at hd ⊢
        omega
  · simp at h

/-- An escape takes at least one character. -/
theorem readEscape_length {cs rest : List Char} {c : Char}
    (h : readEscape cs = some (c, rest)) : rest.length < cs.length := by
  cases cs with
  | nil => simp [readEscape] at h
  | cons e tail =>
    simp only [readEscape] at h
    rw [List.length_cons, Nat.lt_succ_iff]
    split at h
    · simp only [Option.some.injEq, Prod.mk.injEq] at h
      obtain ⟨_, rfl⟩ := h
      exact Nat.le_refl _
    · split at h
      · exact readShortNumber_length h
      · split at h
        · exact readLongNumber_length h
        · simp at h

/-- The rest of a text up to its quotation mark; `text` has been read, last character first. -/
def readQuoted (text : List Char) (cs : List Char) : Option (String × List Char) :=
  match cs with
  | [] => none
  | c :: tail =>
    if c = '"' then some (String.ofList text.reverse, tail)
    else if c = '\\' then
      match h : readEscape tail with
      | some (d, rest) =>
        have := readEscape_length h
        readQuoted (d :: text) rest
      | none => none
    else readQuoted (c :: text) tail
termination_by cs.length

/-- The rest of a text without escapes, up to a quotation mark with `fence` after it. -/
def readRaw (fence : List Char) (text : List Char) : List Char → Option (String × List Char)
  | [] => none
  | c :: cs =>
    if c = '"' && fence.isPrefixOf cs then
      some (String.ofList text.reverse, cs.drop fence.length)
    else readRaw fence (c :: text) cs

/-- A text without escapes, from the characters after its `r`. -/
def readRawText (cs : List Char) : Option (String × List Char) :=
  let fence := cs.takeWhile (· = '#')
  match cs.drop fence.length with
  | '"' :: rest => readRaw fence [] rest
  | _ => none

/-- A character, from the characters after its first apostrophe. -/
def readCharacter : List Char → Option (Char × List Char)
  | '\\' :: cs =>
    match readEscape cs with
    | some (c, '\'' :: rest) => some (c, rest)
    | _ => none
  | c :: '\'' :: rest => if c = '\'' then none else some (c, rest)
  | _ => none

/-- `c` can stand in a name. -/
def isNameChar (c : Char) : Bool := c.isAlphanum || c = '_'

/-- `c` can stand in a name that is marked by `r#`. -/
def isMarkedNameChar (c : Char) : Bool := isNameChar c || c = '.' || c = '+' || c = '-'

/-- A name. A name that would go on with a character that needs the mark is malformed. -/
def readName (cs : List Char) : Option (String × List Char) :=
  match cs with
  | 'r' :: '#' :: rest =>
    let name := rest.takeWhile isMarkedNameChar
    if name.isEmpty then none else some (String.ofList name, rest.drop name.length)
  | c :: _ =>
    if c.isAlpha || c = '_' then
      let name := cs.takeWhile isNameChar
      let rest := cs.drop name.length
      if (rest.head?.map isMarkedNameChar).getD false then none
      else some (String.ofList name, rest)
    else none
  | [] => none

/-- `c` can stand in a whole number. -/
def isCountChar (c : Char) : Bool := (Numeral.hexDigit? c).isSome || c = '_'

/-- `c` can stand in a decimal. -/
def isDecimalChar (c : Char) : Bool :=
  c.isDigit || c = 'e' || c = 'E' || c = '.' || c = '+' || c = '-'

/-- A number without its sign: a decimal if that takes more characters than a whole number would. -/
def spanUnsigned (cs : List Char) : List Char :=
  let decimal := cs.takeWhile isDecimalChar
  if (cs.takeWhile isCountChar).length < decimal.length then decimal
  else
    match cs with
    | '0' :: b :: rest =>
      if b = 'x' || b = 'b' || b = 'o' then '0' :: b :: rest.takeWhile isCountChar
      else cs.takeWhile isCountChar
    | _ => cs.takeWhile isCountChar

/-- The characters of a number at the start of a text. -/
def spanNumber (cs : List Char) : List Char :=
  match cs with
  | '+' :: rest => '+' :: spanUnsigned rest
  | '-' :: rest => '-' :: spanUnsigned rest
  | _ => spanUnsigned cs

/-- A number. -/
def readNumber (cs : List Char) : Option (Value × List Char) :=
  let raw := spanNumber cs
  if (floatOf? (String.ofList raw)).isSome then
    some (.number (String.ofList raw), cs.drop raw.length)
  else none

/-- What is left after a word, if the text starts with it and the word does not go on. -/
def afterWord? (word : String) (cs : List Char) : Option (List Char) :=
  let rest := cs.drop word.length
  if word.toList.isPrefixOf cs && !(rest.head?.map isNameChar).getD false then some rest else none

/-- The words that stand for values. -/
def fixedWords : List (String × Value) :=
  [("true", .flag true), ("false", .flag false), ("None", .absent)] ++
    namedFloats.map fun p => (p.1, .number p.1)

/-- A word that stands for a value. -/
def readFixedWord (cs : List Char) : Option (Value × List Char) :=
  fixedWords.findSome? fun (word, v) => (afterWord? word cs).map fun rest => (v, rest)

/-- The characters after `r` start a text without escapes. -/
def opensRawText (cs : List Char) : Bool := (cs.dropWhile (· = '#')).head? = some '"'

/-! ### Values -/

/-- What is known of a whole text while its parts are read. -/
structure Scope where
  /-- The number of its characters. No bracket holds more items. -/
  size : Nat
  /-- Optional values may be written without parentheses. -/
  short : Bool

/-- Items divided by commas, up to `close`; `items` have been read, last item first. There are at
most so many more. -/
def readItems {α : Type} (item : List Char → Option (α × List Char)) (close : Char)
    (items : List α) : Nat → List Char → Option (List α × List Char)
  | 0, _ => none
  | more + 1, cs =>
    match skip cs with
    | none => none
    | some [] => none
    | some (c :: tail) =>
      if c = close then some (items.reverse, tail)
      else
        match item (c :: tail) with
        | none => none
        | some (a, rest) =>
          match skip rest with
          | none => none
          | some [] => none
          | some (d :: after) =>
            if d = close then some ((a :: items).reverse, after)
            else if d = ',' then readItems item close (a :: items) more after
            else none

/-- A value, a colon standing before it. -/
def readAfterColon (value : List Char → Option (Value × List Char)) (cs : List Char) :
    Option (Value × List Char) :=
  match skip cs with
  | some (':' :: rest) => (skip rest).bind value
  | _ => none

/-- An entry of a map. -/
def readEntry (value : List Char → Option (Value × List Char)) (cs : List Char) :
    Option ((Value × Value) × List Char) := do
  let (k, rest) ← value cs
  let (v, rest) ← readAfterColon value rest
  return ((k, v), rest)

/-- A field of a record. -/
def readField (value : List Char → Option (Value × List Char)) (cs : List Char) :
    Option ((String × Value) × List Char) := do
  let (k, rest) ← readName cs
  let (v, rest) ← readAfterColon value rest
  return ((k, v), rest)

/-- The part in parentheses of a record or a tuple, from the characters after the opening one. It is
a record if it is empty or starts with a name and a colon. -/
def readParenthesized (scope : Scope) (value : List Char → Option (Value × List Char))
    (name : Option String) (cs : List Char) : Option (Value × List Char) :=
  let named := ((skip cs).bind fun cs => (readName cs).bind fun p => skip p.2).bind List.head?
  let first := (skip cs).bind List.head?
  if named = some ':' || first = some ')' then
    (readItems (readField value) ')' [] scope.size cs).map fun (fields, rest) =>
      (.record name fields, rest)
  else (readItems value ')' [] scope.size cs).map fun (items, rest) => (.tuple name items, rest)

/-- A value that holds no other one, from its first character on. -/
def readLeaf (cs : List Char) : Option (Value × List Char) :=
  match cs with
  | [] => none
  | c :: tail =>
    if c = '"' then (readQuoted [] tail).map fun (s, rest) => (.text s, rest)
    else if c = '\'' then (readCharacter tail).map fun (d, rest) => (.character d, rest)
    else if c = 'r' && opensRawText tail then
      (readRawText tail).map fun (s, rest) => (.text s, rest)
    else if c.isDigit || c = '+' || c = '-' || c = '.' then readNumber cs
    else (readName cs).map fun (name, rest) => (.word name, rest)

/-- What follows the `Some` of an optional value: a value in parentheses, with a comma allowed after
it. If `short`, the parentheses may be left out. -/
def readPresent (short : Bool) (value : List Char → Option (Value × List Char)) (cs : List Char) :
    Option (Value × List Char) := do
  match ← skip cs with
  | '(' :: rest =>
    let (v, rest) ← value (← skip rest)
    let rest ← match ← skip rest with
      | ',' :: after => skip after
      | rest => some rest
    match rest with
    | ')' :: after => some (.present v, after)
    | _ => none
  | rest =>
    if short then (value rest).map fun (v, rest) => (.present v, rest) else none

/-- A value. `item` reads the values between its brackets, which cannot be opened if there is none,
and `payload` the value inside an optional one. -/
def readForm (scope : Scope) (item : Option (List Char → Option (Value × List Char)))
    (payload : List Char → Option (Value × List Char)) (cs : List Char) :
    Option (Value × List Char) :=
  match readFixedWord cs, afterWord? "Some" cs, cs with
  | some answer, _, _ => some answer
  | none, some rest, _ => readPresent scope.short payload rest
  | none, none, '(' :: ')' :: rest => some (.record none [], rest)
  | none, none, '(' :: rest => item.bind fun item => readParenthesized scope item none rest
  | none, none, '[' :: rest => item.bind fun item =>
    (readItems item ']' [] scope.size rest).map fun (items, rest) => (.list items, rest)
  | none, none, '{' :: rest => item.bind fun item =>
    (readItems (readEntry item) '}' [] scope.size rest).map fun (es, rest) => (.map es, rest)
  | none, none, cs =>
    match readLeaf cs with
    | some (.word name, rest) =>
      match skip rest with
      | some ('(' :: inner) => item.bind fun item => readParenthesized scope item (some name) inner
      | _ => some (.word name, rest)
    | other => other

/-- A value whose reading may go `steps` deeper. It takes one step to go between brackets and one
more to each item there, and one step to the value of an optional one. -/
def readValue (scope : Scope) : Nat → List Char → Option (Value × List Char)
  | 0 => readForm scope none fun _ => none
  | 1 => readForm scope (some fun _ => none) (readValue scope 0)
  | steps + 2 => readForm scope (some (readValue scope steps)) (readValue scope (steps + 1))

/-! ### Attributes -/

/-- The extension that lets optional values be written without parentheses. -/
def shortOptions : String := "implicit_some"

/-- The extensions that a text may ask for. All but `shortOptions` are about forms that no value here
has. -/
def extensions : List String := [shortOptions, "unwrap_newtypes", "unwrap_variant_newtypes"]

/-- The name of an extension. -/
def readExtension (cs : List Char) : Option (String × List Char) :=
  (readName cs).filter fun p => extensions.contains p.1

/-- What is left after a mark and the gap that follows it. -/
def expect (mark : List Char) (cs : List Char) : Option (List Char) :=
  if mark.isPrefixOf cs then skip (cs.drop mark.length) else none

/-- The names in an attribute `#![enable(name, name)]`, given what follows its first mark. -/
def readAttribute (cs : List Char) : Option (List String × List Char) := do
  let cs ← skip cs
  let cs ← expect ['!'] cs
  let cs ← expect ['['] cs
  let cs ← expect "enable".toList cs
  let cs ← expect ['('] cs
  let (names, cs) ← readItems readExtension ')' [] cs.length cs
  let cs ← expect [']'] (← skip cs)
  if names.isEmpty then none else some (names, cs)

/-- The names in all attributes at the start of a text, after those in `names`. -/
def readAttributes (names : List String) (cs : List Char) : Option (List String × List Char) :=
  match skip cs with
  | none => none
  | some ('#' :: tail) =>
    match readAttribute tail with
    | none => none
    | some (more, rest) =>
      if rest.length < cs.length then readAttributes (names ++ more) rest else none
  | some rest => some (names, rest)
termination_by cs.length

/-! ### Whole texts -/

/-- The value that a whole text stands for. -/
def read? (text : String) : Option Value := do
  let cs := text.toList
  let (names, rest) ← readAttributes [] cs
  let (v, rest) ← readValue ⟨cs.length, names.contains shortOptions⟩ depthLimit rest
  if (← skip rest).isEmpty then some v else none

end Fabula.Ron
