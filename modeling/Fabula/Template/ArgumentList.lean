import Fabula.Numeral.Hexadecimal
import Fabula.Numeral.Reading
import Fabula.Template.Argument
import Fabula.Text.Blank

/-!
# Fabula.Template.ArgumentList

Reading an **argument list**, the text between the parentheses of a modifier: values divided by
commas, with white space anywhere around them and a comma allowed at the end. A value is a text
between single or double quotation marks, with escapes after a backslash, or a decimal number.

A reader takes the characters that are left and returns the value with the characters left after it.
When it fails, the fault carries the characters that were left where it stopped, which is the place
that the message points at.
-/

namespace Fabula.ArgumentList

/-- What can be wrong with an argument list. -/
inductive Cause
  /-- Two values stand side by side. -/
  | expectedComma (found : Char)
  /-- A comma stands where a value should. -/
  | emptyArgument
  /-- No value starts with this character. -/
  | unexpectedCharacter (found : Char)
  /-- A text has no closing quotation mark. -/
  | unterminatedText
  /-- The list ends after a backslash. -/
  | unterminatedEscape
  /-- `u` is not followed by four hexadecimal digits of a character. -/
  | invalidCodePoint
  /-- A number is malformed or too large. -/
  | invalidNumber (raw : String)
  deriving DecidableEq

/-- The wording of a cause. -/
def Cause.message : Cause → String
  | .expectedComma c => "expected ',' but found '" ++ String.singleton c ++ "'"
  | .emptyArgument => "empty argument"
  | .unexpectedCharacter c => "unexpected character '" ++ String.singleton c ++ "'"
  | .unterminatedText => "unterminated string literal"
  | .unterminatedEscape => "unterminated escape sequence"
  | .invalidCodePoint => "invalid \\u escape"
  | .invalidNumber raw => "invalid number literal '" ++ raw ++ "'"

/-- A failed reading: why, and the characters left at the place of the fault. -/
structure Fault where
  /-- Why the list cannot be read. -/
  cause : Cause
  /-- What is left where the fault lies. -/
  rest : List Char
  deriving DecidableEq

/-- The remaining `count` hexadecimal digits of a character's number, `n` being read so far. -/
def readCodePoint (n : Nat) : Nat → List Char → Except Fault (Char × List Char)
  | 0, cs =>
    match Numeral.character? n with
    | some c => .ok (c, cs)
    | none => .error ⟨.invalidCodePoint, cs⟩
  | _ + 1, [] => .error ⟨.invalidCodePoint, []⟩
  | count + 1, c :: cs =>
    match Numeral.hexDigit? c with
    | some d => readCodePoint (n * 16 + d) count cs
    | none => .error ⟨.invalidCodePoint, cs⟩

/-- What a character after a backslash stands for, but for `u`; most stand for themselves. -/
def simpleEscape (c : Char) : Char :=
  if c = 'n' then '\n'
  else if c = 't' then '\t'
  else if c = 'r' then '\r'
  else if c = 'b' then '\x08'
  else if c = 'f' then '\x0c'
  else if c = 'v' then '\x0b'
  else if c = '0' then '\x00'
  else c

/-- One character of a text that starts with a backslash, given what follows the backslash. -/
def readEscape : List Char → Except Fault (Char × List Char)
  | [] => .error ⟨.unterminatedEscape, []⟩
  | c :: cs => if c = 'u' then readCodePoint 0 4 cs else .ok (simpleEscape c, cs)

theorem readCodePoint_length {n count : Nat} {cs rest : List Char} {c : Char}
    (h : readCodePoint n count cs = .ok (c, rest)) : rest.length ≤ cs.length := by
  induction count generalizing n cs with
  | zero =>
    unfold readCodePoint at h
    split at h <;> simp_all
  | succ count ih =>
    cases cs with
    | nil => simp [readCodePoint] at h
    | cons d cs =>
      unfold readCodePoint at h
      split at h
      · have := ih h
        simp only [List.length_cons]; omega
      · simp at h

/-- An escape takes at least one character. -/
theorem readEscape_length {cs rest : List Char} {c : Char}
    (h : readEscape cs = .ok (c, rest)) : rest.length < cs.length := by
  cases cs with
  | nil => simp [readEscape] at h
  | cons d cs =>
    simp only [readEscape] at h
    split at h
    · have := readCodePoint_length h
      simp only [List.length_cons]; omega
    · simp only [Except.ok.injEq, Prod.mk.injEq] at h
      obtain ⟨_, rfl⟩ := h
      exact Nat.lt_succ_self _

/-- The rest of a text up to its closing quotation mark `quote`; `text` has been read, last character
first. -/
def readText (quote : Char) (text : List Char) (cs : List Char) :
    Except Fault (List Char × List Char) :=
  match cs with
  | [] => .error ⟨.unterminatedText, []⟩
  | c :: cs =>
    if c = quote then .ok (text.reverse, cs)
    else if c = '\\' then
      match h : readEscape cs with
      | .error e => .error e
      | .ok (d, rest) =>
        have := readEscape_length h
        readText quote (d :: text) rest
    else readText quote (c :: text) cs
termination_by cs.length

/-- `c` continues a number of which `previous` is the last character so far. Signs are taken after
the letter of an exponent only. -/
def continuesNumber (previous c : Char) : Bool :=
  c.isAlphanum || c = '.' || c = '_' ||
    ((c = '-' || c = '+') && (previous = 'e' || previous = 'E'))

/-- The longest run of characters that continues a number, and what is left after it. -/
def spanNumber (previous : Char) : List Char → List Char × List Char
  | [] => ([], [])
  | c :: cs =>
    if continuesNumber previous c then
      let (raw, rest) := spanNumber c cs
      (c :: raw, rest)
    else ([], c :: cs)

/-- The number that a run of characters stands for, if it is a finite one. -/
def number? (raw : List Char) : Option Float :=
  (Numeral.readDecimal? raw).filter Numeral.isFinite

/-- A number that starts with `first`. -/
def readNumber (first : Char) (cs : List Char) : Except Fault (Argument × List Char) :=
  let (tail, rest) := spanNumber first cs
  match number? (first :: tail) with
  | some x => .ok (.number x, rest)
  | none => .error ⟨.invalidNumber (String.ofList (first :: tail)), first :: cs⟩

/-- A value that starts with `first`. -/
def readValue (first : Char) (cs : List Char) : Except Fault (Argument × List Char) :=
  if first = '\'' || first = '"' then
    (readText first [] cs).map fun (text, rest) => (.text (String.ofList text), rest)
  else if first = '-' || first = '+' || first = '.' || first.isDigit then readNumber first cs
  else if first = ',' then .error ⟨.emptyArgument, first :: cs⟩
  else .error ⟨.unexpectedCharacter first, first :: cs⟩

theorem readText_length {quote : Char} {text cs out rest : List Char}
    (h : readText quote text cs = .ok (out, rest)) : rest.length < cs.length := by
  fun_induction readText quote text cs with
  | case1 => simp at h
  | case2 =>
    simp only [Except.ok.injEq, Prod.mk.injEq] at h
    obtain ⟨_, rfl⟩ := h
    exact Nat.lt_succ_self _
  | case3 => simp at h
  | case4 =>
    rename_i ih
    have := ih h
    simp only [List.length_cons]; omega
  | case5 =>
    rename_i ih
    have := ih h
    simp only [List.length_cons]; omega

theorem spanNumber_length (previous : Char) (cs : List Char) :
    (spanNumber previous cs).2.length ≤ cs.length := by
  induction cs generalizing previous with
  | nil => simp [spanNumber]
  | cons c cs ih =>
    unfold spanNumber
    split
    · have := ih c
      simp only [List.length_cons]; omega
    · simp

/-- What is left after a value is no longer than what followed its first character. -/
theorem readValue_length {first : Char} {cs rest : List Char} {a : Argument}
    (h : readValue first cs = .ok (a, rest)) : rest.length ≤ cs.length := by
  unfold readValue at h
  split at h
  · cases ht : readText first [] cs with
    | error e => simp [ht, Except.map] at h
    | ok p =>
      obtain ⟨out, r⟩ := p
      simp only [ht, Except.map, Except.ok.injEq, Prod.mk.injEq] at h
      have := readText_length ht
      obtain ⟨_, rfl⟩ := h
      omega
  · split at h
    · have hs := spanNumber_length first cs
      unfold readNumber at h
      simp only at h
      split at h
      · simp only [Except.ok.injEq, Prod.mk.injEq] at h
        obtain ⟨_, rfl⟩ := h
        exact hs
      · simp at h
    · split at h <;> simp at h

theorem length_dropWhile_le {α : Type} (p : α → Bool) (l : List α) :
    (l.dropWhile p).length ≤ l.length := by
  induction l with
  | nil => simp
  | cons a l ih =>
    simp only [List.dropWhile_cons]
    split
    · simp only [List.length_cons]; omega
    · simp

/-- The values of a list, of which those in `values` have been read, last value first. -/
def readValues (values : List Argument) (cs : List Char) : Except Fault (List Argument) :=
  match hs : cs.dropWhile Text.isBlank with
  | [] => .ok values.reverse
  | first :: tail =>
    match hv : readValue first tail with
    | .error e => .error e
    | .ok (value, rest) =>
      match hr : rest.dropWhile Text.isBlank with
      | [] => .ok (value :: values).reverse
      | c :: after =>
        if c = ',' then
          have : after.length < cs.length := by
            have h1 := readValue_length hv
            have h2 := length_dropWhile_le Text.isBlank rest
            have h3 := length_dropWhile_le Text.isBlank cs
            rw [hr] at h2
            rw [hs] at h3
            simp only [List.length_cons] at h2 h3
            omega
          readValues (value :: values) after
        else .error ⟨.expectedComma c, c :: after⟩
termination_by cs.length

/-- The values of an argument list. -/
def read (cs : List Char) : Except Fault (List Argument) := readValues [] cs

end Fabula.ArgumentList
