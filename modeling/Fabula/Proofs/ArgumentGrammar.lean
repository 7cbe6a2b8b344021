import Fabula.Proofs.DecimalGrammar
import Fabula.Template.ArgumentList

/-!
# Fabula.Proofs.ArgumentGrammar

**The grammar of argument lists**, and which values a text stands for, told without a reader.

A list is nothing but white space, or values with commas between them, with white space wherever one
likes and perhaps a comma behind the last value (`ArgumentList.Derives`). A value is a text between
quotation marks or a finite decimal (`ArgumentList.Value`).
-/

namespace Fabula.ArgumentList

/-! ### Texts -/

/-- The letters that stand for control characters after a backslash, with what they stand for. -/
def controls : List (Char × Char) :=
  [('n', '\n'), ('t', '\t'), ('r', '\r'), ('b', '\x08'), ('f', '\x0c'), ('v', '\x0b'), ('0', '\x00')]

/-- What may follow a backslash, each with the character that it stands for. -/
inductive Escape : List Char → Char → Prop
  /-- A letter stands for a control character. -/
  | control {letter c : Char} (h : (letter, c) ∈ controls) : Escape [letter] c
  /-- Four hexadecimal digits stand for the character that has their number. -/
  | codePoint {digits : List Char} {n : Nat} {c : Char} (hlength : digits.length = 4)
    (hn : Numeral.hexValue? 0 digits = some n) (hc : Numeral.character? n = some c) :
    Escape ('u' :: digits) c
  /-- All other characters stand for themselves. -/
  | itself {c : Char} (hc : ∀ d, (c, d) ∉ controls) (hu : c ≠ 'u') : Escape [c] c

/-- What may stand between two quotation marks, each with the text that it stands for. -/
inductive Content (quote : Char) : List Char → List Char → Prop
  /-- Nothing is written. -/
  | empty : Content quote [] []
  /-- A character stands for itself. -/
  | plain {c : Char} {w text : List Char} (hquote : c ≠ quote) (hslash : c ≠ '\\')
    (h : Content quote w text) : Content quote (c :: w) (c :: text)
  /-- A backslash takes what follows it. -/
  | escape {c : Char} {e w text : List Char} (he : Escape e c) (h : Content quote w text) :
    Content quote ('\\' :: (e ++ w)) (c :: text)

/-- A quotation mark. -/
def IsQuote (c : Char) : Prop := c = '\'' ∨ c = '"'

theorem IsQuote.ne_slash {quote : Char} (h : IsQuote quote) : '\\' ≠ quote := by
  rcases h with rfl | rfl <;> decide

/-! ### Values and lists -/

/-- The texts of values. -/
inductive Value : List Char → Argument → Prop
  /-- A text stands between two quotation marks of the same kind. -/
  | text {quote : Char} {w text : List Char} (hquote : IsQuote quote) (h : Content quote w text) :
    Value (quote :: (w ++ [quote])) (.text (String.ofList text))
  /-- A decimal stands for its float, which has to be finite. -/
  | number {w : List Char} {x : Float} (hw : Numeral.IsDecimal w)
    (hx : Numeral.readFloat? w = some x) (hfinite : Numeral.isFinite x = true) : Value w (.number x)

/-- A text of white space, which may be empty. -/
def Blank (w : List Char) : Prop := ∀ c ∈ w, Text.isBlank c = true

/-- The texts of the values after the first one, each behind a comma. -/
inductive Others : List Char → List Argument → Prop
  /-- There are none. -/
  | none : Others [] []
  /-- A comma and a value, with white space around the comma. -/
  | cons {a b v w : List Char} {value : Argument} {values : List Argument} (ha : Blank a)
    (hb : Blank b) (hv : Value v value) (h : Others w values) :
    Others (a ++ ',' :: (b ++ (v ++ w))) (value :: values)

/-- Nothing, or a comma behind the last value. -/
def Trailing (w : List Char) : Prop := w = [] ∨ ∃ a, Blank a ∧ w = ',' :: a

/-- The texts of lists, each with the values that it stands for. -/
inductive Derives : List Char → List Argument → Prop
  /-- A list without values. -/
  | empty {a : List Char} (ha : Blank a) : Derives a []
  /-- A list with a first value, and perhaps others. -/
  | filled {a v w b t : List Char} {value : Argument} {values : List Argument} (ha : Blank a)
    (hv : Value v value) (hw : Others w values) (hb : Blank b) (ht : Trailing t) :
    Derives (a ++ (v ++ (w ++ (b ++ t)))) (value :: values)

/-! ### Writing texts -/

/-- How a text is written: between which quotation marks, and with a backslash in front of which
characters. -/
structure Spelling where
  /-- The quotation mark around the text. -/
  quote : Char
  /-- The characters that a backslash is put before. -/
  marked : List Char
  /-- It is a quotation mark. -/
  isQuote : IsQuote quote
  /-- The quotation mark may not stand for itself. -/
  quote_marked : quote ∈ marked
  /-- Nor may a backslash. -/
  slash_marked : '\\' ∈ marked
  /-- Only the other quotation mark may be marked besides. -/
  marked_only : ∀ c ∈ marked, IsQuote c ∨ c = '\\'

/-- A character as it is written. -/
def Spelling.mark (s : Spelling) (c : Char) : List Char := if c ∈ s.marked then ['\\', c] else [c]

/-- A text as it is written. -/
def Spelling.literal (s : Spelling) (text : String) : List Char :=
  s.quote :: (text.toList.flatMap s.mark ++ [s.quote])

end Fabula.ArgumentList
