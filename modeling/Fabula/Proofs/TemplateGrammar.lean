import Fabula.Template.Parser

/-!
# Fabula.Proofs.TemplateGrammar

**The grammar of templates**, and which template a text stands for, told without a reader.

A text is plain characters, references, decorators and declarations one after the other; each of them
says what it adds to the template of the text before it (`Template.Derives`). The only look ahead is that
of a plain reference, which may not be mistaken for a declaration (`Template.IsPlain`).
-/

namespace Fabula.Template

/-! ### References -/

/-- The characters that end a symbol or may not stand in one unless a backslash precedes them. -/
def symbolEnds : List Char := ['.', '}', '{', '=', '(', ')', '\\']

/-- The texts of a symbol, each with the name that it stands for. -/
inductive Symbol : List Char → List Char → Prop
  /-- Nothing is written. -/
  | empty : Symbol [] []
  /-- A character stands for itself. -/
  | plain {c : Char} {s name : List Char} (hc : c ∉ symbolEnds) (h : Symbol s name) :
    Symbol (c :: s) (c :: name)
  /-- After a backslash any character does. -/
  | escaped {c : Char} {s name : List Char} (h : Symbol s name) :
    Symbol ('\\' :: c :: s) (c :: name)

/-- The characters that end the name of a modifier or may not stand in one. -/
def modifierEnds : List Char := ['.', '}', '(', '{', '=', ')']

/-- A text that names a modifier. -/
structure IsModifierName (m : List Char) : Prop where
  /-- There is a name. -/
  nonempty : m ≠ []
  /-- It holds nothing that ends it. -/
  plain : ∀ c ∈ m, c ∉ modifierEnds

/-- The texts of modifiers, each with the call that it stands for. -/
inductive Modifier : List Char → ModifierCall → Prop
  /-- A modifier is called without arguments. -/
  | bare {m : List Char} (hm : IsModifierName m) : Modifier m ⟨String.ofList m, []⟩
  /-- A modifier is called with a list of arguments. -/
  | called {m a : List Char} {args : List Argument} (hm : IsModifierName m)
    (ha : ArgumentList.read a = .ok args) :
    Modifier (m ++ '(' :: a ++ [')']) ⟨String.ofList m, args⟩

/-- The texts of chains of modifiers, each with the calls that it stands for. -/
inductive Modifiers : List Char → List ModifierCall → Prop
  /-- No modifier is called. -/
  | empty : Modifiers [] []
  /-- A point goes before every modifier. -/
  | cons {m s : List Char} {call : ModifierCall} {calls : List ModifierCall} (hm : Modifier m call)
    (h : Modifiers s calls) : Modifiers ('.' :: m ++ s) (call :: calls)

/-- The texts between the braces of references, each with the symbol and the modifiers. -/
inductive Referring : List Char → String → List ModifierCall → Prop
  /-- A symbol is followed by modifiers. -/
  | intro {s name m : List Char} {calls : List ModifierCall} (hs : Symbol s name)
    (hm : Modifiers m calls) : Referring (s ++ m) (String.ofList name) calls

/-! ### Templates -/

/-- The characters that tell declarations from references. -/
def isDelimiter (c : Char) : Bool :=
  c = '=' || c = '}' || c = '{' || c = '.' || c = '(' || Text.isBlank c

/-- A text that names a variable. -/
structure IsVariableName (v : List Char) : Prop where
  /-- There is a name. -/
  nonempty : v ≠ []
  /-- It holds nothing that ends it. -/
  plain : ∀ c ∈ v, isDelimiter c = false

/-- What follows the opening brace of a plain reference: no other brace, and no equals sign before all
other delimiters. -/
structure IsPlain (s : List Char) : Prop where
  /-- It is no decorator. -/
  single : s.head? ≠ some '{'
  /-- It is no declaration. -/
  undeclared : s.find? isDelimiter ≠ some '='

/-- The mark of reference `i` in a pattern. -/
def mark (i : Nat) : String := "\x7b" ++ toString i ++ "\x7d"

/-- The template with another reference, read from the text `s`. -/
def withReference (t : Template) (s : List Char) (r : Reference) : Template :=
  { t with
    source := String.ofList s
    pattern := t.pattern ++ mark t.references.length
    references := t.references ++ [r] }

/-- The texts of templates, each with the template that it stands for. -/
inductive Derives : List Char → Template → Prop
  /-- Nothing is written. -/
  | empty : Derives [] ⟨"", "", [], []⟩
  /-- A character that is no brace stands for itself. -/
  | text {s : List Char} {t : Template} {c : Char} (h : Derives s t) (hopen : c ≠ '{')
    (hclose : c ≠ '}') :
    Derives (s ++ [c]) { t with source := String.ofList (s ++ [c]), pattern := t.pattern.push c }
  /-- A reference stands between braces. -/
  | reference {s body : List Char} {t : Template} {symbol : String} {calls : List ModifierCall}
    (h : Derives s t) (hr : Referring body symbol calls) (hplain : IsPlain (body ++ ['}'])) :
    Derives (s ++ '{' :: body ++ ['}'])
      (t.withReference (s ++ '{' :: body ++ ['}']) ⟨symbol, calls, false⟩)
  /-- A decorator stands between doubled braces. -/
  | decorator {s body : List Char} {t : Template} {symbol : String} {calls : List ModifierCall}
    (h : Derives s t) (hr : Referring body symbol calls) :
    Derives (s ++ '{' :: '{' :: body ++ ['}', '}'])
      (t.withReference (s ++ '{' :: '{' :: body ++ ['}', '}']) ⟨symbol, calls, true⟩)
  /-- A declaration holds the text of a template. -/
  | declaration {s v u : List Char} {t value : Template} (h : Derives s t) (hv : IsVariableName v)
    (hu : Derives u value) :
    Derives (s ++ '{' :: v ++ '=' :: ' ' :: u ++ ['}'])
      { t with
        source := String.ofList (s ++ '{' :: v ++ '=' :: ' ' :: u ++ ['}'])
        declarations := Table.put t.declarations (String.ofList v) value }

end Fabula.Template
