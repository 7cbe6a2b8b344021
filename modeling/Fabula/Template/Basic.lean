import Fabula.Table
import Fabula.Template.Argument

/-!
# Fabula.Template.Basic

**Templates**: texts with references to be filled in.

* `{name}` refers to a symbol, and `{name.mod1.mod2(1, "two")}` passes what the symbol gives
  through modifiers, from left to right.
* `{.mod(1)}` refers to no symbol and only runs modifiers.
* `{{name}}` is a decorator: a reference that does not count when it is asked whether a
  template can still say something new.
* `{name= value}` declares a name for the template that it stands in; the value is a template too.
* Everything else is text.
-/

namespace Fabula

/-- One link `.name(args)` in the chain of modifiers of a reference. -/
structure ModifierCall where
  /-- Which modifier is called. -/
  name : String
  /-- What it is passed. -/
  args : List Argument := []
  deriving BEq, Inhabited

/-- A reference inside a template. -/
structure Reference where
  /-- The symbol to resolve; empty if only modifiers are run. -/
  symbol : String
  /-- The modifiers, in the order in which they are applied. -/
  calls : List ModifierCall := []
  /-- Written with doubled braces. -/
  decorator : Bool := false
  deriving BEq, Inhabited

/-- A template that has been read. -/
structure Template where
  /-- The text as it was written. -/
  source : String
  /-- The text with `{i}` in place of reference `i` and without declarations. -/
  pattern : String
  /-- The references, in the order in which they stand. -/
  references : List Reference
  /-- The declarations: a name declared again keeps its place and takes the later value. -/
  declarations : List (String × Template)
  deriving BEq, Inhabited

namespace Template

/-- The template that declares `name` here, not in a nested template. -/
def declaration? (t : Template) (name : String) : Option Template :=
  Table.get? t.declarations name

/-- The template itself and every template declared inside it, each before its own. -/
def walk : Template → List Template
  | ⟨source, pattern, references, declarations⟩ =>
    ⟨source, pattern, references, declarations⟩ :: walkAll declarations
where
  /-- All templates inside a list of declarations. -/
  walkAll : List (String × Template) → List Template
    | [] => []
    | (_, t) :: rest => t.walk ++ walkAll rest

end Template

end Fabula
