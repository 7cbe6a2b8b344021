import Fabula.Numeral.Shortest
import Fabula.Text.Quoted

/-!
# Fabula.Template.Argument

The **arguments** that a template passes to a modifier: numbers and texts.
-/

namespace Fabula

/-- A literal between the parentheses of a modifier. -/
inductive Argument
  /-- A number. -/
  | number (value : Float)
  /-- A text. -/
  | text (value : String)
  deriving BEq, Inhabited

namespace Argument

/-- The text of an argument; a number has none. -/
def text? : Argument → Option String
  | .text s => some s
  | .number _ => none

/-- The value of a numeric argument. -/
def number? : Argument → Option Float
  | .number x => some x
  | .text _ => none

/-- An argument as messages show it. -/
def render : Argument → String
  | .number x => Numeral.floatText x
  | .text s => Text.quoted s

end Argument

end Fabula
