import Fabula.Markov.Model
import Fabula.Template.SyntaxError

/-!
# Fabula.Expand.Error

Why an **expansion fails**.
-/

namespace Fabula

/-- The causes for which an expansion fails. -/
inductive ExpandError
  /-- A template cannot be read. -/
  | template (e : SyntaxError)
  /-- A symbol is no variable, rule or Markov model. -/
  | unknownSymbol (name : String)
  /-- A modifier is neither registered nor built in. -/
  | unknownModifier (name : String)
  /-- Templates nest deeper than the limit allows. -/
  | tooDeep (limit : Nat) (source : String)
  /-- A modifier cannot work with its arguments. -/
  | badArguments (modifier reason : String)
  /-- A modifier is passed the name of a rule that does not exist. -/
  | unknownRule (modifier rule : String)
  /-- A Markov model fails. -/
  | markov (e : Markov.MarkovError)
  deriving DecidableEq

/-- The wording of a cause. -/
def ExpandError.message : ExpandError → String
  | .template e => e.message
  | .unknownSymbol name =>
    "expansion of '" ++ name ++ "' failed: no variable, rule, or markov symbol with that name"
  | .unknownModifier name => "unrecognized modifier '" ++ name ++ "'"
  | .tooDeep limit source =>
    "recursion limit of " ++ toString limit ++ " exceeded while expanding " ++ Text.quoted source
  | .badArguments modifier reason => "modifier '" ++ modifier ++ "': " ++ reason
  | .unknownRule modifier rule =>
    "modifier '" ++ modifier ++ "' references unknown rule '" ++ rule ++ "'"
  | .markov e => "markov error: " ++ e.message

end Fabula
