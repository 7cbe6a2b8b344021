import Fabula.Expand.Context
import Fabula.Template.Parser

/-!
# Fabula.Expand.Engine

What a **modifier** sees of the expansion that it is part of. A modifier may be registered by the
program that uses this library; it is given an `Engine` and can expand templates and rules with it,
in the scopes and under the trackers of the reference that it stands in.
-/

namespace Fabula

/-- The expansions that a modifier can ask for. Nothing stands for a template or a rule that has
nothing new to say while seen alternatives are tracked. -/
structure Engine (σ : Type) where
  /-- Expand a template. -/
  expandTemplate : Template → Run σ (Option String)
  /-- Expand the rule of this name. -/
  expandRule : String → Run σ (Option String)

/-- Read and expand a text; one with nothing new to say gives the empty text. -/
def Engine.expand {σ : Type} (engine : Engine σ) (text : String) : Run σ String := do
  let t ← Run.ofParsed (Template.parse text)
  return (← engine.expandTemplate t).getD ""

/-- A modifier registered by a program: it turns a value into another, given its arguments. -/
abbrev Override (σ : Type) := Engine σ → String → List Argument → Run σ String

end Fabula
