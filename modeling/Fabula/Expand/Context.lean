import Std.Data.HashSet
import Fabula.Expand.Error
import Fabula.Random.Source
import Fabula.Template.Basic

/-!
# Fabula.Expand.Context

The **context** of an expansion: everything that changes while templates are expanded, and the
actions that change it (`Run`).

Design points:

* An action that fails leaves a context behind just as one that succeeds, so draws taken and
  alternatives seen before a failure count.
* What is opened for the time of an action (a scope, a level of depth, a tracker) is opened and closed
  by `Run.within`, on every path out of the action.
-/

namespace Fabula

/-- The place of an alternative in the store of a grammar, which identifies it. -/
abbrev Slot := Nat

/-- Values of names, the latest first. -/
abbrev Scope := List (String × String)

/-- The alternatives seen since tracking began. -/
abbrev Tracker := List Slot

/-- The state of an expansion and of all that it sets off. -/
structure Context (σ : Type) where
  /-- The source that draws are taken from. -/
  source : σ
  /-- How many templates are being expanded, each inside the one before. -/
  depth : Nat := 0
  /-- The scopes that are open, innermost first. -/
  scopes : List Scope := []
  /-- The trackers that are active, latest first. -/
  trackers : List Tracker := []
  /-- The texts that Markov symbols have given, each with its symbol. -/
  produced : Std.HashSet (String × String) := ∅
  /-- The globals have been evaluated for the expansion under way. -/
  globalsLoaded : Bool := false

namespace Context

variable {σ : Type}

/-- The value of a name in the innermost scope that has one. -/
def lookup (c : Context σ) (name : String) : Option String :=
  c.scopes.findSome? (List.lookup name)

/-- Give a name a value in the innermost scope. -/
def assign (c : Context σ) (name value : String) : Context σ :=
  match c.scopes with
  | [] => c
  | scope :: outer => { c with scopes := ((name, value) :: scope) :: outer }

/-- A tracker is active. -/
def tracking (c : Context σ) : Bool := !c.trackers.isEmpty

/-- Some active tracker has seen the alternative in `slot`. -/
def isSeen (c : Context σ) (slot : Slot) : Bool := c.trackers.any (·.contains slot)

/-- The alternatives that active trackers have seen, each once. -/
def seen (c : Context σ) : List Slot := c.trackers.flatten.eraseDups

/-- Enter the alternative in `slot` in every active tracker. -/
def markSeen (c : Context σ) (slot : Slot) : Context σ :=
  { c with trackers := c.trackers.map (·.insert slot) }

/-- Activate a tracker that has seen nothing. -/
def pushTracker (c : Context σ) : Context σ := { c with trackers := [] :: c.trackers }

/-- Deactivate the latest tracker. -/
def popTracker (c : Context σ) : Context σ := { c with trackers := c.trackers.tail }

/-- Go into a template: one level deeper, in a scope of its own. -/
def enterTemplate (c : Context σ) : Context σ :=
  { c with depth := c.depth + 1, scopes := [] :: c.scopes }

/-- Come out of a template. -/
def leaveTemplate (c : Context σ) : Context σ :=
  { c with depth := c.depth - 1, scopes := c.scopes.tail }

/-- Open the scope of the globals. -/
def enterGlobals (c : Context σ) : Context σ :=
  { c with globalsLoaded := true, scopes := [] :: c.scopes }

/-- Close the scope of the globals. -/
def leaveGlobals (c : Context σ) : Context σ :=
  { c with globalsLoaded := false, scopes := c.scopes.tail }

end Context

/-- An action on a context, which may fail. -/
abbrev Run (σ : Type) := EStateM ExpandError (Context σ)

namespace Run

variable {σ α : Type}

/-- Act on a context prepared by `enter`, and undo that by `leave` whether the action fails or not. -/
def within (enter leave : Context σ → Context σ) (act : Run σ α) : Run σ α := fun c =>
  match act (enter c) with
  | .ok a c => .ok a (leave c)
  | .error e c => .error e (leave c)

/-- Act under a tracker of one's own. -/
def withTracker (act : Run σ α) : Run σ α := within Context.pushTracker Context.popTracker act

/-- Take a draw. -/
def draw (f : σ → α × σ) : Run σ α := fun c =>
  let (a, s) := f c.source
  .ok a { c with source := s }

/-- The action that gives a result which is known already. -/
def ofExcept : Except ExpandError α → Run σ α
  | .ok a => pure a
  | .error e => throw e

/-- Read a template. -/
def ofParsed : Except SyntaxError α → Run σ α
  | .ok a => pure a
  | .error e => throw (.template e)

end Run

end Fabula
