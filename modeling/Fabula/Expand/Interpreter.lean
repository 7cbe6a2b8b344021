import Fabula.Expand.Builtin
import Fabula.Template.Format

/-!
# Fabula.Expand.Interpreter

**Expanding templates** with a grammar.

A template is expanded in a scope of its own. Its declarations are evaluated in order and its
references from left to right; what a reference gives goes through its modifiers, and the results are
filled into the pattern. A symbol is looked up among the names in scope, innermost first, then among
the Markov models, then among the rules. The empty symbol, if it is none of these, gives the empty
text; any other one is unknown.

While alternatives are tracked, a rule picks only among those not seen yet, and a template that needs
a rule with none left has nothing to say: its expansion gives no text. An alternative counts as seen
when its template cannot say anything new any more, which is the case when none of its references,
decorators apart, is *live*.

Design points:

* Templates nest, through rules, declarations and modifiers, up to a limit. `Grammar.evaluate` goes
  down by one level with every template, so it ends for every grammar.
* All steps inside a template (`expandBody` and what it uses) are given an evaluator `enter` for the
  templates one level below. They are plain loops over the parts of the template.
-/

namespace Fabula

variable {σ : Type}

/-- How the templates one level below are expanded: a template, with its place if it is an alternative
of a rule. Nothing is returned when there is nothing new to say. -/
abbrev Evaluator (σ : Type) := Template → Option Slot → Run σ (Option String)

/-- What a symbol gives. -/
structure Resolved where
  /-- The text. -/
  value : String
  /-- It can still give something new. -/
  live : Bool

/-! ### Markov symbols -/

/-- Generate a text from a model, inside a context. -/
def Run.generate [RandomSource σ] (m : Markov.Model) : Run σ (Option String) := fun c =>
  match m.generate c.source with
  | (.ok text, s) => .ok text { c with source := s }
  | (.error e, s) => .error (.markov e) { c with source := s }

/-- The text passes the filters of a symbol. -/
def accepts (name : String) (settings : Markov.Settings)
    (produced : Std.HashSet (String × String)) (text : String) : Bool :=
  decide (settings.minCharacters ≤ text.length) &&
    !(settings.uniqueOutput && produced.contains (name, text))

/-- Generate texts from the model called `name` until one passes its filters, and remember that one.
After `tries` of them the empty text must do. -/
def resolveMarkov [RandomSource σ] (name : String) (m : Markov.Model) : Nat → Run σ String
  | 0 => pure ""
  | tries + 1 => do
    match ← Run.generate m with
    | none => resolveMarkov name m tries
    | some text =>
      if accepts name m.settings (← get).produced text then
        modify fun c => { c with produced := c.produced.insert (name, text) }
        return text
      else resolveMarkov name m tries

/-! ### Rules -/

/-- Pick an alternative of a rule, among those not seen if that is tracked. -/
def Run.pick [RandomSource σ] (r : Rule) : Run σ (Option Slot) := fun c =>
  let excluded := if c.tracking then some c.isSeen else none
  let (slot, s) := r.pick excluded c.source
  .ok slot { c with source := s }

/-- Expand a rule. If nothing can be picked, a rule that has run out under tracking has nothing to
say, and a rule without weight gives the empty text. -/
def expandRuleWith [RandomSource σ] (g : Grammar σ) (enter : Evaluator σ) (r : Rule) :
    Run σ (Option String) := do
  match ← Run.pick r with
  | none => return if (← get).tracking then none else some ""
  | some slot =>
    let t ← Run.ofParsed (g.template slot)
    enter t (some slot)

/-! ### References -/

/-- Resolve a symbol. -/
def resolve [RandomSource σ] (g : Grammar σ) (enter : Evaluator σ) (name : String) :
    Run σ (Option Resolved) := do
  match (← get).lookup name with
  | some value => return some ⟨value, false⟩
  | none =>
    match g.models.get? name with
    | some m =>
      let value ← resolveMarkov name m m.settings.maxTries
      return some ⟨value, true⟩
    | none =>
      match g.rule? name with
      | some r =>
        let value ← expandRuleWith g enter r
        let live := Builtin.hasUnseen r (← get)
        return value.map (⟨·, live⟩)
      | none =>
        if name.isEmpty then return some ⟨"", false⟩ else throw (.unknownSymbol name)

/-- Evaluate declarations in order, each under its name in the innermost scope. -/
def assignAll (enter : Evaluator σ) : List (String × Template) → Run σ Unit
  | [] => pure ()
  | (name, t) :: rest => do
    let value ← enter t none
    modify (·.assign name (value.getD ""))
    assignAll enter rest

/-- Act with the globals in the outermost scope. They are evaluated first, unless the action belongs
to an expansion for which that has been done. -/
def withGlobals {α : Type} (g : Grammar σ) (enter : Evaluator σ) (act : Run σ α) : Run σ α := do
  if (← get).globalsLoaded then act
  else Run.within Context.enterGlobals Context.leaveGlobals do
    assignAll enter g.globals
    act

/-- What modifiers can ask for, `enter` expanding the templates. -/
def engineWith [RandomSource σ] (g : Grammar σ) (enter : Evaluator σ) : Engine σ where
  expandTemplate t := withGlobals g enter (enter t none)
  expandRule name :=
    match g.rule? name with
    | some r => withGlobals g enter (expandRuleWith g enter r)
    | none => throw (.unknownSymbol name)

/-- Apply a modifier: one that is registered, else a built-in one. -/
def applyModifier [RandomSource σ] (g : Grammar σ) (engine : Engine σ) (call : ModifierCall)
    (value : String) : Run σ String :=
  match g.overrides.get? call.name with
  | some f => f engine value call.args
  | none =>
    match Builtin.ofName? call.name with
    | some b => b.apply g engine value call.args
    | none => throw (.unknownModifier call.name)

/-- Apply modifiers one after the other. -/
def applyModifiers [RandomSource σ] (g : Grammar σ) (engine : Engine σ) :
    List ModifierCall → String → Run σ String
  | [], value => pure value
  | call :: calls, value => do applyModifiers g engine calls (← applyModifier g engine call value)

/-- Expand a reference. -/
def expandReference [RandomSource σ] (g : Grammar σ) (enter : Evaluator σ) (r : Reference) :
    Run σ (Option Resolved) := do
  match ← resolve g enter r.symbol with
  | none => return none
  | some resolved =>
    let value ← applyModifiers g (engineWith g enter) r.calls resolved.value
    return some { resolved with value }

/-- Expand references from left to right, up to the first that has nothing to say. The result tells
whether one of them, decorators apart, is live; `values` are those of the references before, last
first, and `live` is what they have come to. -/
def expandReferences [RandomSource σ] (g : Grammar σ) (enter : Evaluator σ)
    (values : List String) (live : Bool) : List Reference → Run σ (Option (List String × Bool))
  | [] => pure (some (values.reverse, live))
  | r :: rest => do
    match ← expandReference g enter r with
    | none => return none
    | some resolved =>
      expandReferences g enter (resolved.value :: values)
        (live || (resolved.live && !r.decorator)) rest

/-! ### Templates -/

/-- Enter an alternative as seen; a template that is none has no place. -/
def markSeen (slot : Option Slot) : Run σ Unit :=
  match slot with
  | some slot => modify (·.markSeen slot)
  | none => pure ()

/-- Expand a template in the scope that has been opened for it. -/
def expandBody [RandomSource σ] (g : Grammar σ) (enter : Evaluator σ) (t : Template)
    (slot : Option Slot) : Run σ (Option String) := do
  assignAll enter t.declarations
  match ← expandReferences g enter [] false t.references with
  | none =>
    markSeen slot
    return none
  | some (values, live) =>
    unless live do markSeen slot
    return some (t.fill values)

namespace Grammar

variable [RandomSource σ]

/-- Expand a template when this many levels are left. -/
def evaluate (g : Grammar σ) : Nat → Evaluator σ
  | 0, t, _ => throw (.tooDeep g.settings.maxDepth t.source)
  | levels + 1, t, slot =>
    Run.within Context.enterTemplate Context.leaveTemplate (expandBody g (g.evaluate levels) t slot)

/-- What can be asked for in a context, as far below the limit as the context is. -/
def engineAt (g : Grammar σ) (depth : Nat) : Engine σ :=
  engineWith g (g.evaluate (g.settings.maxDepth - depth))

/-- Expand a template in a context. -/
def expandTemplate (g : Grammar σ) (t : Template) : Run σ (Option String) := do
  (g.engineAt (← get).depth).expandTemplate t

/-- Expand a rule in a context. -/
def expandRule (g : Grammar σ) (name : String) : Run σ (Option String) := do
  (g.engineAt (← get).depth).expandRule name

/-- Read and expand a text in a context. -/
def expandIn (g : Grammar σ) (text : String) : Run σ String := do
  (g.engineAt (← get).depth).expand text

/-- Read and expand a text on its own, drawing from `s`. -/
def expand (g : Grammar σ) (text : String) (s : σ) : Except ExpandError String × σ :=
  match g.expandIn text { source := s } with
  | .ok value c => (.ok value, c.source)
  | .error e c => (.error e, c.source)

end Grammar

end Fabula
