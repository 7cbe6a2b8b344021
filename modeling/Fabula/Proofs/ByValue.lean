import Fabula.Expand.Interpreter

/-!
# Fabula.Proofs.ByValue

**Expansion by value**: what texts expand to, told without any scope that is opened, written to and
closed. The values of names are a list that each template is given and hands down, together with the
depth at which it stands. All that an expansion changes is its `World`: the source of draws, the
trackers and the record of produced texts.

A template evaluates its declarations in order, each with the values it was given and those of the
declarations before; then its references from left to right, with all of these. What a template adds to
the list is gone with it.
-/

namespace Fabula

variable {σ α : Type}

/-- The values of names, innermost first. -/
abbrev Bindings := List (String × String)

/-- All that an expansion changes for good. -/
structure World (σ : Type) where
  /-- The source that draws are taken from. -/
  source : σ
  /-- The trackers that are active, latest first. -/
  trackers : List Tracker := []
  /-- The texts that Markov symbols have given, each with its symbol. -/
  produced : Std.HashSet (String × String) := ∅

/-- An action on a world, which may fail. -/
abbrev Effect (σ : Type) := EStateM ExpandError (World σ)

/-! ### Worlds and contexts -/

/-- The context of a world in which nothing is being expanded. -/
def World.context (w : World σ) : Context σ :=
  { source := w.source, trackers := w.trackers, produced := w.produced }

/-- A result with the context of the world that it leaves behind. -/
def World.inContext : EStateM.Result ExpandError (World σ) α →
    EStateM.Result ExpandError (Context σ) α
  | .ok a w => .ok a w.context
  | .error e w => .error e w.context

/-- The part of a context that does not depend on where it stands. -/
def Context.world (c : Context σ) : World σ := ⟨c.source, c.trackers, c.produced⟩

/-- The context with another world, at the same place. -/
def Context.withWorld (c : Context σ) (w : World σ) : Context σ :=
  { c with source := w.source, trackers := w.trackers, produced := w.produced }

/-- Run an action of contexts where nothing is being expanded. -/
def Run.atRest (act : Run σ α) : Effect σ α := fun w =>
  match act w.context with
  | .ok a c => .ok a c.world
  | .error e c => .error e c.world

/-- Run an action of worlds in a context. The place of the context does not matter and stays. -/
def Effect.lift (act : Effect σ α) : Run σ α := fun c =>
  match act c.world with
  | .ok a w => .ok a (c.withWorld w)
  | .error e w => .error e (c.withWorld w)

namespace ByValue

/-- How templates one level below are expanded, given the values of names. -/
abbrev Evaluator (σ : Type) := Bindings → Template → Option Slot → Effect σ (Option String)

section Parts

variable [RandomSource σ] (g : Grammar σ) (enter : Evaluator σ) (env : Bindings)

/-- Expand a rule. -/
def expandRule (r : Rule) : Effect σ (Option String) := do
  match ← (Run.pick r).atRest with
  | none => return if (← get).trackers.isEmpty then some "" else none
  | some slot =>
    match g.template slot with
    | .ok t => enter env t (some slot)
    | .error e => throw (.template e)

/-- Resolve a symbol: the innermost value that it has, else a Markov symbol, else a rule. -/
def resolve (name : String) : Effect σ (Option Resolved) :=
  match env.lookup name with
  | some value => pure (some ⟨value, false⟩)
  | none =>
    match g.models.get? name with
    | some m => do
      let value ← (resolveMarkov name m m.settings.maxTries).atRest
      return some ⟨value, true⟩
    | none =>
      match g.rule? name with
      | some r => do
        let value ← expandRule g enter env r
        let live := Builtin.hasUnseen r (← get).context
        return value.map (⟨·, live⟩)
      | none =>
        if name.isEmpty then pure (some ⟨"", false⟩) else throw (.unknownSymbol name)

/-- The values of names after some declarations, each of which sees those before. -/
def declare (env : Bindings) : List (String × Template) → Effect σ Bindings
  | [] => pure env
  | (name, t) :: rest => do
    let value ← enter env t none
    declare ((name, value.getD "") :: env) rest

/-- What modifiers can ask for, given the values of names. -/
def engine : Engine σ where
  expandTemplate t := (enter env t none).lift
  expandRule name :=
    match g.rule? name with
    | some r => (expandRule g enter env r).lift
    | none => throw (.unknownSymbol name)

/-- Expand a reference. -/
def expandReference (r : Reference) : Effect σ (Option Resolved) := do
  match ← resolve g enter env r.symbol with
  | none => return none
  | some resolved =>
    let value ← (applyModifiers g (engine g enter env) r.calls resolved.value).atRest
    return some { resolved with value }

/-- Expand references from left to right, up to the first that has nothing to say: their values, and
whether one of them, decorators apart, is live. -/
def expandReferences : List Reference → Effect σ (Option (List String × Bool))
  | [] => pure (some ([], false))
  | r :: rest => do
    match ← expandReference g enter env r with
    | none => return none
    | some resolved =>
      match ← expandReferences rest with
      | none => return none
      | some (values, live) =>
        return some (resolved.value :: values, (resolved.live && !r.decorator) || live)

/-- Enter an alternative as seen; a template that is none has no place. -/
def markSeen (slot : Option Slot) : Effect σ Unit :=
  match slot with
  | some slot => modify fun w => { w with trackers := w.trackers.map (·.insert slot) }
  | none => pure ()

/-- Expand a template, given the values of names around it. -/
def expandBody (t : Template) (slot : Option Slot) : Effect σ (Option String) := do
  let env ← declare enter env t.declarations
  match ← expandReferences g enter env t.references with
  | none =>
    markSeen slot
    return none
  | some (values, live) =>
    unless live do markSeen slot
    return some (t.fill values)

end Parts

section Whole

variable [RandomSource σ] (g : Grammar σ)

/-- Expand a template that stands in templates of this depth. -/
def evaluate (depth : Nat) (env : Bindings) (t : Template) (slot : Option Slot) :
    Effect σ (Option String) :=
  if depth < g.settings.maxDepth then
    expandBody g (fun env t slot => evaluate (depth + 1) env t slot) env t slot
  else throw (.tooDeep g.settings.maxDepth t.source)
termination_by g.settings.maxDepth - depth

/-- Read and expand a text. The globals are evaluated first, once. -/
def expand (text : String) : Effect σ String :=
  match Template.parse text with
  | .error e => throw (.template e)
  | .ok t => do
    let env ← declare (evaluate g 0) [] g.globals
    return (← evaluate g 0 env t none).getD ""

end Whole

end ByValue

end Fabula
