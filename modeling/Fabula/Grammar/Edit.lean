import Fabula.Grammar.Basic

/-!
# Fabula.Grammar.Edit

**Editing a grammar in place.** A program builds a grammar by calls, each of which writes one thing
after the other: a text into the store, a rule or a variable into its table. A call that fails leaves
behind what it has written by then.

Design points:

* The texts of a rule go into the places of the rule that it replaces, in order, and to the end of the
  store when there are none left.
* Merging moves texts out of the store of the other grammar, one by one. A place that has been emptied
  gives nothing any more, and an alternative that refers to one is passed over.
-/

namespace Fabula

/-- An edit of a grammar, which may fail on the way. -/
abbrev Edit (σ : Type) := EStateM GrammarError (Grammar σ)

namespace Edit

variable {σ : Type}

/-! ### Rules -/

/-- The places that the rule called `name` leaves to the one that replaces it. -/
def released (name : String) : Edit σ (List Slot) := do
  return (((← get).rule? name).map Rule.slots).getD []

/-- Write a text into a place, or into a new one at the end of the store. -/
def write (slot : Option Slot) (text : String) : Edit σ Slot := fun g =>
  match slot with
  | some slot => .ok slot { g with store := g.store.setIfInBounds slot text }
  | none => .ok g.store.size { g with store := g.store.push text }

/-- Write the texts of a rule, into the free places first. -/
def writeAll : List Slot → List (String × Float) → Edit σ (List (Weighted Slot Float))
  | _, [] => pure []
  | free, (text, weight) :: rest => do
    let slot ← write free.head? text
    return ⟨slot, weight⟩ :: (← writeAll free.tail rest)

/-- Enter a rule in the table. -/
def enterRule (name : String) (alternatives : List (Weighted Slot Float)) : Edit σ Unit :=
  modify fun g => { g with rules := g.rules.put name (Rule.named name alternatives) }

/-- Add or replace a rule. -/
def addRule (name : String) (alternatives : List (String × Float)) : Edit σ Unit :=
  match alternatives.find? fun a => !Grammar.validWeight a.2 with
  | some (_, weight) => throw (.invalidWeight name weight)
  | none => do
    let free ← released name
    enterRule name (← writeAll free alternatives)

/-- Add or replace a rule whose alternatives all weigh one. -/
def addTexts (name : String) (texts : List String) : Edit σ Unit :=
  addRule name (texts.map fun text => (text, 1))

/-! ### The rest -/

/-- Add a global variable, or replace its value in its place. -/
def addVariable (name text : String) : Edit σ Unit :=
  match Template.parse text with
  | .ok t => modify fun g => { g with globals := g.globals.put name t }
  | .error e => throw (.template e)

/-- Put a model under `name`. -/
def putModel (name : String) (m : Markov.Model) : Edit σ Unit := modify (·.putModel name m)

/-- Train a model and put it under `name`. -/
def addMarkov (name : String) (sentences : List String) (settings : Markov.Settings) :
    Edit σ Unit :=
  match Markov.train sentences settings with
  | .ok m => putModel name m
  | .error e => throw (.markov e)

/-- Register a modifier. -/
def putOverride (name : String) (f : Override σ) : Edit σ Unit := modify (·.putOverride name f)

/-- Change the limits. -/
def limit (settings : Grammar.Settings) : Edit σ Unit := modify fun g => { g with settings }

/-! ### Merging -/

/-- Move the alternatives of a rule over, out of a store whose places may have been emptied and into the
free places first. The store that is left comes with the alternatives that have been moved. -/
def moveAll (texts : Array (Option String)) :
    List Slot → List (Weighted Slot Float) →
      Edit σ (Array (Option String) × List (Weighted Slot Float))
  | _, [] => return (texts, [])
  | free, w :: ws =>
    match texts.getD w.item none with
    | none => moveAll texts free ws
    | some text => do
      let slot ← write free.head? text
      let (left, moved) ← moveAll (texts.setIfInBounds w.item none) free.tail ws
      return (left, ⟨slot, w.weight⟩ :: moved)

/-- Move rules over, one after the other. -/
def moveRules (texts : Array (Option String)) : Table Rule → Edit σ Unit
  | [] => pure ()
  | (name, r) :: rest => do
    let free ← released name
    let (left, moved) ← moveAll texts free r.alternatives
    enterRule name moved
    moveRules left rest

/-- Take in all that `other` has. Where both have a name, that of `other` counts; the limits stay. -/
def merge (other : Grammar σ) : Edit σ Unit := do
  moveRules (other.store.map some) other.rules
  modify fun g => { g with
    globals := g.globals.putAll other.globals
    models := g.models.putAll other.models
    overrides := g.overrides.putAll other.overrides }

end Edit

end Fabula
