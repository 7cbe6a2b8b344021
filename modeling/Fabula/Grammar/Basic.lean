import Fabula.Expand.Engine
import Fabula.Random.Pick
import Fabula.Ron.Reader

/-!
# Fabula.Grammar.Basic

**Grammars**: rules with weighted alternatives, global variables, Markov models, and the modifiers
that a program has registered.

The texts of all alternatives stand in one store, and a rule refers to them by their places. An
alternative is known by its place when it is tracked which ones have been seen. A rule that replaces
another takes over its places in order and adds new ones only if it needs more; places that it does not
need are given up.
-/

namespace Fabula

/-- A set of alternatives, by their places. -/
structure Rule where
  /-- The alternatives with their weights, in the order in which they were given. -/
  alternatives : List (Weighted Slot Float)
  /-- The sum of all weights in order. -/
  total : Float
  /-- The name under which the rule has been entered, if it has. -/
  name : String := ""

/-- The rule with these alternatives. -/
def Rule.ofAlternatives (alternatives : List (Weighted Slot Float)) : Rule :=
  { alternatives, total := Weighted.sum alternatives }

/-- The rule with these alternatives, as it is entered under `name`. -/
def Rule.named (name : String) (alternatives : List (Weighted Slot Float)) : Rule :=
  { Rule.ofAlternatives alternatives with name }

/-- The places that a rule holds. -/
def Rule.slots (r : Rule) : List Slot := r.alternatives.map Weighted.item

/-- Pick an alternative of a rule. When some are excluded, the others share the whole. -/
def Rule.pick {σ : Type} [RandomSource σ] (r : Rule) (excluded : Option (Slot → Bool)) (s : σ) :
    Option Slot × σ :=
  Weighted.pick RandomSource.next r.total r.alternatives excluded s

/-- How far an expansion may go. -/
structure Grammar.Settings where
  /-- How deep templates may nest. -/
  maxDepth : Nat := 20
  deriving DecidableEq, Inhabited

/-- The settings stored as a value. -/
def Grammar.Settings.ofValue? (v : Ron.Value) : Option Grammar.Settings := do
  let fields ← v.fields? "ExpansionSettings" ["max_recursion_depth"]
  match Table.get? fields "max_recursion_depth" with
  | none => some {}
  | some depth => depth.count?.map fun maxDepth => { maxDepth }

/-- The settings stored in a text. -/
def Grammar.Settings.ofRon? (text : String) : Option Grammar.Settings :=
  (Ron.read? text).bind ofValue?

/-- The tables that texts are expanded with. -/
structure Grammar (σ : Type) where
  /-- The rules. -/
  rules : Table Rule := []
  /-- The texts of all alternatives, at their places. -/
  store : Array String := #[]
  /-- The global variables, in the order in which they are evaluated. -/
  globals : Table Template := []
  /-- The Markov models. -/
  models : Table Markov.Model := []
  /-- The modifiers that a program has registered. They stand before the built-in ones. -/
  overrides : Table (Override σ) := []
  /-- The limits. -/
  settings : Grammar.Settings := {}

/-- Why a grammar refuses a change. -/
inductive GrammarError
  /-- A weight is negative or not finite. -/
  | invalidWeight (rule : String) (weight : Float)
  /-- The value of a variable cannot be read. -/
  | template (e : SyntaxError)
  /-- A Markov model cannot be trained. -/
  | markov (e : Markov.MarkovError)

/-- The wording of an error. -/
def GrammarError.message : GrammarError → String
  | .invalidWeight rule weight =>
    "rule '" ++ rule ++ "' has invalid weight " ++ Numeral.floatText weight ++
      " (weights must be finite and non-negative)"
  | .template e => "template parse error: " ++ e.message
  | .markov e => "markov error: " ++ e.message

namespace Grammar

variable {σ : Type}

/-! ### Looking things up -/

/-- The text of the alternative at a place. -/
def text (g : Grammar σ) (slot : Slot) : String := g.store.getD slot ""

/-- The template of the alternative at a place. -/
def template (g : Grammar σ) (slot : Slot) : Except SyntaxError Template :=
  Template.parse (g.text slot)

/-- The rule called `name`. -/
def rule? (g : Grammar σ) (name : String) : Option Rule := g.rules.get? name

/-- The texts and weights of a rule's alternatives. -/
def alternatives (g : Grammar σ) (r : Rule) : List (String × Float) :=
  r.alternatives.map fun w => (g.text w.item, w.weight)

/-- The first fault in any alternative. -/
def parseAll (g : Grammar σ) : Except SyntaxError Unit :=
  g.rules.forM fun (_, r) => r.slots.forM fun slot => (g.template slot).map fun _ => ()

/-! ### Changing rules -/

/-- Put texts into a store, at the free places first and then at its end, and list their places. -/
def place (store : Array String) : List Slot → List (String × Float) →
    Array String × List (Weighted Slot Float)
  | _, [] => (store, [])
  | slot :: free, (text, weight) :: rest =>
    let (store, ws) := place (store.setIfInBounds slot text) free rest
    (store, ⟨slot, weight⟩ :: ws)
  | [], (text, weight) :: rest =>
    let slot := store.size
    let (store, ws) := place (store.push text) [] rest
    (store, ⟨slot, weight⟩ :: ws)

/-- Put a rule under `name`, in the places of the rule that it replaces. -/
def putRule (g : Grammar σ) (name : String) (alternatives : List (String × Float)) : Grammar σ :=
  let free := ((g.rule? name).map Rule.slots).getD []
  let (store, ws) := place g.store free alternatives
  { g with store, rules := g.rules.put name (Rule.named name ws) }

/-- A weight that a rule accepts: finite and not negative. -/
def validWeight (w : Float) : Bool := Numeral.isFinite w && !decide (w < 0)

/-- Add or replace a rule. -/
def addRule (g : Grammar σ) (name : String) (alternatives : List (String × Float)) :
    Except GrammarError (Grammar σ) :=
  match alternatives.find? fun a => !validWeight a.2 with
  | some (_, weight) => .error (.invalidWeight name weight)
  | none => .ok (g.putRule name alternatives)

/-- Add or replace a rule whose alternatives all weigh one. -/
def addTexts (g : Grammar σ) (name : String) (texts : List String) :
    Except GrammarError (Grammar σ) :=
  g.addRule name (texts.map fun text => (text, 1))

/-! ### Changing the rest -/

/-- Add a global variable, or replace its value in its place. -/
def addVariable (g : Grammar σ) (name text : String) : Except GrammarError (Grammar σ) :=
  match Template.parse text with
  | .ok t => .ok { g with globals := g.globals.put name t }
  | .error e => .error (.template e)

/-- Put a model under `name`. -/
def putModel (g : Grammar σ) (name : String) (m : Markov.Model) : Grammar σ :=
  { g with models := g.models.put name m }

/-- Train a model and put it under `name`. -/
def addMarkov (g : Grammar σ) (name : String) (sentences : List String)
    (settings : Markov.Settings) : Except GrammarError (Grammar σ) :=
  match Markov.train sentences settings with
  | .ok m => .ok (g.putModel name m)
  | .error e => .error (.markov e)

/-- Register a modifier. -/
def putOverride (g : Grammar σ) (name : String) (f : Override σ) : Grammar σ :=
  { g with overrides := g.overrides.put name f }

/-- Take in all that `other` has. Where both have a name, that of `other` counts; the limits stay. -/
def merge (g other : Grammar σ) : Grammar σ :=
  let g := other.rules.foldl (fun g r => g.putRule r.1 (other.alternatives r.2)) g
  { g with
    globals := g.globals.putAll other.globals
    models := g.models.putAll other.models
    overrides := g.overrides.putAll other.overrides }

/-! ### Summary -/

/-- What a grammar holds, on one line. -/
def summary (g : Grammar σ) : String :=
  "Grammar \x7b rules: " ++ Text.quotedList g.rules.sortedNames ++
    ", alternatives: " ++ toString g.store.size ++
    ", variables: " ++ Text.quotedList g.globals.names ++
    ", markov_symbols: " ++ Text.quotedList g.models.sortedNames ++
    ", modifiers: " ++ Text.quotedList g.overrides.sortedNames ++
    ", settings: ExpansionSettings \x7b max_recursion_depth: " ++ toString g.settings.maxDepth ++
    " \x7d \x7d"

end Grammar

end Fabula
