import Fabula.Expand.Builtin

/-!
# Fabula.Lint

**Checking a grammar** without expanding anything. Errors are about templates that are certain to fail
when they are expanded, warnings about those that might.

Rules are looked at in the order of their names and then the global variables in theirs. A name counts
as known in the whole of an alternative, with its nested templates, if it is declared anywhere in it.
-/

namespace Fabula

/-- What is wrong with a grammar. -/
structure Lint where
  /-- What is certain to fail. -/
  errors : List String := []
  /-- What might fail, or is of no use. -/
  warnings : List String := []
  deriving DecidableEq

namespace Lint

variable {σ : Type}

/-- There is nothing to report. -/
def isClean (r : Lint) : Bool := r.errors.isEmpty && r.warnings.isEmpty

/-- Two reports one after the other. -/
def append (a b : Lint) : Lint := ⟨a.errors ++ b.errors, a.warnings ++ b.warnings⟩

instance : Append Lint := ⟨append⟩

/-- A report of one error. -/
def error (message : String) : Lint := { errors := [message] }

/-- A report of one warning. -/
def warning (message : String) : Lint := { warnings := [message] }

/-- Reports one after the other. -/
def concat (reports : List Lint) : Lint := reports.foldl (· ++ ·) {}

/-- The names that a template and its nested templates declare. -/
def declared (t : Template) : List String :=
  t.walk.flatMap fun t => t.declarations.map Prod.fst

/-- The references of a template and its nested templates. -/
def references (t : Template) : List Reference := t.walk.flatMap Template.references

/-- A reference to `name` can be resolved, when `locals` are declared around it. -/
def isKnown (g : Grammar σ) (locals : List String) (name : String) : Bool :=
  name.isEmpty || locals.contains name || g.globals.has name || g.rules.has name ||
    g.models.has name

/-- Check the call of a modifier. -/
def checkCall (g : Grammar σ) (owner : String) (call : ModifierCall) : Lint :=
  if g.overrides.has call.name then {}
  else
    match Builtin.ofName? call.name with
    | none => error (owner ++ " uses unknown modifier '" ++ call.name ++ "'")
    | some .uniques =>
      match call.args.head?.bind Argument.text? with
      | some target =>
        if g.rules.has target then {}
        else error (owner ++ " passes unknown rule '" ++ target ++ "' to 'uniques'")
      | none => {}
    | some _ => {}

/-- Check a reference. -/
def checkReference (g : Grammar σ) (owner : String) (locals : List String) (r : Reference) : Lint :=
  let known : Lint :=
    if isKnown g locals r.symbol then {}
    else warning (owner ++ " references '" ++ r.symbol ++
      "', which is not a rule, markov symbol, or variable in scope")
  known ++ concat (r.calls.map (checkCall g owner))

/-- Check a template with its nested templates. -/
def checkTemplate (g : Grammar σ) (owner : String) (t : Template) : Lint :=
  concat ((references t).map (checkReference g owner (declared t)))

/-- How messages speak of a rule. -/
def ruleOwner (name : String) : String := "Rule '" ++ name ++ "'"

/-- Check that a rule can give a text. -/
def checkWeights (name : String) (r : Rule) : Lint :=
  if r.alternatives.isEmpty then warning (ruleOwner name ++ " has no alternatives")
  else if r.total ≤ 0 then
    warning (ruleOwner name ++ " has zero total weight and always expands to \"\"")
  else {}

/-- The alternatives of a rule that can be read. -/
def readable (g : Grammar σ) (r : Rule) : List Template :=
  r.slots.filterMap fun slot => (g.template slot).toOption

/-- Check that the alternatives of a rule can be read. -/
def checkReadable (g : Grammar σ) (name : String) (r : Rule) : Lint :=
  concat (r.slots.map fun slot =>
    match g.template slot with
    | .ok _ => {}
    | .error e => error (ruleOwner name ++ " has an unparsable alternative: " ++ e.message))

/-- Every alternative of a rule can be read and refers to the rule itself. -/
def onlyRecursive (g : Grammar σ) (name : String) (r : Rule) : Bool :=
  let templates := readable g r
  !templates.isEmpty && templates.length == r.alternatives.length &&
    templates.all fun t => (references t).any (·.symbol = name)

/-- Check that a rule can come to an end. -/
def checkRecursion (g : Grammar σ) (name : String) (r : Rule) : Lint :=
  if onlyRecursive g name r then
    error (ruleOwner name ++ " has no non-recursive alternative (infinite recursion)")
  else {}

/-- Check a rule. -/
def checkRule (g : Grammar σ) (name : String) (r : Rule) : Lint :=
  checkWeights name r ++ checkReadable g name r ++
    concat ((readable g r).map (checkTemplate g (ruleOwner name))) ++ checkRecursion g name r

/-- The rules in the order of their names. -/
def sortedRules (g : Grammar σ) : Table Rule :=
  g.rules.mergeSort fun a b => decide (a.1 ≤ b.1)

end Lint

/-- Check a grammar. -/
def Grammar.lint {σ : Type} (g : Grammar σ) : Lint :=
  Lint.concat ((Lint.sortedRules g).map fun (name, r) => Lint.checkRule g name r) ++
    Lint.concat (g.globals.map fun (name, t) =>
      Lint.checkTemplate g ("Variable '" ++ name ++ "'") t)

end Fabula
