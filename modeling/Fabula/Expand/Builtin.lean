import Fabula.Expand.Dice
import Fabula.Expand.Engine
import Fabula.Grammar.Basic
import Fabula.Inflect

/-!
# Fabula.Expand.Builtin

The **built-in modifiers**, which every grammar understands.
-/

namespace Fabula

/-- The built-in modifiers. -/
inductive Builtin
  /-- A capital in front. -/
  | capitalize
  /-- A capital in front of every word. -/
  | capitalizeAll
  /-- Quotation marks around the value. -/
  | quotes
  /-- The value several times over. -/
  | times
  /-- The indefinite article in front. -/
  | article
  /-- The plural. -/
  | plural
  /-- The singular. -/
  | singular
  /-- The form of an owner. -/
  | possessive
  /-- A random number between two bounds. -/
  | randomNumber
  /-- The result of a throw of dice. -/
  | roll
  /-- Several different expansions of one rule. -/
  | uniques
  deriving DecidableEq, Inhabited

namespace Builtin

/-- All built-in modifiers. -/
def all : List Builtin := [
  capitalize, capitalizeAll, quotes, times, article, plural, singular, possessive, randomNumber,
  roll, uniques]

/-- The name by which templates call a modifier. -/
def name : Builtin → String
  | capitalize => "capitalize"
  | capitalizeAll => "capitalizeall"
  | quotes => "quotes"
  | times => "times"
  | article => "a"
  | plural => "s"
  | singular => "singular"
  | possessive => "possessive"
  | randomNumber => "randomNumber"
  | roll => "roll"
  | uniques => "uniques"

/-- The modifier of this name. -/
def ofName? (name : String) : Option Builtin := all.find? (·.name = name)

/-! ### Arguments -/

variable {σ : Type}

/-- The error of a modifier that cannot work with its arguments. -/
def fault (b : Builtin) (reason : String) : ExpandError := .badArguments b.name reason

/-- The error about argument `index`, counted from zero in the list and from one in the message. -/
def argumentFault (b : Builtin) (index : Nat) (complaint : String) : ExpandError :=
  b.fault ("argument " ++ toString (index + 1) ++ " must be " ++ complaint)

/-- Argument `index`, which must be a text if it is there. -/
def textArg (b : Builtin) (args : List Argument) (index : Nat) :
    Except ExpandError (Option String) :=
  match args[index]? with
  | none => .ok none
  | some (.text s) => .ok (some s)
  | some other => .error (b.argumentFault index ("a string, got " ++ other.render))

/-- Argument `index` as a 64-bit integer. A text that holds a number will do, and fractions are
dropped. -/
def integerArg (b : Builtin) (args : List Argument) (index : Nat) :
    Except ExpandError (Option Int) :=
  let ofFloat (x : Float) : Except ExpandError (Option Int) :=
    if Numeral.isFinite x then .ok (some (Numeral.wholeWithin Numeral.int64Min Numeral.int64Max x))
    else .error (b.argumentFault index "finite")
  match args[index]? with
  | none => .ok none
  | some (.number x) => ofFloat x
  | some (.text s) =>
    match Numeral.readFloat? (Text.trim s.toList) with
    | some x => ofFloat x
    | none => .error (b.argumentFault index ("a number, got " ++ Text.quoted s))

/-- Argument `index` as a count, which must be a number that is not negative. -/
def countArg (b : Builtin) (args : List Argument) (index : Nat) :
    Except ExpandError (Option Nat) :=
  let refuse (a : Argument) : Except ExpandError (Option Nat) :=
    .error (b.argumentFault index ("a non-negative number, got " ++ a.render))
  match args[index]? with
  | none => .ok none
  | some (.number x) =>
    if Numeral.isFinite x && decide (0 ≤ x) then
      .ok (some (Numeral.wholeWithin 0 Numeral.countMax x).toNat)
    else refuse (.number x)
  | some other => refuse other

/-- An argument that may not be missing. -/
def required {α : Type} (b : Builtin) (missing : String) : Option α → Except ExpandError α
  | some a => .ok a
  | none => .error (b.fault missing)

/-! ### Repetition -/

/-- The longest text, in bytes, that repetition may give. -/
def maxRepetition : Nat := Nat.pow 2 20

/-- `value` repeated `count` times with spaces between, unless that becomes too long. -/
def repeated (value : String) (count : Nat) : Except ExpandError String :=
  if (value.utf8ByteSize + 1) * count ≤ maxRepetition + 1 then
    .ok (String.intercalate " " (List.replicate count value))
  else
    .error (times.fault (toString count ++ " repetitions would exceed " ++
      toString maxRepetition ++ " bytes"))

/-! ### Different expansions of a rule -/

/-- How many expansions are tried before what has been found must do. -/
def maxUniqueTries : Nat := 9999

/-- Expand a rule, by `attempt`, until there are `count` different texts. If it has nothing new to
say, `open?` tells whether that was true of one branch only. -/
def collect (attempt : Run σ (Option String)) (open? : Context σ → Bool) (count : Nat)
    (texts : List String) : Nat → Run σ (List String)
  | 0 => pure texts
  | tries + 1 =>
    if count ≤ texts.length then pure texts
    else do
      match ← attempt with
      | some text =>
        collect attempt open? count (if texts.contains text then texts else texts ++ [text]) tries
      | none =>
        if open? (← get) then collect attempt open? count texts tries else pure texts

/-- Some alternative of a rule has weight and has not been seen. -/
def hasUnseen (r : Rule) (c : Context σ) : Bool :=
  r.alternatives.any fun w => decide (0 < w.weight) && !c.isSeen w.item

/-- The arguments of `uniques`: the rule, how many texts, and what stands between them. -/
def uniquesArgs (args : List Argument) : Except ExpandError (String × Nat × String) := do
  let rule ← uniques.required "expected a rule name" (← uniques.textArg args 0)
  let count ← uniques.required "expected a count" (← uniques.countArg args 1)
  let separator ← uniques.textArg args 2
  return (rule, count, separator.getD " ")

/-- Different expansions of a rule, as many as are asked for and can be found. -/
def runUniques (g : Grammar σ) (engine : Engine σ) (args : List Argument) : Run σ String := do
  let (name, count, separator) ← Run.ofExcept (uniquesArgs args)
  match g.rule? name with
  | none => throw (.unknownRule uniques.name name)
  | some r => Run.withTracker do
    let texts ← collect (engine.expandRule name) (hasUnseen r) count [] maxUniqueTries
    return String.intercalate separator texts

/-! ### Application -/

/-- How many times a value is to be repeated. -/
def timesArg (args : List Argument) : Except ExpandError Nat := do
  times.required "expected a repetition count" (← times.countArg args 0)

/-- The bounds of a random number. -/
def randomBounds (args : List Argument) : Except ExpandError (Int × Int) := do
  let low ← randomNumber.integerArg args 0
  let high ← randomNumber.integerArg args 1
  return (low.getD 0, high.getD 99)

/-- The dice to be thrown. -/
def diceArg (args : List Argument) : Except ExpandError Dice := do
  let text ← roll.required "expected dice notation such as \"2d6+1\"" (← roll.textArg args 0)
  match Dice.read? text.toList with
  | some dice => return dice
  | none => throw (roll.fault ("invalid dice notation " ++ Text.quoted text))

/-- Apply a modifier to a value. -/
def apply [RandomSource σ] (b : Builtin) (g : Grammar σ) (engine : Engine σ) (value : String)
    (args : List Argument) : Run σ String :=
  match b with
  | capitalize => pure (Inflect.capitalize value)
  | capitalizeAll => pure (Inflect.capitalizeAll value)
  | quotes => pure ("\"" ++ value ++ "\"")
  | times => Run.ofExcept ((timesArg args).bind (repeated value))
  | article => pure (Inflect.withArticle value)
  | plural => pure (Inflect.pluralize value)
  | singular => pure (Inflect.singularize value)
  | possessive => pure (Inflect.possessive value)
  | randomNumber => do
    let (low, high) ← Run.ofExcept (randomBounds args)
    return toString (← Run.draw (RandomSource.between low high))
  | roll => do
    let dice ← Run.ofExcept (diceArg args)
    return toString (← Run.draw dice.roll)
  | uniques => runUniques g engine args

end Builtin

end Fabula
