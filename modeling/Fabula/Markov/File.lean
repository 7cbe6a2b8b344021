import Fabula.Markov.Model
import Fabula.Ron.Reader
import Fabula.Ron.Writer

/-!
# Fabula.Markov.File

Markov models and their settings as **stored texts**. A setting that is left out has its default. The
contexts of a stored model stand in the order of their lines.
-/

namespace Fabula.Markov

open Ron (Value)

/-- The value of settings. -/
def Settings.toValue (s : Settings) : Value :=
  .record none [
    ("order", Ron.countValue s.order),
    ("min_characters", Ron.countValue s.minCharacters),
    ("max_characters", Ron.countValue s.maxCharacters),
    ("max_tries", Ron.countValue s.maxTries),
    ("unique_output", .flag s.uniqueOutput)]

/-- The value under `name`, read by `get`, or `default` if the field is missing. -/
def fieldOr {α : Type} (fields : List (String × Value)) (name : String) (get : Value → Option α)
    (default : α) : Option α :=
  match Table.get? fields name with
  | none => some default
  | some v => get v

/-- The settings stored as a value. -/
def Settings.ofValue? (v : Value) : Option Settings := do
  let fields ← v.fields? "MarkovSettings"
    ["order", "min_characters", "max_characters", "max_tries", "unique_output"]
  let initial : Settings := {}
  return {
    order := ← fieldOr fields "order" Value.count? initial.order
    minCharacters := ← fieldOr fields "min_characters" Value.count? initial.minCharacters
    maxCharacters := ← fieldOr fields "max_characters" Value.count? initial.maxCharacters
    maxTries := ← fieldOr fields "max_tries" Value.count? initial.maxTries
    uniqueOutput := ← fieldOr fields "unique_output" Value.flag? initial.uniqueOutput }

/-- The settings stored in a text. -/
def Settings.ofRon? (text : String) : Option Settings := (Ron.read? text).bind ofValue?

/-- An entry of the table of transitions. -/
def transitionValue (e : String × List String) : Value × Value :=
  (.text e.1, .list (e.2.map .text))

/-- The transition stored as an entry of a map. -/
def transitionOf? (e : Value × Value) : Option (String × List String) := do
  return (← e.1.text?, ← (← e.2.items?).mapM Value.text?)

/-- Transitions in the order of their lines. -/
def sortedTransitions (t : Table (List String)) : Table (List String) :=
  t.mergeSort fun a b => decide (Ron.textLiteral a.1 ≤ Ron.textLiteral b.1)

/-- The value of a model. -/
def Model.toValue (m : Model) : Value :=
  .record none [
    ("settings", m.settings.toValue),
    ("transitions", .map ((sortedTransitions m.transitions).map transitionValue)),
    ("sentence_count", Ron.countValue m.sentences)]

/-- The model stored as a value. Of a context that stands twice the later successors count. -/
def Model.ofValue? (v : Value) : Option Model := do
  let fields ← v.fields? "MarkovModel" ["settings", "transitions", "sentence_count"]
  let settings ← Settings.ofValue? (← Table.get? fields "settings")
  let transitions ← (← (← Table.get? fields "transitions").entries?).mapM transitionOf?
  let sentences ← (← Table.get? fields "sentence_count").count?
  return { settings, transitions := Table.putAll [] transitions, sentences }

/-- The text that a model is stored as. -/
def Model.toRon (m : Model) : String := m.toValue.pretty

/-- The model stored in a text. -/
def Model.ofRon? (text : String) : Option Model := (Ron.read? text).bind ofValue?

end Fabula.Markov
