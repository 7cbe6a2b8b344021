import Fabula.Ron.Reader
import Fabula.Ron.Writer
import Fabula.Template.Basic

/-!
# Fabula.Template.Data

Templates as **data**: the value that a template is stored as, and back. A stored template need not
be one that reading a text gives. Fields with a natural default may be left out, and fields that are
not known are ignored.
-/

namespace Fabula

open Ron (Value)

/-- The value of an argument. A text and a number tell themselves apart. -/
def Argument.toValue : Argument → Value
  | .number x => Ron.floatValue x
  | .text s => .text s

/-- The argument stored as a value. -/
def Argument.ofValue? (v : Value) : Option Argument :=
  match v.float? with
  | some x => some (.number x)
  | none => v.text?.map .text

/-- The value of a modifier call. -/
def ModifierCall.toValue (c : ModifierCall) : Value :=
  .record none [("name", .text c.name), ("args", .list (c.args.map Argument.toValue))]

/-- The modifier call stored as a value. -/
def ModifierCall.ofValue? (v : Value) : Option ModifierCall := do
  let fields ← v.fields? "ModifierCall" ["name", "args"]
  let name ← (← Table.get? fields "name").text?
  let args ← match Table.get? fields "args" with
    | none => some []
    | some args => do (← args.items?).mapM Argument.ofValue?
  return { name, args }

/-- The value of a reference. -/
def Reference.toValue (r : Reference) : Value :=
  .record none [
    ("name", .text r.symbol),
    ("modifiers", .list (r.calls.map ModifierCall.toValue)),
    ("is_decorator", .flag r.decorator)]

/-- The reference stored as a value. -/
def Reference.ofValue? (v : Value) : Option Reference := do
  let fields ← v.fields? "Expansion" ["name", "modifiers", "is_decorator"]
  let symbol ← (← Table.get? fields "name").text?
  let calls ← match Table.get? fields "modifiers" with
    | none => some []
    | some calls => do (← calls.items?).mapM ModifierCall.ofValue?
  let decorator ← match Table.get? fields "is_decorator" with
    | none => some false
    | some b => b.flag?
  return { symbol, calls, decorator }

namespace Template

/-- The value of a template. -/
def toValue : Template → Value
  | ⟨source, pattern, references, declarations⟩ =>
    .record none [
      ("original_string", .text source),
      ("format_string", .text pattern),
      ("expansions", .list (references.map Reference.toValue)),
      ("variables", .list (declarationValues declarations))]
where
  /-- The values of declarations. -/
  declarationValues : List (String × Template) → List Value
    | [] => []
    | (name, t) :: rest =>
      .record none [("name", .text name), ("lexeme", t.toValue)] :: declarationValues rest

mutual

/-- The template stored as a value. -/
def ofValue? : Value → Option Template
  | .record name fields => do
    let known := ["original_string", "format_string", "expansions", "variables"]
    let _ ← (Value.record name fields).fields? "Lexeme" known
    let source ← (← Table.get? fields "original_string").text?
    let pattern ← (← Table.get? fields "format_string").text?
    let references ← (← (← Table.get? fields "expansions").items?).mapM Reference.ofValue?
    let declarations ← declarationsIn? fields
    return { source, pattern, references, declarations }
  | _ => none

/-- The declarations among the fields of a template; none if the field is missing. -/
def declarationsIn? : List (String × Value) → Option (List (String × Template))
  | [] => some []
  | (name, v) :: rest => if name = "variables" then declarationList? v else declarationsIn? rest

/-- The declarations stored as a list. -/
def declarationList? : Value → Option (List (String × Template))
  | .list items => declarationItems? items
  | _ => none

/-- The declarations stored as values. -/
def declarationItems? : List Value → Option (List (String × Template))
  | [] => some []
  | v :: vs => do return (← declarationOf? v) :: (← declarationItems? vs)

/-- The declaration stored as a value. -/
def declarationOf? : Value → Option (String × Template)
  | .record name fields => do
    let _ ← (Value.record name fields).fields? "Variable" ["name", "lexeme"]
    let declared ← (← Table.get? fields "name").text?
    let value ← templateIn? fields
    return (declared, value)
  | _ => none

/-- The template among the fields of a declaration. -/
def templateIn? : List (String × Value) → Option Template
  | [] => none
  | (name, v) :: rest => if name = "lexeme" then ofValue? v else templateIn? rest

end

/-- The text that a template is stored as. There is none if declarations nest too deep in it. -/
def toRon? (t : Template) : Option String := t.toValue.write?

/-- The template stored in a text. -/
def ofRon? (text : String) : Option Template := (Ron.read? text).bind ofValue?

end Template

end Fabula
