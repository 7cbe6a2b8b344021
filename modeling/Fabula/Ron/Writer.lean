import Fabula.Numeral.Shortest
import Fabula.Ron.Value
import Fabula.Text.Quoted

/-!
# Fabula.Ron.Writer

Writing **RON text**, on one line without spaces (`Value.write?`) or with one item on each line
(`Value.pretty`). Texts are written with the apostrophe escaped.

A value that goes deeper than the limit allows is not written at all. Among the values of this library
only templates can: what is written with one item on each line is a model, and takes six steps.
-/

namespace Fabula.Ron

/-- A text of the format. -/
def textLiteral (s : String) : String := Text.quotedWith true s

/-- The number that stands for a float. A whole one shows that it is a float by `.0`. -/
def floatValue (x : Float) : Value :=
  let text := Numeral.floatText x
  .number (if text.toList.all (fun c => c.isDigit || c = '-') then text ++ ".0" else text)

/-- The number that stands for a count. -/
def countValue (n : Nat) : Value := .number (toString n)

/-- The text of a value that holds no other one. -/
def Value.leafText : Value → String
  | .flag b => if b then "true" else "false"
  | .number raw => raw
  | .text s => textLiteral s
  | .character c => "'" ++ String.ofList (Text.escapeChar true c) ++ "'"
  | .word name => name
  | .absent => "None"
  | _ => ""

/-- A value on one line. -/
def Value.compact : Value → String
  | .list items => "[" ++ String.intercalate "," (compactAll items) ++ "]"
  | .tuple name items => name.getD "" ++ "(" ++ String.intercalate "," (compactAll items) ++ ")"
  | .map entries => "\x7b" ++ String.intercalate "," (compactEntries entries) ++ "\x7d"
  | .record name fields =>
    name.getD "" ++ "(" ++ String.intercalate "," (compactFields fields) ++ ")"
  | .present value => "Some(" ++ value.compact ++ ")"
  | leaf => leaf.leafText
where
  /-- The items of a list. -/
  compactAll : List Value → List String
    | [] => []
    | v :: vs => v.compact :: compactAll vs
  /-- The entries of a map. -/
  compactEntries : List (Value × Value) → List String
    | [] => []
    | (k, v) :: es => (k.compact ++ ":" ++ v.compact) :: compactEntries es
  /-- The fields of a record. -/
  compactFields : List (String × Value) → List String
    | [] => []
    | (k, v) :: fs => (k ++ ":" ++ v.compact) :: compactFields fs

/-- The text of a value, on one line, unless it goes too deep. -/
def Value.write? (v : Value) : Option String :=
  if v.steps ≤ depthLimit then some v.compact else none

/-- The white space at the start of a line. -/
def indent (level : Nat) : String := "".pushn ' ' (4 * level)

/-- Lines between an opening and a closing bracket, none being needed for nothing. -/
def bracketed (level : Nat) (opening closing : String) (lines : List String) : String :=
  if lines.isEmpty then opening ++ closing
  else
    opening ++ "\n" ++ String.join (lines.map fun l => indent (level + 1) ++ l ++ ",\n") ++
      indent level ++ closing

/-- A value with one item on each line, inside brackets that nest `level` deep. -/
def Value.prettyAt (level : Nat) : Value → String
  | .list items => bracketed level "[" "]" (prettyAll (level + 1) items)
  | .tuple name items => bracketed level (name.getD "" ++ "(") ")" (prettyAll (level + 1) items)
  | .map entries => bracketed level "\x7b" "\x7d" (prettyEntries (level + 1) entries)
  | .record name fields =>
    bracketed level (name.getD "" ++ "(") ")" (prettyFields (level + 1) fields)
  | .present value => "Some(" ++ value.prettyAt level ++ ")"
  | leaf => leaf.leafText
where
  /-- The items of a list. -/
  prettyAll (level : Nat) : List Value → List String
    | [] => []
    | v :: vs => v.prettyAt level :: prettyAll level vs
  /-- The entries of a map. -/
  prettyEntries (level : Nat) : List (Value × Value) → List String
    | [] => []
    | (k, v) :: es => (k.prettyAt level ++ ": " ++ v.prettyAt level) :: prettyEntries level es
  /-- The fields of a record. -/
  prettyFields (level : Nat) : List (String × Value) → List String
    | [] => []
    | (k, v) :: fs => (k ++ ": " ++ v.prettyAt level) :: prettyFields level fs

/-- A value with one item on each line. -/
def Value.pretty (v : Value) : String := v.prettyAt 0

end Fabula.Ron
