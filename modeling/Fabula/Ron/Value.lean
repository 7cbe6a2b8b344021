import Fabula.Numeral.Hexadecimal
import Fabula.Numeral.Reading
import Fabula.Table

/-!
# Fabula.Ron.Value

The **values of the RON format** and what can be got out of them. RON writes records as
`Name(field: value)`, where the name may be left out, maps as `{key: value}`, lists as `[value]`, and
optional values as `None` and `Some(value)`.

Every access returns nothing when the value is of another form. Numbers keep the text that they were
written with, for it depends on who asks whether `1` is a count or a float.
-/

namespace Fabula.Ron

/-- A value. -/
inductive Value
  /-- `true` or `false`. -/
  | flag (b : Bool)
  /-- A number, as it was written. -/
  | number (raw : String)
  /-- A text between double quotation marks. -/
  | text (s : String)
  /-- A character between apostrophes. -/
  | character (c : Char)
  /-- A name that stands alone. -/
  | word (name : String)
  /-- `None`, an optional value that is not there. -/
  | absent
  /-- `Some(value)`, an optional value that is there. -/
  | present (value : Value)
  /-- A list in brackets. -/
  | list (items : List Value)
  /-- A map in braces. -/
  | map (entries : List (Value × Value))
  /-- Named fields in parentheses, and the name before them if there is one. -/
  | record (name : Option String) (fields : List (String × Value))
  /-- Values in parentheses, and the name before them if there is one. -/
  | tuple (name : Option String) (items : List Value)
  deriving BEq, Inhabited

/-- How many steps deep a text may go, when it is written and when it is read. -/
def depthLimit : Nat := 128

/-- Digits of a base, in which underscores may stand anywhere but in front. -/
def digitsInBase? (base acc : Nat) : List Char → Option Nat
  | [] => some acc
  | c :: cs =>
    if c = '_' then digitsInBase? base acc cs
    else (Numeral.hexDigit? c).bind fun d =>
      if d < base then digitsInBase? base (acc * base + d) cs else none

/-- A whole number without sign, in base ten or, after `0x`, `0b` or `0o`, in another. -/
def wholeNumber? (cs : List Char) : Option Nat :=
  let (base, digits) := match cs with
    | '0' :: 'x' :: rest => (16, rest)
    | '0' :: 'b' :: rest => (2, rest)
    | '0' :: 'o' :: rest => (8, rest)
    | _ => (10, cs)
  match digits with
  | [] => none
  | '_' :: _ => none
  | _ => digitsInBase? base 0 digits

/-- A whole number with an optional sign that fits 64 bits. -/
def signedNumber? : List Char → Option Int
  | '+' :: digits =>
    ((wholeNumber? digits).filter (· ≤ Nat.pow 2 63 - 1)).map Int.ofNat
  | '-' :: digits => ((wholeNumber? digits).filter (· ≤ Nat.pow 2 63)).map fun n => -(n : Int)
  | digits => ((wholeNumber? digits).filter (· ≤ Numeral.countMax)).map Int.ofNat

/-- The floats that are written as names. -/
def namedFloats : List (String × Float) := [
  ("inf", 1 / 0), ("+inf", 1 / 0), ("-inf", -1 / 0), ("NaN", 0 / 0), ("+NaN", 0 / 0), ("-NaN", 0 / 0)]

/-- The float that the text of a number stands for: a whole number if it is one that fits, else one
that is written as a name, or a decimal. -/
def floatOf? (raw : String) : Option Float :=
  match signedNumber? raw.toList with
  | some n => some (Float.ofInt n)
  | none =>
    match namedFloats.lookup raw with
    | some x => some x
    | none => Numeral.readDecimal? raw.toList

namespace Value

/-! ### Depth -/

/-- The steps that it takes to go through a value. One leads into the brackets around items, and one more
to each item; a record without fields needs none. -/
def steps : Value → Nat
  | list items => stepsAll items + 1
  | tuple _ items => stepsAll items + 1
  | map entries => stepsEntries entries + 1
  | record none [] => 0
  | record _ fields => stepsFields fields + 1
  | present value => value.steps + 1
  | _ => 0
where
  /-- The steps to the items of a list and through them. -/
  stepsAll : List Value → Nat
    | [] => 0
    | v :: vs => max (v.steps + 1) (stepsAll vs)
  /-- The steps to the entries of a map and through them. -/
  stepsEntries : List (Value × Value) → Nat
    | [] => 0
    | (k, v) :: es => max (max (k.steps + 1) (v.steps + 1)) (stepsEntries es)
  /-- The steps to the fields of a record and through them. -/
  stepsFields : List (String × Value) → Nat
    | [] => 0
    | (_, v) :: fs => max (v.steps + 1) (stepsFields fs)

/-! ### Access -/

/-- A truth value. -/
def flag? : Value → Option Bool
  | flag b => some b
  | _ => none

/-- A number that is whole, has no sign and fits 64 bits. -/
def count? : Value → Option Nat
  | number raw => (wholeNumber? raw.toList).filter (· ≤ Numeral.countMax)
  | _ => none

/-- A number. -/
def float? : Value → Option Float
  | number raw => floatOf? raw
  | _ => none

/-- A text. -/
def text? : Value → Option String
  | text s => some s
  | _ => none

/-- A list. -/
def items? : Value → Option (List Value)
  | list items => some items
  | _ => none

/-- A map. -/
def entries? : Value → Option (List (Value × Value))
  | map entries => some entries
  | _ => none

/-- A record that is called `name` or nothing, with no field of `known` standing twice. Fields that
are not known are allowed. -/
def fields? (name : String) (known : List String) : Value → Option (List (String × Value))
  | record own fields =>
    if own.getD name = name ∧ known.all (fun k => (fields.map Prod.fst).count k ≤ 1) then some fields
    else none
  | _ => none

end Value

end Fabula.Ron
