import Fabula.Text.Printable

/-!
# Fabula.Text.Quoted

A text **between quotation marks**, on one line and in visible characters: the form in which messages
show a text and data files hold one. The two differ in one point, the apostrophe, which only the data
files escape.
-/

namespace Fabula.Text

/-- The escape of a character by its number, in small hexadecimal digits without leading zeros. -/
def codePointEscape (c : Char) : List Char :=
  ['\\', 'u', '{'] ++ Nat.toDigits 16 c.toNat ++ ['}']

/-- A character as it stands between quotation marks. Backslash and quotation mark are escaped, so
are the apostrophe if asked, and every character that would not show or would join its neighbour. -/
def escapeChar (apostrophe : Bool) (c : Char) : List Char :=
  if c = '\x00' then ['\\', '0']
  else if c = '\t' then ['\\', 't']
  else if c = '\r' then ['\\', 'r']
  else if c = '\n' then ['\\', 'n']
  else if c = '"' || c = '\\' || (apostrophe && c = '\'') then ['\\', c]
  else if isExtendingMark c || !isPrintable c then codePointEscape c
  else [c]

/-- A text between quotation marks. -/
def quotedWith (apostrophe : Bool) (s : String) : String :=
  String.ofList ('"' :: (s.toList.flatMap (escapeChar apostrophe) ++ ['"']))

/-- A text as messages show it: the apostrophe stands for itself. -/
def quoted (s : String) : String := quotedWith false s

/-- A list of texts as summaries show it. -/
def quotedList (ss : List String) : String :=
  "[" ++ String.intercalate ", " (ss.map quoted) ++ "]"

end Fabula.Text
