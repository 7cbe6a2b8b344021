/-!
# Fabula.Text.Blank

**White space** and the cuts made at it: trimming, words and lines. White space is the Unicode
property White_Space, so the no-break space and the ideographic space divide words and the
zero-width space does not.
-/

namespace Fabula.Text

/-- `c` has the property White_Space. -/
def isBlank (c : Char) : Bool :=
  let n := c.toNat
  (0x9 ≤ n && n ≤ 0xd) || n == 0x20 || n == 0x85 || n == 0xa0 || n == 0x1680 ||
    (0x2000 ≤ n && n ≤ 0x200a) || n == 0x2028 || n == 0x2029 || n == 0x202f || n == 0x205f ||
    n == 0x3000

/-- `cs` without the white space at its end. -/
def trimEnd (cs : List Char) : List Char := (cs.reverse.dropWhile isBlank).reverse

/-- `cs` without the white space at both ends. -/
def trim (cs : List Char) : List Char := trimEnd (cs.dropWhile isBlank)

/-- A word under way, last character first, is closed into the list of words. -/
def closeWord (word : List Char) (ws : List (List Char)) : List (List Char) :=
  if word.isEmpty then ws else word.reverse :: ws

/-- The words of a text of which `word` has been read already, last character first. -/
def wordsFrom (word : List Char) : List Char → List (List Char)
  | [] => closeWord word []
  | c :: cs => if isBlank c then closeWord word (wordsFrom [] cs) else wordsFrom (c :: word) cs

/-- The maximal runs of characters that are not white space. -/
def words (cs : List Char) : List (List Char) := wordsFrom [] cs

/-- The pieces between line feeds, of which `line` has been read already, last character first. -/
def linesFrom (line : List Char) : List Char → List (List Char)
  | [] => [line.reverse]
  | c :: cs => if c = '\n' then line.reverse :: linesFrom [] cs else linesFrom (c :: line) cs

/-- The lines of a text that hold more than white space, trimmed. -/
def filledLines (cs : List Char) : List (List Char) :=
  ((linesFrom [] cs).map trim).filter (!·.isEmpty)

end Fabula.Text
