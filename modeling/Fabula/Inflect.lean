import Fabula.Text.Alphabetic
import Fabula.Text.Blank
import Fabula.Text.CaseMapping
import Fabula.Text.Uppercase

/-!
# Fabula.Inflect

**English inflection** by rules of thumb: capitals, articles, plurals, singulars and possessives.

Irregular forms stand in small tables, and all other words are changed by their endings. Of a phrase
only the last word is changed, and its capitals are carried over to the result.
-/

namespace Fabula.Inflect

/-! ### Tables -/

/-- Nouns with a plural of their own. -/
def irregularPlurals : List (String × String) := [
  ("analysis", "analyses"), ("axis", "axes"), ("bus", "buses"), ("cactus", "cacti"),
  ("calf", "calves"), ("child", "children"), ("crisis", "crises"), ("criterion", "criteria"),
  ("die", "dice"), ("echo", "echoes"), ("elf", "elves"), ("foot", "feet"), ("fungus", "fungi"),
  ("gas", "gases"), ("goose", "geese"), ("half", "halves"), ("hero", "heroes"),
  ("index", "indices"), ("knife", "knives"), ("leaf", "leaves"), ("life", "lives"),
  ("loaf", "loaves"), ("louse", "lice"), ("matrix", "matrices"), ("mouse", "mice"),
  ("octopus", "octopi"), ("ox", "oxen"), ("person", "people"), ("phenomenon", "phenomena"),
  ("potato", "potatoes"), ("self", "selves"), ("shelf", "shelves"), ("thief", "thieves"),
  ("tomato", "tomatoes"), ("tooth", "teeth"), ("torpedo", "torpedoes"), ("vertex", "vertices"),
  ("veto", "vetoes"), ("wife", "wives"), ("wolf", "wolves"), ("woman", "women")]

/-- Nouns with one form for both numbers. -/
def uncountable : List String := [
  "aircraft", "bison", "deer", "equipment", "fish", "information", "money", "moose", "news", "rice",
  "salmon", "series", "sheep", "species", "swine", "trout"]

/-- Nouns in "man" whose plural does not end in "men". -/
def notManCompounds : List String := ["caiman", "german", "human", "shaman", "talisman"]

/-- What stands before "ie" in the nouns that end so; other plurals in "ies" come from a "y". -/
def ieStems : List String := ["calor", "cook", "l", "mov", "p", "rook", "t", "zomb"]

/-- Beginnings of words that are written with a vowel and spoken with a consonant. -/
def consonantOnsets : List String := [
  "eu", "ewe", "one", "once", "ubiq", "uni", "ura", "ure", "uro", "usa", "use", "usu", "uti", "uto"]

/-- Beginnings of words whose "h" is silent. -/
def silentOnsets : List String := ["heir", "herb", "honest", "honor", "honour", "hour"]

/-! ### Capitals -/

/-- The first character replaced by its capital form, `upper` giving these. -/
def capitalizeWith (upper : Char → List Char) : List Char → List Char
  | [] => []
  | c :: cs => upper c ++ cs

/-- The first character of every word replaced by its capital form; `inWord` says that the character
before is no white space. -/
def capitalizeAllWith (upper : Char → List Char) (inWord : Bool) : List Char → List Char
  | [] => []
  | c :: cs =>
    (if !inWord && !Text.isBlank c then upper c else [c]) ++
      capitalizeAllWith upper (!Text.isBlank c) cs

/-- The text with a capital in front. -/
def capitalize (text : String) : String :=
  String.ofList (capitalizeWith Text.upper text.toList)

/-- The text with a capital in front of every word. -/
def capitalizeAll (text : String) : String :=
  String.ofList (capitalizeAllWith Text.upper false text.toList)

/-! ### Articles -/

/-- `cs` starts with one of these. -/
def startsWithAny (starts : List String) (cs : List Char) : Bool :=
  starts.any fun s => s.toList.isPrefixOf cs

/-- A vowel. -/
def isVowel (c : Char) : Bool := c = 'a' || c = 'e' || c = 'i' || c = 'o' || c = 'u'

/-- A word in small letters is spoken with a vowel in front. -/
def takesAn (word : List Char) : Bool :=
  match word with
  | [] => false
  | first :: _ =>
    if first = '8' || word = ['1', '1'] || word = ['1', '8'] then true
    else if startsWithAny silentOnsets word then true
    else isVowel first && !startsWithAny consonantOnsets word

/-- The indefinite article for the first word of a phrase. -/
def indefiniteArticle (phrase : String) : String :=
  let word := (Text.words phrase.toList).headD []
  if takesAn (Text.lowercase word) then "an" else "a"

/-- The phrase with its indefinite article, unless it is blank. -/
def withArticle (phrase : String) : String :=
  if phrase.toList.all Text.isBlank then phrase
  else indefiniteArticle phrase ++ " " ++ phrase

/-! ### Number -/

/-- What stands before an ending. -/
def stem? (ending : String) (word : List Char) : Option (List Char) :=
  if ending.toList.isSuffixOf word then some (word.take (word.length - ending.length)) else none

/-- The word has one of these endings. -/
def endsWithAny (endings : List String) (word : List Char) : Bool :=
  endings.any fun e => e.toList.isSuffixOf word

/-- The plural by ending. -/
def regularPlural (word : List Char) : List Char :=
  if endsWithAny ["s", "x", "z", "ch", "sh"] word then word ++ ['e', 's']
  else
    match stem? "y" word with
    | some stem =>
      if (stem.getLast?.map fun c => !isVowel c).getD false then stem ++ ['i', 'e', 's']
      else word ++ ['s']
    | none => word ++ ['s']

/-- The plural of a word in small letters. -/
def pluralWord (word : List Char) : List Char :=
  let name := String.ofList word
  if uncountable.contains name then word
  else
    match irregularPlurals.lookup name with
    | some plural => plural.toList
    | none =>
      match stem? "man" word with
      | some stem =>
        if notManCompounds.contains name then regularPlural word else stem ++ ['m', 'e', 'n']
      | none => regularPlural word

/-- The singular by ending, for words that are left. -/
def regularSingular (word : List Char) : List Char :=
  if endsWithAny ["sses", "xes", "zzes", "ches", "shes"] word then word.dropLast.dropLast
  else if endsWithAny ["ss", "us", "is"] word then word
  else
    match stem? "s" word with
    | some stem => if stem.isEmpty then word else stem
    | none => word

/-- The singular of a word that may end in "ies". -/
def singularOfIes (word : List Char) : List Char :=
  match stem? "ies" word with
  | some stem =>
    if ieStems.contains (String.ofList stem) then stem ++ ['i', 'e']
    else if stem.isEmpty then regularSingular word
    else stem ++ ['y']
  | none => regularSingular word

/-- The singular of a word in small letters. -/
def singularWord (word : List Char) : List Char :=
  let name := String.ofList word
  if uncountable.contains name then word
  else
    match irregularPlurals.find? (·.2 = name) with
    | some (singular, _) => singular.toList
    | none =>
      match stem? "men" word with
      | some stem =>
        if stem.isEmpty || endsWithAny ["omen", "imen"] word then singularOfIes word
        else stem ++ ['m', 'a', 'n']
      | none => singularOfIes word

/-! ### Phrases -/

/-- A phrase cut around its last word. -/
structure LastWord where
  /-- What stands before the word. -/
  head : List Char
  /-- The word. -/
  word : List Char
  /-- The white space after the word. -/
  tail : List Char

/-- Cut a phrase around its last word. -/
def splitLastWord (phrase : List Char) : LastWord :=
  let reversed := phrase.reverse
  let body := reversed.dropWhile Text.isBlank
  { head := (body.dropWhile (!Text.isBlank ·)).reverse
    word := (body.takeWhile (!Text.isBlank ·)).reverse
    tail := (reversed.takeWhile Text.isBlank).reverse }

/-- Give an inflected word in small letters the capitals of the word it comes from: all of them if
that word has several letters and all are capitals, else the first. -/
def matchCase (word inflected : List Char) : List Char :=
  let letters := word.filter Text.isAlphabetic
  if 1 < letters.length && letters.all Text.isUppercase then Text.uppercase inflected
  else if (word.head?.map Text.isUppercase).getD false then capitalizeWith Text.upper inflected
  else inflected

/-- Inflect the last word of a phrase. -/
def inflectLast (inflect : List Char → List Char) (phrase : List Char) : List Char :=
  let p := splitLastWord phrase
  if p.word.isEmpty then phrase
  else p.head ++ matchCase p.word (inflect (Text.lowercase p.word)) ++ p.tail

/-- The phrase in the plural. -/
def pluralize (phrase : String) : String :=
  String.ofList (inflectLast pluralWord phrase.toList)

/-- The phrase in the singular. -/
def singularize (phrase : String) : String :=
  String.ofList (inflectLast singularWord phrase.toList)

/-- The phrase as an owner, unless it is blank. -/
def possessive (phrase : String) : String :=
  if phrase.toList.all Text.isBlank then phrase
  else
    match phrase.toList.getLast? with
    | some c => if c = 's' || c = 'S' then phrase ++ "'" else phrase ++ "'s"
    | none => phrase

end Fabula.Inflect
