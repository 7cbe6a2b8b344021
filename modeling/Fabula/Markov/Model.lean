import Fabula.Random.Source
import Fabula.Table
import Fabula.Text.Blank
import Fabula.Text.Quoted

/-!
# Fabula.Markov.Model

**Markov models** of phrases: which tokens were seen to follow which contexts.

The context of a token is the `order` tokens in front of it; a sentence is preceded by that many empty
tokens and followed by the token `</S>`, which ends it. Contexts are kept as one text, their tokens
joined by spaces. That loses nothing, for a token read from a sentence has no space in it. Successors
are kept as often as they were seen, so that a uniform draw among them repeats what was observed.

Design points:

* Memory is taken as unbounded: a context may have any number of tokens, and a text any number of words.
* A model may draw empty tokens for ever. Then there is no result, and the one that stands for that is
  none of those that a program can see (`MarkovError.unfinished`).
-/

namespace Fabula.Markov

/-- How a model is trained and used. -/
structure Settings where
  /-- How many tokens make up a context. -/
  order : Nat := 2
  /-- A symbol rejects texts with fewer characters. -/
  minCharacters : Nat := 0
  /-- A text is abandoned when its tokens have more characters. -/
  maxCharacters : Nat := 100000
  /-- How many texts a symbol asks for before it gives up. -/
  maxTries : Nat := 100
  /-- A symbol rejects texts that it has given before. -/
  uniqueOutput : Bool := true
  deriving DecidableEq, Inhabited

/-- What can go wrong in training and generation. -/
inductive MarkovError
  /-- A context of no tokens was asked for. -/
  | invalidOrder
  /-- The model has no context at all. -/
  | noData
  /-- The model does not know what follows this context. -/
  | unknownContext (key : String)
  /-- More tokens have been drawn than are counted here and the text has not ended. No program is told so:
  it goes on drawing and does not come back. -/
  | unfinished
  deriving DecidableEq

/-- The wording of an error. -/
def MarkovError.message : MarkovError → String
  | .invalidOrder => "markov order must be at least 1"
  | .noData => "no data for generation (model was trained on no sentences)"
  | .unknownContext key => "no training data for context " ++ Text.quoted key
  | .unfinished => "a text without end"

/-- A trained model. -/
structure Model where
  /-- How it was trained and is used. -/
  settings : Settings
  /-- The successors of every context. -/
  transitions : Table (List String)
  /-- How many sentences it was trained on. -/
  sentences : Nat

/-- The token that ends a sentence. -/
def endToken : String := "</S>"

/-- The text under which a context is kept. -/
def key (context : List String) : String := String.intercalate " " context

/-- The context after `token`: the oldest token leaves. -/
def slide (context : List String) (token : String) : List String := context.tail ++ [token]

/-- The context in front of a sentence. -/
def opening (order : Nat) : List String := List.replicate order ""

/-! ### Training -/

/-- The tokens of a sentence, with the one that ends it. -/
def tokens (sentence : String) : List String :=
  (Text.words sentence.toList).map String.ofList ++ [endToken]

/-- Enter what follows `context` in a sentence. -/
def observe (context : List String) (table : Table (List String)) :
    List String → Table (List String)
  | [] => table
  | token :: rest =>
    observe (slide context token) (table.modify (key context) [] (· ++ [token])) rest

/-- Train a model on sentences. -/
def train (sentences : List String) (settings : Settings) : Except MarkovError Model :=
  if settings.order = 0 then .error .invalidOrder
  else .ok {
    settings
    transitions :=
      sentences.foldl (fun table s => observe (opening settings.order) table (tokens s)) []
    sentences := sentences.length }

/-- Train a model on the lines of a text that are not blank. -/
def trainText (text : String) (settings : Settings) : Except MarkovError Model :=
  train ((Text.filledLines text.toList).map String.ofList) settings

/-! ### Generation -/

variable {σ : Type} [RandomSource σ]

/-- The text of tokens that were drawn last to first. -/
def phrase (words : List String) : String := String.intercalate " " words.reverse

/-- Continue a text: `words` have been drawn, last first, with `characters` in all. It is unfinished if
`draws` further tokens do not end it. -/
def Model.extend (m : Model) (context words : List String) (characters : Nat) :
    Nat → σ → Except MarkovError (Option String) × σ
  | 0, s => (.error .unfinished, s)
  | draws + 1, s =>
    match (m.transitions.get? (key context)).getD [] with
    | [] => (.error (.unknownContext (key context)), s)
    | candidate :: candidates =>
      let (i, s) := RandomSource.index (candidates.length + 1) s
      let token := (candidate :: candidates).getD i endToken
      if token = endToken then (.ok (some (phrase words)), s)
      else
        let characters := characters + token.length
        if m.settings.maxCharacters < characters then (.ok none, s)
        else m.extend (slide context token) (token :: words) characters draws s

/-- After how many tokens a text counts as unfinished. Every token but the empty one counts against the
bound on characters, so only a model with empty tokens can come near. -/
def Settings.drawLimit (settings : Settings) : Nat := settings.maxCharacters + Nat.pow 2 62

/-- Generate a text, from the start of a sentence until the token that ends it. There is none when
the text grows too long. -/
def Model.generate (m : Model) (s : σ) : Except MarkovError (Option String) × σ :=
  if m.transitions.isEmpty then (.error .noData, s)
  else m.extend (opening m.settings.order) [] 0 m.settings.drawLimit s

end Fabula.Markov
