import Fabula.Expand.Interpreter
import Fabula.Markov.File

/-!
# Fabula.Generator

**Generators**: a grammar with a seed, built once and used many times.

Each text is drawn from a source of its own, started from the seed plus the number of texts generated
so far. A text that fails does not count, so generators that are built alike give the same texts
whatever fails in between. Memory is taken as unbounded: any number of texts may be asked for at once
(`Generator.variants`).
-/

namespace Fabula

/-- A grammar and the seed that its texts are drawn from. -/
structure Generator (σ : Type) where
  /-- The grammar. -/
  grammar : Grammar σ
  /-- The seed. -/
  seed : UInt64 := 0
  /-- How many texts have been generated. -/
  count : UInt64 := 0

/-! ### Building -/

/-- What a name in a directory stands for. -/
inductive DirectoryEntry
  /-- A file with these bytes. -/
  | file (bytes : ByteArray)
  /-- A directory. -/
  | directory

/-- What is found at a path. -/
inductive PathContent
  /-- Nothing. -/
  | missing
  /-- A file. -/
  | file
  /-- A directory with these names. -/
  | directory (entries : Table DirectoryEntry)

/-- Why a generator cannot be built. -/
inductive BuildError
  /-- The path of the models is no directory. -/
  | notADirectory
  /-- The file of a model cannot be read as text. -/
  | unreadableModel
  /-- The file of a model does not hold one. -/
  | malformedModel
  deriving DecidableEq

/-- The name of the model in a file: what stands before the last point, if "ron" follows it. A point
in front does not count. -/
def modelName? (fileName : String) : Option String :=
  let reversed := fileName.toList.reverse
  match reversed.dropWhile (· ≠ '.') with
  | '.' :: stem =>
    if reversed.takeWhile (· ≠ '.') = ['n', 'o', 'r'] ∧ stem ≠ [] then
      some (String.ofList stem.reverse)
    else none
  | _ => none

/-- The model in a file. -/
def loadModel : DirectoryEntry → Except BuildError Markov.Model
  | .directory => .error .unreadableModel
  | .file bytes =>
    match String.fromUTF8? bytes with
    | none => .error .unreadableModel
    | some text =>
      match Markov.Model.ofRon? text with
      | some m => .ok m
      | none => .error .malformedModel

/-- Put the models of files into a grammar, one after the other. -/
def putModelFiles {σ : Type} (g : Grammar σ) :
    List (String × DirectoryEntry) → Except BuildError (Grammar σ)
  | [] => .ok g
  | (name, entry) :: rest =>
    match modelName? name with
    | none => putModelFiles g rest
    | some symbol =>
      match loadModel entry with
      | .ok m => putModelFiles (g.putModel symbol m) rest
      | .error e => .error e

/-- Put the models found at a path into a grammar, in the order of the names of their files. -/
def loadModels {σ : Type} (g : Grammar σ) : PathContent → Except BuildError (Grammar σ)
  | .missing => .ok g
  | .file => .error .notADirectory
  | .directory entries =>
    putModelFiles g (entries.mergeSort fun a b => decide (a.1 ≤ b.1))

namespace Generator

variable {σ : Type}

/-- Build a generator. Models that are given stand before those found at a path, and limits that are
given before those of the grammar. -/
def build (grammar : Grammar σ) (seed : UInt64) (path : PathContent)
    (models : Table Markov.Model) (settings : Option Grammar.Settings) :
    Except BuildError (Generator σ) :=
  match loadModels grammar path with
  | .error e => .error e
  | .ok g => .ok {
      grammar := { g with
        models := g.models.putAll models
        settings := settings.getD g.settings }
      seed }

/-! ### Generating -/

/-- Generate a text. -/
def generate [RandomSource σ] [Seedable σ] (g : Generator σ) (text : String) :
    Except ExpandError String × Generator σ :=
  match (g.grammar.expand text (Seedable.ofSeed (g.seed + g.count) : σ)).1 with
  | .ok value => (.ok value, { g with count := g.count + 1 })
  | .error e => (.error e, g)

/-- Generate several texts, up to the first that fails; `values` have been generated, last first. -/
def variantsFrom [RandomSource σ] [Seedable σ] (text : String) (values : List String) :
    Nat → Generator σ → Except ExpandError (List String) × Generator σ
  | 0, g => (.ok values.reverse, g)
  | n + 1, g =>
    match g.generate text with
    | (.ok value, g) => variantsFrom text (value :: values) n g
    | (.error e, g) => (.error e, g)

/-- Generate `n` texts from one template. -/
def variants [RandomSource σ] [Seedable σ] (g : Generator σ) (text : String) (n : Nat) :
    Except ExpandError (List String) × Generator σ :=
  variantsFrom text [] n g

/-- The wording of a failed generation. -/
def failureMessage (e : ExpandError) : String := "expansion error: " ++ e.message

/-- What a generator holds, on one line. -/
def summary (g : Generator σ) : String :=
  "Generator \x7b grammar: " ++ g.grammar.summary ++ ", seed: " ++ toString g.seed ++
    ", generation_count: " ++ toString g.count ++ " \x7d"

end Generator

end Fabula
