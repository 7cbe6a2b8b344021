import Fabula.Proofs.MarkovTries
import Fabula.Proofs.Recording

/-!
# Fabula.Proofs.Resolutions

**Markov symbols keep their filters over a whole context**, in all that a program does with it
(`markov_filters_kept`).

What a symbol comes to may be lost in what happens afterwards: a modifier makes something else of it, or
an expansion fails. So a program is run twice, as it is and by an interpreter that notes the values of
Markov symbols next to the source, each as soon as its symbol has been resolved. The notes make no
difference (`noting`), and they are kept in step with the record of accepted texts (`Kept`): this
record has everything that was noted, so that what it does not have has not been noted before.

As before, a program is a routine, and so are the modifiers; its calls may fail and it goes on.
-/

namespace Fabula

variable {σ τ α : Type}

/-! ### Noting what symbols come to -/

/-- A Markov symbol has come to this value. -/
structure Note where
  /-- The symbol. -/
  symbol : String
  /-- The value; the empty text may stand for none. -/
  value : String

/-- A source with notes of what Markov symbols have come to. -/
structure Noted (σ : Type) where
  /-- The source. -/
  source : σ
  /-- The notes so far. -/
  notes : List Note := []

namespace Noted

/-- A draw from the source. -/
def draw (f : σ → α × σ) (s : Noted σ) : α × Noted σ :=
  let (a, source) := f s.source
  (a, { s with source })

instance [RandomSource σ] : RandomSource (Noted σ) where
  next := draw RandomSource.next
  between a b := draw (RandomSource.between a b)
  index size := draw (RandomSource.index size)

end Noted

/-- The context with one more note. -/
def Context.note (c : Context (Noted σ)) (note : Note) : Context (Noted σ) :=
  { c with source := { c.source with notes := c.source.notes ++ [note] } }

section Noting

variable [RandomSource σ] (g : Grammar (Noted σ)) (enter : Evaluator (Noted σ))

/-- Resolve a symbol, and note what it comes to if it is a Markov symbol. -/
def resolveNoted (name : String) : Run (Noted σ) (Option Resolved) := do
  match (← get).lookup name, g.models.get? name with
  | none, some m =>
    let value ← resolveMarkov name m m.settings.maxTries
    modify (·.note ⟨name, value⟩)
    return some ⟨value, true⟩
  | _, _ => resolve g enter name

/-- Expand a reference, and keep notes. -/
def expandReferenceNoted (r : Reference) : Run (Noted σ) (Option Resolved) := do
  match ← resolveNoted g enter r.symbol with
  | none => return none
  | some resolved =>
    let value ← applyModifiers g (engineWith g enter) r.calls resolved.value
    return some { resolved with value }

/-- Expand references from left to right, and keep notes. -/
def expandReferencesNoted (values : List String) (live : Bool) :
    List Reference → Run (Noted σ) (Option (List String × Bool))
  | [] => pure (some (values.reverse, live))
  | r :: rest => do
    match ← expandReferenceNoted g enter r with
    | none => return none
    | some resolved =>
      expandReferencesNoted (resolved.value :: values)
        (live || (resolved.live && !r.decorator)) rest

/-- Expand a template in the scope that has been opened for it, and keep notes. -/
def expandBodyNoted (t : Template) (slot : Option Slot) : Run (Noted σ) (Option String) := do
  assignAll enter t.declarations
  let found ← expandReferencesNoted g enter [] false t.references
  conclude t slot found

end Noting

namespace Grammar

variable [RandomSource σ]

/-- Expand a template when this many levels are left, and keep notes. -/
def evaluateNoted (g : Grammar (Noted σ)) : Nat → Evaluator (Noted σ)
  | 0, t, _ => throw (.tooDeep g.settings.maxDepth t.source)
  | levels + 1, t, slot =>
    Run.within Context.enterTemplate Context.leaveTemplate
      (expandBodyNoted g (g.evaluateNoted levels) t slot)

/-- What can be asked for in a context, when notes are kept. -/
def notedEngineAt (g : Grammar (Noted σ)) (depth : Nat) : Engine (Noted σ) :=
  engineWith g (g.evaluateNoted (g.settings.maxDepth - depth))

/-- What a program does outside of every expansion, with these modifiers registered, when notes are
kept. -/
def notedProgram (g : Grammar τ) (routines : Table (String → List Argument → Routine))
    (r : Routine) : Run (Noted σ) String :=
  r.run ((g.registering routines).notedEngineAt 0)

/-- What Markov symbols have come to after a program has been run in a new context. -/
def notes (g : Grammar τ) (routines : Table (String → List Argument → Routine)) (r : Routine)
    (s : σ) : List Note :=
  ((g.notedProgram routines r).after { source := { source := s } }).source.notes

end Grammar

/-! ### What is known of the notes -/

/-- The texts that a symbol has come to, without the empty ones. -/
def filledValues (symbol : String) (notes : List Note) : List String :=
  (notes.filter fun note => note.symbol = symbol ∧ note.value ≠ "").map Note.value

theorem mem_filledValues {symbol value : String} {notes : List Note} :
    value ∈ filledValues symbol notes ↔ ⟨symbol, value⟩ ∈ notes ∧ value ≠ "" := by
  unfold filledValues
  simp only [List.mem_map, List.mem_filter, decide_eq_true_eq]
  constructor
  · rintro ⟨note, ⟨hmem, rfl, hfilled⟩, rfl⟩
    exact ⟨hmem, hfilled⟩
  · rintro ⟨hmem, hfilled⟩
    exact ⟨_, ⟨hmem, rfl, hfilled⟩, rfl⟩

theorem filledValues_concat (symbol : String) (notes : List Note) (note : Note) :
    filledValues symbol (notes ++ [note]) =
      if note.symbol = symbol ∧ note.value ≠ "" then filledValues symbol notes ++ [note.value]
      else filledValues symbol notes := by
  unfold filledValues
  rw [List.filter_append, List.map_append, List.filter_cons, List.filter_nil]
  by_cases hnote : note.symbol = symbol ∧ note.value ≠ ""
  · rw [if_pos hnote, if_pos (decide_eq_true hnote), List.map_cons, List.map_nil]
  · rw [if_neg hnote, if_neg (by simpa using hnote), List.map_nil, List.append_nil]

/-- The value has passed the filters of its symbol for short and for long texts. -/
def Note.Filtered (models : Table Markov.Model) (note : Note) : Prop :=
  ∃ m, models.get? note.symbol = some m ∧ m.settings.minCharacters ≤ note.value.length ∧
    m.Spells note.value

/-- The notes are in step with the record of accepted texts. -/
structure Kept (models : Table Markov.Model) (produced : Std.HashSet (String × String))
    (notes : List Note) : Prop where
  /-- Every text that has been noted is on the record. -/
  recorded : ∀ note ∈ notes, note.value ≠ "" → produced.contains (note.symbol, note.value) = true
  /-- A symbol whose texts are to be unique has come to no text twice. -/
  distinct : ∀ symbol m, models.get? symbol = some m → m.settings.uniqueOutput = true →
    (filledValues symbol notes).Nodup
  /-- Every text that has been noted has passed the other filters. -/
  filtered : ∀ note ∈ notes, note.value ≠ "" → note.Filtered models

namespace Kept

variable {models : Table Markov.Model} {produced : Std.HashSet (String × String)}
  {notes : List Note}

theorem nil (models : Table Markov.Model) (produced : Std.HashSet (String × String)) :
    Kept models produced [] := ⟨by simp, fun _ _ _ _ => .nil, by simp⟩

/-- The record may grow. -/
theorem insert (h : Kept models produced notes) (e : String × String) :
    Kept models (produced.insert e) notes where
  recorded note hmem hfilled := by simp [h.recorded note hmem hfilled]
  distinct := h.distinct
  filtered := h.filtered

/-- It makes no difference that a symbol has come to nothing. -/
theorem note_empty (h : Kept models produced notes) (symbol : String) :
    Kept models produced (notes ++ [⟨symbol, ""⟩]) where
  recorded := List.forall_mem_append.mpr ⟨h.recorded, by simp⟩
  distinct name m hm hunique := by
    rw [filledValues_concat, if_neg (by simp)]
    exact h.distinct name m hm hunique
  filtered := List.forall_mem_append.mpr ⟨h.filtered, by simp⟩

/-- A text may be noted when it has been accepted. -/
theorem note_accepted (h : Kept models produced notes) {name text : String} {m : Markov.Model}
    (hm : models.get? name = some m) (hspells : m.Spells text)
    (haccepts : accepts name m.settings produced text = true) :
    Kept models (produced.insert (name, text)) (notes ++ [⟨name, text⟩]) := by
  unfold accepts at haccepts
  rw [Bool.and_eq_true, decide_eq_true_eq] at haccepts
  obtain ⟨hlong, hnew⟩ := haccepts
  refine ⟨List.forall_mem_append.mpr ⟨(h.insert _).recorded, by simp⟩, ?_,
    List.forall_mem_append.mpr ⟨h.filtered, ?_⟩⟩
  · intro symbol m' hm' hunique
    rw [filledValues_concat]
    split
    · rename_i hfilled
      obtain ⟨rfl, hfilled⟩ := hfilled
      rw [hm] at hm'
      cases hm'
      rw [hunique, Bool.true_and, Bool.not_eq_true'] at hnew
      have hfresh : text ∉ filledValues name notes := by
        intro hmem
        obtain ⟨hnoted, -⟩ := mem_filledValues.mp hmem
        exact absurd (h.recorded _ hnoted hfilled) (Bool.eq_false_iff.mp hnew)
      rw [← List.concat_eq_append]
      exact (h.distinct name m hm hunique).concat hfresh
    · exact h.distinct symbol m' hm' hunique
  · rintro note hmem -
    cases List.mem_singleton.mp hmem
    exact ⟨m, hm, hlong, hspells⟩

end Kept

/-! ### The notes make no difference -/

/-- Two runs that differ in the notes alone, of which so much is known. -/
def noting (known : Std.HashSet (String × String) → List Note → Prop) :
    Correspondence (Noted σ) σ where
  source _ produced s t := s.source = t ∧ known produced s.notes
  slot := Eq
  excused _ := False

/-- A context without its notes. -/
def Context.withoutNotes (c : Context (Noted σ)) : Context σ :=
  ⟨c.source.source, c.depth, c.scopes, c.trackers, c.produced, c.globalsLoaded⟩

/-- What remains of a run when the notes are left out. -/
def withoutNotes : EStateM.Result ExpandError (Context (Noted σ)) α →
    EStateM.Result ExpandError (Context σ) α
  | .ok a c => .ok a c.withoutNotes
  | .error e c => .error e c.withoutNotes

namespace Correspondence

section Known

variable {known : Std.HashSet (String × String) → List Note → Prop} {depth : Nat}

theorem noting_trackless : (noting known : Correspondence (Noted σ) σ).Trackless := fun h _ => h

theorem noting_draws (f : σ → α × σ) : (noting known).Draws (Noted.draw f) f := by
  rintro trackers produced s t ⟨rfl, hknown⟩
  exact ⟨rfl, rfl, hknown⟩

/-- What is known of the notes must remain true when the record of accepted texts grows. -/
theorem noting_lawful [RandomSource σ]
    (hinsert : ∀ ⦃produced notes⦄, known produced notes → ∀ e, known (produced.insert e) notes) :
    (noting known : Correspondence (Noted σ) σ).Lawful where
  unique := biUnique_eq
  next := noting_draws _
  between _ _ := noting_draws _
  index _ := noting_draws _
  produce _ _ _ _ h e := ⟨h.1, hinsert h.2 e⟩

theorem noting_contexts {c : Context (Noted σ)} (h : known c.produced c.source.notes) :
    (noting known).Contexts c.depth c c.withoutNotes where
  source := ⟨rfl, h⟩
  depth_left := rfl
  depth_right := rfl
  scopes := rfl
  trackers := trackers_refl (fun _ => rfl) _
  produced := rfl
  globalsLoaded := rfl

theorem Contexts.withoutNotes_eq {c : Context (Noted σ)} {d : Context σ}
    (h : (noting known).Contexts depth c d) : c.withoutNotes = d := by
  have hview := h.view_eq rfl
  exact Context.eq_of_view h.source.1 hview

theorem Results.withoutNotes_eq {r : EStateM.Result ExpandError (Context (Noted σ)) α}
    {r' : EStateM.Result ExpandError (Context σ) α} (h : (noting known).Results depth r r') :
    withoutNotes r = r' := by
  cases h with
  | ok a h => exact congrArg (EStateM.Result.ok a) h.withoutNotes_eq
  | error e h => exact congrArg (EStateM.Result.error e) h.withoutNotes_eq
  | excused h => exact h.elim

/-- What is known of the notes in the end. -/
theorem Results.known_after {act : Run (Noted σ) α} {act' : Run σ α} {c : Context (Noted σ)}
    {d : Context σ} (h : (noting known).Results depth (act c) (act' d)) :
    known (act.after c).produced (act.after c).source.notes :=
  (h.after fun _ h => h).source.2

end Known

end Correspondence

open Correspondence

/-- While a symbol is being resolved nothing is noted. -/
theorem resolveMarkov_notes [RandomSource σ] (name : String) (m : Markov.Model) (tries : Nat)
    (c : Context (Noted σ)) :
    ((resolveMarkov name m tries).after c).source.notes = c.source.notes := by
  have hstart : (noting fun _ notes => notes = c.source.notes).Contexts c.depth c c.withoutNotes :=
    noting_contexts rfl
  have hresults := resolveMarkov_runs (noting_lawful fun _ _ hsame _ => hsame) name m tries c _ hstart
  exact hresults.known_after

namespace Correspondence

variable [RandomSource σ] {models : Table Markov.Model} {depth : Nat}

theorem kept_lawful : (noting (Kept models) : Correspondence (Noted σ) σ).Lawful :=
  noting_lawful fun _ _ h e => h.insert e

/-- A symbol comes to the same, and what it comes to may be noted. -/
theorem resolveMarkov_noted_runs {name : String} {m : Markov.Model} (hm : models.get? name = some m)
    (tries : Nat) :
    (noting (Kept models) : Correspondence (Noted σ) σ).Runs depth
      (do
        let value ← resolveMarkov name m tries
        modify (·.note ⟨name, value⟩)
        return some ⟨value, true⟩)
      (do
        let value ← resolveMarkov name m tries
        return some (⟨value, true⟩ : Resolved)) := by
  intro c d hcd
  have hkept := hcd.source.2
  have hresults := resolveMarkov_runs kept_lawful name m tries c d hcd
  have hresolution := resolveMarkov_resolution name m tries c
  have hnotes := resolveMarkov_notes name m tries c
  unfold Run.after at hnotes
  rw [Run.bind_apply, Run.bind_apply]
  generalize resolveMarkov name m tries c = r, resolveMarkov name m tries d = r' at *
  cases hresults with
  | excused h => exact h.elim
  | error e h => exact .error e h
  | @ok value c' d' h =>
    refine .ok _ { h with source := ⟨h.source.1, ?_⟩ }
    show Kept models c'.produced (c'.source.notes ++ [⟨name, value⟩])
    dsimp only at hnotes
    rw [hnotes]
    cases hresolution with
    | accepted hcalls hrejections hgenerate haccepts hproduced =>
      exact hkept.note_accepted hm (Markov.Model.generate_spells (generate_inv hgenerate).1) haccepts
    | exhausted hrejections hproduced =>
      rw [hproduced]
      exact hkept.note_empty name

section Inside

variable {g : Grammar (Noted σ)} {g' : Grammar σ} {enter : Evaluator (Noted σ)}
variable {enter' : Evaluator σ} (hg : (noting (Kept g.models)).Grammars g g')
variable (henter : (noting (Kept g.models)).Evaluators g depth enter enter')
include hg henter

theorem resolveNoted_runs (name : String) :
    (noting (Kept g.models)).Runs depth (resolveNoted g enter name) (resolve g' enter' name) := by
  intro c d hcd
  have hsame := resolve_runs henter hg kept_lawful name c d hcd
  unfold resolveNoted
  rw [Run.get_bind]
  cases hl : c.lookup name with
  | some value => exact hsame
  | none =>
    cases hm : g.models.get? name with
    | none => exact hsame
    | some m =>
      have hl' : d.lookup name = none := (hcd.lookup_eq name).trans hl
      rw [resolve_of_model hl' ((hg.models name).trans hm)]
      exact resolveMarkov_noted_runs hm _ c d hcd

theorem expandReferenceNoted_runs (r : Reference) :
    (noting (Kept g.models)).Runs depth (expandReferenceNoted g enter r)
      (expandReference g' enter' r) := by
  refine (resolveNoted_runs hg henter r.symbol).bind fun resolved => ?_
  cases resolved with
  | none => exact pure_runs none
  | some resolved =>
    exact (applyModifiers_runs henter hg kept_lawful r.calls resolved.value).bind
      fun value => pure_runs _

theorem expandReferencesNoted_runs (references : List Reference) (values : List String)
    (live : Bool) :
    (noting (Kept g.models)).Runs depth (expandReferencesNoted g enter values live references)
      (expandReferences g' enter' values live references) := by
  induction references generalizing values live with
  | nil => exact pure_runs _
  | cons r rest ih =>
    refine (expandReferenceNoted_runs hg henter r).bind fun resolved => ?_
    cases resolved with
    | none => exact pure_runs none
    | some resolved => exact ih _ _

theorem expandBodyNoted_runs (t : Template) {slot slot' : Option Slot}
    (hslot : Option.Rel (noting (σ := σ) (Kept g.models)).slot slot slot') :
    (noting (Kept g.models)).Runs depth (expandBodyNoted g enter t slot)
      (expandBody g' enter' t slot') := by
  rw [expandBody_eq]
  refine (assignAll_runs henter t.declarations).bind fun _ => ?_
  exact (expandReferencesNoted_runs hg henter t.references _ _).bind
    fun found => conclude_runs kept_lawful noting_trackless t hslot found

end Inside

/-- Templates are expanded alike at all levels. -/
theorem evaluateNoted_evaluators {g : Grammar (Noted σ)} {g' : Grammar σ}
    (hg : (noting (Kept g.models)).Grammars g g') (hsettings : g'.settings = g.settings)
    (levels depth : Nat) :
    (noting (Kept g.models)).Evaluators g depth (g.evaluateNoted levels) (g'.evaluate levels) := by
  refine .of_runs ?_
  induction levels generalizing depth with
  | zero =>
    intro t slot slot' _
    unfold Grammar.evaluateNoted Grammar.evaluate
    rw [hsettings]
    exact throw_runs _
  | succ levels ih =>
    intro t slot slot' hslot
    exact Runs.within (expandBodyNoted_runs hg (.of_runs (ih (depth + 1))) t hslot)
      (fun c d hcd => hcd.enterTemplate) fun c d hcd => hcd.leaveTemplate

end Correspondence

section Programs

variable [RandomSource σ] (g : Grammar τ) (routines : Table (String → List Argument → Routine))

theorem noting_grammars :
    (noting (Kept g.models)).Grammars (g.registering routines : Grammar (Noted σ))
      (g.registering routines : Grammar σ) := by
  have hrules : ∀ name, Option.Rel (noting (σ := σ) (Kept g.models)).Rules
      ((g.registering routines : Grammar (Noted σ)).rule? name)
      ((g.registering routines : Grammar σ).rule? name) := fun name => rules_refl (fun _ => rfl) _
  refine ⟨hrules, fun slot slot' h => by cases h; rfl, rfl, fun _ => rfl, ?_⟩
  refine fun depth engine engine' he =>
    applyModifier_runs kept_lawful noting_trackless hrules (fun name => ?_) he
  rw [Grammar.registering_overrides, Grammar.registering_overrides]
  cases routines.get? name with
  | none => exact .none
  | some r =>
    exact .some (override_overrides kept_lawful noting_trackless (fun _ _ _ hcd => hcd.view_eq rfl)
      (fun value args => (r value args).passes_none) fun value args => (r value args).alike_eq)

/-- A program does the same whether notes are kept or not. -/
theorem notedProgram_results (r : Routine) (s : σ) :
    (noting (Kept g.models)).Results 0 (g.notedProgram routines r { source := { source := s } })
      ((g.registering routines).program r { source := s }) := by
  have hg := noting_grammars (σ := σ) g routines
  have hevaluators := evaluateNoted_evaluators (g := g.registering routines) hg rfl
    (g.settings.maxDepth - 0) 0
  have he : (noting (Kept g.models)).Engines 0
      ((g.registering routines : Grammar (Noted σ)).notedEngineAt 0)
      ((g.registering routines : Grammar σ).engineAt 0) :=
    engineWith_engines hevaluators hg kept_lawful
  have hstart : (noting (Kept g.models)).Contexts 0
      ({ source := { source := s } } : Context (Noted σ)) { source := s } :=
    noting_contexts (c := { source := { source := s } }) (Kept.nil _ _)
  exact routine_runs kept_lawful (fun _ _ hcd => hcd.view_eq rfl) he noting_trackless
    r.passes_none r.alike_eq _ _ hstart

end Programs

/-- Markov symbols keep their filters. Whatever a program does with a context, and whatever the
modifiers are:

* a symbol is resolved with at most as many generations as its model allows. It comes to a text that is
  accepted and recorded, or to the empty text when all are rejected, or it fails at once with the error
  of a generation, and in the last two cases nothing is recorded for any symbol;
* what Markov symbols come to can be noted without making a difference;
* a symbol whose texts are to be unique comes to no text twice, but for the empty one;
* every text but the empty one has as many characters as its model asks for, and the words that it is
  joined from have no more than the model allows. -/
theorem markov_filters_kept [RandomSource σ] (g : Grammar σ)
    (routines : Table (String → List Argument → Routine)) (r : Routine) (s : σ) :
    (∀ (name : String) (m : Markov.Model) (c : Context σ),
      Resolution name m m.settings.maxTries c (resolveMarkov name m m.settings.maxTries c)) ∧
    withoutNotes (g.notedProgram routines r { source := { source := s } }) =
      (g.registering routines).program r { source := s } ∧
    (∀ symbol m, g.models.get? symbol = some m → m.settings.uniqueOutput = true →
      (filledValues symbol (g.notes routines r s)).Nodup) ∧
    ∀ note ∈ g.notes routines r s, note.value ≠ "" → note.Filtered g.models := by
  have hresults := notedProgram_results g routines r s
  have hkept : Kept g.models _ (g.notes routines r s) := hresults.known_after
  exact ⟨fun name m => resolveMarkov_resolution name m m.settings.maxTries,
    hresults.withoutNotes_eq, hkept.distinct, hkept.filtered⟩

/-- A grammar with a symbol for names that have two characters at least. It tries once. -/
def naming : Grammar Markov.Answers where
  models := [("name", {
    settings := { order := 1, minCharacters := 2, maxTries := 1, uniqueOutput := false }
    transitions := [("", ["Ada", "B"]), ("Ada", [Markov.endToken]), ("B", [Markov.endToken])]
    sentences := 2 })]

/-- A program that asks for two names. -/
def twoNames : Routine :=
  .template ⟨"{name} {name}", "{0} {1}", [{ symbol := "name" }, { symbol := "name" }], []⟩
    fun _ => .give ""

-- the second name is drawn too short, and there is no try left
example : (naming.notes [] twoNames (⟨[0, 0, 1, 0]⟩ : Markov.Answers)).map Note.value =
    ["Ada", ""] := by
  decide +kernel

end Fabula
