import Fabula.Proofs.Journal
import Fabula.Proofs.Routine

/-!
# Fabula.Proofs.Recording

**What has been seen is never picked again** while a tracker has it, in all that a program does with a
context (`seen_never_picked`).

The program is a routine, as are the modifiers, so it may activate and deactivate trackers as it likes,
ask for expansions in between and apply modifiers (`Routine.modifier_run`). It is run twice: as it is,
and by an interpreter that keeps a journal next to the source. The two runs correspond (`recording`):
they differ in the journal alone, the journal replays to the trackers of the moment, and every event in
it was allowed when it happened. What is to be shown is then known of all journals (`Lawful`).

An alternative enters the journal as picked when its template is entered. One that cannot be read never
is; of such a pick, too, it holds that the alternative was in no active tracker (`pick_unseen`).
-/

namespace Fabula

variable {σ τ α : Type}

/-! ### Keeping a journal -/

/-- A source with a journal of what has happened. -/
structure Logged (σ : Type) where
  /-- The source. -/
  source : σ
  /-- The events so far. -/
  entries : List Entry := []

namespace Logged

/-- What has happened so far. -/
def journal (s : Logged σ) : List Event := s.entries.map Entry.event

/-- A draw from the source, which is no event. -/
def draw (f : σ → α × σ) (s : Logged σ) : α × Logged σ :=
  let (a, source) := f s.source
  (a, { s with source })

instance [RandomSource σ] : RandomSource (Logged σ) where
  next := draw RandomSource.next
  between a b := draw (RandomSource.between a b)
  index size := draw (RandomSource.index size)

end Logged

/-- An event happens and goes into the journal. -/
def Context.happen (c : Context (Logged σ)) (e : Event) : Context (Logged σ) :=
  { c with
    source := { c.source with entries := c.source.entries ++ [⟨e, c.trackers⟩] }
    trackers := e.act c.trackers }

/-- Let an event happen. -/
def Run.happen (e : Event) : Run (Logged σ) Unit := modify (·.happen e)

/-- Enter a template; an alternative has been picked then. -/
def enterRecorded : Option Slot → Run (Logged σ) Unit
  | some slot => Run.happen (.pick slot)
  | none => pure ()

/-- Come to what a template gives; an alternative has given its text then or run out. -/
def concludeRecorded (t : Template) :
    Option Slot → Option (List String × Bool) → Run (Logged σ) (Option String)
  | none, found => conclude t none found
  | some slot, none => do
    Run.happen (.exhaust slot)
    return none
  | some slot, some (values, live) => do
    Run.happen (.give slot live)
    return some (t.fill values)

/-- Expand a template in the scope that has been opened for it, and keep the journal. -/
def expandBodyRecorded [RandomSource σ] (g : Grammar (Logged σ)) (enter : Evaluator (Logged σ))
    (t : Template) (slot : Option Slot) : Run (Logged σ) (Option String) := do
  assignAll enter t.declarations
  let found ← expandReferences g enter [] false t.references
  concludeRecorded t slot found

namespace Grammar

variable [RandomSource σ]

/-- Expand a template when this many levels are left, and keep the journal. -/
def evaluateRecorded (g : Grammar (Logged σ)) : Nat → Evaluator (Logged σ)
  | 0, t, slot => do
    enterRecorded slot
    throw (.tooDeep g.settings.maxDepth t.source)
  | levels + 1, t, slot => do
    enterRecorded slot
    Run.within Context.enterTemplate Context.leaveTemplate
      (expandBodyRecorded g (g.evaluateRecorded levels) t slot)

/-- What can be asked for in a context, when the journal is kept. -/
def recordedEngineAt (g : Grammar (Logged σ)) (depth : Nat) : Engine (Logged σ) :=
  engineWith g (g.evaluateRecorded (g.settings.maxDepth - depth))

/-- The grammar with these modifiers registered instead of its own. -/
def registering (g : Grammar τ) (routines : Table (String → List Argument → Routine)) :
    Grammar σ where
  rules := g.rules
  store := g.store
  globals := g.globals
  models := g.models
  overrides := routines.map fun entry => (entry.1, Routine.override entry.2)
  settings := g.settings

/-- The modifier that does what a routine asks for and keeps the journal. -/
def recordedOverride (r : String → List Argument → Routine) : Override (Logged σ) :=
  fun engine value args => (r value args).runWith (Run.happen .push) (Run.happen .pop) engine

/-- These modifiers and behind them the built-in one that activates a tracker. -/
def recordedRoutines (g : Grammar τ) (routines : Table (String → List Argument → Routine)) :
    Table (String → List Argument → Routine) :=
  routines ++ [(Builtin.uniques.name, fun _ args => Routine.uniques g args)]

/-- The grammar with these modifiers registered instead of its own, all of which keep the journal. So
does the built-in one that activates a tracker. -/
def recorded (g : Grammar τ) (routines : Table (String → List Argument → Routine)) :
    Grammar (Logged σ) where
  rules := g.rules
  store := g.store
  globals := g.globals
  models := g.models
  overrides := (recordedRoutines g routines).map fun entry => (entry.1, recordedOverride entry.2)
  settings := g.settings

/-- What a program does outside of every expansion. -/
def program (g : Grammar σ) (r : Routine) : Run σ String := r.run (g.engineAt 0)

/-- What a program does outside of every expansion, with these modifiers registered, when the journal is
kept. -/
def recordedProgram (g : Grammar τ) (routines : Table (String → List Argument → Routine))
    (r : Routine) : Run (Logged σ) String :=
  r.runWith (Run.happen .push) (Run.happen .pop) ((g.recorded routines).recordedEngineAt 0)

/-- The source after a program has been run in a new context, with all that has happened. -/
def logged (g : Grammar τ) (routines : Table (String → List Argument → Routine)) (r : Routine)
    (s : σ) : Logged σ :=
  ((g.recordedProgram routines r).after { source := { source := s } }).source

end Grammar

/-! ### Programs apply modifiers -/

theorem Grammar.registering_overrides (g : Grammar τ)
    (routines : Table (String → List Argument → Routine)) [RandomSource σ] (name : String) :
    (g.registering routines : Grammar σ).overrides.get? name =
      (routines.get? name).map Routine.override := Table.get?_map _ _ _

/-- Apply a modifier to a value, when these are registered. -/
def Routine.modifier (g : Grammar τ) (routines : Table (String → List Argument → Routine))
    (call : ModifierCall) (value : String) : Routine :=
  match routines.get? call.name with
  | some r => r value call.args
  | none =>
    match Builtin.ofName? call.name with
    | some b => .builtin g value call.args b
    | none => .fail (.unknownModifier call.name)

/-- Whatever modifier a program applies, it does what a routine asks for. -/
theorem Routine.modifier_run [RandomSource σ] (g : Grammar τ)
    (routines : Table (String → List Argument → Routine)) (engine : Engine σ) (call : ModifierCall)
    (value : String) :
    (Routine.modifier g routines call value).run engine =
      applyModifier (g.registering routines) engine call value := by
  unfold Routine.modifier applyModifier
  rw [Grammar.registering_overrides]
  cases routines.get? call.name with
  | some r => rfl
  | none =>
    dsimp only [Option.map_none]
    cases Builtin.ofName? call.name with
    | some b => exact Routine.builtin_run engine b (g.registering routines) value call.args
    | none => rfl

/-! ### The journal makes no difference -/

/-- Two runs that differ in the journal alone, which is lawful and replays to the trackers. -/
def recording (plain : Slot → Prop) : Correspondence (Logged σ) σ where
  source trackers _ s t :=
    s.source = t ∧ replay s.journal = trackers ∧ Faithful s.entries ∧ Lawful plain s.journal
  slot := Eq
  excused _ := False

namespace Correspondence

variable {plain : Slot → Prop} {depth : Nat} {c : Context (Logged σ)} {d : Context σ}

theorem recording_draws (f : σ → α × σ) : (recording plain).Draws (Logged.draw f) f := by
  rintro trackers produced s t ⟨rfl, hjournal⟩
  exact ⟨rfl, rfl, hjournal⟩

theorem recording_lawful [RandomSource σ] :
    (recording plain : Correspondence (Logged σ) σ).Lawful where
  unique := biUnique_eq
  next := recording_draws _
  between _ _ := recording_draws _
  index _ := recording_draws _
  produce _ _ _ _ h _ := h

theorem Contexts.happen (h : (recording plain).Contexts depth c d) {e : Event}
    (he : e.Allowed plain c.trackers) :
    (recording plain).Contexts depth (c.happen e) { d with trackers := e.act d.trackers } := by
  obtain ⟨hsource, hreplay, hfaithful, hlawful⟩ := h.source
  have htrackers := h.trackers_eq rfl
  have hjournal : (c.happen e).source.journal = c.source.journal ++ [e] := by
    simp [Context.happen, Logged.journal]
  refine { h with source := ⟨hsource, ?_, ?_, ?_⟩, trackers := ?_ }
  · rw [hjournal, replay_concat, hreplay]
    rfl
  · exact forall_split_concat (P := fun before (entry : Entry) => entry.trackers =
      replay (before.map Entry.event)) hfaithful hreplay.symm
  · rw [hjournal]
    exact hlawful.concat (hreplay ▸ he)
  · rw [htrackers]
    exact trackers_refl (fun _ => rfl) _

theorem happen_runs {e : Event} (he : ∀ trackers, e.Allowed plain trackers)
    {f : Context σ → Context σ} (hf : ∀ d, f d = { d with trackers := e.act d.trackers }) :
    (recording plain : Correspondence (Logged σ) σ).Runs depth (Run.happen e) (modify f) := by
  refine modify_runs fun c d hcd => ?_
  rw [hf d]
  exact hcd.happen (he _)

/-- What an alternative comes to is the same, if it may give its text. -/
theorem conclude_results (h : (recording plain).Contexts depth c d) (t : Template) (slot : Slot)
    {found : Option (List String × Bool)}
    (hgive : ∀ values live, found = some (values, live) →
      (Event.give slot live).Allowed plain c.trackers) :
    (recording plain).Results depth (concludeRecorded t (some slot) found c)
      (conclude t (some slot) found d) := by
  obtain _ | ⟨values, _ | _⟩ := found
  · exact .ok none (h.happen (e := .exhaust slot) trivial)
  · exact .ok _ (h.happen (hgive values false rfl))
  · exact .ok _ (h.happen (hgive values true rfl))

theorem concludeRecorded_runs {slot : Option Slot} (hslot : ∀ s, slot = some s → ¬ plain s)
    (t : Template) (found : Option (List String × Bool)) :
    (recording plain : Correspondence (Logged σ) σ).Runs depth (concludeRecorded t slot found)
      (conclude t slot found) := by
  cases slot with
  | none =>
    -- a template that is no alternative is not marked
    obtain _ | ⟨values, _ | _⟩ := found <;> exact pure_runs _
  | some slot =>
    exact fun c d hcd => conclude_results hcd t slot fun _ _ _ hplain => (hslot slot rfl hplain).elim

/-- A routine that keeps the journal does what it does without. -/
theorem recorded_routine_runs [RandomSource σ] {engine : Engine (Logged σ)} {engine' : Engine σ}
    (he : (recording plain).Engines depth engine engine') (r : Routine) :
    (recording plain).Runs depth (r.runWith (Run.happen .push) (Run.happen .pop) engine)
      (r.run engine') :=
  runWith_runs recording_lawful (fun _ _ hcd => hcd.view_eq rfl) he
    (happen_runs (e := .push) (fun _ => trivial) fun _ => rfl)
    (happen_runs (e := .pop) (fun _ => trivial) fun _ => rfl)
    (fun _ h => h.elim) r.passes_none r.alike_eq

end Correspondence

open Correspondence

/-- The alternative in `slot` can be read, and is a text without references and declarations. -/
def Grammar.Plain (g : Grammar σ) (slot : Slot) : Prop :=
  ∃ t, g.template slot = .ok t ∧ t.references = [] ∧ t.declarations = []

namespace Correspondence

variable [RandomSource σ] {g : Grammar (Logged σ)} {g' : Grammar σ} {depth : Nat}
variable (hg : (recording g.Plain).Grammars g g')
include hg

theorem expandBodyRecorded_runs {enter : Evaluator (Logged σ)} {enter' : Evaluator σ}
    (henter : (recording g.Plain).Evaluators g depth enter enter') (t : Template) {slot : Option Slot}
    (hslot : ∀ s, slot = some s → ¬ g.Plain s) :
    (recording g.Plain).Runs depth (expandBodyRecorded g enter t slot)
      (expandBody g' enter' t slot) := by
  rw [expandBody_eq]
  refine (assignAll_runs henter t.declarations).bind fun _ => ?_
  exact (expandReferences_runs henter hg recording_lawful t.references _ _).bind
    fun found => concludeRecorded_runs hslot t found

/-- An alternative that has just been picked is expanded alike. -/
theorem expandBodyRecorded_results {enter : Evaluator (Logged σ)} {enter' : Evaluator σ}
    (henter : (recording g.Plain).Evaluators g depth enter enter') {t : Template} {slot : Slot}
    (ht : g.template slot = .ok t) {c : Context (Logged σ)} {d : Context σ}
    (hcd : (recording g.Plain).Contexts depth c d) (hunseen : Unseen c.trackers slot) :
    (recording g.Plain).Results depth (expandBodyRecorded g enter t (some slot) c)
      (expandBody g' enter' t (some slot) d) := by
  by_cases hplain : t.references = [] ∧ t.declarations = []
  · -- without references and declarations nothing happens before the text is given
    unfold expandBodyRecorded
    rw [expandBody_eq, hplain.1, hplain.2]
    have hgive : ∀ values live, some (([] : List String), false) = some (values, live) →
        (Event.give slot live).Allowed g.Plain c.trackers := by
      intro values live hfound _
      cases hfound
      exact ⟨hunseen, rfl⟩
    exact conclude_results hcd t slot hgive
  · refine expandBodyRecorded_runs hg henter t (fun s hs => ?_) c d hcd
    cases hs
    rintro ⟨t', ht', hplain'⟩
    rw [ht] at ht'
    cases ht'
    exact hplain hplain'

/-- Templates are expanded alike at all levels. -/
theorem evaluateRecorded_evaluators (hsettings : g'.settings = g.settings) (levels depth : Nat) :
    (recording g.Plain).Evaluators g depth (g.evaluateRecorded levels) (g'.evaluate levels) := by
  induction levels generalizing depth with
  | zero =>
    constructor
    · intro t
      unfold Grammar.evaluateRecorded Grammar.evaluate
      rw [hsettings]
      exact throw_runs _
    · rintro t slot _ c d rfl ht hcd hunseen
      unfold Grammar.evaluate
      rw [hsettings]
      exact .error _ (hcd.happen (e := .pick slot) (unseen_of_tracking hunseen))
  | succ levels ih =>
    constructor
    · intro t
      exact Runs.within (expandBodyRecorded_runs hg (ih (depth + 1)) t fun _ h => by cases h)
        (fun c d hcd => hcd.enterTemplate) fun c d hcd => hcd.leaveTemplate
    · rintro t slot _ c d rfl ht hcd hunseen
      have hallowed := unseen_of_tracking hunseen
      have hpicked := hcd.happen (e := .pick slot) hallowed
      show (recording g.Plain).Results depth
        (Run.within Context.enterTemplate Context.leaveTemplate _ (c.happen (.pick slot))) _
      exact Results.within (expandBodyRecorded_results hg (ih (depth + 1)) ht hpicked.enterTemplate
        hallowed) fun c d hcd => hcd.leaveTemplate

end Correspondence

section Grammars

variable [RandomSource σ] (g : Grammar τ) (routines : Table (String → List Argument → Routine))

/-- The modifiers that keep the journal do what the others do. -/
theorem recorded_modifier_runs {plain : Slot → Prop} {depth : Nat} {engine : Engine (Logged σ)}
    {engine' : Engine σ} (he : (recording plain).Engines depth engine engine') (call : ModifierCall)
    (value : String) :
    (recording plain).Runs depth (applyModifier (g.recorded routines) engine call value)
      (applyModifier (g.registering routines) engine' call value) := by
  have hleft : (g.recorded routines : Grammar (Logged σ)).overrides.get? call.name =
      ((g.recordedRoutines routines).get? call.name).map Grammar.recordedOverride :=
    Table.get?_map _ _ _
  have hright := g.registering_overrides (σ := σ) routines call.name
  unfold Grammar.recordedRoutines at hleft
  rw [Table.get?_append] at hleft
  cases hr : routines.get? call.name with
  | some r =>
    rw [hr] at hleft hright
    rw [applyModifier_of_override hleft, applyModifier_of_override hright]
    exact recorded_routine_runs he (r value call.args)
  | none =>
    rw [hr, Option.none_or, Table.get?_cons] at hleft
    rw [hr] at hright
    by_cases hname : Builtin.uniques.name = call.name
    · rw [if_pos hname] at hleft
      have hbuiltin : Builtin.ofName? call.name = some .uniques := by
        rw [← hname]
        decide
      rw [applyModifier_of_override hleft, applyModifier_of_builtin hright hbuiltin]
      have hroutine := recorded_routine_runs he
        (Routine.uniques (g.registering routines : Grammar σ) call.args)
      rw [Routine.uniques_run] at hroutine
      exact hroutine
    · rw [if_neg hname] at hleft
      cases hb : Builtin.ofName? call.name with
      | none =>
        rw [applyModifier_of_unknown hleft hb, applyModifier_of_unknown hright hb]
        exact throw_runs _
      | some b =>
        rw [applyModifier_of_builtin hleft hb, applyModifier_of_builtin hright hb]
        refine drawing_runs recording_lawful ?_ engine engine' value call.args
        rintro rfl
        exact hname (Builtin.name_of_ofName? hb)

theorem recorded_grammars :
    (recording (g.recorded routines : Grammar (Logged σ)).Plain).Grammars (g.recorded routines)
      (g.registering routines : Grammar σ) where
  rules name := rules_refl (fun _ => rfl) (g.rule? name)
  texts slot slot' h := by
    cases h
    rfl
  globals := rfl
  models _ := rfl
  modifiers _ _ _ he call value := recorded_modifier_runs g routines he call value

/-- A program does the same whether the journal is kept or not. -/
theorem program_results (r : Routine) (s : σ) :
    (recording (g.recorded routines : Grammar (Logged σ)).Plain).Results 0
      (g.recordedProgram routines r { source := { source := s } })
      ((g.registering routines).program r { source := s }) := by
  have hg := recorded_grammars (σ := σ) g routines
  have he : (recording (g.recorded routines : Grammar (Logged σ)).Plain).Engines 0
      ((g.recorded routines).recordedEngineAt 0) ((g.registering routines).engineAt 0) :=
    engineWith_engines (evaluateRecorded_evaluators hg rfl _ 0) hg recording_lawful
  refine recorded_routine_runs he r _ _ ?_
  refine ⟨⟨rfl, rfl, ?_, lawful_nil⟩, rfl, rfl, rfl, .nil, rfl, rfl⟩
  intro before entry after h
  simp at h

end Grammars

/-! ### What the journal shows -/

/-- A context without its journal. -/
def Context.withoutJournal (c : Context (Logged σ)) : Context σ :=
  ⟨c.source.source, c.depth, c.scopes, c.trackers, c.produced, c.globalsLoaded⟩

/-- What remains of a run when the journal is left out. -/
def withoutJournal : EStateM.Result ExpandError (Context (Logged σ)) α →
    EStateM.Result ExpandError (Context σ) α
  | .ok a c => .ok a c.withoutJournal
  | .error e c => .error e c.withoutJournal

namespace Correspondence

variable {plain : Slot → Prop} {depth : Nat}

theorem Contexts.withoutJournal_eq {c : Context (Logged σ)} {d : Context σ}
    (h : (recording plain).Contexts depth c d) : c.withoutJournal = d := by
  have hview := h.view_eq rfl
  exact Context.eq_of_view h.source.1 hview

theorem Results.withoutJournal_eq {r : EStateM.Result ExpandError (Context (Logged σ)) α}
    {r' : EStateM.Result ExpandError (Context σ) α} (h : (recording plain).Results depth r r') :
    withoutJournal r = r' := by
  cases h with
  | ok a h => exact congrArg (EStateM.Result.ok a) h.withoutJournal_eq
  | error e h => exact congrArg (EStateM.Result.error e) h.withoutJournal_eq
  | excused h => exact h.elim

end Correspondence

/-- What has been seen is never picked again while a tracker has it. Whatever a program does with a
context, and whatever the modifiers are:

* from no context is an alternative picked that an active tracker has;
* a journal can be kept without making a difference, and it replays to the trackers of every moment;
* in the journal every alternative that is picked is in no active tracker, stays out of reach from when
  it is entered until all trackers that were active then have been deactivated, and gives its text at
  most once as long as a tracker is active, if it has neither references nor declarations;
* a rule counts as open exactly when something is picked from it, whatever the draw. -/
theorem seen_never_picked [RandomSource σ] (g : Grammar σ)
    (routines : Table (String → List Argument → Routine)) (r : Routine) (s : σ) :
    (∀ (rule : Rule) (c c' : Context σ) (slot : Slot), c.tracking = true →
      Run.pick rule c = .ok (some slot) c' → Unseen c.trackers slot) ∧
    withoutJournal (g.recordedProgram routines r { source := { source := s } }) =
      (g.registering routines).program r { source := s } ∧
    (Faithful (g.logged routines r s).entries ∧ replay (g.logged routines r s).journal =
      (((g.registering routines).program r).after { source := s }).trackers) ∧
    PicksUnseen (g.logged routines r s).journal ∧
    StaysOut (g.logged routines r s).journal ∧
    GivenOnce g.Plain (g.logged routines r s).journal ∧
    ∀ (rule : Rule) (c : Context σ), Builtin.hasUnseen rule c = true ↔
      ∀ (τ : Type) [RandomSource τ] (t : τ),
        (rule.pick (some c.seen.contains) t).1.isSome = true := by
  have hresults := program_results g routines r s
  have hafter := hresults.after fun _ h => h
  obtain ⟨-, hreplay, hfaithful, hlawful⟩ := hafter.source
  exact ⟨fun _ _ _ _ htrack hpick => not_isSeen_iff.mp (pick_unseen htrack hpick),
    hresults.withoutJournal_eq, ⟨hfaithful, hreplay.trans (hafter.trackers_eq rfl).symm⟩,
    hlawful.picksUnseen, staysOut _, hlawful.givenOnce, fun _ _ => hasUnseen_iff_pick⟩

end Fabula
