import Fabula.Proofs.Correspondence
import Fabula.Proofs.Unwinding

/-!
# Fabula.Proofs.Simulation

**Grammars that correspond expand alike.** Given a correspondence between the alternatives and between
the modifiers of two grammars (`Correspondence.Grammars`), all that the interpreter does with the one
it does with the other: there is one lemma for each part of the interpreter, and the induction on its
levels (`Correspondence.evaluate_evaluators`) puts them together.

About the templates one level below (`Correspondence.Evaluators`) a little less is asked than that they
are expanded alike in all corresponding contexts: an alternative is only ever entered with its own
template and, while alternatives are tracked, when it has not been seen.
-/

namespace Fabula

variable {σ τ α : Type}

namespace Correspondence

/-- The evaluators expand the templates one level below alike. -/
structure Evaluators (K : Correspondence σ τ) (g : Grammar σ) (depth : Nat) (enter : Evaluator σ)
    (enter' : Evaluator τ) : Prop where
  /-- Templates that are no alternative of a rule. -/
  template : ∀ t, K.Runs depth (enter t none) (enter' t none)
  /-- Alternatives that have just been picked. -/
  alternative : ∀ t slot slot' c d, K.slot slot slot' → g.template slot = .ok t →
    K.Contexts depth c d → (c.tracking = true → c.isSeen slot = false) →
    K.Results depth (enter t (some slot) c) (enter' t (some slot') d)

/-- The grammars correspond. -/
structure Grammars (K : Correspondence σ τ) [RandomSource σ] [RandomSource τ] (g : Grammar σ)
    (g' : Grammar τ) : Prop where
  /-- They have corresponding rules under the same names. -/
  rules : ∀ name, Option.Rel K.Rules (g.rule? name) (g'.rule? name)
  /-- Alternatives that stand for each other have the same text. -/
  texts : ∀ slot slot', K.slot slot slot' → g'.text slot' = g.text slot
  /-- They have the same globals in the same order. -/
  globals : g'.globals = g.globals
  /-- They have the same models under the same names. -/
  models : ∀ name, g'.models.get? name = g.models.get? name
  /-- Their modifiers do the same, if the engines that they are given do. -/
  modifiers : ∀ depth engine engine', K.Engines depth engine engine' → ∀ call value,
    K.Runs depth (applyModifier g engine call value) (applyModifier g' engine' call value)

variable {K : Correspondence σ τ} {depth : Nat}

theorem Evaluators.of_runs {g : Grammar σ} {enter : Evaluator σ} {enter' : Evaluator τ}
    (h : ∀ t slot slot', Option.Rel K.slot slot slot' →
      K.Runs depth (enter t slot) (enter' t slot')) : K.Evaluators g depth enter enter' where
  template t := h t none none .none
  alternative t slot slot' c d hslot _ hcd _ := h t (some slot) (some slot') (.some hslot) c d hcd

/-! ### Modifiers -/

theorem Engines.expand {engine : Engine σ} {engine' : Engine τ} (h : K.Engines depth engine engine')
    (text : String) : K.Runs depth (engine.expand text) (engine'.expand text) :=
  (ofParsed_runs _).bind fun t => (h.template t).bind fun _ => pure_runs _

theorem collect_runs {attempt : Run σ (Option String)} {attempt' : Run τ (Option String)}
    (h : K.Runs depth attempt attempt') {isOpen : Context σ → Bool} {isOpen' : Context τ → Bool}
    (hopen : ∀ c d, K.Contexts depth c d → isOpen' d = isOpen c) (count : Nat)
    (texts : List String) (tries : Nat) :
    K.Runs depth (Builtin.collect attempt isOpen count texts tries)
      (Builtin.collect attempt' isOpen' count texts tries) := by
  induction tries generalizing texts with
  | zero => exact pure_runs texts
  | succ tries ih =>
    unfold Builtin.collect
    split
    · exact pure_runs texts
    · refine h.bind fun found => ?_
      cases found with
      | some text => exact ih _
      | none =>
        refine get_runs fun c d hcd => ?_
        rw [hopen c d hcd]
        split
        · exact ih texts c d hcd
        · exact .ok texts hcd

/-- The built-in modifiers other than the one that expands a rule differ in their draws at most. -/
theorem drawing_runs [RandomSource σ] [RandomSource τ] (hK : K.Lawful) {b : Builtin}
    (hb : b ≠ .uniques) {g : Grammar σ} {g' : Grammar τ} (engine : Engine σ) (engine' : Engine τ)
    (value : String) (args : List Argument) :
    K.Runs depth (b.apply g engine value args) (b.apply g' engine' value args) := by
  cases b with
  | times => exact ofExcept_runs _
  | randomNumber =>
    refine (ofExcept_runs _).bind fun (low, high) => ?_
    exact (Draws.runs (hK.between low high)).bind fun _ => pure_runs _
  | roll =>
    refine (ofExcept_runs _).bind fun dice => ?_
    exact (Draws.runs (throwFrom_draws hK _ _ _)).bind fun _ => pure_runs _
  | uniques => exact absurd rfl hb
  | _ => exact pure_runs _

section Modifiers

variable [RandomSource σ] [RandomSource τ] (hK : K.Lawful) (htrackless : K.Trackless)
variable {g : Grammar σ} {g' : Grammar τ}
variable (hrules : ∀ name, Option.Rel K.Rules (g.rule? name) (g'.rule? name))
include hK htrackless hrules

theorem runUniques_runs {engine : Engine σ} {engine' : Engine τ}
    (he : K.Engines depth engine engine') (args : List Argument) :
    K.Runs depth (Builtin.runUniques g engine args) (Builtin.runUniques g' engine' args) := by
  unfold Builtin.runUniques
  refine (ofExcept_runs _).bind fun (name, count, separator) => ?_
  have hrule := hrules name
  dsimp only
  generalize g.rule? name = found, g'.rule? name = found' at hrule
  cases hrule with
  | none => exact throw_runs _
  | some hr =>
    refine Runs.within ?_ (fun c d hcd => hcd.pushTracker htrackless)
      fun c d hcd => hcd.popTracker htrackless
    refine (collect_runs (he.rule name) ?_ _ _ _).bind fun texts => pure_runs _
    exact fun c d hcd => hasUnseen_eq hK hr hcd

/-- The built-in modifiers do the same with engines that do. -/
theorem builtin_runs (b : Builtin) {engine : Engine σ} {engine' : Engine τ}
    (he : K.Engines depth engine engine') (value : String) (args : List Argument) :
    K.Runs depth (b.apply g engine value args) (b.apply g' engine' value args) := by
  by_cases hb : b = .uniques
  · subst hb
    exact runUniques_runs hK htrackless hrules he args
  · exact drawing_runs hK hb engine engine' value args

/-- Grammars with corresponding rules have corresponding modifiers if those that are registered
correspond. -/
theorem applyModifier_runs
    (hoverrides : ∀ name, Option.Rel K.Overrides (g.overrides.get? name) (g'.overrides.get? name))
    {engine : Engine σ} {engine' : Engine τ} (he : K.Engines depth engine engine')
    (call : ModifierCall) (value : String) :
    K.Runs depth (applyModifier g engine call value) (applyModifier g' engine' call value) := by
  have hoverride := hoverrides call.name
  unfold applyModifier
  generalize g.overrides.get? call.name = found, g'.overrides.get? call.name = found' at hoverride
  cases hoverride with
  | some hf => exact hf depth engine engine' he value call.args
  | none =>
    dsimp only
    cases Builtin.ofName? call.name with
    | some b => exact builtin_runs hK htrackless hrules b he value call.args
    | none => exact throw_runs _

end Modifiers

/-! ### Inside a template -/

section Inside

variable {g : Grammar σ} {g' : Grammar τ} {enter : Evaluator σ} {enter' : Evaluator τ}
variable (henter : K.Evaluators g depth enter enter')
include henter

theorem assignAll_runs (declarations : List (String × Template)) :
    K.Runs depth (assignAll enter declarations) (assignAll enter' declarations) := by
  induction declarations with
  | nil => exact pure_runs ()
  | cons declaration rest ih =>
    obtain ⟨name, t⟩ := declaration
    refine (henter.template t).bind fun value => ?_
    exact (modify_runs fun c d hcd => hcd.assign name _).bind fun _ => ih

variable [RandomSource σ] [RandomSource τ] (hg : K.Grammars g g')
include hg

theorem withGlobals_runs {act : Run σ α} {act' : Run τ α} (h : K.Runs depth act act') :
    K.Runs depth (withGlobals g enter act) (withGlobals g' enter' act') := by
  unfold withGlobals
  refine get_runs fun c d hcd => ?_
  rw [hcd.globalsLoaded, hg.globals]
  split
  · exact h c d hcd
  · refine Runs.within ?_ (fun c d hcd => hcd.enterGlobals) (fun c d hcd => hcd.leaveGlobals) c d hcd
    exact (assignAll_runs henter g.globals).bind fun _ => h

variable (hK : K.Lawful)
include hK

theorem expandRuleWith_runs {r : Rule} {r' : Rule} (hr : K.Rules r r') :
    K.Runs depth (expandRuleWith g enter r) (expandRuleWith g' enter' r') := by
  intro c d hcd
  obtain ⟨hpicked, hafter⟩ := pick_rel hK hr hcd
  have hleft := pick_apply r c
  have hright := pick_apply r' d
  generalize (r.pick c.excluded c.source).1 = picked,
    (r'.pick d.excluded d.source).1 = picked' at hpicked hleft hright
  cases hpicked with
  | none =>
    rw [expandRuleWith_of_none hleft, expandRuleWith_of_none hright, hafter.tracking_eq]
    exact .ok _ hafter
  | @some slot slot' hslot =>
    rw [expandRuleWith_of_some hleft, expandRuleWith_of_some hright]
    unfold Grammar.template
    rw [hg.texts slot slot' hslot]
    cases ht : Template.parse (g.text slot) with
    | error e => exact .error _ hafter
    | ok t =>
      -- a pick marks nothing, so what was unseen before it still is
      exact henter.alternative t slot slot' _ _ hslot ht hafter fun htrack =>
        pick_unseen (c := c) htrack hleft

theorem resolve_runs (name : String) :
    K.Runs depth (resolve g enter name) (resolve g' enter' name) := by
  intro c d hcd
  cases hl : c.lookup name with
  | some value =>
    rw [resolve_of_lookup hl, resolve_of_lookup ((hcd.lookup_eq name).trans hl)]
    exact .ok _ hcd
  | none =>
    have hl' : d.lookup name = none := (hcd.lookup_eq name).trans hl
    cases hm : g.models.get? name with
    | some m =>
      rw [resolve_of_model hl hm, resolve_of_model hl' ((hg.models name).trans hm)]
      exact (resolveMarkov_runs hK name m _).bind (fun _ => pure_runs _) c d hcd
    | none =>
      have hm' : g'.models.get? name = none := (hg.models name).trans hm
      have hrule := hg.rules name
      cases hr : g.rule? name with
      | some r =>
        rw [hr] at hrule
        obtain ⟨r', hr', hrr'⟩ : ∃ r', g'.rule? name = some r' ∧ K.Rules r r' := by
          generalize g'.rule? name = found' at hrule
          cases hrule with
          | some h => exact ⟨_, rfl, h⟩
        rw [resolve_of_rule hl hm hr, resolve_of_rule hl' hm' hr']
        refine (expandRuleWith_runs henter hg hK hrr').bind (fun value => ?_) c d hcd
        refine get_runs fun c d hcd => ?_
        rw [hasUnseen_eq hK hrr' hcd]
        exact .ok _ hcd
      | none =>
        rw [hr] at hrule
        have hr' : g'.rule? name = none := by
          generalize g'.rule? name = found' at hrule
          cases hrule
          rfl
        rw [resolve_of_unknown hl hm hr, resolve_of_unknown hl' hm' hr']
        split
        · exact .ok _ hcd
        · exact .error _ hcd

theorem engineWith_engines : K.Engines depth (engineWith g enter) (engineWith g' enter') where
  template t := withGlobals_runs henter hg (henter.template t)
  rule name := by
    have hrule := hg.rules name
    unfold engineWith
    dsimp only
    generalize g.rule? name = found, g'.rule? name = found' at hrule
    cases hrule with
    | none => exact throw_runs _
    | some hr => exact withGlobals_runs henter hg (expandRuleWith_runs henter hg hK hr)

theorem applyModifiers_runs (calls : List ModifierCall) (value : String) :
    K.Runs depth (applyModifiers g (engineWith g enter) calls value)
      (applyModifiers g' (engineWith g' enter') calls value) := by
  induction calls generalizing value with
  | nil => exact pure_runs value
  | cons call calls ih =>
    exact (hg.modifiers depth _ _ (engineWith_engines henter hg hK) call value).bind ih

theorem expandReference_runs (r : Reference) :
    K.Runs depth (expandReference g enter r) (expandReference g' enter' r) := by
  refine (resolve_runs henter hg hK r.symbol).bind fun resolved => ?_
  cases resolved with
  | none => exact pure_runs none
  | some resolved =>
    exact (applyModifiers_runs henter hg hK r.calls resolved.value).bind fun value => pure_runs _

theorem expandReferences_runs (references : List Reference) (values : List String) (live : Bool) :
    K.Runs depth (expandReferences g enter values live references)
      (expandReferences g' enter' values live references) := by
  induction references generalizing values live with
  | nil => exact pure_runs _
  | cons r rest ih =>
    refine (expandReference_runs henter hg hK r).bind fun resolved => ?_
    cases resolved with
    | none => exact pure_runs none
    | some resolved => exact ih _ _

end Inside

/-! ### Templates -/

section Templates

variable [RandomSource σ] [RandomSource τ] (hK : K.Lawful) (htrackless : K.Trackless)
include hK htrackless

theorem markSeen_runs {slot slot' : Option Slot} (hslot : Option.Rel K.slot slot slot') :
    K.Runs depth (markSeen slot) (markSeen slot') := by
  cases hslot with
  | none => exact pure_runs ()
  | some hslot => exact modify_runs fun c d hcd => hcd.markSeen hK.unique htrackless hslot

theorem conclude_runs (t : Template) {slot slot' : Option Slot}
    (hslot : Option.Rel K.slot slot slot') (found : Option (List String × Bool)) :
    K.Runs depth (conclude t slot found) (conclude t slot' found) := by
  obtain _ | ⟨values, _ | _⟩ := found
  · exact (markSeen_runs hK htrackless hslot).bind fun _ => pure_runs none
  · exact (markSeen_runs hK htrackless hslot).bind fun _ => pure_runs _
  · exact pure_runs _

variable {g : Grammar σ} {g' : Grammar τ} (hg : K.Grammars g g')
include hg

theorem expandBody_runs {enter : Evaluator σ} {enter' : Evaluator τ}
    (henter : K.Evaluators g depth enter enter') (t : Template) {slot slot' : Option Slot}
    (hslot : Option.Rel K.slot slot slot') :
    K.Runs depth (expandBody g enter t slot) (expandBody g' enter' t slot') := by
  rw [expandBody_eq, expandBody_eq]
  refine (assignAll_runs henter t.declarations).bind fun _ => ?_
  exact (expandReferences_runs henter hg hK t.references _ _).bind
    fun found => conclude_runs hK htrackless t hslot found

/-- Templates are expanded alike at all levels, by induction on those of the first run. The second may
have more of them if it does not matter that the first one runs out. -/
theorem evaluate_evaluators {levels levels' : Nat}
    (hlevels : levels' = levels ∧ g'.settings = g.settings ∨
      levels ≤ levels' ∧ ∀ limit source, K.excused (.tooDeep limit source)) (depth : Nat) :
    K.Evaluators g depth (g.evaluate levels) (g'.evaluate levels') := by
  refine .of_runs ?_
  induction levels generalizing levels' depth with
  | zero =>
    intro t slot slot' _
    rcases hlevels with ⟨rfl, hsettings⟩ | ⟨_, hexcused⟩
    · unfold Grammar.evaluate
      rw [hsettings]
      exact throw_runs _
    · exact fun c d _ => .excused (hexcused _ _)
  | succ levels ih =>
    intro t slot slot' hslot
    obtain ⟨below, rfl, hbelow⟩ : ∃ below, levels' = below + 1 ∧
        (below = levels ∧ g'.settings = g.settings ∨
          levels ≤ below ∧ ∀ limit source, K.excused (.tooDeep limit source)) := by
      rcases hlevels with ⟨rfl, hsettings⟩ | ⟨hle, hexcused⟩
      · exact ⟨levels, rfl, .inl ⟨rfl, hsettings⟩⟩
      · exact ⟨levels' - 1, by omega, .inr ⟨by omega, hexcused⟩⟩
    exact Runs.within (expandBody_runs hK htrackless hg (.of_runs (ih hbelow (depth + 1))) t hslot)
      (fun c d hcd => hcd.enterTemplate) fun c d hcd => hcd.leaveTemplate

/-- Engines do the same in contexts, as far below the limits as these are. -/
theorem engineAt_engines
    (hsettings : g'.settings = g.settings ∨
      g.settings.maxDepth ≤ g'.settings.maxDepth ∧ ∀ limit source, K.excused (.tooDeep limit source))
    (depth : Nat) : K.Engines depth (g.engineAt depth) (g'.engineAt depth) := by
  refine engineWith_engines (evaluate_evaluators hK htrackless hg ?_ depth) hg hK
  rcases hsettings with hsettings | ⟨hle, hexcused⟩
  · exact .inl ⟨by rw [hsettings], hsettings⟩
  · exact .inr ⟨Nat.sub_le_sub_right hle depth, hexcused⟩

/-- Whatever is called for in corresponding contexts gives corresponding results. -/
theorem call_runs
    (hsettings : g'.settings = g.settings ∨
      g.settings.maxDepth ≤ g'.settings.maxDepth ∧ ∀ limit source, K.excused (.tooDeep limit source))
    (call : Call) : K.Runs depth (g.call call) (g'.call call) := by
  have he := engineAt_engines hK htrackless hg hsettings depth
  cases call with
  | expand text =>
    refine Runs.map some (get_runs fun c d hcd => ?_)
    rw [hcd.depth_left, hcd.depth_right]
    exact he.expand text c d hcd
  | expandTemplate t =>
    refine get_runs fun c d hcd => ?_
    rw [hcd.depth_left, hcd.depth_right]
    exact he.template t c d hcd
  | expandRule name =>
    refine get_runs fun c d hcd => ?_
    rw [hcd.depth_left, hcd.depth_right]
    exact he.rule name c d hcd
  | applyModifier call value =>
    refine get_runs fun c d hcd => ?_
    rw [hcd.depth_left, hcd.depth_right]
    exact Runs.map some (hg.modifiers depth _ _ he call value) c d hcd

end Templates

end Correspondence

end Fabula
