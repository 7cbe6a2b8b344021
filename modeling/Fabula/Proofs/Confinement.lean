import Fabula.Proofs.Frame
import Fabula.Proofs.Steps

/-!
# Fabula.Proofs.Confinement

**Where modifiers run.** A modifier is *confined* when all it makes of the engine that it is given is
to run it at its own place, that is at the depth and in the scopes in which it was called
(`Override.Confined`). The built-in modifiers are.

To see where modifiers run, each of them is replaced by one that first looks at its context and, if
there are not as many scopes as the depth and one, raises an arbitrary alarm instead
(`Grammar.watched`). With confined modifiers nothing changes (`Grammar.watched_evaluate`), so inside
an expansion no modifier ever runs anywhere else.
-/

namespace Fabula

variable {σ α : Type}

/-! ### Places -/

namespace Context

/-- The contexts stand at the same depth in the same scopes. -/
structure SamePlace (c c' : Context σ) : Prop where
  /-- The depth is the same. -/
  depth : c'.depth = c.depth
  /-- The scopes are the same, with all their names. -/
  scopes : c'.scopes = c.scopes
  /-- The globals are loaded in both or in neither. -/
  globalsLoaded : c'.globalsLoaded = c.globalsLoaded

theorem SamePlace.refl (c : Context σ) : c.SamePlace c := ⟨rfl, rfl, rfl⟩

theorem SamePlace.trans {a b c : Context σ} (h : a.SamePlace b) (h' : b.SamePlace c) :
    a.SamePlace c :=
  ⟨h'.depth.trans h.depth, h'.scopes.trans h.scopes, h'.globalsLoaded.trans h.globalsLoaded⟩

theorem Frame.samePlace {c c' : Context σ} (h : c.Frame c') : c.SamePlace c' :=
  ⟨h.depth, h.scopes, h.globalsLoaded⟩

/-- What the same place is while a template is open: the innermost scope may have changed. -/
structure InnerPlace (c c' : Context σ) : Prop where
  /-- The depth is the same. -/
  depth : c'.depth = c.depth
  /-- The outer scopes are the same. -/
  outer : c'.scopes.tail = c.scopes.tail
  /-- The globals are loaded in both or in neither. -/
  globalsLoaded : c'.globalsLoaded = c.globalsLoaded

theorem InnerPlace.assign (c : Context σ) (name value : String) :
    c.InnerPlace (c.assign name value) := by
  unfold Context.assign
  split
  · exact ⟨rfl, rfl, rfl⟩
  · next hscopes => exact ⟨rfl, by rw [hscopes]; rfl, rfl⟩

/-- Every expansion comes back to the place where it started. -/
theorem SamePlace.invariant : Invariant (SamePlace (σ := σ)) InnerPlace where
  refl := .refl
  trans := .trans
  inner h := ⟨h.depth, congrArg List.tail h.scopes, h.globalsLoaded⟩
  innerTrans h h' := ⟨h'.depth.trans h.depth, h'.outer.trans h.outer,
    h'.globalsLoaded.trans h.globalsLoaded⟩
  draw _ _ := ⟨rfl, rfl, rfl⟩
  produce _ _ := ⟨rfl, rfl, rfl⟩
  mark _ _ := ⟨rfl, rfl, rfl⟩
  assign := .assign
  template h := ⟨congrArg (· - 1) h.depth, h.outer, h.globalsLoaded⟩
  globals hc h := ⟨h.depth, h.outer, hc.symm⟩
  tracker h := ⟨h.depth, h.scopes, h.globalsLoaded⟩

/-- The context stands inside an expansion: the globals are loaded, and there is a scope for them and
one for every template that is open. -/
structure Inside (c : Context σ) : Prop where
  /-- The globals are loaded. -/
  globalsLoaded : c.globalsLoaded = true
  /-- There is one scope more than the depth. -/
  scopes : c.scopes.length = c.depth + 1

/-- Nothing is being expanded in the context. -/
structure AtRest (c : Context σ) : Prop where
  /-- No template is open. -/
  depth : c.depth = 0
  /-- No scope is open. -/
  scopes : c.scopes = []
  /-- The globals are not loaded. -/
  globalsLoaded : c.globalsLoaded = false

theorem Inside.samePlace {c c' : Context σ} (h : c.Inside) (hs : c.SamePlace c') : c'.Inside :=
  ⟨hs.globalsLoaded.trans h.globalsLoaded, by rw [hs.scopes, hs.depth]; exact h.scopes⟩

theorem AtRest.samePlace {c c' : Context σ} (h : c.AtRest) (hs : c.SamePlace c') : c'.AtRest :=
  ⟨hs.depth.trans h.depth, hs.scopes.trans h.scopes, hs.globalsLoaded.trans h.globalsLoaded⟩

theorem Inside.frame {c c' : Context σ} (h : c.Inside) (hf : c.Frame c') : c'.Inside :=
  h.samePlace hf.samePlace

theorem Inside.enterTemplate {c : Context σ} (h : c.Inside) : c.enterTemplate.Inside :=
  ⟨h.globalsLoaded, congrArg (· + 1) h.scopes⟩

theorem Inside.assign {c : Context σ} (h : c.Inside) (name value : String) :
    (c.assign name value).Inside := by
  obtain ⟨hl, hs⟩ := h
  unfold Context.assign
  split
  · exact ⟨hl, hs⟩
  · rename_i scope outer hscopes
    rw [hscopes] at hs
    exact ⟨hl, hs⟩

theorem AtRest.enterGlobals {c : Context σ} (h : c.AtRest) : c.enterGlobals.Inside :=
  ⟨rfl, by rw [show c.enterGlobals.depth = 0 from h.depth]; simp [Context.enterGlobals, h.scopes]⟩

end Context

/-! ### Confined modifiers -/

/-- The two engines do the same in every context that satisfies `P`. -/
structure Engine.EqOn (P : Context σ → Prop) (engine engine' : Engine σ) : Prop where
  /-- They expand templates alike. -/
  template : ∀ t, Run.EqOn P (engine.expandTemplate t) (engine'.expandTemplate t)
  /-- They expand rules alike. -/
  rule : ∀ name, Run.EqOn P (engine.expandRule name) (engine'.expandRule name)

theorem Engine.EqOn.atPlace {c c' : Context σ} {engine engine' : Engine σ}
    (h : engine.EqOn c.SamePlace engine') (hc : c.SamePlace c') :
    engine.EqOn c'.SamePlace engine' :=
  ⟨fun t c hc' => h.template t c (hc.trans hc'), fun name c hc' => h.rule name c (hc.trans hc')⟩

/-- Engines that expand templates alike expand texts alike. -/
theorem Engine.EqOn.expand {P : Context σ → Prop} {engine engine' : Engine σ}
    (h : engine.EqOn P engine') (stays : ∀ t c, P c → P ((engine.expandTemplate t).after c))
    (text : String) : Run.EqOn P (engine.expand text) (engine'.expand text) := by
  refine Run.EqOn.bind Run.EqOn.rfl (fun c hc => ?_) fun t => ?_
  · rw [Run.after_ofParsed]
    exact hc
  · exact Run.EqOn.bind (h.template t) (stays t) fun _ => Run.EqOn.rfl

/-- The modifier runs the engine that it is given only at the place where it was called: what another
engine does elsewhere makes no difference. -/
def Override.Confined (f : Override σ) : Prop :=
  ∀ (c : Context σ) (engine engine' : Engine σ), engine.Keeps Context.Frame →
    engine.EqOn c.SamePlace engine' → ∀ value args, f engine value args c = f engine' value args c

/-- All registered modifiers are confined. -/
def Grammar.OverridesConfined (g : Grammar σ) : Prop :=
  ∀ name f, g.overrides.get? name = some f → Override.Confined f

theorem Grammar.overridesConfined_of_nil {g : Grammar σ} (h : g.overrides = []) :
    g.OverridesConfined := by
  intro name f hf
  rw [h] at hf
  cases hf

theorem Builtin.collect_eqOn {P : Context σ → Prop} {attempt attempt' : Run σ (Option String)}
    (h : Run.EqOn P attempt attempt') (stays : ∀ c, P c → P (attempt.after c))
    (isOpen : Context σ → Bool) (count : Nat) (texts : List String) (tries : Nat) :
    Run.EqOn P (collect attempt isOpen count texts tries)
      (collect attempt' isOpen count texts tries) := by
  induction tries generalizing texts with
  | zero => exact Run.EqOn.rfl
  | succ tries ih =>
    intro c hc
    by_cases hcount : count ≤ texts.length
    · rw [collect_of_enough hcount, collect_of_enough hcount]
    · have hP := stays c hc
      have ha' := h c hc
      cases ha : attempt c with
      | error e c₁ =>
        rw [ha] at ha'
        rw [collect_of_error hcount ha, collect_of_error hcount ha'.symm]
      | ok found c₁ =>
        rw [ha] at ha'
        rw [Run.after_of_ok ha] at hP
        cases found with
        | some text =>
          rw [collect_of_text hcount ha, collect_of_text hcount ha'.symm]
          exact ih _ c₁ hP
        | none =>
          rw [collect_of_none hcount ha, collect_of_none hcount ha'.symm, ih texts c₁ hP]

/-- The built-in modifiers are confined. -/
theorem Builtin.apply_confined [RandomSource σ] (g : Grammar σ) (b : Builtin) :
    Override.Confined (b.apply g) := by
  intro c engine engine' hk he value args
  cases b with
  | uniques =>
    refine Run.EqOn.bind (P := c.SamePlace) Run.EqOn.rfl ?_ ?_ c (.refl c)
    · intro c' hc'
      rw [Run.after_ofExcept]
      exact hc'
    · intro (name, count, separator)
      dsimp only
      split
      · exact Run.EqOn.rfl
      · refine Run.EqOn.within (Q := c.SamePlace) ?_ fun c' hc' => ⟨hc'.1, hc'.2, hc'.3⟩
        refine Run.EqOn.bind ?_ ?_ fun _ => Run.EqOn.rfl
        · refine collect_eqOn (he.rule name) (fun c' hc' => ?_) _ _ _ _
          exact hc'.trans (hk.rule name c').samePlace
        · intro c' hc'
          refine hc'.trans (Context.Frame.samePlace ?_)
          exact Context.Frame.invariant.collect_keeps (hk.rule name) _ _ _ _ c'
  | _ => rfl

theorem applyModifier_confined [RandomSource σ] {g : Grammar σ} (hg : g.OverridesConfined)
    {c : Context σ} {engine engine' : Engine σ} (hk : engine.Keeps Context.Frame)
    (he : engine.EqOn c.SamePlace engine') (call : ModifierCall) (value : String) :
    applyModifier g engine call value c = applyModifier g engine' call value c := by
  cases ho : g.overrides.get? call.name with
  | some f =>
    rw [applyModifier_of_override ho, applyModifier_of_override ho]
    exact hg _ f ho c engine engine' hk he value call.args
  | none =>
    cases hb : Builtin.ofName? call.name with
    | some b =>
      rw [applyModifier_of_builtin ho hb, applyModifier_of_builtin ho hb]
      exact b.apply_confined g c engine engine' hk he value call.args
    | none => rw [applyModifier_of_unknown ho hb, applyModifier_of_unknown ho hb]

theorem applyModifiers_confined [RandomSource σ] {g : Grammar σ}
    (hf : g.OverridesKeep Context.Frame) (hg : g.OverridesConfined) {c : Context σ}
    {engine engine' : Engine σ} (hk : engine.Keeps Context.Frame)
    (he : engine.EqOn c.SamePlace engine') (calls : List ModifierCall) (value : String) :
    Run.EqOn c.SamePlace (applyModifiers g engine calls value)
      (applyModifiers g engine' calls value) := by
  induction calls generalizing value with
  | nil => exact Run.EqOn.rfl
  | cons call calls ih =>
    refine Run.EqOn.bind (fun c' hc' => ?_) (fun c' hc' => hc'.trans (Context.Frame.samePlace ?_)) ih
    · exact applyModifier_confined hg hk (he.atPlace hc') call value
    · exact Context.Frame.invariant.applyModifier_keeps hf hk call value c'

/-! ### Watched modifiers -/

namespace Grammar

variable [RandomSource σ] (g : Grammar σ) (alarm : Override σ)

/-- The modifier called `name`, but where there are not as many scopes as the depth and one, `alarm`
runs in its place. -/
def watch (name : String) : Override σ := fun engine value args c =>
  if c.scopes.length = c.depth + 1 then applyModifier g engine ⟨name, args⟩ value c
  else alarm engine value args c

/-- The names of all modifiers, registered or built in. -/
def modifierNames : List String := g.overrides.names ++ Builtin.all.map Builtin.name

/-- The grammar with all its modifiers watched. -/
def watched : Grammar σ :=
  { g with overrides := g.modifierNames.map fun name => (name, g.watch alarm name) }

end Grammar

theorem Table.get?_map_of_mem (f : String → α) {names : List String} {name : String}
    (h : name ∈ names) : Table.get? (names.map fun n => (n, f n)) name = some (f name) := by
  induction names with
  | nil => cases h
  | cons n names ih =>
    rw [List.map_cons, Table.get?_cons]
    split
    · rename_i hn
      rw [hn]
    · rename_i hn
      exact ih ((List.mem_cons.mp h).resolve_left fun h => hn h.symm)

theorem Builtin.ofName?_eq_none {name : String} (h : name ∉ all.map Builtin.name) :
    ofName? name = none := by
  unfold ofName?
  rw [List.find?_eq_none]
  intro b hb hn
  exact h (List.mem_map.mpr ⟨b, hb, of_decide_eq_true hn⟩)

/-- Where the number of scopes is right, a watched modifier does what it always does. -/
theorem Grammar.watched_applyModifier [RandomSource σ] (g : Grammar σ) (alarm : Override σ)
    (engine : Engine σ) (call : ModifierCall) (value : String) {c : Context σ}
    (hc : c.scopes.length = c.depth + 1) :
    applyModifier (g.watched alarm) engine call value c = applyModifier g engine call value c := by
  by_cases hn : call.name ∈ g.modifierNames
  · have hw : (g.watched alarm).overrides.get? call.name = some (g.watch alarm call.name) :=
      Table.get?_map_of_mem _ hn
    unfold applyModifier
    rw [hw]
    exact if_pos hc
  · have hw : (g.watched alarm).overrides.get? call.name = none := by
      refine Table.get?_eq_none fun h => hn ?_
      simpa [Grammar.watched, Table.names, Function.comp_def] using h
    unfold Grammar.modifierNames at hn
    rw [List.mem_append, not_or] at hn
    unfold applyModifier
    rw [hw, Table.get?_eq_none hn.1, Builtin.ofName?_eq_none hn.2]

/-! ### Watched expansions

`enter'` expands templates with the watched modifiers and does the same as `enter` inside an
expansion. -/

section Assignments

variable {enter enter' : Evaluator σ} (henter : ∀ t slot, Run.Keeps Context.Frame (enter t slot))
include henter

theorem assignAll_inside (declarations : List (String × Template)) {c : Context σ}
    (hc : c.Inside) : ((assignAll enter declarations).after c).Inside := by
  induction declarations generalizing c with
  | nil => exact hc
  | cons declaration rest ih =>
    obtain ⟨name, t⟩ := declaration
    cases ha : enter t none c with
    | error e c₁ =>
      rw [Run.after_of_error (assignAll_of_error ha)]
      exact hc.frame ((henter t none).of_error ha)
    | ok value c₁ =>
      have hc₁ : c₁.Inside := hc.frame ((henter t none).of_ok ha)
      unfold Run.after
      rw [assignAll_of_value ha]
      exact ih (hc₁.assign name _)

theorem assignAll_eqOn
    (heq : ∀ t slot, Run.EqOn Context.Inside (enter t slot) (enter' t slot))
    (declarations : List (String × Template)) :
    Run.EqOn Context.Inside (assignAll enter declarations) (assignAll enter' declarations) := by
  induction declarations with
  | nil => exact Run.EqOn.rfl
  | cons declaration rest ih =>
    obtain ⟨name, t⟩ := declaration
    refine Run.EqOn.bind (heq t none) (fun c hc => hc.frame (henter t none c)) fun value => ?_
    exact Run.EqOn.bind Run.EqOn.rfl (fun c hc => hc.assign name _) fun _ => ih

end Assignments

section Watched

variable [RandomSource σ] {g : Grammar σ} (alarm : Override σ)
variable {enter enter' : Evaluator σ} (henter : ∀ t slot, Run.Keeps Context.Frame (enter t slot))
variable (heq : ∀ t slot, Run.EqOn Context.Inside (enter t slot) (enter' t slot))

include heq

theorem expandRuleWith_watched (r : Rule) :
    Run.EqOn Context.Inside (expandRuleWith g enter r)
      (expandRuleWith (g.watched alarm) enter' r) := by
  refine Run.EqOn.bind Run.EqOn.rfl (fun c hc => hc.frame ?_) fun picked => ?_
  · exact Context.Frame.invariant.pick_keeps r c
  · cases picked with
    | none => exact Run.EqOn.rfl
    | some slot =>
      refine Run.EqOn.bind Run.EqOn.rfl (fun c hc => ?_) fun t => heq t (some slot)
      rw [Run.after_ofParsed]
      exact hc

/-- Two engines that expand alike inside an expansion do so at every place inside one. -/
theorem engineWith_watched {c : Context σ} (hc : c.Inside) :
    (engineWith g enter).EqOn c.SamePlace (engineWith (g.watched alarm) enter') where
  template t := by
    intro c' hc'
    have h := hc.samePlace hc'
    dsimp only [engineWith]
    rw [withGlobals_of_loaded h.globalsLoaded, withGlobals_of_loaded h.globalsLoaded]
    exact heq t none c' h
  rule name := by
    intro c' hc'
    have h := hc.samePlace hc'
    cases hr : g.rule? name with
    | none => rw [engineWith_unknown hr, engineWith_unknown (g := g.watched alarm) hr]
    | some r =>
      rw [engineWith_rule hr, engineWith_rule (g := g.watched alarm) hr,
        withGlobals_of_loaded h.globalsLoaded, withGlobals_of_loaded h.globalsLoaded]
      exact expandRuleWith_watched alarm heq r c' h

include henter

theorem resolve_watched (name : String) :
    Run.EqOn Context.Inside (resolve g enter name) (resolve (g.watched alarm) enter' name) := by
  intro c hc
  cases hl : c.lookup name with
  | some value => rw [resolve_of_lookup hl, resolve_of_lookup hl]
  | none =>
    cases hm : g.models.get? name with
    | some m => rw [resolve_of_model hl hm, resolve_of_model hl (g := g.watched alarm) hm]
    | none =>
      cases hr : g.rule? name with
      | none =>
        rw [resolve_of_unknown hl hm hr, resolve_of_unknown hl (g := g.watched alarm) hm hr]
      | some r =>
        rw [resolve_of_rule hl hm hr, resolve_of_rule hl (g := g.watched alarm) hm hr]
        refine Run.EqOn.bind (expandRuleWith_watched alarm heq r) (fun c hc => hc.frame ?_)
          (fun _ => Run.EqOn.rfl) c hc
        exact Context.Frame.invariant.expandRuleWith_keeps henter r c

variable (hf : g.OverridesKeep Context.Frame) (hg : g.OverridesConfined)
include hf hg

theorem applyModifiers_watched (calls : List ModifierCall) (value : String) :
    Run.EqOn Context.Inside (applyModifiers g (engineWith g enter) calls value)
      (applyModifiers (g.watched alarm) (engineWith (g.watched alarm) enter') calls value) := by
  have hk := Context.Frame.invariant.engineWith_keeps (g := g) henter
  induction calls generalizing value with
  | nil => exact Run.EqOn.rfl
  | cons call calls ih =>
    refine Run.EqOn.bind (fun c hc => ?_) (fun c hc => hc.frame ?_) ih
    · -- there are as many scopes as the alarm asks for
      rw [Grammar.watched_applyModifier g alarm _ call value hc.scopes]
      exact applyModifier_confined hg hk (engineWith_watched alarm heq hc) call value
    · exact Context.Frame.invariant.applyModifier_keeps hf hk call value c

theorem expandReference_watched (r : Reference) :
    Run.EqOn Context.Inside (expandReference g enter r)
      (expandReference (g.watched alarm) enter' r) := by
  refine Run.EqOn.bind (resolve_watched alarm henter heq r.symbol) (fun c hc => hc.frame ?_)
    fun resolved => ?_
  · exact Context.Frame.invariant.resolve_keeps henter r.symbol c
  · cases resolved with
    | none => exact Run.EqOn.rfl
    | some resolved =>
      refine Run.EqOn.bind (applyModifiers_watched alarm henter heq hf hg r.calls resolved.value)
        (fun c hc => hc.frame ?_) fun _ => Run.EqOn.rfl
      exact Context.Frame.invariant.applyModifiers_keeps hf
        (Context.Frame.invariant.engineWith_keeps henter) r.calls resolved.value c

theorem expandReferences_watched (references : List Reference) (values : List String)
    (live : Bool) :
    Run.EqOn Context.Inside (expandReferences g enter values live references)
      (expandReferences (g.watched alarm) enter' values live references) := by
  induction references generalizing values live with
  | nil => exact Run.EqOn.rfl
  | cons r rest ih =>
    refine Run.EqOn.bind (expandReference_watched alarm henter heq hf hg r)
      (fun c hc => hc.frame ?_) fun resolved => ?_
    · exact Context.Frame.invariant.expandReference_keeps henter hf r c
    · cases resolved with
      | none => exact Run.EqOn.rfl
      | some resolved => exact ih _ _

theorem expandBody_watched (t : Template) (slot : Option Slot) :
    Run.EqOn Context.Inside (expandBody g enter t slot)
      (expandBody (g.watched alarm) enter' t slot) := by
  refine Run.EqOn.bind (assignAll_eqOn henter heq t.declarations)
    (fun c hc => assignAll_inside henter t.declarations hc) fun _ => ?_
  refine Run.EqOn.bind (expandReferences_watched alarm henter heq hf hg t.references [] false)
    (fun c hc => hc.frame ?_) fun _ => Run.EqOn.rfl
  exact Context.Frame.invariant.expandReferences_keeps henter hf t.references [] false c

end Watched

/-- Inside an expansion no alarm is ever raised, at any level. -/
theorem Grammar.watched_evaluate [RandomSource σ] {g : Grammar σ} (alarm : Override σ)
    (hf : g.OverridesKeep Context.Frame) (hg : g.OverridesConfined) (levels : Nat) (t : Template)
    (slot : Option Slot) :
    Run.EqOn Context.Inside (g.evaluate levels t slot)
      ((g.watched alarm).evaluate levels t slot) := by
  induction levels generalizing t slot with
  | zero => exact Run.EqOn.rfl
  | succ levels ih =>
    have hk := Context.Frame.invariant.evaluate_keeps hf levels
    exact Run.EqOn.within (expandBody_watched alarm hk ih hf hg t slot) fun _ hc => hc.enterTemplate

end Fabula
