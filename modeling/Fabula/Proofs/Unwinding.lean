import Fabula.Proofs.Confinement
import Fabula.Random.Scripted

/-!
# Fabula.Proofs.Unwinding

**Every call unwinds.** Whatever is called on a context, at rest or from a modifier that runs inside
an expansion, and whether it gives a value or fails: the context keeps its frame
(`Grammar.call_keeps`). So a context is at rest again after every call that was made at rest.
-/

namespace Fabula

variable {σ : Type}

/-! ### Calls -/

/-- What a program can have done in a context. -/
inductive Call
  /-- Read and expand a text. -/
  | expand (text : String)
  /-- Expand a template. -/
  | expandTemplate (t : Template)
  /-- Expand a rule. -/
  | expandRule (name : String)
  /-- Apply a modifier to a value. -/
  | applyModifier (call : ModifierCall) (value : String)

namespace Grammar

variable [RandomSource σ] (g : Grammar σ)

/-- Make a call in a context. -/
def call : Call → Run σ (Option String)
  | .expand text => some <$> g.expandIn text
  | .expandTemplate t => g.expandTemplate t
  | .expandRule name => g.expandRule name
  | .applyModifier call value => do
    some <$> applyModifier g (g.engineAt (← get).depth) call value

/-- The context after some calls, whether they fail or not. -/
def afterCalls (calls : List Call) (c : Context σ) : Context σ :=
  calls.foldl (fun c call => (g.call call).after c) c

/-- Inside an expansion every modifier runs in a context with one scope more than its depth: anything
that is done in its place in other contexts, an alarm say, is never done. -/
def ModifiersRunInside : Prop :=
  ∀ (alarm : Override σ) (c : Context σ), c.AtRest →
    (∀ text, (g.watched alarm).expandIn text c = g.expandIn text c) ∧
    (∀ t, (g.watched alarm).expandTemplate t c = g.expandTemplate t c) ∧
    (∀ name, (g.watched alarm).expandRule name c = g.expandRule name c) ∧
    ∀ call value, applyModifier g ((g.watched alarm).engineAt c.depth) call value c =
      applyModifier g (g.engineAt c.depth) call value c

end Grammar

/-! ### Calls keep what expansions keep -/

section Keeping

variable {R B : Context σ → Context σ → Prop} (inv : Invariant R B)
include inv

theorem Invariant.expand_keeps {engine : Engine σ} (he : engine.Keeps R) (text : String) :
    Run.Keeps R (engine.expand text) :=
  inv.bind_keeps (inv.ofParsed_keeps _) fun t =>
    inv.bind_keeps (he.template t) fun _ => inv.pure_keeps _

theorem Invariant.call_keeps [RandomSource σ] {g : Grammar σ} (hg : g.OverridesKeep R) (call : Call) :
    Run.Keeps R (g.call call) := by
  cases call with
  | expand text =>
    exact Run.Keeps.map _ (Run.Keeps.get_bind fun c =>
      inv.expand_keeps (inv.engineAt_keeps hg c.depth) text c)
  | expandTemplate t =>
    exact Run.Keeps.get_bind fun c => (inv.engineAt_keeps hg c.depth).template t c
  | expandRule name =>
    exact Run.Keeps.get_bind fun c => (inv.engineAt_keeps hg c.depth).rule name c
  | applyModifier call value =>
    exact Run.Keeps.get_bind fun c => Run.Keeps.map _
      (inv.applyModifier_keeps hg (inv.engineAt_keeps hg c.depth) call value) c

end Keeping

section Rest

variable [RandomSource σ] {g : Grammar σ}

/-- A context that was at rest is at rest after any calls. -/
theorem Grammar.afterCalls_atRest (hg : g.OverridesKeep Context.Frame) (calls : List Call)
    {c : Context σ} (hc : c.AtRest) : (g.afterCalls calls c).AtRest := by
  induction calls generalizing c with
  | nil => exact hc
  | cons call calls ih =>
    exact ih (hc.samePlace (Context.Frame.invariant.call_keeps hg call c).samePlace)

/-! ### Watched calls -/

variable (alarm : Override σ) (hf : g.OverridesKeep Context.Frame) (hg : g.OverridesConfined)
include hf hg

theorem withGlobals_watched (levels : Nat) {α : Type} {act act' : Run σ α}
    (h : Run.EqOn Context.Inside act act') :
    Run.EqOn Context.AtRest (withGlobals g (g.evaluate levels) act)
      (withGlobals (g.watched alarm) ((g.watched alarm).evaluate levels) act') := by
  have hk := Context.Frame.invariant.evaluate_keeps hf levels
  intro c hc
  -- at rest the globals come first, and their scope is the one more than the depth
  rw [withGlobals_of_not_loaded hc.globalsLoaded, withGlobals_of_not_loaded hc.globalsLoaded]
  refine Run.EqOn.within (P := Context.AtRest) (Q := Context.Inside) ?_
    (fun _ h => h.enterGlobals) c hc
  exact Run.EqOn.bind (assignAll_eqOn hk (Grammar.watched_evaluate alarm hf hg levels) g.globals)
    (fun c hc => assignAll_inside hk g.globals hc) fun _ => h

/-- An engine at rest does the same with watched modifiers. -/
theorem engineAt_watched (depth : Nat) :
    (g.engineAt depth).EqOn Context.AtRest ((g.watched alarm).engineAt depth) where
  template t :=
    withGlobals_watched alarm hf hg _ (Grammar.watched_evaluate alarm hf hg _ t none)
  rule name := by
    intro c hc
    unfold Grammar.engineAt
    cases hr : g.rule? name with
    | none => rw [engineWith_unknown hr, engineWith_unknown (g := g.watched alarm) hr]
    | some r =>
      rw [engineWith_rule hr, engineWith_rule (g := g.watched alarm) hr]
      exact withGlobals_watched alarm hf hg _
        (expandRuleWith_watched alarm (Grammar.watched_evaluate alarm hf hg _) r) c hc

theorem Grammar.modifiersRunInside : g.ModifiersRunInside := by
  intro alarm c hc
  have he := engineAt_watched alarm hf hg c.depth
  have hk := Context.Frame.invariant.engineAt_keeps hf c.depth
  refine ⟨fun text => ?_, fun t => (he.template t c hc).symm, fun name => (he.rule name c hc).symm,
    fun call value => ?_⟩
  · exact (he.expand (fun t c hc => hc.samePlace (hk.template t c).samePlace) text c hc).symm
  · refine (applyModifier_confined hg hk ?_ call value).symm
    exact ⟨fun t c' hc' => he.template t c' (hc.samePlace hc'),
      fun name c' hc' => he.rule name c' (hc.samePlace hc')⟩

end Rest

/-! ### The frame of every call -/

/-- Calls keep the frame of the context that they are made in, whether they fail or not, and so do
the expansions that modifiers ask for, at every level, and the built-in modifiers. A new context is
at rest after any calls. Modifiers that run their engine where they stand only ever run inside. -/
theorem calls_unwind [RandomSource σ] (g : Grammar σ) (hg : g.OverridesKeep Context.Frame) :
    (∀ call c, Context.Frame c ((g.call call).after c)) ∧
    (∀ levels, (engineWith g (g.evaluate levels)).Keeps Context.Frame) ∧
    (∀ b : Builtin, Override.Keeps Context.Frame (b.apply g)) ∧
    (∀ calls s, (g.afterCalls calls { source := s }).AtRest) ∧
    (g.OverridesConfined → g.ModifiersRunInside) :=
  ⟨Context.Frame.invariant.call_keeps hg,
    Context.Frame.invariant.levelEngine_keeps hg,
    fun b _ he => Context.Frame.invariant.builtin_keeps g b he,
    fun calls _ => Grammar.afterCalls_atRest hg calls ⟨rfl, rfl, rfl⟩,
    Grammar.modifiersRunInside hg⟩

/-- A grammar with a modifier that expands the value it is applied to. -/
def expanding : Grammar Scripted where
  overrides := [("expand", fun engine value _ => engine.expand value)]

theorem expanding_override {name : String} {f : Override Scripted}
    (h : expanding.overrides.get? name = some f) : f = fun engine value _ => engine.expand value := by
  rw [expanding, Table.get?_cons] at h
  split at h
  · exact (Option.some.inj h).symm
  · cases h

theorem expanding_keep : expanding.OverridesKeep Context.Frame := by
  intro name f hf engine he value args
  rw [expanding_override hf]
  exact Context.Frame.invariant.expand_keeps he value

theorem expanding_confined : expanding.OverridesConfined := by
  intro name f hf c engine engine' hk he value args
  rw [expanding_override hf]
  exact he.expand (fun t c' hc' => hc'.trans (hk.template t c').samePlace) value c (.refl c)

/-- With that modifier, which goes back into the interpreter, calls unwind as well. -/
theorem calls_unwind_expanding :
    expanding.OverridesKeep Context.Frame ∧ expanding.OverridesConfined ∧
      (∀ call c, Context.Frame c ((expanding.call call).after c)) ∧
      expanding.ModifiersRunInside :=
  have h := calls_unwind expanding expanding_keep
  ⟨expanding_keep, expanding_confined, h.1, h.2.2.2.2 expanding_confined⟩

end Fabula
