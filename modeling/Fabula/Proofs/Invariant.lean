import Fabula.Proofs.Runs

/-!
# Fabula.Proofs.Invariant

**What every expansion preserves.** An `Invariant` is a relation between the ends of a run that each
single step respects: a draw, a produced text, a marked alternative, and whatever happens between
opening something and closing it again. Inside a template the names of the innermost scope change, so
there a weaker relation `B` may hold; closing the template turns it back into `R`.

`Invariant.evaluate_keeps` is the one induction over the interpreter: a relation of this kind holds
between the ends of every expansion, at every level and on every path out of it, provided that the
registered modifiers respect it (`Grammar.OverridesKeep`). The built-in modifiers do
(`Invariant.builtin_keeps`).
-/

namespace Fabula

variable {σ α : Type}

/-- A relation `R` between the ends of a run that every step of an expansion respects, with the
relation `B` that holds while the scope of a template is open. -/
structure Invariant (R B : Context σ → Context σ → Prop) : Prop where
  /-- Nothing may happen. -/
  refl : ∀ c, R c c
  /-- One run may follow another. -/
  trans : ∀ {a b c}, R a b → R b c → R a c
  /-- What holds of whole expansions holds inside a template. -/
  inner : ∀ {a b}, R a b → B a b
  /-- One run may follow another inside a template. -/
  innerTrans : ∀ {a b c}, B a b → B b c → B a c
  /-- Draws may be taken. -/
  draw : ∀ c s, R c { c with source := s }
  /-- Texts may be produced. -/
  produce : ∀ c e, R c { c with produced := c.produced.insert e }
  /-- Alternatives may be marked as seen. -/
  mark : ∀ c slot, R c (c.markSeen slot)
  /-- Names may be given values inside a template. -/
  assign : ∀ c name value, B c (c.assign name value)
  /-- A template is opened and closed. -/
  template : ∀ {c c'}, B c.enterTemplate c' → R c c'.leaveTemplate
  /-- The scope of the globals is opened and closed. -/
  globals : ∀ {c c'}, c.globalsLoaded = false → B c.enterGlobals c' → R c c'.leaveGlobals
  /-- A tracker is activated and deactivated. -/
  tracker : ∀ {c c'}, R c.pushTracker c' → R c c'.popTracker

/-- The relation that holds between any two contexts is respected by everything. -/
theorem anything_invariant : Invariant (σ := σ) (fun _ _ => True) fun _ _ => True where
  refl _ := trivial
  trans _ _ := trivial
  inner _ := trivial
  innerTrans _ _ := trivial
  draw _ _ := trivial
  produce _ _ := trivial
  mark _ _ := trivial
  assign _ _ _ := trivial
  template _ := trivial
  globals _ _ := trivial
  tracker _ := trivial

/-- The expansions that the engine offers respect `R`. -/
structure Engine.Keeps (R : Context σ → Context σ → Prop) (engine : Engine σ) : Prop where
  /-- Expanding a template does. -/
  template : ∀ t, Run.Keeps R (engine.expandTemplate t)
  /-- Expanding a rule does. -/
  rule : ∀ name, Run.Keeps R (engine.expandRule name)

/-- The modifier respects `R` if the expansions that it asks for do. -/
def Override.Keeps (R : Context σ → Context σ → Prop) (f : Override σ) : Prop :=
  ∀ engine : Engine σ, engine.Keeps R → ∀ value args, Run.Keeps R (f engine value args)

/-- All registered modifiers respect `R`. -/
def Grammar.OverridesKeep (R : Context σ → Context σ → Prop) (g : Grammar σ) : Prop :=
  ∀ name f, g.overrides.get? name = some f → Override.Keeps R f

theorem Grammar.overridesKeep_of_nil {R : Context σ → Context σ → Prop} {g : Grammar σ}
    (h : g.overrides = []) : g.OverridesKeep R := by
  intro name f hf
  rw [h] at hf
  cases hf

namespace Invariant

open Run (Keeps)

variable {R B : Context σ → Context σ → Prop}

/-! ### Plain steps -/

section Steps

variable (inv : Invariant R B)
include inv

theorem pure_keeps (a : α) : Keeps R (pure a : Run σ α) := fun c => inv.refl c

theorem throw_keeps (e : ExpandError) : Keeps R (throw e : Run σ α) := fun c => inv.refl c

theorem ofExcept_keeps (e : Except ExpandError α) : Keeps R (Run.ofExcept e : Run σ α) := by
  intro c
  rw [Run.after_ofExcept]
  exact inv.refl c

theorem ofParsed_keeps (e : Except SyntaxError α) : Keeps R (Run.ofParsed e : Run σ α) := by
  intro c
  rw [Run.after_ofParsed]
  exact inv.refl c

theorem draw_keeps (f : σ → α × σ) : Keeps R (Run.draw f) := by
  intro c
  rw [Run.after_draw]
  exact inv.draw c _

theorem bind_keeps {β : Type} {act : Run σ α} {f : α → Run σ β} (h : Keeps R act)
    (hf : ∀ a, Keeps R (f a)) : Keeps R (act >>= f) := h.bind inv.trans hf

theorem innerBind_keeps {β : Type} {act : Run σ α} {f : α → Run σ β} (h : Keeps B act)
    (hf : ∀ a, Keeps B (f a)) : Keeps B (act >>= f) := h.bind inv.innerTrans hf

theorem inner_keeps {act : Run σ α} (h : Keeps R act) : Keeps B act := h.mono fun _ _ => inv.inner

theorem withTracker_keeps {act : Run σ α} (h : Keeps R act) : Keeps R (Run.withTracker act) := by
  intro c
  unfold Run.withTracker
  rw [Run.after_within]
  exact inv.tracker (h _)

theorem markSeen_keeps (slot : Option Slot) : Keeps R (markSeen slot : Run σ Unit) := by
  cases slot with
  | none => exact inv.pure_keeps ()
  | some slot => exact fun c => inv.mark c slot

/-! ### Draws of an expansion -/

theorem generate_keeps [RandomSource σ] (m : Markov.Model) :
    Keeps R (Run.generate m : Run σ (Option String)) := by
  intro c
  have h : (Run.generate m).after c = { c with source := (m.generate c.source).2 } := by
    unfold Run.after Run.generate
    obtain ⟨_ | _, s⟩ := m.generate c.source <;> rfl
  rw [h]
  exact inv.draw c _

theorem pick_keeps [RandomSource σ] (r : Rule) : Keeps R (Run.pick r : Run σ (Option Slot)) :=
  fun c => inv.draw c _

theorem resolveMarkov_keeps [RandomSource σ] (name : String) (m : Markov.Model) (tries : Nat) :
    Keeps R (resolveMarkov name m tries : Run σ String) := by
  induction tries with
  | zero => exact inv.pure_keeps ""
  | succ tries ih =>
    unfold resolveMarkov
    refine inv.bind_keeps (inv.generate_keeps m) fun text => ?_
    cases text with
    | none => exact ih
    | some text =>
      refine Keeps.get_bind fun c => ?_
      split
      · exact inv.produce c (name, text)
      · exact ih c

/-! ### Built-in modifiers -/

theorem collect_keeps {attempt : Run σ (Option String)} (h : Keeps R attempt)
    (isOpen : Context σ → Bool) (count : Nat) (texts : List String) (tries : Nat) :
    Keeps R (Builtin.collect attempt isOpen count texts tries) := by
  induction tries generalizing texts with
  | zero => exact inv.pure_keeps texts
  | succ tries ih =>
    unfold Builtin.collect
    split
    · exact inv.pure_keeps texts
    · refine inv.bind_keeps h fun found => ?_
      cases found with
      | some text => exact ih _
      | none =>
        refine Keeps.get_bind fun c => ?_
        split
        · exact ih _ c
        · exact inv.refl c

theorem runUniques_keeps (g : Grammar σ) {engine : Engine σ} (he : engine.Keeps R)
    (args : List Argument) : Keeps R (Builtin.runUniques g engine args) := by
  unfold Builtin.runUniques
  refine inv.bind_keeps (inv.ofExcept_keeps _) fun (name, count, separator) => ?_
  dsimp only
  split
  · exact inv.throw_keeps _
  · refine inv.withTracker_keeps (inv.bind_keeps ?_ fun texts => inv.pure_keeps _)
    exact inv.collect_keeps (he.rule name) _ _ _ _

/-- Every built-in modifier respects the relation if the expansions that it asks for do. -/
theorem builtin_keeps [RandomSource σ] (g : Grammar σ) (b : Builtin) {engine : Engine σ}
    (he : engine.Keeps R) (value : String) (args : List Argument) :
    Keeps R (b.apply g engine value args) := by
  cases b with
  | times => exact inv.ofExcept_keeps _
  | randomNumber =>
    refine inv.bind_keeps (inv.ofExcept_keeps _) fun (low, high) => ?_
    exact inv.bind_keeps (inv.draw_keeps _) fun _ => inv.pure_keeps _
  | roll =>
    refine inv.bind_keeps (inv.ofExcept_keeps _) fun dice => ?_
    exact inv.bind_keeps (inv.draw_keeps _) fun _ => inv.pure_keeps _
  | uniques => exact inv.runUniques_keeps g he args
  | _ => exact inv.pure_keeps _

end Steps

/-! ### Inside a template

`enter` expands the templates one level below. Each function that uses it respects the relation if
`enter` does. -/

section Inside

variable (inv : Invariant R B) {g : Grammar σ} {enter : Evaluator σ}
variable (henter : ∀ t slot, Keeps R (enter t slot))

section Declarations

include inv henter

theorem assignAll_keeps (declarations : List (String × Template)) :
    Keeps B (assignAll enter declarations) := by
  induction declarations with
  | nil => exact inv.inner_keeps (inv.pure_keeps ())
  | cons declaration rest ih =>
    obtain ⟨name, t⟩ := declaration
    refine inv.innerBind_keeps (inv.inner_keeps (henter t none)) fun value => ?_
    exact inv.innerBind_keeps (fun c => inv.assign c name _) fun _ => ih

theorem withGlobals_keeps {act : Run σ α} (hact : Keeps R act) :
    Keeps R (withGlobals g enter act) := by
  refine Keeps.get_bind fun c => ?_
  split
  · exact hact c
  · -- the globals are evaluated in a scope of their own, around what is done with them
    rename_i hloaded
    rw [Run.after_within]
    refine inv.globals (Bool.eq_false_iff.mpr hloaded) ?_
    exact inv.innerBind_keeps (inv.assignAll_keeps henter _) (fun _ => inv.inner_keeps hact) _

end Declarations

variable [RandomSource σ]

include inv in
theorem applyModifier_keeps (hg : g.OverridesKeep R) {engine : Engine σ} (he : engine.Keeps R)
    (call : ModifierCall) (value : String) : Keeps R (applyModifier g engine call value) := by
  unfold applyModifier
  split
  · rename_i f hf
    exact hg _ f hf engine he value call.args
  · split
    · exact inv.builtin_keeps g _ he value call.args
    · exact inv.throw_keeps _

include inv in
theorem applyModifiers_keeps (hg : g.OverridesKeep R) {engine : Engine σ} (he : engine.Keeps R)
    (calls : List ModifierCall) (value : String) :
    Keeps R (applyModifiers g engine calls value) := by
  induction calls generalizing value with
  | nil => exact inv.pure_keeps value
  | cons call calls ih => exact inv.bind_keeps (inv.applyModifier_keeps hg he call value) ih

include inv henter

theorem expandRuleWith_keeps (r : Rule) : Keeps R (expandRuleWith g enter r) := by
  unfold expandRuleWith
  refine inv.bind_keeps (inv.pick_keeps r) fun picked => ?_
  cases picked with
  | none => exact Keeps.get_bind fun c => inv.refl c
  | some slot => exact inv.bind_keeps (inv.ofParsed_keeps _) fun t => henter t (some slot)

theorem resolve_keeps (name : String) : Keeps R (resolve g enter name) := by
  unfold resolve
  refine Keeps.get_bind fun c => ?_
  split
  · exact inv.refl c
  · split
    · exact inv.bind_keeps (inv.resolveMarkov_keeps name _ _) (fun _ => inv.pure_keeps _) c
    · split
      · refine inv.bind_keeps (inv.expandRuleWith_keeps henter _) (fun _ => ?_) c
        exact Keeps.get_bind fun c => inv.refl c
      · split
        · exact inv.refl c
        · exact inv.refl c

theorem engineWith_keeps : (engineWith g enter).Keeps R where
  template t := inv.withGlobals_keeps henter (henter t none)
  rule name := by
    dsimp only [engineWith]
    split
    · exact inv.withGlobals_keeps henter (inv.expandRuleWith_keeps henter _)
    · exact inv.throw_keeps _

variable (hg : g.OverridesKeep R)
include hg

theorem expandReference_keeps (r : Reference) : Keeps R (expandReference g enter r) := by
  refine inv.bind_keeps (inv.resolve_keeps henter r.symbol) fun resolved => ?_
  cases resolved with
  | none => exact inv.pure_keeps none
  | some resolved =>
    refine inv.bind_keeps ?_ fun value => inv.pure_keeps _
    exact inv.applyModifiers_keeps hg (inv.engineWith_keeps henter) r.calls resolved.value

theorem expandReferences_keeps (references : List Reference) (values : List String)
    (live : Bool) : Keeps R (expandReferences g enter values live references) := by
  induction references generalizing values live with
  | nil => exact inv.pure_keeps _
  | cons r rest ih =>
    refine inv.bind_keeps (inv.expandReference_keeps henter hg r) fun resolved => ?_
    cases resolved with
    | none => exact inv.pure_keeps none
    | some resolved => exact ih _ _

theorem expandBody_keeps (t : Template) (slot : Option Slot) :
    Keeps B (expandBody g enter t slot) := by
  -- only the declarations touch the open scope
  refine inv.innerBind_keeps (inv.assignAll_keeps henter t.declarations) fun _ => ?_
  refine inv.inner_keeps (inv.bind_keeps (inv.expandReferences_keeps henter hg _ _ _) fun found => ?_)
  obtain _ | ⟨values, live⟩ := found
  · exact inv.bind_keeps (inv.markSeen_keeps slot) fun _ => inv.pure_keeps none
  · cases live with
    | true => exact inv.pure_keeps _
    | false => exact inv.bind_keeps (inv.markSeen_keeps slot) fun _ => inv.pure_keeps _

end Inside

/-! ### Whole expansions -/

section Whole

variable [RandomSource σ] (inv : Invariant R B) {g : Grammar σ} (hg : g.OverridesKeep R)
include inv hg

/-- Every expansion respects the relation, by induction on the levels that are left. -/
theorem evaluate_keeps (levels : Nat) (t : Template) (slot : Option Slot) :
    Keeps R (g.evaluate levels t slot) := by
  induction levels generalizing t slot with
  | zero => exact inv.throw_keeps _
  | succ levels ih =>
    intro c
    unfold Grammar.evaluate
    rw [Run.after_within]
    exact inv.template (inv.expandBody_keeps ih hg t slot _)

theorem levelEngine_keeps (levels : Nat) : (engineWith g (g.evaluate levels)).Keeps R :=
  inv.engineWith_keeps (inv.evaluate_keeps hg levels)

theorem engineAt_keeps (depth : Nat) : (g.engineAt depth).Keeps R :=
  inv.levelEngine_keeps hg _

end Whole

end Invariant

end Fabula
