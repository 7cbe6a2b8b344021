import Mathlib
import Fabula.Proofs.Invariant
import Fabula.Proofs.Steps

/-!
# Fabula.Proofs.Untracked

**Nothing runs out while nothing is tracked.** In a context without trackers an expansion gives a text or
fails, but it never has nothing to say: a rule from which nothing can be picked gives the empty text then
(`evaluate_answers`, `engineWith_answers`).

That a tracker is activated and deactivated in the course of the expansion makes no difference, as long
as the modifiers leave as many trackers active as they have found (`Context.SameHeight`): what has
nothing to say under such a tracker is told to the modifier, which gives a text in any case.
-/

namespace Fabula

variable {σ α β : Type}

/-! ### What runs give -/

namespace Run

/-- From contexts that satisfy `Q`, all values that the action gives satisfy `V`. -/
def Gives (Q : Context σ → Prop) (V : α → Prop) (act : Run σ α) : Prop :=
  ∀ c a c', Q c → act c = .ok a c' → V a

variable {P Q : Context σ → Prop} {V W : α → Prop}

theorem Gives.mono {act : Run σ α} (h : act.Gives P V) (hQ : ∀ c, Q c → P c) : act.Gives Q V :=
  fun c a c' hc => h c a c' (hQ c hc)

theorem Gives.any (act : Run σ α) : act.Gives Q fun _ => True := fun _ _ _ _ _ => trivial

theorem Gives.pure {a : α} (h : V a) : Gives Q V (Pure.pure a : Run σ α) := by
  intro c b c' _ hb
  cases hb
  exact h

theorem Gives.throw (e : ExpandError) : Gives Q V (throw e : Run σ α) := by
  intro c a c' _ ha
  cases ha

theorem Gives.bind {act : Run σ α} {f : α → Run σ β} {V : β → Prop} (h : act.Gives Q W)
    (stays : ∀ c a c', Q c → act c = .ok a c' → P c') (hf : ∀ a, W a → (f a).Gives P V) :
    (act >>= f).Gives Q V := by
  intro c b c' hc hb
  obtain ⟨a, c₁, ha, hb⟩ := bind_inv hb
  exact hf a (h c a c₁ hc ha) c₁ b c' (stays c a c₁ hc ha) hb

theorem Gives.get_bind {f : Context σ → Run σ α}
    (h : ∀ c a c', Q c → f c c = .ok a c' → V a) : Gives Q V (get >>= f) := h

theorem Gives.within {enter leave : Context σ → Context σ} {act : Run σ α} (h : act.Gives P V)
    (henter : ∀ c, Q c → P (enter c)) : (Run.within enter leave act).Gives Q V := by
  intro c a c' hc ha
  obtain ⟨c₁, ha, -⟩ := within_inv ha
  exact h _ a c₁ (henter c hc) ha

/-- What is done with the globals in scope gives what it gives without them, if they make no difference to
the contexts that are looked at. -/
theorem Gives.withGlobals {g : Grammar σ} {enter : Evaluator σ} {act : Run σ α} (h : act.Gives Q V)
    (henter : ∀ c, Q c → Q c.enterGlobals)
    (stays : ∀ c u c', Q c → assignAll enter g.globals c = .ok u c' → Q c') :
    (withGlobals g enter act).Gives Q V := by
  intro c a c' hc ha
  cases hloaded : c.globalsLoaded with
  | true =>
    rw [withGlobals_of_loaded hloaded] at ha
    exact h c a c' hc ha
  | false =>
    rw [withGlobals_of_not_loaded hloaded] at ha
    obtain ⟨c₁, ha, -⟩ := within_inv ha
    obtain ⟨u, c₂, hglobals, ha⟩ := bind_inv ha
    exact h c₂ a c₁ (stays _ u c₂ (henter c hc) hglobals) ha

end Run

/-! ### Trackers that are balanced -/

namespace Context

/-- As many trackers are active in one context as in the other. -/
def SameHeight (c c' : Context σ) : Prop := c'.trackers.length = c.trackers.length

theorem SameHeight.invariant : Invariant (SameHeight (σ := σ)) SameHeight where
  refl _ := rfl
  trans h h' := Eq.trans h' h
  inner := id
  innerTrans h h' := Eq.trans h' h
  draw _ _ := rfl
  produce _ _ := rfl
  mark _ _ := List.length_map _
  assign c name value := by
    unfold Context.assign
    split <;> rfl
  template := id
  globals _ := id
  tracker {c c'} h := by
    have h : c'.trackers.length = c.trackers.length + 1 := h
    simp [SameHeight, popTracker, h]

/-- No tracker is active. -/
def Untracked (c : Context σ) : Prop := c.trackers = []

theorem Untracked.sameHeight {c c' : Context σ} (h : c.Untracked) (hs : c.SameHeight c') :
    c'.Untracked := by
  unfold Untracked SameHeight at *
  rw [h] at hs
  exact List.length_eq_zero_iff.mp hs

theorem Untracked.trackers {c : Context σ} (h : c.Untracked) : c.trackers = [] := h

theorem Untracked.tracking {c : Context σ} (h : c.Untracked) : c.tracking = false := by
  simp [Context.tracking, h.trackers]

theorem Untracked.excluded {c : Context σ} (h : c.Untracked) : c.excluded = none := by
  simp [Context.excluded, h.tracking]

/-- There is no tracker for an alternative to be marked in. -/
theorem Untracked.markSeen {c : Context σ} (h : c.Untracked) (slot : Slot) : c.markSeen slot = c := by
  have hsame : c.trackers.map (·.insert slot) = c.trackers := by simp [h.trackers]
  exact congrArg (fun trackers => { c with trackers }) hsame

end Context

open Run (Gives Keeps)
open Context (Untracked SameHeight)

/-! ### Expansions without trackers -/

/-- The action has something to say wherever no tracker is active. -/
def Run.Answers (act : Run σ (Option α)) : Prop := act.Gives Untracked (· ≠ none)

theorem untracked_of_ok {act : Run σ α} (h : Keeps SameHeight act) (c : Context σ) (a : α)
    (c' : Context σ) (hc : c.Untracked) (ha : act c = .ok a c') : c'.Untracked :=
  hc.sameHeight (h.of_ok ha)

/-- What follows an action that leaves no tracker behind. -/
theorem Run.Answers.after {act : Run σ β} {f : β → Run σ (Option α)} (hkeeps : Keeps SameHeight act)
    (hf : ∀ b, (f b).Answers) : (act >>= f).Answers :=
  (Gives.any act).bind (untracked_of_ok hkeeps) fun b _ => hf b

/-- What follows an action that has something to say. -/
theorem Run.Answers.bind {act : Run σ (Option β)} {f : Option β → Run σ (Option α)}
    (h : act.Answers) (hkeeps : Keeps SameHeight act) (hf : ∀ b, (f (some b)).Answers) :
    (act >>= f).Answers := by
  refine Gives.bind h (untracked_of_ok hkeeps) fun found hfound => ?_
  obtain ⟨b, rfl⟩ := Option.ne_none_iff_exists'.mp hfound
  exact hf b

section Inside

variable [RandomSource σ] {g : Grammar σ} {enter : Evaluator σ}
variable (hkeeps : ∀ t slot, Keeps SameHeight (enter t slot))
variable (henter : ∀ t slot, (enter t slot).Answers)

section Rules

include henter

/-- A rule from which nothing is picked gives the empty text. -/
theorem expandRuleWith_answers (r : Rule) : (expandRuleWith g enter r).Answers := by
  refine .after (SameHeight.invariant.pick_keeps r) fun picked => ?_
  cases picked with
  | none =>
    refine Gives.get_bind fun c value c' hc hvalue => ?_
    rw [hc.tracking] at hvalue
    cases hvalue
    exact Option.some_ne_none ""
  | some slot => exact .after (SameHeight.invariant.ofParsed_keeps _) fun t => henter t (some slot)

end Rules

include hkeeps henter

theorem resolve_answers (name : String) : (resolve g enter name).Answers := by
  have hsome {x : Resolved} : (pure (some x) : Run σ (Option Resolved)).Answers :=
    .pure (Option.some_ne_none x)
  intro c found c' hc hfound
  cases hlookup : c.lookup name with
  | some value =>
    rw [resolve_of_lookup hlookup] at hfound
    cases hfound
    exact Option.some_ne_none _
  | none =>
    cases hmodel : g.models.get? name with
    | some m =>
      rw [resolve_of_model hlookup hmodel] at hfound
      exact Run.Answers.after (SameHeight.invariant.resolveMarkov_keeps name m _) (fun _ => hsome)
        c found c' hc hfound
    | none =>
      cases hrule : g.rule? name with
      | some r =>
        rw [resolve_of_rule hlookup hmodel hrule] at hfound
        refine (expandRuleWith_answers henter r).bind
          (SameHeight.invariant.expandRuleWith_keeps hkeeps r) (fun value => ?_) c found c' hc hfound
        refine Gives.get_bind fun c found c' _ hfound => ?_
        cases hfound
        exact Option.some_ne_none _
      | none =>
        rw [resolve_of_unknown hlookup hmodel hrule] at hfound
        split at hfound <;> cases hfound
        exact Option.some_ne_none _

theorem engineWith_answers :
    (∀ t, ((engineWith g enter).expandTemplate t).Answers) ∧
      ∀ name, ((engineWith g enter).expandRule name).Answers := by
  have hglobals {act : Run σ (Option String)} (hact : act.Answers) :
      (withGlobals g enter act).Answers :=
    Gives.withGlobals hact (fun _ hc => hc)
      (untracked_of_ok (SameHeight.invariant.assignAll_keeps hkeeps g.globals))
  refine ⟨fun t => hglobals (henter t none), fun name => ?_⟩
  cases hrule : g.rule? name with
  | some r =>
    rw [engineWith_rule hrule]
    exact hglobals (expandRuleWith_answers henter r)
  | none =>
    rw [engineWith_unknown hrule]
    exact .throw _

variable (hg : g.OverridesKeep SameHeight)
include hg

theorem expandReference_answers (r : Reference) : (expandReference g enter r).Answers := by
  refine (resolve_answers hkeeps henter r.symbol).bind
    (SameHeight.invariant.resolve_keeps hkeeps r.symbol) fun resolved => ?_
  have hengine := SameHeight.invariant.engineWith_keeps (g := g) hkeeps
  exact .after (SameHeight.invariant.applyModifiers_keeps hg hengine r.calls _) fun _ =>
    .pure (Option.some_ne_none _)

theorem expandReferences_answers (references : List Reference) (values : List String) (live : Bool) :
    (expandReferences g enter values live references).Answers := by
  induction references generalizing values live with
  | nil => exact .pure (Option.some_ne_none _)
  | cons r rest ih =>
    exact (expandReference_answers hkeeps henter hg r).bind
      (SameHeight.invariant.expandReference_keeps hkeeps hg r) fun resolved => ih _ _

theorem expandBody_answers (t : Template) (slot : Option Slot) :
    (expandBody g enter t slot).Answers := by
  rw [expandBody_eq]
  refine .after (SameHeight.invariant.assignAll_keeps hkeeps t.declarations) fun _ => ?_
  refine (expandReferences_answers hkeeps henter hg t.references [] false).bind
    (SameHeight.invariant.expandReferences_keeps hkeeps hg _ _ _) fun found => ?_
  obtain ⟨values, _ | _⟩ := found
  · exact .after (SameHeight.invariant.markSeen_keeps slot) fun _ => .pure (Option.some_ne_none _)
  · exact .pure (Option.some_ne_none _)

end Inside

section Whole

variable [RandomSource σ] {g : Grammar σ} (hg : g.OverridesKeep SameHeight)
include hg

/-- Templates have something to say wherever no tracker is active, at every level. -/
theorem evaluate_answers (levels : Nat) (t : Template) (slot : Option Slot) :
    (g.evaluate levels t slot).Answers := by
  induction levels generalizing t slot with
  | zero => exact .throw _
  | succ levels ih =>
    exact Gives.within (expandBody_answers (SameHeight.invariant.evaluate_keeps hg levels) ih hg t slot)
      fun _ hc => hc

theorem engineAt_answers (depth : Nat) :
    (∀ t, ((g.engineAt depth).expandTemplate t).Answers) ∧
      ∀ name, ((g.engineAt depth).expandRule name).Answers :=
  engineWith_answers (SameHeight.invariant.evaluate_keeps hg _) (evaluate_answers hg _)

end Whole

end Fabula
