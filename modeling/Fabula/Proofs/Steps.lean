import Fabula.Proofs.Runs

/-!
# Fabula.Proofs.Steps

**What one step of an expansion does**, one equation for each way that it can go. Later proofs go
through these cases and do not unfold the interpreter.
-/

namespace Fabula

variable {σ : Type}

/-! ### Symbols -/

section Symbols

variable [RandomSource σ] {g : Grammar σ} {enter : Evaluator σ} {name : String} {c : Context σ}

/-- A name in scope gives its value. -/
theorem resolve_of_lookup {value : String} (h : c.lookup name = some value) :
    resolve g enter name c = .ok (some ⟨value, false⟩) c := by
  unfold resolve
  rw [Run.get_bind, h]
  rfl

/-- A name out of scope stands for the Markov model that has it. -/
theorem resolve_of_model {m : Markov.Model} (h : c.lookup name = none)
    (hm : g.models.get? name = some m) :
    resolve g enter name c =
      (resolveMarkov name m m.settings.maxTries >>= fun value => pure (some ⟨value, true⟩)) c := by
  unfold resolve
  rw [Run.get_bind, h, hm]

/-- A name out of scope that no model has stands for the rule that has it. -/
theorem resolve_of_rule {r : Rule} (h : c.lookup name = none) (hm : g.models.get? name = none)
    (hr : g.rule? name = some r) :
    resolve g enter name c =
      (expandRuleWith g enter r >>= fun value => get >>= fun c =>
        pure (value.map (⟨·, Builtin.hasUnseen r c⟩))) c := by
  unfold resolve
  rw [Run.get_bind, h, hm]
  dsimp only
  rw [hr]

/-- Any other name is unknown, but for the empty one. -/
theorem resolve_of_unknown (h : c.lookup name = none) (hm : g.models.get? name = none)
    (hr : g.rule? name = none) :
    resolve g enter name c =
      if name.isEmpty then .ok (some ⟨"", false⟩) c else .error (.unknownSymbol name) c := by
  unfold resolve
  rw [Run.get_bind, h, hm]
  dsimp only
  rw [hr]
  split <;> rfl

end Symbols

/-! ### Rules -/

section Rules

variable [RandomSource σ] {g : Grammar σ} {enter : Evaluator σ} {r : Rule} {c : Context σ}

/-- The alternatives that a pick in the context leaves out. -/
def Context.excluded (c : Context σ) : Option (Slot → Bool) :=
  if c.tracking then some c.isSeen else none

/-- The context after a pick, which takes a draw at most. -/
def Context.afterPick (c : Context σ) (r : Rule) : Context σ :=
  { c with source := (r.pick c.excluded c.source).2 }

@[simp] theorem Context.afterPick_tracking (c : Context σ) (r : Rule) :
    (c.afterPick r).tracking = c.tracking := rfl

theorem pick_apply (r : Rule) (c : Context σ) :
    Run.pick r c = .ok (r.pick c.excluded c.source).1 (c.afterPick r) := rfl

theorem expandRuleWith_of_none {c' : Context σ} (h : Run.pick r c = .ok none c') :
    expandRuleWith g enter r c = .ok (if c'.tracking then none else some "") c' := by
  rw [expandRuleWith, Run.bind_apply, h]
  rfl

theorem expandRuleWith_of_some {c' : Context σ} {slot : Slot} (h : Run.pick r c = .ok (some slot) c') :
    expandRuleWith g enter r c =
      (Run.ofParsed (g.template slot) >>= fun t => enter t (some slot)) c' := by
  rw [expandRuleWith, Run.bind_apply, h]

end Rules

/-! ### Modifiers -/

theorem Builtin.name_of_ofName? {name : String} {b : Builtin} (h : ofName? name = some b) :
    b.name = name := by
  simpa using List.find?_some h

section Modifiers

variable [RandomSource σ] {g : Grammar σ} {engine : Engine σ} {call : ModifierCall}
variable {value : String}

theorem applyModifier_of_override {f : Override σ} (h : g.overrides.get? call.name = some f) :
    applyModifier g engine call value = f engine value call.args := by
  unfold applyModifier
  rw [h]

theorem applyModifier_of_builtin {b : Builtin} (h : g.overrides.get? call.name = none)
    (hb : Builtin.ofName? call.name = some b) :
    applyModifier g engine call value = b.apply g engine value call.args := by
  unfold applyModifier
  rw [h]
  dsimp only
  rw [hb]

theorem applyModifier_of_unknown (h : g.overrides.get? call.name = none)
    (hb : Builtin.ofName? call.name = none) :
    applyModifier g engine call value = throw (.unknownModifier call.name) := by
  unfold applyModifier
  rw [h]
  dsimp only
  rw [hb]

end Modifiers

/-! ### Declarations -/

section Declarations

variable {enter : Evaluator σ} {name : String} {t : Template} {rest : List (String × Template)}
variable {c c' : Context σ}

theorem assignAll_of_value {value : Option String} (h : enter t none c = .ok value c') :
    assignAll enter ((name, t) :: rest) c = assignAll enter rest (c'.assign name (value.getD "")) := by
  rw [assignAll, Run.bind_apply, h]
  rfl

theorem assignAll_of_error {e : ExpandError} (h : enter t none c = .error e c') :
    assignAll enter ((name, t) :: rest) c = .error e c' := by
  rw [assignAll, Run.bind_apply, h]

end Declarations

/-! ### Templates -/

/-- What a template gives when its references gave these values, or one of them had nothing to say,
and what is marked then. -/
def conclude (t : Template) (slot : Option Slot) :
    Option (List String × Bool) → Run σ (Option String)
  | none => do
    markSeen slot
    return none
  | some (values, true) => pure (some (t.fill values))
  | some (values, false) => do
    markSeen slot
    return some (t.fill values)

theorem expandBody_eq [RandomSource σ] (g : Grammar σ) (enter : Evaluator σ) (t : Template)
    (slot : Option Slot) :
    expandBody g enter t slot =
      assignAll enter t.declarations >>= fun _ =>
        expandReferences g enter [] false t.references >>= conclude t slot := by
  unfold expandBody
  congr 1
  funext _
  congr 1
  funext found
  obtain _ | ⟨values, _ | _⟩ := found <;> rfl

/-! ### Globals -/

section Globals

variable {α : Type} {g : Grammar σ} {enter : Evaluator σ} {act : Run σ α} {c : Context σ}

/-- Inside an expansion the globals are there already. -/
theorem withGlobals_of_loaded (h : c.globalsLoaded = true) :
    withGlobals g enter act c = act c := by
  unfold withGlobals
  rw [Run.get_bind, if_pos h]

/-- Outside of an expansion they are evaluated first. -/
theorem withGlobals_of_not_loaded (h : c.globalsLoaded = false) :
    withGlobals g enter act c =
      Run.within Context.enterGlobals Context.leaveGlobals
        (assignAll enter g.globals >>= fun _ => act) c := by
  unfold withGlobals
  rw [Run.get_bind, if_neg (Bool.eq_false_iff.mp h)]

end Globals

/-! ### Engines -/

section Engines

variable [RandomSource σ] {g : Grammar σ} {enter : Evaluator σ} {name : String}

theorem engineWith_rule {r : Rule} (hr : g.rule? name = some r) :
    (engineWith g enter).expandRule name = withGlobals g enter (expandRuleWith g enter r) := by
  unfold engineWith
  dsimp only
  rw [hr]

theorem engineWith_unknown (hr : g.rule? name = none) :
    (engineWith g enter).expandRule name = throw (.unknownSymbol name) := by
  unfold engineWith
  dsimp only
  rw [hr]

end Engines

/-! ### Collecting texts -/

section Collecting

variable {attempt : Run σ (Option String)} {isOpen : Context σ → Bool} {count tries : Nat}
variable {texts : List String} {c c' : Context σ}

theorem collect_of_enough (h : count ≤ texts.length) :
    Builtin.collect attempt isOpen count texts tries c = .ok texts c := by
  cases tries with
  | zero => rfl
  | succ tries =>
    unfold Builtin.collect
    rw [if_pos h]
    rfl

/-- The list of texts with another one, unless it has it. -/
def addText (texts : List String) (text : String) : List String :=
  if texts.contains text then texts else texts ++ [text]

theorem collect_of_text {text : String} (h : ¬ count ≤ texts.length)
    (ha : attempt c = .ok (some text) c') :
    Builtin.collect attempt isOpen count texts (tries + 1) c =
      Builtin.collect attempt isOpen count (addText texts text) tries c' := by
  rw [Builtin.collect, if_neg h, Run.bind_apply, ha]
  rfl

theorem collect_of_none (h : ¬ count ≤ texts.length) (ha : attempt c = .ok none c') :
    Builtin.collect attempt isOpen count texts (tries + 1) c =
      if isOpen c' then Builtin.collect attempt isOpen count texts tries c' else .ok texts c' := by
  rw [Builtin.collect, if_neg h, Run.bind_apply, ha]
  dsimp only
  rw [Run.get_bind]
  split <;> rfl

theorem collect_of_error {e : ExpandError} (h : ¬ count ≤ texts.length)
    (ha : attempt c = .error e c') :
    Builtin.collect attempt isOpen count texts (tries + 1) c = .error e c' := by
  rw [Builtin.collect, if_neg h, Run.bind_apply, ha]

end Collecting

end Fabula
