import Mathlib.Data.List.Basic
import Fabula.Expand.Interpreter

/-!
# Fabula.Proofs.Arena

**The store of a grammar.** The texts of all alternatives stand in one store, and a rule that replaces
another takes over its places. However a grammar has been built (`Grammar.Built`), no two alternatives
share a place, within a rule or across rules, and every place is in the store (`Grammar.WellPlaced`).

The one step that gives places out is `Grammar.place`: each place that it gives is one that was free, or
a new one at the end of the store (`Grammar.place_slots`). The free ones were those of the rule that is
replaced, so no other rule has them.
-/

namespace Fabula

variable {σ : Type}

/-! ### Rules in a store -/

/-- The rule is at home in a store of this size. -/
structure Rule.Placed (size : Nat) (r : Rule) : Prop where
  /-- No two alternatives share a place. -/
  nodup : r.slots.Nodup
  /-- Every place is in the store. -/
  stored : ∀ slot ∈ r.slots, slot < size
  /-- The total is the sum of the weights. -/
  total : r.total = Weighted.sum r.alternatives

/-- No two alternatives of a grammar share a place, and no name stands twice. -/
structure Grammar.WellPlaced (g : Grammar σ) : Prop where
  /-- Rules are at home in the store. -/
  placed : ∀ name r, g.rule? name = some r → r.Placed g.store.size
  /-- Rules share no places. -/
  apart : ∀ name name' r r', g.rule? name = some r → g.rule? name' = some r' → name ≠ name' →
    r.slots.Disjoint r'.slots
  /-- Every rule has a name of its own. -/
  ruleNames : g.rules.names.Nodup
  /-- So has every model. -/
  modelNames : g.models.names.Nodup
  /-- So has every modifier that has been registered. -/
  overrideNames : g.overrides.names.Nodup

theorem Rule.Placed.mono {size size' : Nat} {r : Rule} (h : r.Placed size) (hsize : size ≤ size') :
    r.Placed size' :=
  { h with stored := fun slot hslot => Nat.lt_of_lt_of_le (h.stored slot hslot) hsize }

namespace Grammar

/-! ### Giving out places -/

/-- The places that are given out are free ones or new ones, each given once, and they are in the
store. -/
theorem place_slots (store : Array String) {free : List Slot} (texts : List (String × Float))
    (hfree : ∀ slot ∈ free, slot < store.size) (hnodup : free.Nodup) :
    store.size ≤ (place store free texts).1.size ∧
    ((place store free texts).2.map Weighted.item).Nodup ∧
    ∀ slot ∈ (place store free texts).2.map Weighted.item,
      slot < (place store free texts).1.size ∧ (slot ∈ free ∨ store.size ≤ slot) := by
  induction texts generalizing store free with
  | nil => simp [place]
  | cons entry rest ih =>
    obtain ⟨text, weight⟩ := entry
    cases free with
    | nil =>
      -- a new place, and all later ones are newer still
      have hnone : ∀ slot ∈ ([] : List Slot), slot < (store.push text).size := by simp
      obtain ⟨hsize, hslots, hwhere⟩ := ih (store.push text) hnone List.nodup_nil
      rw [Array.size_push] at hsize hwhere
      unfold place
      dsimp only
      rw [List.map_cons, List.nodup_cons]
      refine ⟨by omega, ⟨fun hmem => ?_, hslots⟩, fun slot hslot => ?_⟩
      · have hnew := (hwhere _ hmem).2.resolve_left List.not_mem_nil
        exact absurd hnew (Nat.not_succ_le_self _)
      · rcases List.mem_cons.mp hslot with rfl | hslot
        · exact ⟨hsize, .inr (Nat.le_refl _)⟩
        · have ⟨hlt, hcases⟩ := hwhere slot hslot
          have hnew := hcases.resolve_left List.not_mem_nil
          exact ⟨hlt, .inr (by omega)⟩
    | cons slot free =>
      have ⟨hslot, hfree⟩ := List.forall_mem_cons.mp hfree
      have ⟨hnotin, hnodup⟩ := List.nodup_cons.mp hnodup
      have hfree' : ∀ other ∈ free, other < (store.setIfInBounds slot text).size := by
        simpa using hfree
      obtain ⟨hsize, hslots, hwhere⟩ := ih (store.setIfInBounds slot text) hfree' hnodup
      rw [Array.size_setIfInBounds] at hsize hwhere
      unfold place
      dsimp only
      rw [List.map_cons, List.nodup_cons]
      refine ⟨hsize, ⟨fun hmem => ?_, hslots⟩, fun other hother => ?_⟩
      · rcases (hwhere _ hmem).2 with hin | hnew
        · exact hnotin hin
        · exact absurd hslot (Nat.not_lt.mpr hnew)
      · rcases List.mem_cons.mp hother with rfl | hother
        · exact ⟨Nat.lt_of_lt_of_le hslot hsize, .inl List.mem_cons_self⟩
        · have ⟨hlt, hcases⟩ := hwhere other hother
          exact ⟨hlt, hcases.imp_left (List.mem_cons_of_mem slot)⟩

variable {g other : Grammar σ}

/-- The places that a rule of this name would leave free. -/
def released (g : Grammar σ) (name : String) : List Slot := ((g.rule? name).map Rule.slots).getD []

/-- The rule that takes the place of another. -/
def replacement (g : Grammar σ) (name : String) (texts : List (String × Float)) : Rule :=
  Rule.named name (place g.store (g.released name) texts).2

theorem putRule_rule? (g : Grammar σ) (name : String) (texts : List (String × Float))
    (name' : String) :
    (g.putRule name texts).rule? name' =
      if name = name' then some (g.replacement name texts) else g.rule? name' :=
  Table.get?_put _ _ _ _

theorem WellPlaced.released (h : g.WellPlaced) (name : String) :
    (∀ slot ∈ g.released name, slot < g.store.size) ∧ (g.released name).Nodup := by
  unfold Grammar.released
  cases hr : g.rule? name with
  | none => simp
  | some r =>
    have hplaced := h.placed name r hr
    exact ⟨hplaced.stored, hplaced.nodup⟩

/-- A new rule is at home in the store, and shares no place with any of the others. -/
theorem WellPlaced.replacement (h : g.WellPlaced) (name : String) (texts : List (String × Float)) :
    (g.replacement name texts).Placed (g.putRule name texts).store.size ∧
    ∀ name' r, name ≠ name' → g.rule? name' = some r →
      (g.replacement name texts).slots.Disjoint r.slots := by
  obtain ⟨hfree, hnodup⟩ := h.released name
  obtain ⟨-, hslots, hwhere⟩ := place_slots g.store texts hfree hnodup
  refine ⟨⟨hslots, fun slot hslot => (hwhere slot hslot).1, rfl⟩, ?_⟩
  intro name' r hname hr slot hslot hother
  rcases (hwhere slot hslot).2 with hin | hnew
  · unfold Grammar.released at hin
    cases hr' : g.rule? name with
    | none =>
      rw [hr'] at hin
      cases hin
    | some r' =>
      rw [hr'] at hin
      exact h.apart name name' r' r hr' hr hname hin hother
  · exact absurd ((h.placed name' r hr).stored slot hother) (Nat.not_lt.mpr hnew)

theorem WellPlaced.putRule (h : g.WellPlaced) (name : String) (texts : List (String × Float)) :
    (g.putRule name texts).WellPlaced := by
  obtain ⟨hfree, hnodup⟩ := h.released name
  have hsize : g.store.size ≤ (g.putRule name texts).store.size :=
    (place_slots g.store texts hfree hnodup).1
  obtain ⟨hplaced, hapart⟩ := h.replacement name texts
  refine { h with placed := ?_, apart := ?_, ruleNames := Table.nodup_put h.ruleNames _ _ }
  · intro name' r hr
    rw [putRule_rule?] at hr
    by_cases hname : name = name'
    · rw [if_pos hname] at hr
      cases hr
      exact hplaced
    · rw [if_neg hname] at hr
      exact (h.placed name' r hr).mono hsize
  · intro name₁ name₂ r₁ r₂ hr₁ hr₂ hne
    rw [putRule_rule?] at hr₁ hr₂
    by_cases h₁ : name = name₁
    · rw [if_pos h₁] at hr₁
      cases hr₁
      rw [if_neg fun h₂ => hne (h₁.symm.trans h₂)] at hr₂
      exact hapart name₂ r₂ (fun h₂ => hne (h₁.symm.trans h₂)) hr₂
    · rw [if_neg h₁] at hr₁
      by_cases h₂ : name = name₂
      · rw [if_pos h₂] at hr₂
        cases hr₂
        exact fun slot h₁' h₂' => hapart name₁ r₁ h₁ hr₁ h₂' h₁'
      · rw [if_neg h₂] at hr₂
        exact h.apart name₁ name₂ r₁ r₂ hr₁ hr₂ hne

/-- Taking in the rules of another grammar puts one rule after the other. -/
theorem WellPlaced.putRules (h : g.WellPlaced) (texts : Rule → List (String × Float))
    (rules : Table Rule) :
    (rules.foldl (fun g r => g.putRule r.1 (texts r.2)) g).WellPlaced := by
  induction rules generalizing g with
  | nil => exact h
  | cons r rules ih => exact ih (h.putRule r.1 (texts r.2))

theorem WellPlaced.merge (h : g.WellPlaced) (other : Grammar σ) : (g.merge other).WellPlaced := by
  have hrules := h.putRules other.alternatives other.rules
  exact {
    placed := hrules.placed
    apart := hrules.apart
    ruleNames := hrules.ruleNames
    modelNames := Table.nodup_putAll hrules.modelNames _
    overrideNames := Table.nodup_putAll hrules.overrideNames _ }

/-- The order of the tables does not matter, but for that of the globals. -/
theorem WellPlaced.reorder (h : g.WellPlaced) {rules : Table Rule} {models : Table Markov.Model}
    {overrides : Table (Override σ)} (hrules : g.rules.Perm rules) (hmodels : g.models.Perm models)
    (hoverrides : g.overrides.Perm overrides) :
    { g with rules, models, overrides }.WellPlaced := by
  have hrule : ∀ name, Table.get? rules name = g.rule? name := Table.get?_perm hrules h.ruleNames
  exact {
    placed := fun name r hr => h.placed name r ((hrule name).symm.trans hr)
    apart := fun name name' r r' hr hr' => h.apart name name' r r' ((hrule name).symm.trans hr)
      ((hrule name').symm.trans hr')
    ruleNames := (hrules.map Prod.fst).nodup_iff.mp h.ruleNames
    modelNames := (hmodels.map Prod.fst).nodup_iff.mp h.modelNames
    overrideNames := (hoverrides.map Prod.fst).nodup_iff.mp h.overrideNames }

/-! ### Grammars that have been built -/

/-- The grammar has been built step by step, from nothing. Tables but that of the globals may be listed
in any order at any time. -/
inductive Built : Grammar σ → Prop
  /-- A new grammar. -/
  | new : Built {}
  /-- A rule is added or replaced. -/
  | addRule {g g' : Grammar σ} {name alternatives} (h : Built g)
    (hadd : g.addRule name alternatives = .ok g') : Built g'
  /-- A rule is added or replaced whose alternatives all weigh one. -/
  | addTexts {g g' : Grammar σ} {name texts} (h : Built g) (hadd : g.addTexts name texts = .ok g') :
    Built g'
  /-- A global variable is added, or its value is replaced. -/
  | addVariable {g g' : Grammar σ} {name text} (h : Built g)
    (hadd : g.addVariable name text = .ok g') : Built g'
  /-- A model is trained and added or replaced. -/
  | addMarkov {g g' : Grammar σ} {name sentences settings} (h : Built g)
    (hadd : g.addMarkov name sentences settings = .ok g') : Built g'
  /-- A model is added or replaced. -/
  | putModel {g : Grammar σ} (h : Built g) (name : String) (m : Markov.Model) :
    Built (g.putModel name m)
  /-- A modifier is registered. -/
  | putOverride {g : Grammar σ} (h : Built g) (name : String) (f : Override σ) :
    Built (g.putOverride name f)
  /-- The limits are changed. -/
  | limits {g : Grammar σ} (h : Built g) (settings : Settings) : Built { g with settings }
  /-- All that another grammar has is taken in. -/
  | merge {g other : Grammar σ} (h : Built g) (hother : Built other) : Built (g.merge other)
  /-- Tables are listed in another order. -/
  | reorder {g : Grammar σ} {rules models overrides} (h : Built g) (hrules : g.rules.Perm rules)
    (hmodels : g.models.Perm models) (hoverrides : g.overrides.Perm overrides) :
    Built { g with rules, models, overrides }

theorem addRule_ok {g' : Grammar σ} {name : String} {alternatives : List (String × Float)}
    (h : g.addRule name alternatives = .ok g') : g' = g.putRule name alternatives := by
  unfold addRule at h
  split at h
  · cases h
  · exact (Except.ok.inj h).symm

/-- A weight of one is always accepted. -/
theorem addTexts_eq (g : Grammar σ) (name : String) (texts : List String) :
    g.addTexts name texts = .ok (g.putRule name (texts.map fun text => (text, 1))) := by
  have hone : validWeight 1 = true := by decide +kernel
  have hnone : (texts.map fun text => (text, (1 : Float))).find? (fun a => !validWeight a.2) =
      none := by
    rw [List.find?_eq_none]
    intro a ha
    obtain ⟨text, -, rfl⟩ := List.mem_map.mp ha
    simp [hone]
  unfold addTexts addRule
  rw [hnone]

/-- However a grammar has been built, no two of its alternatives share a place. -/
theorem Built.wellPlaced (h : g.Built) : g.WellPlaced := by
  induction h with
  | new => exact {
      placed := fun _ _ hr => by cases hr
      apart := fun _ _ _ _ hr => by cases hr
      ruleNames := List.nodup_nil
      modelNames := List.nodup_nil
      overrideNames := List.nodup_nil }
  | addRule _ hadd ih | addTexts _ hadd ih =>
    rw [addRule_ok hadd]
    exact ih.putRule _ _
  | addVariable _ hadd ih =>
    unfold Grammar.addVariable at hadd
    split at hadd <;> cases hadd
    exact { ih with }
  | addMarkov _ hadd ih =>
    unfold Grammar.addMarkov at hadd
    split at hadd <;> cases hadd
    exact { ih with modelNames := Table.nodup_put ih.modelNames _ _ }
  | putModel _ name m ih => exact { ih with modelNames := Table.nodup_put ih.modelNames _ _ }
  | putOverride _ name f ih =>
    exact { ih with overrideNames := Table.nodup_put ih.overrideNames _ _ }
  | limits _ settings ih => exact { ih with }
  | merge _ _ ih _ => exact ih.merge _
  | reorder _ hrules hmodels hoverrides ih => exact ih.reorder hrules hmodels hoverrides

end Grammar

end Fabula
