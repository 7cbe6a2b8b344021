import Mathlib.Data.List.Basic
import Mathlib.Logic.Function.Basic
import Fabula.Proofs.Arena

/-!
# Fabula.Proofs.Contents

**What a grammar says**, apart from the places of its texts and the order of its tables
(`Grammar.contents`). Entering a rule changes what is said under its name and nothing else
(`Grammar.WellPlaced.putRule_contents`).

A rule that is entered writes over places of the store. `Grammar.place_text` says that each text is
found again in the place that it was given, and that all places that were not free keep their texts.
Since rules share no places (`Grammar.WellPlaced`), no other rule is touched.
-/

namespace Fabula

variable {σ : Type}

/-- What a grammar says. -/
@[ext] structure Contents (σ : Type) where
  /-- The texts and weights of the rules, in order. -/
  rules : String → Option (List (String × Float))
  /-- The global variables, in order. -/
  globals : Table Template
  /-- The Markov models. -/
  models : String → Option Markov.Model
  /-- The modifiers that have been registered. -/
  overrides : String → Option (Override σ)
  /-- The limits. -/
  settings : Grammar.Settings

namespace Grammar

variable {g other : Grammar σ}

/-- What a grammar says, whatever the places of its texts. -/
def contents (g : Grammar σ) : Contents σ where
  rules name := (g.rule? name).map g.alternatives
  globals := g.globals
  models := g.models.get?
  overrides := g.overrides.get?
  settings := g.settings

/-! ### Texts in their places -/

/-- Every text is found in the place that it has been given, with its weight, and places that were not
free keep their texts. -/
theorem place_text (store : Array String) {free : List Slot} (texts : List (String × Float))
    (hfree : ∀ slot ∈ free, slot < store.size) (hnodup : free.Nodup) :
    ((place store free texts).2.map fun w => ((place store free texts).1.getD w.item "", w.weight)) =
      texts ∧
    ∀ slot < store.size, slot ∉ free →
      (place store free texts).1.getD slot "" = store.getD slot "" := by
  induction texts generalizing store free with
  | nil => simp [place]
  | cons entry rest ih =>
    obtain ⟨text, weight⟩ := entry
    cases free with
    | nil =>
      have hnone : ∀ slot ∈ ([] : List Slot), slot < (store.push text).size := by simp
      obtain ⟨htexts, hkept⟩ := ih (store.push text) hnone List.nodup_nil
      rw [Array.size_push] at hkept
      unfold place
      dsimp only
      refine ⟨?_, fun slot hslot _ => ?_⟩
      · rw [List.map_cons, htexts, hkept store.size (Nat.lt_succ_self _) List.not_mem_nil]
        simp
      · rw [hkept slot (by omega) List.not_mem_nil]
        simp [Array.getElem?_push, Nat.ne_of_lt hslot]
    | cons slot free =>
      obtain ⟨hslot, hfree⟩ := List.forall_mem_cons.mp hfree
      obtain ⟨hnotin, hnodup⟩ := List.nodup_cons.mp hnodup
      have hfree' : ∀ other ∈ free, other < (store.setIfInBounds slot text).size := by
        simpa using hfree
      obtain ⟨htexts, hkept⟩ := ih (store.setIfInBounds slot text) hfree' hnodup
      rw [Array.size_setIfInBounds] at hkept
      unfold place
      dsimp only
      refine ⟨?_, fun other hother hnot => ?_⟩
      · -- the first place is not given out a second time, so its text stays
        rw [List.map_cons, htexts, hkept slot hslot hnotin]
        simp [hslot]
      · have hne : slot ≠ other := fun heq => hnot (heq ▸ List.mem_cons_self)
        rw [hkept other hother fun hmem => hnot (List.mem_cons_of_mem slot hmem)]
        simp [hne]

theorem WellPlaced.alternatives_replacement (h : g.WellPlaced) (name : String)
    (texts : List (String × Float)) :
    (g.putRule name texts).alternatives (g.replacement name texts) = texts :=
  have ⟨hfree, hnodup⟩ := h.released name
  (place_text g.store texts hfree hnodup).1

/-- The other rules keep their texts. -/
theorem WellPlaced.alternatives_other (h : g.WellPlaced) {name name' : String}
    (texts : List (String × Float)) (hne : name ≠ name') {r : Rule} (hr : g.rule? name' = some r) :
    (g.putRule name texts).alternatives r = g.alternatives r := by
  obtain ⟨hfree, hnodup⟩ := h.released name
  refine List.map_congr_left fun w hw => ?_
  have hslot : w.item ∈ r.slots := List.mem_map_of_mem hw
  have hnot : w.item ∉ g.released name := by
    intro hin
    unfold Grammar.released at hin
    cases hr' : g.rule? name with
    | none =>
      rw [hr'] at hin
      cases hin
    | some r' =>
      rw [hr'] at hin
      exact h.apart name name' r' r hr' hr hne hin hslot
  have htext : (g.putRule name texts).text w.item = g.text w.item :=
    (place_text g.store texts hfree hnodup).2 w.item ((h.placed name' r hr).stored _ hslot) hnot
  rw [htext]

/-- A rule that is entered says what it is given, and nothing else changes. -/
theorem WellPlaced.putRule_contents (h : g.WellPlaced) (name : String)
    (texts : List (String × Float)) :
    (g.putRule name texts).contents =
      { g.contents with rules := Function.update g.contents.rules name (some texts) } := by
  refine Contents.ext (funext fun name' => ?_) rfl rfl rfl rfl
  show ((g.putRule name texts).rule? name').map _ = Function.update g.contents.rules name _ name'
  rw [putRule_rule?]
  by_cases hname : name = name'
  · subst hname
    rw [if_pos rfl, Function.update_self, Option.map_some, h.alternatives_replacement]
  · rw [if_neg hname, Function.update_of_ne (Ne.symm hname)]
    cases hr : g.rule? name' with
    | none => simp [contents, hr]
    | some r => simp [contents, hr, h.alternatives_other texts hname hr]

/-- Entering rules one after the other. What a rule says counts before what had been said under its
name. -/
theorem WellPlaced.putRules_contents (h : g.WellPlaced) (texts : Rule → List (String × Float))
    {rules : Table Rule} (hrules : rules.names.Nodup) :
    (rules.foldl (fun g r => g.putRule r.1 (texts r.2)) g).contents =
      { g.contents with
        rules := fun name => ((rules.get? name).map texts).or (g.contents.rules name) } := by
  induction rules generalizing g with
  | nil => rfl
  | cons entry rules ih =>
    obtain ⟨name, r⟩ := entry
    have ⟨hname, hrules⟩ := List.nodup_cons.mp hrules
    rw [List.foldl_cons, ih (h.putRule name (texts r)) hrules, h.putRule_contents]
    refine Contents.ext (funext fun name' => ?_) rfl rfl rfl rfl
    dsimp only
    by_cases heq : name = name'
    · subst heq
      rw [Table.get?_eq_none hname, Function.update_self, Table.get?_cons, if_pos rfl]
      rfl
    · rw [Function.update_of_ne (Ne.symm heq), Table.get?_cons, if_neg heq]

/-! ### Entering what is there -/

/-- Writing what is there changes nothing. -/
theorem place_self (store : Array String) (ws : List (Weighted Slot Float)) :
    place store (ws.map Weighted.item) (ws.map fun w => (store.getD w.item "", w.weight)) =
      (store, ws) := by
  induction ws with
  | nil => rfl
  | cons w ws ih =>
    have hset : store.setIfInBounds w.item (store.getD w.item "") = store := by
      apply Array.ext_getElem?
      intro i
      rw [Array.getElem?_setIfInBounds]
      by_cases hi : w.item = i
      · subst hi
        by_cases hlt : w.item < store.size <;> simp [hlt]
      · rw [if_neg hi]
    rw [List.map_cons, List.map_cons, place, hset, ih]

/-- A rule that says what it says already leaves the grammar as it is. -/
theorem putRule_self {name : String} {r : Rule} (hr : g.rule? name = some r)
    (hname : r.name = name) (htotal : r.total = Weighted.sum r.alternatives) :
    g.putRule name (g.alternatives r) = g := by
  have hplace : place g.store r.slots (g.alternatives r) = (g.store, r.alternatives) :=
    place_self g.store r.alternatives
  have hsame : Rule.named name r.alternatives = r := by
    subst hname
    unfold Rule.named Rule.ofAlternatives
    rw [← htotal]
  unfold putRule
  dsimp only
  rw [hr, Option.map_some, Option.getD_some, hplace, hsame, Table.put_self hr]

end Grammar

end Fabula
