import Mathlib.Data.List.Nodup
import Fabula.Grammar.Edit
import Fabula.Random.Scripted
import Fabula.Proofs.Contents

/-!
# Fabula.Proofs.Editing

**Editing a grammar in place.** Calls write one thing after the other into the store and the tables.
What they leave is what the functions on whole grammars give, and a call that is refused leaves the
grammar as it was (`Edit.settled`). Merging empties the store of the other grammar place by place; since
its rules share no places, every alternative is met while its text is still there (`Edit.merge_eq`).

So every grammar that can be reached by calls (`Grammar.Edited`) is one that has been built
(`Grammar.Edited.built`), and its rules are in order (`Grammar.Intact`, `edited_intact`).
-/

namespace Fabula

variable {σ : Type}

open Grammar (place)

namespace Edit

/-! ### Calls that write -/

/-- What a change leaves that may be refused: what it gives, or the grammar as it was. -/
def settled (g : Grammar σ) :
    Except GrammarError (Grammar σ) → EStateM.Result GrammarError (Grammar σ) Unit
  | .ok g' => .ok () g'
  | .error e => .error e g

theorem bind_ok {α β : Type} {act : Edit σ α} {f : α → Edit σ β} {g g' : Grammar σ} {a : α}
    (h : act g = .ok a g') : (act >>= f) g = f a g' := by
  show EStateM.bind act f g = f a g'
  unfold EStateM.bind
  rw [h]

/-- The store after a text has been written into a place, or into a new one. -/
def written (store : Array String) (slot : Option Slot) (text : String) : Array String :=
  match slot with
  | some slot => store.setIfInBounds slot text
  | none => store.push text

theorem write_eq (slot : Option Slot) (text : String) (g : Grammar σ) :
    write slot text g =
      .ok (slot.getD g.store.size) { g with store := written g.store slot text } := by
  cases slot <;> rfl

theorem place_cons (store : Array String) (free : List Slot) (text : String) (weight : Float)
    (rest : List (String × Float)) :
    place store free ((text, weight) :: rest) =
      ((place (written store free.head? text) free.tail rest).1,
        ⟨free.head?.getD store.size, weight⟩ ::
          (place (written store free.head? text) free.tail rest).2) := by
  cases free <;> rfl

theorem writeAll_eq (free : List Slot) (texts : List (String × Float)) (g : Grammar σ) :
    writeAll free texts g =
      .ok (place g.store free texts).2 { g with store := (place g.store free texts).1 } := by
  induction texts generalizing free g with
  | nil => cases free <;> rfl
  | cons entry rest ih =>
    obtain ⟨text, weight⟩ := entry
    rw [writeAll, bind_ok (write_eq free.head? text g), bind_ok (ih free.tail _), place_cons]
    rfl

theorem addRule_eq (name : String) (alternatives : List (String × Float)) (g : Grammar σ) :
    addRule name alternatives g = settled g (g.addRule name alternatives) := by
  unfold addRule Grammar.addRule
  cases alternatives.find? fun a => !Grammar.validWeight a.2 with
  | some a => rfl
  | none =>
    dsimp only
    rw [bind_ok (show released name g = .ok (g.released name) g from rfl), bind_ok (writeAll_eq ..)]
    rfl

theorem addVariable_eq (name text : String) (g : Grammar σ) :
    addVariable name text g = settled g (g.addVariable name text) := by
  unfold addVariable Grammar.addVariable
  cases Template.parse text <;> rfl

theorem addMarkov_eq (name : String) (sentences : List String) (settings : Markov.Settings)
    (g : Grammar σ) :
    addMarkov name sentences settings g = settled g (g.addMarkov name sentences settings) := by
  unfold addMarkov Grammar.addMarkov
  cases Markov.train sentences settings <;> rfl

/-! ### Moving texts -/

/-- Alternatives that share no places are all moved, as long as their places are full, and all other
places stay as they are. -/
theorem moveAll_eq {other : Grammar σ} {texts : Array (Option String)}
    {ws : List (Weighted Slot Float)} (free : List Slot) (g : Grammar σ)
    (hnodup : (ws.map Weighted.item).Nodup)
    (hfull : ∀ w ∈ ws, texts.getD w.item none = some (other.text w.item)) :
    ∃ left,
      moveAll texts free ws g =
        .ok (left, (place g.store free (ws.map fun w => (other.text w.item, w.weight))).2)
          { g with store := (place g.store free (ws.map fun w => (other.text w.item, w.weight))).1 } ∧
      ∀ slot ∉ ws.map Weighted.item, left.getD slot none = texts.getD slot none := by
  induction ws generalizing texts free g with
  | nil => exact ⟨texts, by cases free <;> rfl, fun _ _ => rfl⟩
  | cons w ws ih =>
    have ⟨hnotin, hnodup⟩ := List.nodup_cons.mp hnodup
    have ⟨hw, hws⟩ := List.forall_mem_cons.mp hfull
    have hother : ∀ slot, w.item ≠ slot →
        (texts.setIfInBounds w.item none).getD slot none = texts.getD slot none := by
      intro slot hne
      simp [hne]
    -- the place that is emptied is none of those still to be read
    have hfull' : ∀ v ∈ ws, (texts.setIfInBounds w.item none).getD v.item none =
        some (other.text v.item) := by
      intro v hv
      rw [hother v.item fun heq => hnotin (heq ▸ List.mem_map_of_mem hv)]
      exact hws v hv
    have hrest : ∀ slot ∉ (w :: ws).map Weighted.item,
        (texts.setIfInBounds w.item none).getD slot none = texts.getD slot none ∧
          slot ∉ ws.map Weighted.item := fun slot hslot =>
      ⟨hother slot fun heq => hslot (heq ▸ List.mem_cons_self),
        fun hmem => hslot (List.mem_cons_of_mem _ hmem)⟩
    unfold moveAll
    rw [hw]
    dsimp only
    obtain ⟨left, hrun, hleft⟩ := ih free.tail
      { g with store := written g.store free.head? (other.text w.item) } hnodup hfull'
    refine ⟨left, ?_, fun slot hslot => (hleft slot (hrest slot hslot).2).trans (hrest slot hslot).1⟩
    rw [bind_ok (write_eq free.head? _ g), bind_ok hrun, List.map_cons, place_cons]
    rfl

/-- Rules that share no places are moved as they are. -/
theorem moveRules_eq {other : Grammar σ} {texts : Array (Option String)} {rules : Table Rule}
    (g : Grammar σ) (hnodup : (rules.flatMap fun entry => entry.2.slots).Nodup)
    (hfull : ∀ slot ∈ rules.flatMap fun entry => entry.2.slots,
      texts.getD slot none = some (other.text slot)) :
    moveRules texts rules g =
      .ok () (rules.foldl (fun g r => g.putRule r.1 (other.alternatives r.2)) g) := by
  induction rules generalizing texts g with
  | nil => rfl
  | cons entry rules ih =>
    obtain ⟨name, r⟩ := entry
    rw [List.flatMap_cons] at hnodup hfull
    obtain ⟨hr, hrest, hdisjoint⟩ := List.nodup_append.mp hnodup
    obtain ⟨left, hrun, hleft⟩ := moveAll_eq (g.released name) g hr fun w hw =>
      hfull w.item (List.mem_append_left _ (List.mem_map_of_mem hw))
    -- what the rest of the rules refer to has not been emptied with this one
    have hfull' : ∀ slot ∈ rules.flatMap fun entry => entry.2.slots,
        left.getD slot none = some (other.text slot) := by
      intro slot hslot
      rw [hleft slot fun hin => hdisjoint slot hin slot hslot rfl]
      exact hfull slot (List.mem_append_right _ hslot)
    have hstep : moveRules texts ((name, r) :: rules) g =
        moveRules left rules (g.putRule name (other.alternatives r)) := by
      rw [moveRules, bind_ok (show released name g = .ok (g.released name) g from rfl), bind_ok hrun]
      rfl
    exact hstep.trans (ih _ hrest hfull')

end Edit

namespace Grammar

variable {g other : Grammar σ}

/-- The places of all rules together. -/
theorem WellPlaced.nodup_slots (h : g.WellPlaced) :
    (g.rules.flatMap fun entry => entry.2.slots).Nodup := by
  have hrule : ∀ entry ∈ g.rules, g.rule? entry.1 = some entry.2 := fun entry hentry =>
    Table.get?_of_mem h.ruleNames hentry
  refine List.nodup_flatMap.mpr ⟨fun entry hentry => (h.placed _ _ (hrule entry hentry)).nodup, ?_⟩
  have hnames : g.rules.Pairwise fun e e' => e.1 ≠ e'.1 := List.pairwise_map.mp h.ruleNames
  exact hnames.imp_of_mem fun he he' hne => h.apart _ _ _ _ (hrule _ he) (hrule _ he') hne

end Grammar

namespace Edit

variable {g other : Grammar σ}

/-- Merging loses nothing of a grammar whose rules share no places. -/
theorem merge_eq (h : other.WellPlaced) (g : Grammar σ) :
    merge other g = .ok () (g.merge other) := by
  have hfull : ∀ slot ∈ other.rules.flatMap fun entry => entry.2.slots,
      (other.store.map some).getD slot none = some (other.text slot) := by
    intro slot hslot
    obtain ⟨entry, hentry, hin⟩ := List.mem_flatMap.mp hslot
    have hlt := (h.placed _ _ (Table.get?_of_mem h.ruleNames hentry)).stored slot hin
    simp [Grammar.text, hlt]
  unfold merge
  rw [bind_ok (moveRules_eq g h.nodup_slots hfull)]
  rfl

end Edit

/-! ### Grammars that have been edited -/

/-- A call that changes a grammar by what the call brings along. -/
inductive Change (σ : Type)
  /-- A rule is added or replaced. -/
  | addRule (name : String) (alternatives : List (String × Float))
  /-- A rule is added or replaced whose alternatives all weigh one. -/
  | addTexts (name : String) (texts : List String)
  /-- A global variable is added, or its value is replaced. -/
  | addVariable (name text : String)
  /-- A model is trained and added or replaced. -/
  | addMarkov (name : String) (sentences : List String) (settings : Markov.Settings)
  /-- A model is added or replaced. -/
  | putModel (name : String) (m : Markov.Model)
  /-- A modifier is registered. -/
  | putOverride (name : String) (f : Override σ)
  /-- The limits are changed. -/
  | limit (settings : Grammar.Settings)

/-- Make the call. -/
def Change.act : Change σ → Edit σ Unit
  | .addRule name alternatives => Edit.addRule name alternatives
  | .addTexts name texts => Edit.addTexts name texts
  | .addVariable name text => Edit.addVariable name text
  | .addMarkov name sentences settings => Edit.addMarkov name sentences settings
  | .putModel name m => Edit.putModel name m
  | .putOverride name f => Edit.putOverride name f
  | .limit settings => Edit.limit settings

/-- The grammar that an edit leaves, whether it succeeds or fails. -/
def Edit.after (act : Edit σ Unit) (g : Grammar σ) : Grammar σ :=
  match act g with
  | .ok _ g' => g'
  | .error _ g' => g'

namespace Grammar

variable {g other : Grammar σ}

/-- The tables but that of the globals are listed in another order. -/
structure Reordered (g g' : Grammar σ) : Prop where
  /-- Rules are the same. -/
  rules : g.rules.Perm g'.rules
  /-- Models are the same. -/
  models : g.models.Perm g'.models
  /-- Registered modifiers are the same. -/
  overrides : g.overrides.Perm g'.overrides
  /-- Texts stand where they stood. -/
  store : g'.store = g.store
  /-- Globals have kept their order. -/
  globals : g'.globals = g.globals
  /-- The limits are the same. -/
  settings : g'.settings = g.settings

/-- The grammar can be reached by calls, successful or not. Tables but that of the globals may be listed
in any order at any time. -/
inductive Edited : Grammar σ → Prop
  /-- A new grammar. -/
  | new : Edited {}
  /-- A call is made. -/
  | change {g : Grammar σ} (h : Edited g) (c : Change σ) : Edited (c.act.after g)
  /-- Another grammar is merged into it. -/
  | merge {g other : Grammar σ} (h : Edited g) (hother : Edited other) :
    Edited ((Edit.merge other).after g)
  /-- Tables are listed in another order. -/
  | reorder {g g' : Grammar σ} (h : Edited g) (hsame : g.Reordered g') : Edited g'

/-- The grammar that is left when calls are made one after the other. -/
def ofChanges (changes : List (Change σ)) : Grammar σ := changes.foldl (fun g c => c.act.after g) {}

theorem Edited.ofChanges (changes : List (Change σ)) : (ofChanges changes).Edited := by
  have hfold : ∀ g : Grammar σ, g.Edited → (changes.foldl (fun g c => c.act.after g) g).Edited := by
    induction changes with
    | nil => exact fun _ h => h
    | cons c changes ih => exact fun g h => ih _ (h.change c)
  exact hfold {} .new

/-- What a change gives when it is not refused. -/
def changed (g : Grammar σ) : Change σ → Except GrammarError (Grammar σ)
  | .addRule name alternatives => g.addRule name alternatives
  | .addTexts name texts => g.addTexts name texts
  | .addVariable name text => g.addVariable name text
  | .addMarkov name sentences settings => g.addMarkov name sentences settings
  | .putModel name m => .ok (g.putModel name m)
  | .putOverride name f => .ok (g.putOverride name f)
  | .limit settings => .ok { g with settings }

theorem act_eq (g : Grammar σ) (c : Change σ) : c.act g = Edit.settled g (g.changed c) := by
  cases c with
  | addRule name alternatives => exact Edit.addRule_eq name alternatives g
  | addTexts name texts => exact Edit.addRule_eq name _ g
  | addVariable name text => exact Edit.addVariable_eq name text g
  | addMarkov name sentences settings => exact Edit.addMarkov_eq name sentences settings g
  | putModel | putOverride | limit => rfl

theorem Built.change (h : g.Built) {g' : Grammar σ} {c : Change σ} (hc : g.changed c = .ok g') :
    g'.Built := by
  cases c with
  | addRule => exact h.addRule hc
  | addTexts => exact h.addTexts hc
  | addVariable => exact h.addVariable hc
  | addMarkov => exact h.addMarkov hc
  | putModel name m =>
    cases hc
    exact h.putModel name m
  | putOverride name f =>
    cases hc
    exact h.putOverride name f
  | limit settings =>
    cases hc
    exact h.limits settings

theorem Built.reordered (h : g.Built) {g' : Grammar σ} (hsame : g.Reordered g') : g'.Built := by
  obtain ⟨rules, store, globals, models, overrides, settings⟩ := g'
  obtain ⟨hrules, hmodels, hoverrides, rfl, rfl, rfl⟩ := hsame
  exact h.reorder hrules hmodels hoverrides

theorem Edited.built (h : g.Edited) : g.Built := by
  induction h with
  | new => exact .new
  | @change g _ c ih =>
    unfold Edit.after
    rw [act_eq]
    cases hc : g.changed c with
    | ok g' => exact ih.change hc
    | error e => exact ih
  | @merge g other _ _ ih ihother =>
    unfold Edit.after
    rw [Edit.merge_eq ihother.wellPlaced]
    exact ih.merge ihother
  | reorder _ hsame ih => exact ih.reordered hsame

/-! ### Rules in order -/

/-- Rules have been entered under their names and with weights that are accepted, and so have the
globals. -/
structure Entered (g : Grammar σ) : Prop where
  /-- Rules know the names that they are kept under. -/
  named : ∀ name r, g.rule? name = some r → r.name = name
  /-- Their weights are accepted. -/
  weights : ∀ name r, g.rule? name = some r → ∀ w ∈ r.alternatives, validWeight w.weight = true
  /-- Every global has a name of its own. -/
  globalNames : g.globals.names.Nodup

theorem Entered.putRule (h : g.Entered) (hg : g.WellPlaced) (name : String)
    {texts : List (String × Float)} (hvalid : ∀ a ∈ texts, validWeight a.2 = true) :
    (g.putRule name texts).Entered := by
  refine { h with named := fun name' r hr => ?_, weights := fun name' r hr w hw => ?_ }
  · rw [putRule_rule?] at hr
    by_cases hname : name = name'
    · rw [if_pos hname] at hr
      cases hr
      exact hname
    · rw [if_neg hname] at hr
      exact h.named name' r hr
  · rw [putRule_rule?] at hr
    by_cases hname : name = name'
    · rw [if_pos hname] at hr
      cases hr
      have hentry : ((g.putRule name texts).text w.item, w.weight) ∈
          (g.putRule name texts).alternatives (g.replacement name texts) := List.mem_map_of_mem hw
      rw [hg.alternatives_replacement] at hentry
      exact (hvalid _ hentry :)
    · rw [if_neg hname] at hr
      exact h.weights name' r hr w hw

theorem Entered.putRules (h : g.Entered) (hg : g.WellPlaced) (texts : Rule → List (String × Float))
    {rules : Table Rule}
    (hvalid : ∀ entry ∈ rules, ∀ a ∈ texts entry.2, validWeight a.2 = true) :
    (rules.foldl (fun g r => g.putRule r.1 (texts r.2)) g).Entered := by
  induction rules generalizing g with
  | nil => exact h
  | cons entry rules ih =>
    have ⟨hentry, hrules⟩ := List.forall_mem_cons.mp hvalid
    exact ih (h.putRule hg entry.1 hentry) (hg.putRule entry.1 _) hrules

theorem Entered.addRule (h : g.Entered) (hg : g.WellPlaced) {g' : Grammar σ} {name : String}
    {alternatives : List (String × Float)} (hadd : g.addRule name alternatives = .ok g') :
    g'.Entered := by
  have hvalid : ∀ a ∈ alternatives, validWeight a.2 = true := by
    unfold Grammar.addRule at hadd
    split at hadd
    · cases hadd
    · next hnone =>
      intro a ha
      simpa using List.find?_eq_none.mp hnone a ha
  rw [addRule_ok hadd]
  exact h.putRule hg name hvalid

theorem Built.entered (h : g.Built) : g.Entered := by
  induction h with
  | new => exact {
      named := fun _ _ hr => by cases hr
      weights := fun _ _ hr => by cases hr
      globalNames := List.nodup_nil }
  | addRule h hadd ih => exact ih.addRule h.wellPlaced hadd
  | addTexts h hadd ih => exact ih.addRule h.wellPlaced hadd
  | addVariable _ hadd ih =>
    unfold Grammar.addVariable at hadd
    split at hadd <;> cases hadd
    exact { ih with globalNames := Table.nodup_put ih.globalNames _ _ }
  | addMarkov _ hadd ih =>
    unfold Grammar.addMarkov at hadd
    split at hadd <;> cases hadd
    exact { ih with }
  | putModel _ name m ih => exact { ih with }
  | putOverride _ name f ih => exact { ih with }
  | limits _ settings ih => exact { ih with }
  | @merge g other h hother ih ihother =>
    have hvalid : ∀ entry ∈ other.rules, ∀ a ∈ other.alternatives entry.2,
        validWeight a.2 = true := by
      intro entry hentry a ha
      obtain ⟨w, hw, rfl⟩ := List.mem_map.mp ha
      exact ihother.weights _ _ (Table.get?_of_mem hother.wellPlaced.ruleNames hentry) w hw
    have hrules := ih.putRules h.wellPlaced other.alternatives hvalid
    exact {
      named := hrules.named
      weights := hrules.weights
      globalNames := Table.nodup_putAll hrules.globalNames _ }
  | @reorder g rules models overrides h hrules hmodels hoverrides ih =>
    have hrule : ∀ name, Table.get? rules name = g.rule? name :=
      Table.get?_perm hrules h.wellPlaced.ruleNames
    exact {
      named := fun name r hr => ih.named name r ((hrule name).symm.trans hr)
      weights := fun name r hr => ih.weights name r ((hrule name).symm.trans hr)
      globalNames := ih.globalNames }

/-- The rules of a grammar are in order, and so are their places. -/
structure Intact (g : Grammar σ) : Prop where
  /-- Every place that a rule refers to is in the store. -/
  stored : ∀ name r, (name, r) ∈ g.rules → ∀ slot ∈ r.slots, slot < g.store.size
  /-- No place is referred to twice, within a rule or across rules. -/
  apart : (g.rules.flatMap fun entry => entry.2.slots).Nodup
  /-- Every rule is kept under its own name and found there. -/
  named : ∀ name r, (name, r) ∈ g.rules → r.name = name ∧ g.rule? name = some r
  /-- Weights are finite and not negative. -/
  weights : ∀ name r, (name, r) ∈ g.rules → ∀ w ∈ r.alternatives,
    Numeral.isFinite w.weight = true ∧ ¬ w.weight < 0
  /-- The total is the sum of the weights in order. -/
  total : ∀ name r, (name, r) ∈ g.rules → r.total = Weighted.sum r.alternatives

theorem Built.intact (h : g.Built) : g.Intact := by
  have hplaced := h.wellPlaced
  have hentered := h.entered
  have hrule : ∀ name r, (name, r) ∈ g.rules → g.rule? name = some r := fun name r hmem =>
    Table.get?_of_mem hplaced.ruleNames hmem
  exact {
    stored := fun name r hmem => (hplaced.placed name r (hrule name r hmem)).stored
    apart := hplaced.nodup_slots
    named := fun name r hmem => ⟨hentered.named name r (hrule name r hmem), hrule name r hmem⟩
    weights := fun name r hmem w hw => by
      simpa [validWeight] using hentered.weights name r (hrule name r hmem) w hw
    total := fun name r hmem => (hplaced.placed name r (hrule name r hmem)).total }

end Grammar

open Grammar in
/-- Whatever calls have been made, the rules of a grammar are in order. A rule is added with just the
texts and weights that are given, unless one of the weights is refused, and nothing else changes. A call
that fails leaves the grammar as it was, and merging does not fail. -/
theorem edited_intact {g : Grammar σ} (h : g.Edited) :
    g.Intact ∧
    (∀ name alternatives, (∀ a ∈ alternatives, validWeight a.2 = true) →
      ∃ g', Edit.addRule name alternatives g = .ok () g' ∧
        g'.contents = { g.contents with
          rules := Function.update g.contents.rules name (some alternatives) }) ∧
    (∀ name alternatives, (∃ a ∈ alternatives, validWeight a.2 = false) →
      ∃ weight, Edit.addRule name alternatives g = .error (.invalidWeight name weight) g) ∧
    (∀ (c : Change σ) e g', c.act g = .error e g' → g' = g) ∧
    ∀ other : Grammar σ, other.Edited → ∃ g', Edit.merge other g = .ok () g' := by
  refine ⟨h.built.intact, fun name alternatives hvalid => ?_, fun name alternatives hinvalid => ?_,
    fun c e g' hc => ?_, fun other hother => ⟨_, Edit.merge_eq hother.built.wellPlaced g⟩⟩
  · have hnone : alternatives.find? (fun a => !validWeight a.2) = none :=
      List.find?_eq_none.mpr fun a ha => by simp [hvalid a ha]
    refine ⟨g.putRule name alternatives, ?_, h.built.wellPlaced.putRule_contents name alternatives⟩
    rw [Edit.addRule_eq, Grammar.addRule, hnone]
    rfl
  · obtain ⟨a, ha, hweight⟩ := hinvalid
    cases hfind : alternatives.find? (fun a => !validWeight a.2) with
    | none => simpa [hweight] using List.find?_eq_none.mp hfind a ha
    | some found =>
      refine ⟨found.2, ?_⟩
      rw [Edit.addRule_eq, Grammar.addRule, hfind]
      rfl
  · rw [act_eq] at hc
    unfold Edit.settled at hc
    split at hc <;> cases hc
    rfl

/-- A grammar with two rules. -/
def barn : Grammar Scripted :=
  .ofChanges [.addTexts "pet" ["cow", "owl"], .addTexts "food" ["hay"]]

/-- A grammar whose rule has been replaced by a shorter one, and again by that of another grammar, with
a call in between that is refused. -/
def farm : Grammar Scripted :=
  Edit.after (Edit.merge barn) <| .ofChanges [
    .addTexts "pet" ["dog", "pig"], .addRule "pet" [("cat", 1)], .addRule "pet" [("hen", 2), ("fox", -1)]]

theorem barn_edited : barn.Edited := .ofChanges _

theorem farm_edited : farm.Edited := (Grammar.Edited.ofChanges _).merge barn_edited

/-- The place that the shorter rule has given up is not used again, and the one that was added for the
merged rule is no other rule's. -/
theorem farm_intact : farm.store = #["cow", "pig", "owl", "hay"] ∧ farm.Edited ∧ farm.Intact ∧
    ∃ g', Edit.addRule "food" [("oats", 3)] farm = .ok () g' ∧
      g'.contents = { farm.contents with
        rules := Function.update farm.contents.rules "food" (some [("oats", 3)]) } :=
  have ⟨hintact, hadd, _⟩ := edited_intact farm_edited
  ⟨by decide +kernel, farm_edited, hintact, hadd "food" [("oats", 3)] (by decide +kernel)⟩

end Fabula
