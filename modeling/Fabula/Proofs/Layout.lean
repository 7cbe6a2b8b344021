import Fabula.Lint
import Fabula.Proofs.Arena
import Fabula.Proofs.Routine

/-!
# Fabula.Proofs.Layout

**Only what a grammar says matters, not where its texts stand.** Two grammars that have been built in
different ways may hold the same alternatives in different places of their stores. Every use of the one
gives what it gives of the other, and so does checking them (`layout_invisible`).

An alternative is the same in both grammars if it has the same number in the rule of the same name
(`Grammar.SameAlternative`). Because no two alternatives share a place, this pairs the places of the two
stores off (`Grammar.WellPlaced.slotOf?_inj`), and runs correspond in which seen alternatives are
recorded by paired places (`renumbering`).
-/

namespace Fabula

variable {σ : Type}

/-! ### Grammars that say the same -/

namespace Grammar

/-- The place of alternative `i` of a rule. -/
def slotOf? (g : Grammar σ) (name : String) (i : Nat) : Option Slot :=
  (g.rule? name).bind fun r => r.slots[i]?

/-- The places hold the same alternative of the same rule. -/
def SameAlternative (g g' : Grammar σ) (slot slot' : Slot) : Prop :=
  ∃ name i, g.slotOf? name i = some slot ∧ g'.slotOf? name i = some slot'

/-- What is seen of two contexts is the same, but for the places by which the seen alternatives are
known. -/
structure Renumbered (g g' : Grammar σ) (view view' : View) : Prop where
  /-- They are equally deep. -/
  depth : view'.depth = view.depth
  /-- The names have the same values. -/
  scopes : view'.scopes = view.scopes
  /-- The same texts have been produced. -/
  produced : view'.produced = view.produced
  /-- The globals are loaded in both or in neither. -/
  globalsLoaded : view'.globalsLoaded = view.globalsLoaded
  /-- The same alternatives have been seen. -/
  trackers : List.Forall₂ (List.Forall₂ (g.SameAlternative g')) view.trackers view'.trackers

/-- The grammars say the same. Their modifiers do the same, as long as it is the same alternatives that
have been seen, by whatever places these are known. -/
structure SameContents [RandomSource σ] (g g' : Grammar σ) : Prop where
  /-- They have the same rules, with the same texts and weights in the same order. -/
  rules : ∀ name, (g'.rule? name).map g'.alternatives = (g.rule? name).map g.alternatives
  /-- They have the same globals in the same order. -/
  globals : g'.globals = g.globals
  /-- They have the same models. -/
  models : ∀ name, g'.models.get? name = g.models.get? name
  /-- They have the same modifiers registered. -/
  overrides : ∀ name, Option.Rel (Override.Alike (g.Renumbered g')) (g.overrides.get? name)
    (g'.overrides.get? name)
  /-- They have the same limits. -/
  settings : g'.settings = g.settings

/-- A place holds one alternative of one rule. -/
theorem WellPlaced.slotOf?_inj {g : Grammar σ} (h : g.WellPlaced) {name name' : String} {i i' : Nat}
    {slot : Slot} (hi : g.slotOf? name i = some slot) (hi' : g.slotOf? name' i' = some slot) :
    name = name' ∧ i = i' := by
  obtain ⟨r, hr, hslot⟩ := Option.bind_eq_some_iff.mp hi
  obtain ⟨r', hr', hslot'⟩ := Option.bind_eq_some_iff.mp hi'
  by_cases hname : name = name'
  · subst hname
    rw [hr] at hr'
    cases hr'
    obtain ⟨hlt, -⟩ := List.getElem?_eq_some_iff.mp hslot
    exact ⟨rfl, (List.getElem?_inj hlt (h.placed name r hr).nodup).mp (hslot.trans hslot'.symm)⟩
  · exact (h.apart name name' r r' hr hr' hname (List.mem_of_getElem? hslot)
      (List.mem_of_getElem? hslot')).elim

end Grammar

/-! ### Places are paired off -/

open Grammar

/-- Two runs in which everything is the same but the places by which alternatives are known. -/
def renumbering (g g' : Grammar σ) : Correspondence σ σ where
  source _ _ := Eq
  slot := g.SameAlternative g'
  excused _ := False

namespace Correspondence

variable {g g' : Grammar σ}

theorem renumbering_trackless : (renumbering g g').Trackless := trackless_of_eq fun _ _ => rfl

/-- Every place is paired with one other, either way. -/
theorem renumbering_lawful [RandomSource σ] (hg : g.WellPlaced) (hg' : g'.WellPlaced) :
    (renumbering g g').Lawful := by
  refine lawful_of_eq (fun _ _ => rfl) ⟨?_, ?_⟩
  · rintro a b c ⟨name, i, ha, hc⟩ ⟨name', i', hb, hc'⟩
    obtain ⟨rfl, rfl⟩ := hg'.slotOf?_inj hc hc'
    exact Option.some.inj (ha.symm.trans hb)
  · rintro a b c ⟨name, i, ha, hb⟩ ⟨name', i', ha', hc⟩
    obtain ⟨rfl, rfl⟩ := hg.slotOf?_inj ha ha'
    exact Option.some.inj (hb.symm.trans hc)

theorem Contexts.renumbered {depth : Nat} {c d : Context σ}
    (h : (renumbering g g').Contexts depth c d) : g.Renumbered g' c.view d.view where
  depth := h.depth_right.trans h.depth_left.symm
  scopes := h.scopes
  produced := h.produced
  globalsLoaded := h.globalsLoaded
  trackers := h.trackers

variable [RandomSource σ] (h : g.SameContents g')
include h

/-- Alternatives with the same number have the same text and weight. -/
theorem alternative_rel {name : String} {r r' : Rule} (hr : g.rule? name = some r)
    (hr' : g'.rule? name = some r') :
    List.Forall₂ (fun w w' => (renumbering g g').Alternatives w w' ∧ g'.text w'.item = g.text w.item)
      r.alternatives r'.alternatives := by
  have hsame := h.rules name
  rw [hr, hr'] at hsame
  have hlist : r'.alternatives.map (fun w => (g'.text w.item, w.weight)) =
      r.alternatives.map fun w => (g.text w.item, w.weight) := Option.some.inj hsame
  have hlength : r.alternatives.length = r'.alternatives.length := by
    simpa using (congrArg List.length hlist).symm
  refine List.forall₂_iff_get.mpr ⟨hlength, fun i hi hi' => ?_⟩
  have hpair := congrArg (·[i]?) hlist
  simp only [List.getElem?_map, List.getElem?_eq_getElem hi, List.getElem?_eq_getElem hi',
    Option.map_some, Option.some.injEq, Prod.mk.injEq] at hpair
  refine ⟨⟨⟨name, i, ?_, ?_⟩, hpair.2⟩, hpair.1⟩
  · simp [slotOf?, hr, Rule.slots, hi]
  · simp [slotOf?, hr', Rule.slots, hi']

theorem renumbering_rules (hg : g.WellPlaced) (hg' : g'.WellPlaced) (name : String) :
    Option.Rel (renumbering g g').Rules (g.rule? name) (g'.rule? name) := by
  have hsame := h.rules name
  cases hr : g.rule? name with
  | none =>
    have hr' : g'.rule? name = none := by simpa [hr] using hsame
    rw [hr']
    exact .none
  | some r =>
    obtain ⟨r', hr', -⟩ : ∃ r', g'.rule? name = some r' ∧ _ := by
      rw [hr] at hsame
      exact Option.map_eq_some_iff.mp hsame
    rw [hr']
    have halternatives := (alternative_rel h hr hr').imp fun _ _ hw => hw.1
    refine .some ⟨halternatives, ?_⟩
    rw [(hg.placed name r hr).total, (hg'.placed name r' hr').total]
    exact sum_eq halternatives

theorem renumbering_text {slot slot' : Slot} (hslot : g.SameAlternative g' slot slot') :
    g'.text slot' = g.text slot := by
  obtain ⟨name, i, hi, hi'⟩ := hslot
  obtain ⟨r, hr, hslot⟩ := Option.bind_eq_some_iff.mp hi
  obtain ⟨r', hr', hslot'⟩ := Option.bind_eq_some_iff.mp hi'
  unfold Rule.slots at hslot hslot'
  rw [List.getElem?_map] at hslot hslot'
  obtain ⟨w, hw, rfl⟩ := Option.map_eq_some_iff.mp hslot
  obtain ⟨w', hw', rfl⟩ := Option.map_eq_some_iff.mp hslot'
  obtain ⟨hlt, rfl⟩ := List.getElem?_eq_some_iff.mp hw
  obtain ⟨hlt', rfl⟩ := List.getElem?_eq_some_iff.mp hw'
  exact ((List.forall₂_iff_get.mp (alternative_rel h hr hr')).2 i hlt hlt').2

theorem renumbering_grammars (hg : g.WellPlaced) (hg' : g'.WellPlaced) :
    (renumbering g g').Grammars g g' where
  rules := renumbering_rules h hg hg'
  texts _ _ hslot := renumbering_text h hslot
  globals := h.globals
  models := h.models
  modifiers depth engine engine' he := by
    have hK := renumbering_lawful hg hg'
    refine applyModifier_runs hK renumbering_trackless (renumbering_rules h hg hg') (fun name => ?_) he
    have hoverride := h.overrides name
    generalize g.overrides.get? name = found, g'.overrides.get? name = found' at hoverride
    cases hoverride with
    | none => exact .none
    | some hf =>
      obtain ⟨r, r', rfl, rfl, halike⟩ := hf
      exact .some (override_overrides hK renumbering_trackless (fun _ _ _ hcd => hcd.renumbered)
        (fun value args => (r value args).passes_none) halike)

end Correspondence

/-! ### Using a grammar -/

/-- What a program does with a context outside of every expansion. -/
inductive Operation
  /-- It makes a call. -/
  | call (call : Call)
  /-- It activates a tracker. -/
  | push
  /-- It deactivates the latest tracker. -/
  | pop

namespace Grammar

variable [RandomSource σ]

/-- Do what a program does. -/
def operation (g : Grammar σ) : Operation → Run σ (Option String)
  | .call call => g.call call
  | .push => do
    modify Context.pushTracker
    return none
  | .pop => do
    modify Context.popTracker
    return none

/-- The results of one operation after the other, each with the source that it leaves. An operation that
fails does not keep those after it from being done. -/
def outcomes (g : Grammar σ) :
    List Operation → Context σ → List (Except ExpandError (Option String) × σ)
  | [], _ => []
  | op :: ops, c =>
    match g.operation op c with
    | .ok value c => (.ok value, c.source) :: g.outcomes ops c
    | .error e c => (.error e, c.source) :: g.outcomes ops c

end Grammar

namespace Correspondence

variable [RandomSource σ] {g g' : Grammar σ} (hg : g.WellPlaced) (hg' : g'.WellPlaced)
variable (h : g.SameContents g')
include hg hg' h

theorem operation_runs (op : Operation) (depth : Nat) :
    (renumbering g g').Runs depth (g.operation op) (g'.operation op) := by
  cases op with
  | call call =>
    exact call_runs (renumbering_lawful hg hg') renumbering_trackless (renumbering_grammars h hg hg')
      (.inl h.settings) call
  | push =>
    exact (modify_runs fun _ _ hcd => hcd.pushTracker renumbering_trackless).bind
      fun _ => pure_runs none
  | pop =>
    exact (modify_runs fun _ _ hcd => hcd.popTracker renumbering_trackless).bind
      fun _ => pure_runs none

theorem outcomes_eq (ops : List Operation) {depth : Nat} {c d : Context σ}
    (hcd : (renumbering g g').Contexts depth c d) : g'.outcomes ops d = g.outcomes ops c := by
  induction ops generalizing c d with
  | nil => rfl
  | cons op ops ih =>
    have hresult := operation_runs hg hg' h op depth c d hcd
    unfold outcomes
    generalize g.operation op c = r, g'.operation op d = r' at hresult
    cases hresult with
    | ok value hafter =>
      have hsource : _ = _ := hafter.source
      dsimp only
      rw [ih hafter, hsource]
    | error e hafter =>
      have hsource : _ = _ := hafter.source
      dsimp only
      rw [ih hafter, hsource]
    | excused hfalse => exact hfalse.elim

end Correspondence

/-! ### Checking a grammar -/

namespace Lint

variable {g g' : Grammar σ}

theorem readable_eq (g : Grammar σ) (r : Rule) :
    readable g r = (g.alternatives r).filterMap fun a => (Template.parse a.1).toOption := by
  unfold readable Grammar.alternatives Rule.slots
  rw [List.filterMap_map, List.filterMap_map]
  rfl

theorem checkReadable_eq (g : Grammar σ) (name : String) (r : Rule) :
    checkReadable g name r = concat ((g.alternatives r).map fun a =>
      match Template.parse a.1 with
      | .ok _ => {}
      | .error e => error (ruleOwner name ++ " has an unparsable alternative: " ++ e.message)) := by
  unfold checkReadable Grammar.alternatives Rule.slots
  rw [List.map_map, List.map_map]
  rfl

theorem onlyRecursive_eq (g : Grammar σ) (name : String) (r : Rule) :
    onlyRecursive g name r = (!(readable g r).isEmpty &&
      (readable g r).length == (g.alternatives r).length &&
      (readable g r).all fun t => (references t).any (·.symbol = name)) := by
  unfold onlyRecursive Grammar.alternatives
  rw [List.length_map]

theorem isEmpty_alternatives (g : Grammar σ) (r : Rule) :
    r.alternatives.isEmpty = (g.alternatives r).isEmpty := by
  unfold Grammar.alternatives
  rw [List.isEmpty_map]

/-- The same names stand for something in both grammars. -/
structure SameNames (g g' : Grammar σ) : Prop where
  /-- Rules. -/
  rules : ∀ name, g'.rules.has name = g.rules.has name
  /-- Globals. -/
  globals : ∀ name, g'.globals.has name = g.globals.has name
  /-- Models. -/
  models : ∀ name, g'.models.has name = g.models.has name
  /-- Registered modifiers. -/
  overrides : ∀ name, g'.overrides.has name = g.overrides.has name

theorem SameNames.checkTemplate_eq (h : SameNames g g') (owner : String) (t : Template) :
    checkTemplate g' owner t = checkTemplate g owner t := by
  have hcall : checkCall g' owner = checkCall g owner := by
    funext call
    unfold checkCall
    simp only [h.rules, h.overrides]
  have hknown : isKnown g' = isKnown g := by
    funext locals name
    unfold isKnown
    rw [h.rules, h.globals, h.models]
  unfold checkTemplate checkReference
  rw [hcall, hknown]

theorem SameNames.checkRule_eq (h : SameNames g g') (name : String) {r r' : Rule}
    (halternatives : g'.alternatives r' = g.alternatives r) (htotal : r'.total = r.total) :
    checkRule g' name r' = checkRule g name r := by
  have hreadable : readable g' r' = readable g r := by
    rw [readable_eq, readable_eq, halternatives]
  have hrecursion : checkRecursion g' name r' = checkRecursion g name r := by
    unfold checkRecursion
    rw [onlyRecursive_eq, onlyRecursive_eq, hreadable, halternatives]
  have hweights : checkWeights name r' = checkWeights name r := by
    unfold checkWeights
    rw [isEmpty_alternatives g', isEmpty_alternatives g, halternatives, htotal]
  have htemplate : checkTemplate g' (ruleOwner name) = checkTemplate g (ruleOwner name) :=
    funext (h.checkTemplate_eq _)
  unfold checkRule
  rw [checkReadable_eq, checkReadable_eq, hreadable, hrecursion, hweights, htemplate, halternatives]

theorem pairwise_sortedRules (g : Grammar σ) :
    ((sortedRules g).map Prod.fst).Pairwise (· ≤ ·) := by
  have hsorted := @List.pairwise_mergeSort _ (fun a b : String × Rule => decide (a.1 ≤ b.1))
    (fun a b c hab hbc => decide_eq_true (String.le_trans (of_decide_eq_true hab)
      (of_decide_eq_true hbc)))
    (fun a b => by simpa using String.le_total a.1 b.1) g.rules
  rw [List.pairwise_map]
  exact hsorted.imp fun h => of_decide_eq_true h

theorem perm_sortedRules (g : Grammar σ) : (sortedRules g).Perm g.rules := List.mergeSort_perm _ _

/-- Grammars with the same rules list them in the same order, however their tables are ordered. -/
theorem names_sortedRules (hg : g.WellPlaced) (hg' : g'.WellPlaced)
    (h : ∀ name, g'.rules.has name = g.rules.has name) :
    (sortedRules g').map Prod.fst = (sortedRules g).map Prod.fst := by
  have hnames : g'.rules.names.Perm g.rules.names :=
    (List.perm_ext_iff_of_nodup hg'.ruleNames hg.ruleNames).mpr fun name => by
      rw [Table.mem_names, Table.mem_names, h]
  refine List.Perm.eq_of_pairwise (fun _ _ _ _ => String.le_antisymm) (pairwise_sortedRules g')
    (pairwise_sortedRules g) ?_
  exact ((perm_sortedRules g').map Prod.fst).trans
    (hnames.trans ((perm_sortedRules g).map Prod.fst).symm)

/-- Checking rules is checking what is found under their names. -/
theorem map_sortedRules (hg : g.WellPlaced) :
    ((sortedRules g).map fun (name, r) => checkRule g name r) =
      ((sortedRules g).map Prod.fst).map fun name =>
        ((g.rule? name).map (checkRule g name)).getD {} := by
  rw [List.map_map]
  refine List.map_congr_left fun entry hentry => ?_
  have hrule : g.rule? entry.1 = some entry.2 :=
    Table.get?_of_mem hg.ruleNames ((perm_sortedRules g).mem_iff.mp hentry)
  simp [hrule]

end Lint

namespace Grammar

variable [RandomSource σ] {g g' : Grammar σ}

theorem SameContents.sameNames (h : g.SameContents g') : Lint.SameNames g g' where
  rules name := by
    have hrule := congrArg Option.isSome (h.rules name)
    show (g'.rule? name).isSome = (g.rule? name).isSome
    simpa using hrule
  globals name := by rw [h.globals]
  models name := congrArg Option.isSome (h.models name)
  overrides name := by
    have hoverride := h.overrides name
    unfold Table.has
    generalize g.overrides.get? name = found, g'.overrides.get? name = found' at hoverride
    cases hoverride <;> rfl

theorem SameContents.lint_eq (h : g.SameContents g') (hg : g.WellPlaced) (hg' : g'.WellPlaced) :
    g'.lint = g.lint := by
  have hnames := h.sameNames
  have hrule : ∀ name, (g'.rule? name).map (Lint.checkRule g' name) =
      (g.rule? name).map (Lint.checkRule g name) := by
    intro name
    have hrel := Correspondence.renumbering_rules h hg hg' name
    have hsame := h.rules name
    generalize g.rule? name = found, g'.rule? name = found' at hrel hsame
    cases hrel with
    | none => rfl
    | some hr => exact congrArg some (hnames.checkRule_eq name (Option.some.inj hsame) hr.total)
  have hglobals : ∀ name t, Lint.checkTemplate g' ("Variable '" ++ name ++ "'") t =
      Lint.checkTemplate g ("Variable '" ++ name ++ "'") t :=
    fun name => hnames.checkTemplate_eq _
  unfold Grammar.lint
  rw [Lint.map_sortedRules hg', Lint.map_sortedRules hg, Lint.names_sortedRules hg hg' hnames.rules,
    h.globals]
  simp only [hrule, hglobals]

end Grammar

/-- Grammars that say the same cannot be told apart, however they have been built and wherever their
texts stand: whatever a program does, they give the same values and errors and take the same draws, and
the same is said about them when they are checked. -/
theorem layout_invisible [RandomSource σ] {g g' : Grammar σ} (hg : g.Built) (hg' : g'.Built)
    (h : g.SameContents g') :
    (∀ (ops : List Operation) (s : σ),
      g'.outcomes ops { source := s } = g.outcomes ops { source := s }) ∧
    g'.lint = g.lint := by
  refine ⟨fun ops s => ?_, h.lint_eq hg.wellPlaced hg'.wellPlaced⟩
  have hnew : (renumbering g g').Contexts 0 { source := s } { source := s } :=
    ⟨rfl, rfl, rfl, rfl, .nil, rfl, rfl⟩
  exact Correspondence.outcomes_eq hg.wellPlaced hg'.wellPlaced h ops hnew

/-- A modifier that adds how many trackers are active. -/
def counting : Override Scripted :=
  Routine.override fun value _ => .look fun view => .give (value ++ toString view.trackers.length)

/-- A grammar with two rules, in the order of its store. -/
def zoo : Grammar Scripted :=
  ((Grammar.putRule {} "pet" [("cat", 1), ("dog", 1)]).putRule "color" [("red", 1)]).putOverride
    "count" counting

/-- The same grammar, built in another order, with a rule that has been replaced. -/
def rebuiltZoo : Grammar Scripted :=
  (((Grammar.putRule {} "color" [("red", 1)]).putRule "pet" [("cow", 1)]).putOverride
    "count" counting).putRule "pet" [("cat", 1), ("dog", 1)]

theorem zoo_built : zoo.Built :=
  ((Grammar.Built.new.addTexts (Grammar.addTexts_eq _ "pet" ["cat", "dog"])).addTexts
    (Grammar.addTexts_eq _ "color" ["red"])).putOverride "count" counting

theorem rebuiltZoo_built : rebuiltZoo.Built :=
  (((Grammar.Built.new.addTexts (Grammar.addTexts_eq _ "color" ["red"])).addTexts
    (Grammar.addTexts_eq _ "pet" ["cow"])).putOverride "count" counting).addTexts
      (Grammar.addTexts_eq _ "pet" ["cat", "dog"])

theorem zoo_sameContents : zoo.SameContents rebuiltZoo where
  rules name := by
    by_cases hpet : "pet" = name
    · subst hpet
      rfl
    by_cases hcolor : "color" = name
    · subst hcolor
      rfl
    have hleft : zoo.rule? name = none := by
      show (if "pet" = name then _ else if "color" = name then _ else none) = none
      rw [if_neg hpet, if_neg hcolor]
    have hright : rebuiltZoo.rule? name = none := by
      show (if "color" = name then _ else if "pet" = name then _ else none) = none
      rw [if_neg hcolor, if_neg hpet]
    rw [hleft, hright]
    rfl
  globals := rfl
  models _ := rfl
  overrides name := by
    show Option.Rel _ (if "count" = name then some counting else none)
      (if "count" = name then some counting else none)
    by_cases hcount : "count" = name
    · rw [if_pos hcount]
      refine .some ⟨_, _, rfl, rfl, fun value args => .look fun view view' hview => ?_⟩
      rw [hview.trackers.length_eq]
      exact .give _
    · rw [if_neg hcount]
      exact .none
  settings := rfl

/-- The two grammars differ in the places of their texts, and in nothing else that can be noticed. -/
theorem zoo_layout : zoo.store ≠ rebuiltZoo.store ∧ zoo.Built ∧ rebuiltZoo.Built ∧
    zoo.SameContents rebuiltZoo ∧
    (∀ ops s, rebuiltZoo.outcomes ops { source := s } = zoo.outcomes ops { source := s }) ∧
    rebuiltZoo.lint = zoo.lint :=
  ⟨by decide, zoo_built, rebuiltZoo_built, zoo_sameContents,
    layout_invisible zoo_built rebuiltZoo_built zoo_sameContents⟩

end Fabula
