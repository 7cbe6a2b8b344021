import Fabula.Proofs.EndlessRules

/-!
# Fabula.Proofs.FalseAlarms

**What a report of infinite recursion is worth.** A check reports a rule if all of its alternatives refer
to its name, and it compares names only. Whether the reference comes back to the rule is another matter:
the name may be that of a Markov model or of a variable, and a rule without weight does not come to its
alternatives in the first place. These are all the ways in which a report can be false
(`Grammar.FalseAlarm`); every other rule that is reported fails, under every limit and for every source of
draws (`reported_rule_fails`).

* Reports are told apart by their texts. That of a recursion is the only one that ends with a parenthesis,
  and the name of the rule can be read off it (`Lint.endless_iff`).
* A reference that is resolved before its own name has been declared around it is *exposed*. If every
  alternative with weight has such a reference to the rule, then one level down there is another one, as
  in `Fabula.Proofs.EndlessRules`. There no template declares any of the names; here only the
  declarations that are evaluated before the reference matter (`Template.exposed_cases`).
-/

namespace Fabula

variable {σ : Type}

/-! ### Telling reports apart -/

namespace Lint

/-- What is reported about a rule whose alternatives all refer to it. -/
def endlessError (name : String) : String :=
  ruleOwner name ++ " has no non-recursive alternative (infinite recursion)"

theorem endlessError_inj {name name' : String} (h : endlessError name = endlessError name') :
    name = name' := by
  rw [← String.toList_inj] at h ⊢
  simpa [endlessError, ruleOwner] using h

/-- A text ends as what was appended last. -/
theorem last_append (s : String) {t : String} {c : Char} (h : t.toList.getLast? = some c) :
    (s ++ t).toList.getLast? = some c := by
  rw [String.toList_append, List.getLast?_append, h]
  rfl

theorem endlessError_last (name : String) : (endlessError name).toList.getLast? = some ')' :=
  last_append _ (by decide)

theorem quoted_last (s : String) : (Text.quoted s).toList.getLast? = some '"' := by
  rw [Text.quoted, Text.quotedWith, String.toList_ofList, ← List.cons_append, List.getLast?_concat]

theorem IsPart.mem_concat {part : Lint → List String} (h : IsPart part) {reports : List Lint}
    {message : String} :
    message ∈ part (Lint.concat reports) ↔ ∃ report ∈ reports, message ∈ part report := by
  rw [h.concat, List.mem_flatMap]

theorem mem_errors_append {a b : Lint} {message : String} :
    message ∈ (a ++ b).errors ↔ message ∈ a.errors ∨ message ∈ b.errors := by
  rw [errors_isPart.append, List.mem_append]

section Messages

variable {g : Grammar σ} {message : String}

theorem checkCall_last {owner : String} {call : ModifierCall}
    (h : message ∈ (checkCall g owner call).errors) : message.toList.getLast? = some '\'' := by
  unfold checkCall at h
  split at h
  · cases h
  · split at h
    · obtain rfl := List.mem_singleton.mp h
      exact last_append _ (by decide)
    · split at h
      · split at h
        · cases h
        · obtain rfl := List.mem_singleton.mp h
          exact last_append _ (by decide)
      · cases h
    · cases h

theorem checkTemplate_last {owner : String} {t : Template}
    (h : message ∈ (checkTemplate g owner t).errors) : message.toList.getLast? = some '\'' := by
  obtain ⟨report, hreport, h⟩ := errors_isPart.mem_concat.mp h
  obtain ⟨r, -, rfl⟩ := List.mem_map.mp hreport
  rcases mem_errors_append.mp h with h | h
  · -- a symbol that is not known is worth a warning only
    split at h <;> cases h
  · obtain ⟨report, hreport, h⟩ := errors_isPart.mem_concat.mp h
    obtain ⟨call, -, rfl⟩ := List.mem_map.mp hreport
    exact checkCall_last h

theorem checkReadable_last {name : String} {r : Rule}
    (h : message ∈ (checkReadable g name r).errors) : message.toList.getLast? = some '"' := by
  obtain ⟨report, hreport, h⟩ := errors_isPart.mem_concat.mp h
  obtain ⟨slot, -, rfl⟩ := List.mem_map.mp hreport
  split at h
  · cases h
  · obtain rfl := List.mem_singleton.mp h
    exact last_append _ (last_append _ (quoted_last _))

theorem checkRule_endless {name : String} {r : Rule} (h : message ∈ (checkRule g name r).errors)
    (hlast : message.toList.getLast? = some ')') :
    onlyRecursive g name r = true ∧ message = endlessError name := by
  rcases mem_errors_append.mp h with h | h
  · rcases mem_errors_append.mp h with h | h
    · rcases mem_errors_append.mp h with h | h
      · -- nor is a rule without weight an error
        unfold checkWeights at h
        split at h
        · cases h
        · split at h <;> cases h
      · cases (checkReadable_last h).symm.trans hlast
    · obtain ⟨report, hreport, h⟩ := errors_isPart.mem_concat.mp h
      obtain ⟨t, -, rfl⟩ := List.mem_map.mp hreport
      cases (checkTemplate_last h).symm.trans hlast
  · unfold checkRecursion at h
    split at h
    · rename_i hrecursive
      exact ⟨hrecursive, List.mem_singleton.mp h⟩
    · cases h

end Messages

/-- A rule is reported exactly if all of its alternatives can be read and refer to it. -/
theorem endless_iff {g : Grammar σ} {name : String} :
    endlessError name ∈ g.lint.errors ↔ ∃ r, (name, r) ∈ g.rules ∧ onlyRecursive g name r = true := by
  unfold Grammar.lint
  rw [mem_errors_append, errors_isPart.mem_concat, errors_isPart.mem_concat]
  constructor
  · rintro (⟨report, hreport, h⟩ | ⟨report, hreport, h⟩)
    · obtain ⟨⟨name', r⟩, hr, rfl⟩ := List.mem_map.mp hreport
      obtain ⟨hrecursive, hname⟩ := checkRule_endless h (endlessError_last name)
      cases endlessError_inj hname
      exact ⟨r, List.mem_mergeSort.mp hr, hrecursive⟩
    · obtain ⟨⟨name', t⟩, -, rfl⟩ := List.mem_map.mp hreport
      cases (checkTemplate_last h).symm.trans (endlessError_last name)
  · rintro ⟨r, hr, hrecursive⟩
    refine .inl ⟨_, List.mem_map_of_mem (List.mem_mergeSort.mpr hr), mem_errors_append.mpr (.inr ?_)⟩
    unfold checkRecursion
    rw [if_pos hrecursive]
    exact List.mem_singleton.mpr rfl

end Lint

/-! ### References outside of the scope of their names -/

namespace Template

mutual

/-- Where a name is not declared, all references to it are exposed. -/
theorem exposed_of_undeclared {name : String} :
    ∀ t : Template, name ∉ Lint.declared t → ∀ r ∈ Lint.references t, r ∈ t.exposed (some name)
  | ⟨source, pattern, references, declarations⟩, hname, r, hr => by
    unfold Lint.declared at hname
    unfold Lint.references at hr
    rw [walk, List.flatMap_cons, List.mem_append] at hname hr
    rw [exposed]
    rw [not_or] at hname
    exact exposedIn_of_undeclared declarations references hname.1 hname.2 r hr.symm

theorem exposedIn_of_undeclared {name : String} :
    ∀ (declarations : List (String × Template)) (after : List Reference),
      name ∉ declarations.map Prod.fst →
      name ∉ (walk.walkAll declarations).flatMap (fun t => t.declarations.map Prod.fst) →
      ∀ r, r ∈ (walk.walkAll declarations).flatMap Template.references ∨ r ∈ after →
        r ∈ exposed.exposedIn (some name) declarations after
  | [], after, _, _, r, hr => hr.resolve_left List.not_mem_nil
  | (n, t) :: rest, after, hhere, hinside, r, hr => by
    rw [List.map_cons, List.mem_cons, not_or] at hhere
    rw [walk.walkAll, List.flatMap_append, List.mem_append, not_or] at hinside
    rw [walk.walkAll, List.flatMap_append, List.mem_append, or_assoc] at hr
    rw [exposed.exposedIn, if_neg (fun h => hhere.1 (Option.some.inj h)), List.mem_append]
    exact hr.imp (t.exposed_of_undeclared hinside.1 r)
      (exposedIn_of_undeclared rest after hhere.2 hinside.2 r)

end

/-- An exposed reference is one of the template itself, which does not declare the name then, or one in
the value of a declaration, and the declarations before that do not. -/
theorem exposed_cases {name : String} {t : Template} {r : Reference}
    (hr : r ∈ t.exposed (some name)) :
    (r ∈ t.references ∧ ∀ e ∈ t.declarations, e.1 ≠ name) ∨
      ∃ before n value after, t.declarations = before ++ (n, value) :: after ∧
        (∀ e ∈ before, e.1 ≠ name) ∧ r ∈ value.exposed (some name) := by
  obtain ⟨source, pattern, references, declarations⟩ := t
  rw [exposed] at hr
  dsimp only
  induction declarations with
  | nil => exact .inl ⟨hr, List.forall_mem_nil _⟩
  | cons declaration rest ih =>
    obtain ⟨n, value⟩ := declaration
    rw [exposed.exposedIn, List.mem_append] at hr
    rcases hr with hr | hr
    · exact .inr ⟨[], n, value, rest, rfl, List.forall_mem_nil _, hr⟩
    · by_cases hn : some name = some n
      · rw [if_pos hn] at hr
        cases hr
      · rw [if_neg hn] at hr
        have hn : n ≠ name := fun h => hn (congrArg some h.symm)
        rcases ih hr with ⟨hr, hrest⟩ | ⟨before, n', value', after, hsplit, hbefore, hr⟩
        · exact .inl ⟨hr, List.forall_mem_cons.mpr ⟨hn, hrest⟩⟩
        · refine .inr ⟨(n, value) :: before, n', value', after, ?_, ?_, hr⟩
          · rw [hsplit, List.cons_append]
          · exact List.forall_mem_cons.mpr ⟨hn, hbefore⟩

end Template

/-! ### Rules that come back to themselves -/

namespace Grammar

/-- Whatever alternative of the rule is picked, it refers to this rule. -/
structure Returns (g : Grammar σ) (name : String) (r : Rule) : Prop where
  /-- It is the rule of that name. -/
  rule : g.rule? name = some r
  /-- An alternative is picked. -/
  total : 0 < r.total
  /-- No model has the name. -/
  model : g.models.get? name = none
  /-- No global variable has it. -/
  globals : ∀ e ∈ g.globals, e.1 ≠ name
  /-- No other variable has it where the reference is resolved. -/
  exposed : ∀ slot ∈ r.weightedSlots, ∀ t, g.template slot = .ok t →
    ∃ ref ∈ t.exposed (some name), ref.symbol = name

/-- Why a rule that is reported may come to an end. -/
inductive FalseAlarm (g : Grammar σ) (name : String) (r : Rule) : Prop
  /-- It has no weight, so it gives the empty text. -/
  | weightless (h : ¬ 0 < r.total)
  /-- References to it are to a model. -/
  | model {m : Markov.Model} (h : g.models.get? name = some m)
  /-- References to it are to a global variable. -/
  | global (h : name ∈ g.globals.names)
  /-- One of its alternatives with weight declares the name, and refers to it in the scope of that
  only. -/
  | shadowed {slot : Slot} {t : Template} (hslot : slot ∈ r.weightedSlots)
    (ht : g.template slot = .ok t) (hdeclared : name ∈ Lint.declared t)
    (h : ∀ ref ∈ t.exposed (some name), ref.symbol ≠ name)

end Grammar

theorem Lint.references_of_onlyRecursive {g : Grammar σ} {name : String} {r : Rule}
    (h : onlyRecursive g name r = true) {slot : Slot} (hslot : slot ∈ r.slots) {t : Template}
    (ht : g.template slot = .ok t) : ∃ ref ∈ references t, ref.symbol = name := by
  have hreadable : t ∈ readable g r := List.mem_filterMap.mpr ⟨slot, hslot, by rw [ht]; rfl⟩
  unfold onlyRecursive at h
  rw [Bool.and_eq_true, List.all_eq_true] at h
  simpa using h.2 t hreadable

/-- A report that is not false is about a rule that comes back to itself. -/
theorem Grammar.returns_of_endless {g : Grammar σ} {name : String} {r : Rule}
    (hr : g.rule? name = some r) (h : Lint.onlyRecursive g name r = true)
    (halarm : ¬ g.FalseAlarm name r) : g.Returns name r where
  rule := hr
  total := by
    by_contra htotal
    exact halarm (.weightless htotal)
  model := by
    cases hm : g.models.get? name with
    | none => rfl
    | some m => exact absurd (.model hm) halarm
  globals e he hname := halarm (.global (hname ▸ List.mem_map_of_mem he))
  exposed slot hslot t ht := by
    obtain ⟨ref, href, hsymbol⟩ :=
      Lint.references_of_onlyRecursive h (r.weightedSlots_subset hslot) ht
    by_contra hnone
    push Not at hnone
    refine halarm (.shadowed hslot ht ?_ hnone)
    by_contra hdeclared
    exact hnone ref (t.exposed_of_undeclared hdeclared ref href) hsymbol

/-! ### Expansions -/

section Whole

open Run (Gives)
open Context (SameHeight SamePlace)

variable [RandomSource σ] {g : Grammar σ} {name : String} {r : Rule}
variable (h : g.Returns name r)
variable (hpick : ∀ s : σ, ∃ slot ∈ r.weightedSlots, (r.pick none s).1 = some slot)
variable (hheight : g.OverridesKeep SameHeight) (hplace : g.OverridesKeep SamePlace)
include h hpick

/-- The rule fails if all templates do that have an exposed reference to it. -/
theorem expandRuleWith_returns {enter : Evaluator σ}
    (henter : ∀ t slot, (∃ ref ∈ t.exposed (some name), ref.symbol = name) →
      (enter t slot).Fails {name}) :
    (expandRuleWith g enter r).Fails {name} :=
  expandRuleWith_fails hpick fun slot hslot t ht => henter t (some slot) (h.exposed slot hslot t ht)

include hheight hplace

/-- A template with an exposed reference to the rule fails, by induction on the levels that are left. -/
theorem evaluate_returns (levels : Nat) (t : Template) (slot : Option Slot)
    (ht : ∃ ref ∈ t.exposed (some name), ref.symbol = name) :
    (g.evaluate levels t slot).Fails {name} := by
  induction levels generalizing t slot with
  | zero => exact .throw _
  | succ levels ih =>
    have hkeepsHeight := SameHeight.invariant.evaluate_keeps hheight levels
    have hkeepsPlace := SamePlace.invariant.evaluate_keeps hplace levels
    obtain ⟨ref, href, hsymbol⟩ := ht
    refine Gives.within (P := Context.Clear {name}) ?_ fun c hc => hc.enterTemplate
    rw [expandBody_eq]
    rcases Template.exposed_cases href with
      ⟨href, hnames⟩ | ⟨before, n, value, after, hsplit, hnames, href⟩
    · -- the reference is reached with the name undeclared, and it stands for the rule
      refine (Gives.any _).bind (assignAll_clear hkeepsHeight hkeepsPlace hnames) fun _ _ => ?_
      refine Run.Fails.bind ?_ _
      have hrule := expandRuleWith_returns h hpick ih
      exact expandReferences_fails (by simpa using h.model) (by simpa using ⟨r, h.rule, hrule⟩)
        hkeepsHeight hkeepsPlace (evaluate_answers hheight levels) hheight hplace href hsymbol _ _
    · -- the value that it stands in is reached so, and fails one level below
      rw [hsplit]
      have hvalue := ih value none ⟨ref, href, hsymbol⟩
      exact (assignAll_append_fails hkeepsHeight hkeepsPlace hnames hvalue after).bind _

theorem expandRule_returns : (g.expandRule name).Fails {name} :=
  expandRule_fails_of hheight hplace (by simpa using h.globals) h.rule fun levels =>
    expandRuleWith_returns h hpick (evaluate_returns h hpick hheight hplace levels)

end Whole

/-- **A report of infinite recursion is right or one of four false alarms.** In a grammar that is reached
by calls, if a rule is reported, then expanding it in a new context fails under every limit and for every
source of draws, unless it has no weight, a model or a global variable has its name, or one of its
alternatives declares its name and refers to it in the scope of that only. No text is given if none of these
is the case; that the failure comes back takes Markov models whose texts come to an end. -/
theorem reported_rule_fails [RandomSource σ] {g : Grammar σ} (hg : g.Edited)
    (hoverrides : g.OverridesAre (Routine.Balanced σ)) {name : String}
    (hreported : Lint.endlessError name ∈ g.lint.errors) :
    ∃ r, g.rule? name = some r ∧ (g.FalseAlarm name r ∨ ∀ (limit : Nat) (s : σ),
      (g.limited limit).FailsAt ((g.limited limit).expandRule name) { source := s }) := by
  obtain ⟨r, hmem, hrecursive⟩ := Lint.endless_iff.mp hreported
  have hr : g.rule? name = some r := Table.get?_of_mem hg.built.wellPlaced.ruleNames hmem
  refine ⟨r, hr, Classical.or_iff_not_imp_left.mpr fun halarm limit s => ?_⟩
  have h := Grammar.returns_of_endless hr hrecursive halarm
  -- the limit is all that is different
  have hlimited : (g.limited limit).OverridesAre (Routine.Balanced σ) := hoverrides
  have hreturns : (g.limited limit).Returns name r :=
    ⟨h.rule, h.total, h.model, h.globals, h.exposed⟩
  have hfails := expandRule_returns hreturns (hg.pick_weighted hr h.total) hlimited.sameHeight
    hlimited.samePlace
  exact Grammar.failsAt_of_error (hfails.error ⟨rfl, fun _ _ => rfl⟩)

/-! ### Hearsay -/

/-- Rumours of rumours. The second one is about itself although it declares the word, since that is what
it declares it to be; the last one is not, but it is never heard. -/
def gossip : Grammar Scripted := .ofChanges [
  .addRule "rumour" [("they say {{rumour}}", 1), ("{rumour= no {rumour}}{rumour}", 2),
    ("{rumour= nothing}{rumour}", 0)]]

theorem gossip_rule : gossip.rule? "rumour" = some (Rule.named "rumour" [⟨0, 1⟩, ⟨1, 2⟩, ⟨2, 0⟩]) := by
  with_unfolding_all rfl

theorem gossip_rest : gossip.models = [] ∧ gossip.globals = [] ∧ gossip.overrides = [] := by
  with_unfolding_all exact ⟨rfl, rfl, rfl⟩

theorem gossip_exposed {slot : Slot} (hslot : slot ∈ [0, 1]) {t : Template}
    (ht : gossip.template slot = .ok t) : ∃ ref ∈ t.exposed (some "rumour"), ref.symbol = "rumour" := by
  have htext : (gossip.template slot).toOption = some t := by rw [ht]; rfl
  have hexposed : (gossip.template slot).toOption.map (fun t =>
      (t.exposed (some "rumour")).any (·.symbol = "rumour")) = some true := by
    fin_cases hslot <;> decide +kernel
  rw [htext] at hexposed
  simpa using hexposed

theorem gossip_noAlarm :
    ¬ gossip.FalseAlarm "rumour" (Rule.named "rumour" [⟨0, 1⟩, ⟨1, 2⟩, ⟨2, 0⟩]) := by
  rintro (h | h | h | ⟨hslot, ht, -, h⟩)
  · exact h (by decide +kernel)
  · simp [gossip_rest.1] at h
  · simp [gossip_rest.2.1, Table.names] at h
  · have hslots : (Rule.named "rumour" [⟨0, 1⟩, ⟨1, 2⟩, ⟨2, 0⟩]).weightedSlots = [0, 1] := by
      decide +kernel
    obtain ⟨ref, href, hsymbol⟩ := gossip_exposed (hslots ▸ hslot) ht
    exact h ref href hsymbol

/-- They are reported, and they never come to an end. -/
theorem gossip_fails : gossip.Edited ∧ gossip.OverridesAre (Routine.Balanced Scripted) ∧
    Lint.endlessError "rumour" ∈ gossip.lint.errors ∧
    ∃ e c', (gossip.limited 7).expandRule "rumour" { source := .fixed 0 } = .error e c' ∧
      e ≠ .markov .unfinished := by
  have hedited : gossip.Edited := Grammar.Edited.ofChanges _
  have hoverrides : gossip.OverridesAre (Routine.Balanced Scripted) := by
    intro name f hf
    simp [gossip_rest.2.2] at hf
  have hreported : Lint.endlessError "rumour" ∈ gossip.lint.errors := by decide +kernel
  obtain ⟨r, hr, hfails⟩ := reported_rule_fails hedited hoverrides hreported
  cases gossip_rule.symm.trans hr
  have hends : (gossip.limited 7).Ends := by
    constructor <;> simp [Grammar.limited, gossip_rest]
  have ⟨_, herror⟩ := hfails.resolve_left gossip_noAlarm 7 (.fixed 0)
  exact ⟨hedited, hoverrides, hreported, herror hends⟩

/-- The value that a run ends with, if it does. -/
def Run.value? {α : Type} (act : Run σ α) (c : Context σ) : Option α :=
  match act c with
  | .ok a _ => some a
  | .error _ _ => none

/-- Rules whose names mean something else where the rules refer to them, and one that does not come to its
alternative. -/
def pound : Grammar Scripted := .ofChanges [
  .addTexts "cat" ["{cat= tom}{cat}"],
  .addRule "cow" [("{cow}", 0)],
  .addVariable "dog" "rex", .addTexts "dog" ["{dog}"],
  .addMarkov "owl" ["hoot"] { uniqueOutput := false }, .addTexts "owl" ["{owl}!"]]

/-- They are reported, and none of them fails. -/
theorem pound_alarms :
    (∀ name ∈ ["cat", "cow", "dog", "owl"], Lint.endlessError name ∈ pound.lint.errors) ∧
      (pound.expandRule "cat").value? { source := .fixed 0 } = some (some "tom") ∧
      (pound.expandRule "cow").value? { source := .fixed 0 } = some (some "") ∧
      (pound.expandRule "dog").value? { source := .fixed 0 } = some (some "rex") ∧
      (pound.expandRule "owl").value? { source := .fixed 0 } = some (some "hoot!") := by
  have hsorted : Lint.sortedRules pound = pound.rules :=
    List.mergeSort_of_pairwise (by decide +kernel)
  refine ⟨?_, by decide +kernel, by decide +kernel, by decide +kernel, by decide +kernel⟩
  unfold Grammar.lint
  rw [hsorted]
  decide +kernel

end Fabula
