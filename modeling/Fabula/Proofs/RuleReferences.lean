import Fabula.Proofs.ByValueSound
import Fabula.Proofs.EndlessRules
import Fabula.Proofs.EscapedNames
import Fabula.Proofs.Filling

/-!
# Fabula.Proofs.RuleReferences

**A rule and a text that only refers to it expand alike.** The text is a template around the rule, so it
takes one level more and opens a scope without names.

Neither is of any consequence but for the limit. An action that does the same by value at both depths
does the same inside such a template as outside of it (`Agrees.within_template`), since by value there
is no depth, and an empty scope adds no values. The level is made up for by a limit that is greater by
one; what it changes besides, for the globals, is excused until the rule alone has run out of levels
(`rule_results`).
-/

namespace Fabula

variable {σ α : Type}

/-! ### One level deeper -/

/-- An action does the same inside a template that declares nothing. -/
theorem Agrees.within_template {depth : Nat} {act : Run σ α} {effect : Bindings → Effect σ α}
    (h : Agrees depth act effect) (hinner : Agrees (depth + 1) act effect) {c : Context σ}
    (hl : c.globalsLoaded = true) (hd : c.depth = depth) :
    Run.within Context.enterTemplate Context.leaveTemplate act c = act c := by
  have heffect : act c.enterTemplate = (effect c.scopes.flatten).lift c.enterTemplate :=
    hinner c.enterTemplate hl (congrArg (· + 1) hd)
  have hworld : c.enterTemplate.world = c.world := rfl
  unfold Run.within
  rw [heffect, h c hl hd]
  unfold Effect.lift
  rw [hworld]
  cases effect c.scopes.flatten c.world <;> rfl

/-- A rule is expanded alike inside a template that declares nothing, with the same levels left. -/
theorem expandRuleWith_within [RandomSource σ] {g : Grammar σ} (hg : g.overrides = []) {levels : Nat}
    (hlevels : levels = g.settings.maxDepth) (r : Rule) {c : Context σ} (hl : c.globalsLoaded = true) :
    Run.within Context.enterTemplate Context.leaveTemplate
        (expandRuleWith g (g.evaluate levels) r) c = expandRuleWith g (g.evaluate levels) r c := by
  have hagrees : ∀ depth, EvaluatorsAgree depth (g.evaluate levels) (ByValue.evaluate g 0) :=
    fun depth => evaluate_agrees hg hlevels
  exact (expandRule_agrees (hagrees c.depth) r).within_template (expandRule_agrees (hagrees _) r) hl rfl

/-! ### The template that refers to a rule -/

namespace Template

/-- Only characters that end a symbol are written with a backslash. -/
theorem escape_of_plain {name : List Char} (h : ∀ c ∈ name, c ∉ symbolEnds) : escape name = name := by
  induction name with
  | nil => rfl
  | cons c name ih =>
    rw [List.forall_mem_cons] at h
    rw [escape_cons, ih h.2, escapeChar, if_neg h.1]
    rfl

theorem parse_plain_reference {name : String} (h : ∀ c ∈ name.toList, c ∉ symbolEnds) :
    parse ("\x7b" ++ name ++ "\x7d") = .ok (referringTo name false) := by
  have hescape := escape_of_plain h
  have hequals : name.toList.find? isDelimiter ≠ some '=' := by
    intro hfind
    exact h '=' (List.mem_of_find?_eq_some hfind) (by decide)
  have hplain := (isPlain_escape name.toList).mpr hequals
  have htext : referenceText name false = "\x7b" ++ name ++ "\x7d" := by
    simp [referenceText, hescape]
  have htemplate : (⟨"", "", [], []⟩ : Template).withReference
      (referenceText name false).toList ⟨name, [], false⟩ = referringTo name false := by
    rw [withReference, String.ofList_toList]
    rfl
  rw [← htext]
  apply Derives.parse_eq
  rw [← htemplate, toList_referenceText, if_neg Bool.false_ne_true]
  exact Derives.empty.reference (referring_escape name) hplain

theorem fill_referringTo (name value : String) : (referringTo name false).fill [value] = value := by
  have hmark : "\x7b0\x7d".toList = (mark 0).toList ++ [] := by decide
  show fillFrom #[value] "" "\x7b0\x7d".toList = value
  rw [hmark, fillFrom_mark (Nat.zero_le _), fillFrom]
  simp

end Template

open Template (referringTo)

section Reference

variable [RandomSource σ] {g : Grammar σ} {name : String} {r : Rule} {c : Context σ}
variable (hlookup : c.lookup name = none) (hmodel : g.models.get? name = none)
variable (hrule : g.rule? name = some r)
include hlookup hmodel hrule

/-- Where the name of a rule stands for it, a template that only refers to it does what it does. -/
theorem expandBody_referringTo (enter : Evaluator σ) :
    expandBody g enter (referringTo name false) none c = expandRuleWith g enter r c := by
  have hresolve : resolve g enter name c = _ := resolve_of_rule hlookup hmodel hrule
  rw [expandBody_eq]
  show (expandReferences g enter [] false [⟨name, [], false⟩] >>= conclude _ none) c = _
  unfold expandReferences expandReference
  rw [Run.bind_apply, Run.bind_apply, Run.bind_apply, hresolve, Run.bind_apply]
  cases expandRuleWith g enter r c with
  | error e d => rfl
  | ok value d =>
    cases value with
    | none => rfl
    | some value =>
      -- a template that is no alternative marks nothing, live or not
      have hfill := Template.fill_referringTo name value
      show conclude (referringTo name false) none (some ([value], _)) d = _
      cases (false || Builtin.hasUnseen r d && !false) with
      | true => rw [conclude, hfill]; rfl
      | false => rw [conclude, hfill]; rfl

theorem evaluate_referringTo (levels : Nat) :
    g.evaluate (levels + 1) (referringTo name false) none c =
      Run.within Context.enterTemplate Context.leaveTemplate
        (expandRuleWith g (g.evaluate levels) r) c := by
  have hbody := expandBody_referringTo (c := c.enterTemplate) hlookup hmodel hrule (g.evaluate levels)
  unfold Grammar.evaluate Run.within
  rw [hbody]

end Reference

/-! ### A limit that is greater by one -/

open Correspondence

theorem Grammar.overridesAre_of_nil [RandomSource σ] {g : Grammar σ} (hg : g.overrides = [])
    (ok : Routine → Prop) : g.OverridesAre ok := by
  intro name f hf
  rw [hg] at hf
  cases hf

section Limits

variable [RandomSource σ] {g : Grammar σ} (hg : g.overrides = []) (limit : Nat)
include hg

theorem limited_grammars : (same ExpandError.IsTooDeep).Grammars (g.limited limit)
    (g.limited (limit + 1)) :=
  same_grammars (g := g.limited limit) (Grammar.overridesAre_of_nil hg _) { maxDepth := limit + 1 }

theorem limited_evaluators {levels levels' : Nat} (hle : levels ≤ levels') (depth : Nat) :
    (same ExpandError.IsTooDeep).Evaluators (g.limited limit) depth
      ((g.limited limit).evaluate levels) ((g.limited (limit + 1)).evaluate levels') :=
  evaluate_evaluators same_lawful same_trackless (limited_grammars hg limit)
    (.inr ⟨hle, fun limit source => ⟨limit, source, rfl⟩⟩) depth

variable {name : String} {r : Rule} (hmodel : g.models.get? name = none)
variable (hrule : g.rule? name = some r)
include hmodel hrule

/-- Unless it runs out of levels, a rule does what a template does that only refers to it, once the
globals are there. -/
theorem rule_results {c : Context σ} (hl : c.globalsLoaded = true) (hlookup : c.lookup name = none) :
    (same ExpandError.IsTooDeep).Results c.depth
      (expandRuleWith (g.limited limit) ((g.limited limit).evaluate limit) r c)
      ((g.limited (limit + 1)).evaluate (limit + 1) (referringTo name false) none c) := by
  have hwithin : _ = expandRuleWith (g.limited limit) ((g.limited limit).evaluate limit) r c :=
    expandRuleWith_within (g := g.limited limit) hg rfl r hl
  have hreference := evaluate_referringTo (g := g.limited (limit + 1)) hlookup hmodel hrule limit
  have hinner := expandRuleWith_runs (limited_evaluators hg limit (Nat.le_refl limit) (c.depth + 1))
    (limited_grammars hg limit) same_lawful (.refl (fun _ => rfl) r)
  rw [hreference, ← hwithin]
  exact Runs.within hinner (fun c d hcd => hcd.enterTemplate) (fun c d hcd => hcd.leaveTemplate) c c
    (same_contexts rfl)

end Limits

/-- Once the globals are there, only their names have a value. -/
theorem globals_clear [RandomSource σ] {g : Grammar σ} (hg : g.overrides = []) {name : String}
    (hglobal : name ∉ g.globals.names) (levels : Nat) {s : σ} {c : Context σ}
    (h : assignAll (g.evaluate levels) g.globals (Context.enterGlobals { source := s }) = .ok () c) :
    c.depth = 0 ∧ c.globalsLoaded = true ∧ c.lookup name = none := by
  have hheight := Context.SameHeight.invariant.evaluate_keeps (Grammar.overridesKeep_of_nil hg) levels
  have hplace := Context.SamePlace.invariant.evaluate_keeps (Grammar.overridesKeep_of_nil hg) levels
  have hstart : (Context.enterGlobals { source := s }).Clear {name} := ⟨rfl, fun _ _ => rfl⟩
  have hnames : ∀ e ∈ g.globals, e.1 ∉ ({name} : Set String) := by
    rintro e he rfl
    exact hglobal (Table.mem_names_of_mem he)
  have hclear := assignAll_clear hheight hplace hnames _ () c hstart h
  have hinner := (Context.SamePlace.invariant.assignAll_keeps hplace g.globals).of_ok h
  exact ⟨hinner.depth, hinner.globalsLoaded, hclear.lookup name rfl⟩

/-! ### Expanding the rule and the text -/

/-- In a new context the globals are evaluated before a rule is expanded. -/
theorem Grammar.expandRule_new [RandomSource σ] {g : Grammar σ} {name : String} {r : Rule}
    (hrule : g.rule? name = some r) (s : σ) :
    g.expandRule name { source := s } =
      Run.within Context.enterGlobals Context.leaveGlobals
        (assignAll (g.evaluate g.settings.maxDepth) g.globals >>= fun _ =>
          expandRuleWith g (g.evaluate g.settings.maxDepth) r) { source := s } := by
  unfold Grammar.expandRule Grammar.engineAt
  rw [Run.get_bind, engineWith_rule hrule]
  exact withGlobals_of_not_loaded rfl

section Entries

variable [RandomSource σ] {g : Grammar σ} (hg : g.overrides = []) {name : String} {r : Rule}
variable (hrule : g.rule? name = some r) (hglobal : name ∉ g.globals.names)
variable (hmodel : g.models.get? name = none) (limit : Nat) (s : σ)
include hg hrule hglobal hmodel

theorem entries_results :
    (same ExpandError.IsTooDeep).Results 0
      ((g.limited limit).expandRule name { source := s })
      (((g.limited (limit + 1)).engineAt 0).expandTemplate (referringTo name false)
        { source := s }) := by
  have hleft : (g.limited limit).expandRule name { source := s } =
      Run.within Context.enterGlobals Context.leaveGlobals
        (assignAll ((g.limited limit).evaluate limit) g.globals >>= fun _ =>
          expandRuleWith (g.limited limit) ((g.limited limit).evaluate limit) r) { source := s } :=
    Grammar.expandRule_new (g := g.limited limit) hrule s
  have hright : ((g.limited (limit + 1)).engineAt 0).expandTemplate (referringTo name false)
        { source := s } =
      Run.within Context.enterGlobals Context.leaveGlobals
        (assignAll ((g.limited (limit + 1)).evaluate (limit + 1)) g.globals >>= fun _ =>
          (g.limited (limit + 1)).evaluate (limit + 1) (referringTo name false) none)
        { source := s } :=
    withGlobals_of_not_loaded rfl
  rw [hleft, hright]
  refine Results.within ?_ fun c d hcd => hcd.leaveGlobals
  have hglobals := assignAll_runs (limited_evaluators hg limit (Nat.le_succ limit) 0) g.globals
    (Context.enterGlobals { source := s }) _ (same_contexts rfl)
  have hclear := fun c => globals_clear (g := g.limited limit) hg hglobal limit (s := s) (c := c)
  rw [Run.bind_apply, Run.bind_apply]
  change ∀ c, assignAll ((g.limited limit).evaluate limit) g.globals _ = _ → _ at hclear
  generalize assignAll ((g.limited limit).evaluate limit) g.globals
      (Context.enterGlobals { source := s }) = left,
    assignAll ((g.limited (limit + 1)).evaluate (limit + 1)) g.globals
      (Context.enterGlobals { source := s }) = right at hglobals hclear
  cases hglobals with
  | @ok u c d h =>
    -- the globals leave the same context behind, in which the name still stands for its rule
    obtain rfl := h.eq_of_same
    obtain ⟨hdepth, hl, hlookup⟩ := hclear _ rfl
    have hresults := rule_results hg limit hmodel hrule hl hlookup
    rwa [hdepth] at hresults
  | error e h => exact .error e h
  | excused h => exact .excused h

end Entries

/-- **A rule and a text that refers to it expand alike.** In a grammar without modifiers of its own, let
the name of a rule stand for it, no global variable and no model having that name, and hold no character
that ends a symbol. What the rule gives under a limit in a new context, the text gives in a new context
under a limit that is greater by one; and unless templates nest too deep, it fails as the rule does. In
both cases the same context is left behind, and so the same draws have been taken. -/
theorem expandIn_reference [RandomSource σ] {g : Grammar σ} (hg : g.overrides = []) {name : String}
    {r : Rule} (hrule : g.rule? name = some r) (hglobal : name ∉ g.globals.names)
    (hmodel : g.models.get? name = none) (hplain : ∀ c ∈ name.toList, c ∉ Template.symbolEnds)
    (limit : Nat) (s : σ) :
    (∀ value c, (g.limited limit).expandRule name { source := s } = .ok (some value) c →
      (g.limited (limit + 1)).expandIn ("\x7b" ++ name ++ "\x7d") { source := s } = .ok value c) ∧
    ∀ e c, (g.limited limit).expandRule name { source := s } = .error e c → ¬ e.IsTooDeep →
      (g.limited (limit + 1)).expandIn ("\x7b" ++ name ++ "\x7d") { source := s } = .error e c := by
  have hexpand : (g.limited (limit + 1)).expandIn ("\x7b" ++ name ++ "\x7d") { source := s } =
      ((·.getD "") <$> ((g.limited (limit + 1)).engineAt 0).expandTemplate (referringTo name false))
        { source := s } := by
    unfold Grammar.expandIn Engine.expand
    rw [Run.get_bind, Template.parse_plain_reference hplain]
    rfl
  rw [hexpand, Run.map_apply]
  have hresults := (entries_results hg hrule hglobal hmodel limit s).eq_of_same
  constructor
  · intro value c hok
    rcases hresults with heq | ⟨e, c', herror, -⟩
    · rw [heq, hok]
      rfl
    · rw [hok] at herror
      cases herror
  · intro e c hfault hshallow
    rcases hresults with heq | ⟨e', c', herror, hdeep⟩
    · rw [heq, hfault]
    · rw [hfault] at herror
      cases herror
      exact absurd hdeep hshallow

/-- What a rule gives, if it gives anything. -/
def Grammar.ruleText? [RandomSource σ] (g : Grammar σ) (name : String) (s : σ) : Option String :=
  match g.expandRule name { source := s } with
  | .ok value _ => value
  | .error _ _ => none

/-- A greeting fits a limit of one, and a text that refers to it a limit of two. -/
theorem greetings_reference : ∃ c,
    (greetings.limited 1).expandRule "greeting" { source := .fixed 0 } = .ok (some "Hello Ann") c ∧
      (greetings.limited 2).expandIn "{greeting}" { source := .fixed 0 } = .ok "Hello Ann" c := by
  have htext : (greetings.limited 1).ruleText? "greeting" (.fixed 0) = some "Hello Ann" := by
    decide +kernel
  unfold Grammar.ruleText? at htext
  split at htext
  · rename_i value c hok
    subst htext
    have hrule : greetings.rule? "greeting" = some (Rule.ofAlternatives [⟨0, 1⟩, ⟨1, 2⟩]) := rfl
    have hglobal : "greeting" ∉ greetings.globals.names := by decide
    have hplain : ∀ c ∈ "greeting".toList, c ∉ Template.symbolEnds := by simp [Template.symbolEnds]
    have hexpand := (expandIn_reference rfl hrule hglobal rfl hplain 1 (.fixed 0)).1 "Hello Ann" c hok
    exact ⟨c, hok, hexpand⟩
  · cases htext

end Fabula
