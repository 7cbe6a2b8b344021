import Fabula.Proofs.Checked
import Fabula.Proofs.NestedTemplates
import Fabula.Proofs.Untracked
import Fabula.Random.Scripted

/-!
# Fabula.Proofs.Decorators

**Decorators make no difference while nothing is tracked.** A decorator is a reference that does not count
when it is asked whether a template can still say something new. The answer decides which alternatives
are marked as seen, and where no tracker is active there is nothing to mark them in
(`Context.Untracked.markSeen`).

So two runs are compared, of templates that differ in their decorators (`Template.Redecorated`) with
grammars that do (`Grammar.Redecorated`), from one context without trackers. They stay in one context
(`Run.Alike`), as long as nobody activates a tracker: the built-in modifier that does is left out of the
comparison. What the two runs find live may be different at every step, and is dropped.
-/

namespace Fabula

variable {σ α β : Type}

/-! ### Templates that differ in their decorators -/

/-- The reference as if it were no decorator. -/
def Reference.undecorated (r : Reference) : Reference := { r with decorator := false }

namespace Template

/-- The template as if it had no decorators, at any depth; so what was written is forgotten. -/
def undecorated : Template → Template
  | ⟨_, pattern, references, declarations⟩ =>
    ⟨"", pattern, references.map Reference.undecorated, undecoratedAll declarations⟩
where
  /-- Declarations as if they had no decorators. -/
  undecoratedAll : List (String × Template) → List (String × Template)
    | [] => []
    | (name, t) :: rest => (name, t.undecorated) :: undecoratedAll rest

/-- The templates differ in nothing but their decorators. -/
def Redecorated (t t' : Template) : Prop := t.undecorated = t'.undecorated

theorem undecoratedAll_eq (declarations : List (String × Template)) :
    undecorated.undecoratedAll declarations = declarations.map fun e => (e.1, e.2.undecorated) := by
  induction declarations with
  | nil => rfl
  | cons e declarations ih => simp [undecorated.undecoratedAll, ih]

/-- Two declarations of one name, the values of which differ in nothing but their decorators. -/
def RedecoratedDeclaration (e e' : String × Template) : Prop := e.1 = e'.1 ∧ e.2.Redecorated e'.2

/-- Such templates have the same pattern, the same references but for the decorators, and the same
declarations but for theirs. -/
theorem Redecorated.inv {t t' : Template} (h : t.Redecorated t') :
    t'.pattern = t.pattern ∧
      List.Forall₂ (fun r r' => r.undecorated = r'.undecorated) t.references t'.references ∧
      List.Forall₂ RedecoratedDeclaration t.declarations t'.declarations := by
  obtain ⟨source, pattern, references, declarations⟩ := t
  obtain ⟨source', pattern', references', declarations'⟩ := t'
  simp only [Redecorated, undecorated, undecoratedAll_eq, mk.injEq, true_and] at h
  obtain ⟨hpattern, hreferences, hdeclarations⟩ := h
  refine ⟨hpattern.symm, ?_, ?_⟩
  · rwa [← List.forall₂_eq_eq_eq, List.forall₂_map_left_iff, List.forall₂_map_right_iff]
      at hreferences
  · rw [← List.forall₂_eq_eq_eq, List.forall₂_map_left_iff, List.forall₂_map_right_iff]
      at hdeclarations
    exact hdeclarations.imp fun e e' h => ⟨(Prod.mk.inj h).1, (Prod.mk.inj h).2⟩

/-- The template does not ask for different expansions of a rule, at any depth. -/
def NoUniques (t : Template) : Prop :=
  ∀ u ∈ t.walk, ∀ r ∈ u.references, ∀ call ∈ r.calls, call.name ≠ Builtin.uniques.name

theorem NoUniques.value {t : Template} (h : t.NoUniques) {e : String × Template}
    (he : e ∈ t.declarations) : e.2.NoUniques :=
  fun u hu => h u (mem_walk_of_value he hu)

end Template

namespace Grammar

/-- The grammars differ in nothing but the decorators in alternatives and global variables. A text that
cannot be read has no decorators. -/
structure Redecorated (g g' : Grammar σ) : Prop where
  /-- The rules have the same alternatives with the same weights. -/
  rules : g'.rules = g.rules
  /-- The text of an alternative is the same, or is read as a template that differs in decorators. -/
  texts : ∀ slot, g'.text slot = g.text slot ∨
    ∃ t t', g.template slot = .ok t ∧ g'.template slot = .ok t' ∧ t.Redecorated t'
  /-- The global variables differ in decorators. -/
  globals : List.Forall₂ Template.RedecoratedDeclaration g.globals g'.globals
  /-- The models are the same. -/
  models : g'.models = g.models
  /-- The registered modifiers are the same. -/
  overrides : g'.overrides = g.overrides
  /-- The limits are the same. -/
  settings : g'.settings = g.settings

theorem Redecorated.rule?_eq {g g' : Grammar σ} (h : g.Redecorated g') (name : String) :
    g'.rule? name = g.rule? name := by
  rw [rule?, rule?, h.rules]

/-- Either both alternatives at a place can be read, or neither can, for the same reason. -/
theorem Redecorated.template_cases {g g' : Grammar σ} (h : g.Redecorated g') (slot : Slot) :
    (∃ t t', g.template slot = .ok t ∧ g'.template slot = .ok t' ∧ t.Redecorated t') ∨
      ∃ e, g.template slot = .error e ∧ g'.template slot = .error e := by
  rcases h.texts slot with htext | hread
  · have hsame : g'.template slot = g.template slot := congrArg Template.parse htext
    rw [hsame]
    cases g.template slot with
    | ok t => exact .inl ⟨t, t, rfl, rfl, rfl⟩
    | error e => exact .inr ⟨e, rfl, rfl⟩
  · exact .inl hread

/-- No template of the grammar asks for different expansions of a rule. -/
def NoUniques (g : Grammar σ) : Prop := ∀ t, g.Holds t → t.NoUniques

end Grammar

/-! ### Runs that are alike -/

/-- The errors are the same but for the text of a template that they quote. -/
def ExpandError.SameButText (e e' : ExpandError) : Prop :=
  e = e' ∨ ∃ limit source source', e = .tooDeep limit source ∧ e' = .tooDeep limit source'

open Context (Untracked SameHeight)

namespace Run

/-- Two runs have ended in one context without trackers: with values that are related, or with errors that
are the same but for the text of a template. -/
inductive Outcomes (rel : α → β → Prop) :
    EStateM.Result ExpandError (Context σ) α → EStateM.Result ExpandError (Context σ) β → Prop
  /-- Both have given values. -/
  | ok {a : α} {b : β} {c : Context σ} (hc : c.Untracked) (h : rel a b) :
    Outcomes rel (.ok a c) (.ok b c)
  /-- Both have failed. -/
  | error {e e' : ExpandError} {c : Context σ} (hc : c.Untracked) (h : e.SameButText e') :
    Outcomes rel (.error e c) (.error e' c)

/-- From every context without trackers, the actions come to such outcomes. -/
def Alike (rel : α → β → Prop) (act : Run σ α) (act' : Run σ β) : Prop :=
  ∀ c, c.Untracked → Outcomes rel (act c) (act' c)

theorem Alike.pure {rel : α → β → Prop} {a : α} {b : β} (h : rel a b) :
    Alike rel (Pure.pure a : Run σ α) (Pure.pure b) := fun _ hc => .ok hc h

theorem Alike.throw {rel : α → β → Prop} {e e' : ExpandError} (h : e.SameButText e') :
    Alike rel (throw e : Run σ α) (throw e') := fun _ hc => .error hc h

/-- An action that leaves no trackers behind is like itself. -/
theorem Alike.refl {act : Run σ α} (h : Keeps SameHeight act) : Alike Eq act act := by
  intro c hc
  cases ha : act c with
  | ok a c' => exact .ok (hc.sameHeight (h.of_ok ha)) rfl
  | error e c' => exact .error (hc.sameHeight (h.of_error ha)) (.inl rfl)

theorem Alike.bind {α' β' : Type} {rel : α → α' → Prop} {rel' : β → β' → Prop} {act : Run σ α}
    {act' : Run σ α'} {f : α → Run σ β} {f' : α' → Run σ β'} (h : Alike rel act act')
    (hf : ∀ a b, rel a b → Alike rel' (f a) (f' b)) : Alike rel' (act >>= f) (act' >>= f') := by
  intro c hc
  have hact := h c hc
  rw [bind_apply, bind_apply]
  generalize act c = r, act' c = r' at hact
  cases hact with
  | ok hc₁ hab => exact hf _ _ hab _ hc₁
  | error hc₁ he => exact .error hc₁ he

theorem Alike.within {rel : α → β → Prop} {enter leave : Context σ → Context σ} {act : Run σ α}
    {act' : Run σ β} (h : Alike rel act act') (henter : ∀ c, c.Untracked → (enter c).Untracked)
    (hleave : ∀ c, c.Untracked → (leave c).Untracked) :
    Alike rel (Run.within enter leave act) (Run.within enter leave act') := by
  intro c hc
  have hact := h (enter c) (henter c hc)
  unfold Run.within
  generalize act (enter c) = r, act' (enter c) = r' at hact
  cases hact with
  | ok hc₁ hab => exact .ok (hleave _ hc₁) hab
  | error hc₁ he => exact .error (hleave _ hc₁) he

end Run

open Run (Alike)

/-! ### What a template comes to -/

/-- Without trackers nothing is marked, and what is live does not count. -/
theorem conclude_untracked (t : Template) (slot : Option Slot) (found : Option (List String × Bool))
    {c : Context σ} (hc : c.Untracked) :
    conclude t slot found c = .ok (found.map fun p => t.fill p.1) c := by
  have hmark : (markSeen slot : Run σ Unit) c = .ok () c := by
    cases slot with
    | none => rfl
    | some slot =>
      show EStateM.Result.ok () (c.markSeen slot) = _
      rw [hc.markSeen]
  obtain _ | ⟨values, _ | _⟩ := found
  · rw [conclude, Run.bind_apply, hmark]
    rfl
  · rw [conclude, Run.bind_apply, hmark]
    rfl
  · rfl

/-- The built-in modifiers but one do not ask for expansions. -/
theorem Builtin.apply_engine [RandomSource σ] {b : Builtin} (hb : b ≠ .uniques) (g g' : Grammar σ)
    (engine engine' : Engine σ) (value : String) (args : List Argument) :
    b.apply g engine value args = b.apply g' engine' value args := by
  cases b with
  | uniques => exact absurd rfl hb
  | _ => rfl

/-! ### Templates one level below that are alike -/

/-- The two evaluators expand templates alike that differ in decorators and ask for no different
expansions of a rule. -/
def Evaluator.Alike (enter enter' : Evaluator σ) : Prop :=
  ∀ t t' slot, t.Redecorated t' → t.NoUniques → Run.Alike Eq (enter t slot) (enter' t' slot)

section Inside

variable {g g' : Grammar σ} {enter enter' : Evaluator σ} (henter : enter.Alike enter')

section Declarations

include henter

theorem assignAll_alike {declarations declarations' : List (String × Template)}
    (h : List.Forall₂ Template.RedecoratedDeclaration declarations declarations')
    (hnone : ∀ e ∈ declarations, e.2.NoUniques) :
    Alike Eq (assignAll enter declarations) (assignAll enter' declarations') := by
  induction h with
  | nil => exact .pure rfl
  | @cons e e' rest rest' he _ ih =>
    obtain ⟨name, t⟩ := e
    obtain ⟨name', t'⟩ := e'
    obtain ⟨rfl, ht⟩ := he
    rw [List.forall_mem_cons] at hnone
    refine Alike.bind (henter t t' none ht hnone.1) ?_
    rintro value _ rfl
    refine Alike.bind (.refl fun c => SameHeight.invariant.assign c name _) ?_
    rintro _ _ rfl
    exact ih hnone.2

variable (hg : g.Redecorated g') (hnone : g.NoUniques)
include hg hnone

theorem withGlobals_alike {act act' : Run σ α} (h : Alike Eq act act') :
    Alike Eq (withGlobals g enter act) (withGlobals g' enter' act') := by
  have hglobals := assignAll_alike henter hg.globals fun e he => hnone e.2 (.inr ⟨e.1, he⟩)
  intro c hc
  cases hloaded : c.globalsLoaded with
  | true =>
    rw [withGlobals_of_loaded hloaded, withGlobals_of_loaded hloaded]
    exact h c hc
  | false =>
    rw [withGlobals_of_not_loaded hloaded, withGlobals_of_not_loaded hloaded]
    have hwithin : Alike Eq
        (Run.within Context.enterGlobals Context.leaveGlobals
          (assignAll enter g.globals >>= fun _ => act))
        (Run.within Context.enterGlobals Context.leaveGlobals
          (assignAll enter' g'.globals >>= fun _ => act')) :=
      (hglobals.bind fun _ _ _ => h).within (fun _ hc => hc) fun _ hc => hc
    exact hwithin c hc

variable [RandomSource σ]

theorem expandRuleWith_alike {r : Rule} {name : String} (hr : g.rule? name = some r) :
    Alike Eq (expandRuleWith g enter r) (expandRuleWith g' enter' r) := by
  intro c hc
  cases hpicked : (r.pick c.excluded c.source).1 with
  | none =>
    have hpick : Run.pick r c = .ok none (c.afterPick r) := by rw [pick_apply, hpicked]
    rw [expandRuleWith_of_none hpick, expandRuleWith_of_none hpick]
    exact .ok hc rfl
  | some slot =>
    have hpick : Run.pick r c = .ok (some slot) (c.afterPick r) := by rw [pick_apply, hpicked]
    rw [expandRuleWith_of_some hpick, expandRuleWith_of_some hpick]
    rcases hg.template_cases slot with ⟨t, t', ht, ht', h⟩ | ⟨e, he, he'⟩
    · rw [ht, ht']
      have hslot : slot ∈ r.slots := r.weightedSlots_subset (Rule.pick_mem hpicked)
      have hholds : g.Holds t := .inl ⟨name, r, hr, slot, hslot, ht⟩
      exact henter t t' (some slot) h (hnone t hholds) (c.afterPick r) hc
    · rw [he, he']
      exact .error hc (.inl rfl)

end Declarations

variable [RandomSource σ] (hg : g.Redecorated g') (hnone : g.NoUniques) (hbuiltin : g.overrides = [])
variable (hkeeps : ∀ t slot, Run.Keeps SameHeight (enter t slot))

section Modifiers

include hg hbuiltin hkeeps

/-- Modifiers that are built in do not ask for anything, but for the one that is left out. -/
theorem applyModifier_alike {call : ModifierCall} (hcall : call.name ≠ Builtin.uniques.name)
    (value : String) :
    Alike Eq (applyModifier g (engineWith g enter) call value)
      (applyModifier g' (engineWith g' enter') call value) := by
  have hget : g.overrides.get? call.name = none := by rw [hbuiltin]; rfl
  have hget' : g'.overrides.get? call.name = none := by rw [hg.overrides, hget]
  cases hb : Builtin.ofName? call.name with
  | none =>
    rw [applyModifier_of_unknown hget hb, applyModifier_of_unknown hget' hb]
    exact .throw (.inl rfl)
  | some b =>
    have hne : b ≠ .uniques := by
      rintro rfl
      exact hcall (Builtin.name_of_ofName? hb).symm
    rw [applyModifier_of_builtin hget hb, applyModifier_of_builtin hget' hb,
      ← Builtin.apply_engine hne g g' (engineWith g enter)]
    exact .refl (SameHeight.invariant.builtin_keeps g b
      (SameHeight.invariant.engineWith_keeps hkeeps) value call.args)

theorem applyModifiers_alike {calls : List ModifierCall}
    (hcalls : ∀ call ∈ calls, call.name ≠ Builtin.uniques.name) (value : String) :
    Alike Eq (applyModifiers g (engineWith g enter) calls value)
      (applyModifiers g' (engineWith g' enter') calls value) := by
  induction calls generalizing value with
  | nil => exact .pure rfl
  | cons call calls ih =>
    rw [List.forall_mem_cons] at hcalls
    refine (applyModifier_alike hg hbuiltin hkeeps hcalls.1 value).bind ?_
    rintro value _ rfl
    exact ih hcalls.2 value

end Modifiers

include henter hg hnone

theorem resolve_alike (name : String) : Alike Eq (resolve g enter name) (resolve g' enter' name) := by
  intro c hc
  cases hlookup : c.lookup name with
  | some value =>
    rw [resolve_of_lookup hlookup, resolve_of_lookup hlookup]
    exact .ok hc rfl
  | none =>
    cases hm : g.models.get? name with
    | some m =>
      have hm' : g'.models.get? name = some m := by rw [hg.models, hm]
      rw [resolve_of_model hlookup hm, resolve_of_model hlookup hm']
      exact Alike.refl (SameHeight.invariant.bind_keeps
        (SameHeight.invariant.resolveMarkov_keeps name m _)
        fun _ => SameHeight.invariant.pure_keeps _) c hc
    | none =>
      have hm' : g'.models.get? name = none := by rw [hg.models, hm]
      cases hr : g.rule? name with
      | some r =>
        have hr' : g'.rule? name = some r := by rw [hg.rule?_eq, hr]
        rw [resolve_of_rule hlookup hm hr, resolve_of_rule hlookup hm' hr']
        refine Alike.bind (expandRuleWith_alike henter hg hnone hr) ?_ c hc
        rintro value _ rfl
        exact fun c hc => .ok hc rfl
      | none =>
        have hr' : g'.rule? name = none := by rw [hg.rule?_eq, hr]
        rw [resolve_of_unknown hlookup hm hr, resolve_of_unknown hlookup hm' hr']
        split
        · exact .ok hc rfl
        · exact .error hc (.inl rfl)

include hbuiltin hkeeps

theorem expandReference_alike {r r' : Reference} (h : r.undecorated = r'.undecorated)
    (hcalls : ∀ call ∈ r.calls, call.name ≠ Builtin.uniques.name) :
    Alike Eq (expandReference g enter r) (expandReference g' enter' r') := by
  obtain ⟨symbol, calls, decorator⟩ := r
  obtain ⟨symbol', calls', decorator'⟩ := r'
  cases h
  refine Alike.bind (resolve_alike henter hg hnone symbol) ?_
  rintro found _ rfl
  cases found with
  | none => exact .pure rfl
  | some resolved =>
    refine (applyModifiers_alike hg hbuiltin hkeeps hcalls resolved.value).bind ?_
    rintro value _ rfl
    exact .pure rfl

/-- The values are the same, whatever has come out live. -/
theorem expandReferences_alike {references references' : List Reference}
    (h : List.Forall₂ (fun r r' => r.undecorated = r'.undecorated) references references')
    (hcalls : ∀ r ∈ references, ∀ call ∈ r.calls, call.name ≠ Builtin.uniques.name)
    (values : List String) (live live' : Bool) :
    Alike (fun found found' => found.map Prod.fst = found'.map Prod.fst)
      (expandReferences g enter values live references)
      (expandReferences g' enter' values live' references') := by
  induction h generalizing values live live' with
  | nil => exact .pure rfl
  | cons hr _ ih =>
    rw [List.forall_mem_cons] at hcalls
    refine (expandReference_alike henter hg hnone hbuiltin hkeeps hr hcalls.1).bind ?_
    rintro found _ rfl
    cases found with
    | none => exact .pure rfl
    | some resolved => exact ih hcalls.2 _ _ _

theorem expandBody_alike {t t' : Template} (h : t.Redecorated t') (ht : t.NoUniques)
    (slot : Option Slot) : Alike Eq (expandBody g enter t slot) (expandBody g' enter' t' slot) := by
  obtain ⟨hpattern, hreferences, hdeclarations⟩ := h.inv
  rw [expandBody_eq, expandBody_eq]
  refine Alike.bind (assignAll_alike henter hdeclarations fun e he => ht.value he) ?_
  rintro ⟨⟩ ⟨⟩ -
  refine Alike.bind (expandReferences_alike henter hg hnone hbuiltin hkeeps hreferences
    (ht t (Template.mem_walk_self t)) [] false false) ?_
  intro found found' hfound c hc
  rw [conclude_untracked t slot found hc, conclude_untracked t' slot found' hc]
  refine .ok hc ?_
  have hfill : t'.fill = t.fill := by
    funext values
    rw [Template.fill, Template.fill, hpattern]
  simpa [hfill, Option.map_map, Function.comp_def] using congrArg (Option.map t.fill) hfound

end Inside

/-! ### Whole expansions -/

section Whole

variable [RandomSource σ] {g g' : Grammar σ} (hg : g.Redecorated g') (hnone : g.NoUniques)
variable (hbuiltin : g.overrides = [])
include hg hnone hbuiltin

/-- Templates that differ in decorators are expanded alike, at every level. -/
theorem evaluate_alike (levels : Nat) : Evaluator.Alike (g.evaluate levels) (g'.evaluate levels) := by
  induction levels with
  | zero =>
    intro t t' slot _ _
    exact .throw (.inr ⟨_, _, _, rfl, by rw [hg.settings]⟩)
  | succ levels ih =>
    intro t t' slot h ht
    have hkeeps := SameHeight.invariant.evaluate_keeps (Grammar.overridesKeep_of_nil hbuiltin) levels
    exact (expandBody_alike ih hg hnone hbuiltin hkeeps h ht slot).within (fun _ hc => hc)
      fun _ hc => hc

theorem expandTemplate_alike {t t' : Template} (h : t.Redecorated t') (ht : t.NoUniques) :
    Alike Eq (g.expandTemplate t) (g'.expandTemplate t') := by
  intro c hc
  have henter := evaluate_alike hg hnone hbuiltin (g.settings.maxDepth - c.depth)
  show Run.Outcomes Eq ((g.engineAt c.depth).expandTemplate t c)
    ((g'.engineAt c.depth).expandTemplate t' c)
  unfold Grammar.engineAt
  rw [hg.settings]
  exact withGlobals_alike henter hg hnone (henter t t' none h ht) c hc

theorem expandRule_alike (name : String) : Alike Eq (g.expandRule name) (g'.expandRule name) := by
  intro c hc
  have henter := evaluate_alike hg hnone hbuiltin (g.settings.maxDepth - c.depth)
  show Run.Outcomes Eq ((g.engineAt c.depth).expandRule name c)
    ((g'.engineAt c.depth).expandRule name c)
  unfold Grammar.engineAt
  rw [hg.settings]
  cases hr : g.rule? name with
  | some r =>
    rw [engineWith_rule hr, engineWith_rule ((hg.rule?_eq name).trans hr)]
    exact withGlobals_alike henter hg hnone (expandRuleWith_alike henter hg hnone hr) c hc
  | none =>
    rw [engineWith_unknown hr, engineWith_unknown ((hg.rule?_eq name).trans hr)]
    exact .error hc (.inl rfl)

end Whole

/-- **Without trackers, tracking is invisible.** With the modifiers that are built in, a template or a rule
that is expanded in a context without trackers gives a text or fails, and leaves no tracker behind. If
nothing asks for different expansions of a rule, then decorators make no difference: with other ones, the
same text comes out or the same error, but for the text of a template that it quotes, and the context is
the same afterwards, so the same draws have been taken. -/
theorem untracked_expansions [RandomSource σ] {g : Grammar σ} (hbuiltin : g.overrides = []) :
    (∀ c : Context σ, c.trackers = [] →
      (∀ t, (∀ c', g.expandTemplate t c ≠ .ok none c') ∧
        ((g.expandTemplate t).after c).trackers = []) ∧
      ∀ name, (∀ c', g.expandRule name c ≠ .ok none c') ∧
        ((g.expandRule name).after c).trackers = []) ∧
    ∀ g' : Grammar σ, g.Redecorated g' → g.NoUniques → ∀ c : Context σ, c.trackers = [] →
      (∀ t t', t.Redecorated t' → t.NoUniques →
        Run.Outcomes Eq (g.expandTemplate t c) (g'.expandTemplate t' c)) ∧
      ∀ name, Run.Outcomes Eq (g.expandRule name c) (g'.expandRule name c) := by
  have hheight : g.OverridesKeep SameHeight := Grammar.overridesKeep_of_nil hbuiltin
  refine ⟨fun c hc => ?_, fun g' hg hnone c hc => ⟨fun t t' h ht => ?_, fun name => ?_⟩⟩
  · obtain ⟨htemplate, hrule⟩ := engineAt_answers hheight c.depth
    have hkeeps := SameHeight.invariant.engineAt_keeps hheight c.depth
    refine ⟨fun t => ⟨fun c' h => ?_, ?_⟩, fun name => ⟨fun c' h => ?_, ?_⟩⟩
    · exact htemplate t c none c' hc h rfl
    · exact Untracked.sameHeight hc (hkeeps.template t c)
    · exact hrule name c none c' hc h rfl
    · exact Untracked.sameHeight hc (hkeeps.rule name c)
  · exact expandTemplate_alike hg hnone hbuiltin h ht c hc
  · exact expandRule_alike hg hnone hbuiltin name c hc

/-! ### Birds -/

/-- A verse on two birds. -/
def verse : Template where
  source := "{who= {bird}}{who} and {song.capitalize}"
  pattern := "{0} and {1}"
  references := [⟨"who", [], false⟩, ⟨"song", [⟨"capitalize", []⟩], false⟩]
  declarations := [("who", ⟨"{bird}", "{0}", [⟨"bird", [], false⟩], []⟩)]

/-- The same verse, decorated throughout. -/
def decoratedVerse : Template where
  source := "{who= {{bird}}}{{who}} and {{song.capitalize}}"
  pattern := "{0} and {1}"
  references := [⟨"who", [], true⟩, ⟨"song", [⟨"capitalize", []⟩], true⟩]
  declarations := [("who", ⟨"{{bird}}", "{0}", [⟨"bird", [], true⟩], []⟩)]

/-- Verses and their birds, and a verse that cannot be read. -/
def verses : Grammar Scripted where
  rules := [
    ("verse", Rule.ofAlternatives [⟨0, 1⟩, ⟨1, 1⟩]),
    ("bird", Rule.ofAlternatives [⟨2, 1⟩, ⟨3, 1⟩])]
  store := #[verse.source, "\x7bbroken", "owl", "cock"]
  globals := [("song", ⟨"{bird}s", "{0}s", [⟨"bird", [], false⟩], []⟩)]

/-- The same grammar, decorated. -/
def decoratedVerses : Grammar Scripted := { verses with
  store := #[decoratedVerse.source, "\x7bbroken", "owl", "cock"]
  globals := [("song", ⟨"{{bird}}s", "{0}s", [⟨"bird", [], true⟩], []⟩)] }

theorem verses_template {slot : Slot} {t : Template} (ht : verses.template slot = .ok t) :
    some t = match slot with
    | 0 => some verse
    | 1 => none
    | 2 => some ⟨"owl", "owl", [], []⟩
    | 3 => some ⟨"cock", "cock", [], []⟩
    | _ => some ⟨"", "", [], []⟩ := by
  have htext : some t = (verses.template slot).toOption := by rw [ht]; rfl
  rw [htext]
  match slot with
  | 0 | 1 | 2 | 3 | n + 4 => with_unfolding_all rfl

theorem verses_redecorated : verses.Redecorated decoratedVerses where
  rules := rfl
  texts := by
    intro slot
    match slot with
    | 0 =>
      have hverse : verses.template 0 = .ok verse := by with_unfolding_all rfl
      have hdecorated : decoratedVerses.template 0 = .ok decoratedVerse := by with_unfolding_all rfl
      exact .inr ⟨verse, decoratedVerse, hverse, hdecorated, rfl⟩
    | 1 | 2 | 3 | n + 4 => exact .inl rfl
  globals := .cons ⟨rfl, rfl⟩ .nil
  models := rfl
  overrides := rfl
  settings := rfl

theorem verse_noUniques : verse.NoUniques := by
  have hname : ("capitalize" : String) ≠ Builtin.uniques.name := by decide
  simp [Template.NoUniques, verse, Template.walk, Template.walk.walkAll, hname]

theorem verses_noUniques : verses.NoUniques := by
  rintro t (⟨-, r, -, slot, -, ht⟩ | ⟨name, hmem⟩)
  · have ht := verses_template ht
    match slot with
    | 0 =>
      cases ht
      exact verse_noUniques
    | 1 => cases ht
    | 2 | 3 | n + 4 =>
      cases ht
      simp [Template.NoUniques, Template.walk, Template.walk.walkAll]
  · simp only [verses, List.mem_singleton, Prod.mk.injEq] at hmem
    obtain ⟨-, rfl⟩ := hmem
    simp [Template.NoUniques, Template.walk, Template.walk.walkAll]

/-- A verse comes out in any case, and the decorated one comes out as the plain one does. -/
theorem verses_alike : verses.overrides = [] ∧ verses.Redecorated decoratedVerses ∧
    verses.NoUniques ∧ verse.Redecorated decoratedVerse ∧ verse.NoUniques ∧
    (∀ c', verses.expandTemplate verse { source := .fixed 0 } ≠ .ok none c') ∧
    Run.Outcomes Eq (verses.expandTemplate verse { source := .fixed 0 })
      (decoratedVerses.expandTemplate decoratedVerse { source := .fixed 0 }) ∧
    Run.Outcomes Eq (verses.expandRule "verse" { source := .fixed 0 })
      (decoratedVerses.expandRule "verse" { source := .fixed 0 }) := by
  have ⟨hgives, halike⟩ := untracked_expansions (g := verses) rfl
  have ⟨htemplate, hrule⟩ := halike decoratedVerses verses_redecorated verses_noUniques
    { source := .fixed 0 } rfl
  exact ⟨rfl, verses_redecorated, verses_noUniques, rfl, verse_noUniques,
    ((hgives { source := .fixed 0 } rfl).1 verse).1,
    htemplate verse decoratedVerse rfl verse_noUniques, hrule "verse"⟩

end Fabula
