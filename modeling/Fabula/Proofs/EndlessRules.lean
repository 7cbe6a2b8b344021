import Fabula.Proofs.Checked
import Fabula.Proofs.Endings
import Fabula.Proofs.Limit
import Fabula.Proofs.NestedTemplates
import Fabula.Proofs.Untracked
import Fabula.Random.Scripted

/-!
# Fabula.Proofs.EndlessRules

**A rule that can only recurse never gives a text.** Let all alternatives of some rules, as far as they
have weight and can be read, refer to one of these rules again (`Grammar.OnlyRecurses`). Then expanding
one of them fails, whatever is drawn and whatever the limit on depth is (`endless_rules_fail`). All that
may happen instead is that a text from a Markov model on the way never ends; then nothing comes back
(`Grammar.Ends`).

* An expansion could come to an end if it passed the reference by. It does not, because nothing is passed
  by without trackers: every declaration is evaluated and every reference is resolved, before anything is
  given (`evaluate_answers`).
* It could also come to an end if the name of the rule meant something else. It does not, because nothing
  gives the name a value: no template of the grammar declares it, and what modifiers expand on their own
  leaves the scopes as they were (`Context.Clear`).

So one step down from a template that recurses there is another one, and none of them gives a value at
the lowest level.
-/

namespace Fabula

variable {σ α : Type}

/-! ### Rules that can only recurse -/

namespace Template

/-- The template refers to one of these names, in a reference of its own or in the value of a declaration
at any depth. -/
def RefersTo (names : Set String) (t : Template) : Prop :=
  ∃ u ∈ t.walk, ∃ r ∈ u.references, r.symbol ∈ names

/-- The template declares none of these names, at any depth. -/
def DeclaresNone (names : Set String) (t : Template) : Prop :=
  ∀ u ∈ t.walk, ∀ e ∈ u.declarations, e.1 ∉ names

variable {names : Set String} {t : Template}

theorem RefersTo.cases (h : t.RefersTo names) :
    (∃ r ∈ t.references, r.symbol ∈ names) ∨ ∃ e ∈ t.declarations, e.2.RefersTo names := by
  obtain ⟨u, hu, hrefers⟩ := h
  rcases mem_walk.mp hu with rfl | ⟨e, he, hu⟩
  · exact .inl hrefers
  · exact .inr ⟨e, he, u, hu, hrefers⟩

theorem DeclaresNone.value (h : t.DeclaresNone names) {e : String × Template}
    (he : e ∈ t.declarations) : e.2.DeclaresNone names :=
  fun u hu => h u (mem_walk_of_value he hu)

end Template

/-- The names are those of rules that can only recurse. -/
structure Grammar.OnlyRecurses (g : Grammar σ) (names : Set String) : Prop where
  /-- Each of them is the name of a rule with a total above zero. -/
  total : ∀ name ∈ names, ∃ r, g.rule? name = some r ∧ 0 < r.total
  /-- Its alternatives that have weight cannot be read or refer to one of the names. -/
  recurses : ∀ name ∈ names, ∀ r, g.rule? name = some r → ∀ slot ∈ r.weightedSlots, ∀ t,
    g.template slot = .ok t → t.RefersTo names
  /-- None of them is the name of a model. -/
  models : ∀ name ∈ names, g.models.get? name = none
  /-- None of them is the name of a global variable. -/
  globals : ∀ name ∈ names, name ∉ g.globals.names
  /-- None of them is declared in the grammar. -/
  undeclared : ∀ t, g.Holds t → t.DeclaresNone names

/-- From every rule of these names an alternative with weight is picked, if none is excluded. -/
def Grammar.Picks [RandomSource σ] (g : Grammar σ) (names : Set String) : Prop :=
  ∀ name ∈ names, ∃ r, g.rule? name = some r ∧
    ∀ s : σ, ∃ slot ∈ r.weightedSlots, (r.pick none s).1 = some slot

/-- From a rule with a total above zero an alternative with weight is picked, if none is excluded. -/
theorem Grammar.Edited.pick_weighted [RandomSource σ] {g : Grammar σ} (hg : g.Edited) {name : String}
    {r : Rule} (hr : g.rule? name = some r) (htotal : 0 < r.total) (s : σ) :
    ∃ slot ∈ r.weightedSlots, (r.pick none s).1 = some slot := by
  have hintact := hg.built.intact
  have hmem := Table.mem_of_get? hr
  have hsum := htotal
  rw [hintact.total name r hmem] at hsum
  obtain ⟨w, hw, hweight⟩ := Weighted.exists_weight
    (fun w hw => (hintact.weights name r hmem w hw).2) hsum
  exact r.pick_weighted htotal (List.ne_nil_of_mem (Rule.mem_weightedSlots hw hweight)) s

theorem Grammar.OnlyRecurses.picks [RandomSource σ] {g : Grammar σ} {names : Set String}
    (h : g.OnlyRecurses names) (hg : g.Edited) : g.Picks names := by
  intro name hname
  obtain ⟨r, hr, htotal⟩ := h.total name hname
  exact ⟨r, hr, hg.pick_weighted hr htotal⟩

/-! ### Contexts in which the names stand for their rules -/

open Run (Gives Keeps)
open Context (Untracked SameHeight SamePlace)

/-- No tracker is active, and none of the names has a value. -/
structure Context.Clear (names : Set String) (c : Context σ) : Prop where
  /-- No tracker is active. -/
  untracked : c.Untracked
  /-- None of the names has a value. -/
  lookup : ∀ name ∈ names, c.lookup name = none

namespace Context.Clear

variable {names : Set String} {c c' : Context σ}

theorem of_keeps {act : Run σ α} (hheight : Keeps SameHeight act) (hplace : Keeps SamePlace act)
    (c : Context σ) (a : α) (c' : Context σ) (hc : c.Clear names) (ha : act c = .ok a c') :
    c'.Clear names := by
  refine ⟨untracked_of_ok hheight c a c' hc.untracked ha, fun name hname => ?_⟩
  have hscopes := (hplace.of_ok ha).scopes
  simpa only [Context.lookup, hscopes] using hc.lookup name hname

theorem enterTemplate (h : c.Clear names) : c.enterTemplate.Clear names :=
  ⟨h.untracked, h.lookup⟩

theorem enterGlobals (h : c.Clear names) : c.enterGlobals.Clear names :=
  ⟨h.untracked, h.lookup⟩

theorem assign (h : c.Clear names) {name : String} (hname : name ∉ names) (value : String) :
    (c.assign name value).Clear names := by
  refine ⟨h.untracked.sameHeight (SameHeight.invariant.assign c name value), fun other hother => ?_⟩
  have hne : other ≠ name := by
    rintro rfl
    exact hname hother
  have hsome : ((c.assign name value).lookup other).isSome = false := by
    simp [isSome_lookup_assign, h.lookup other hother, hne]
  simpa using hsome

end Context.Clear

/-- The action gives nothing where the names stand for their rules. -/
def Run.Fails (names : Set String) (act : Run σ α) : Prop :=
  act.Gives (Context.Clear names) fun _ => False

variable {names : Set String}

theorem Run.Fails.error {act : Run σ α} (h : act.Fails names) {c : Context σ} (hc : c.Clear names) :
    ∃ e c', act c = .error e c' := by
  cases ha : act c with
  | ok a c' => exact (h c a c' hc ha).elim
  | error e c' => exact ⟨e, c', rfl⟩

theorem Run.Fails.bind {β : Type} {act : Run σ α} (h : act.Fails names) (f : α → Run σ β) :
    (act >>= f).Fails names :=
  Gives.bind (P := fun _ => True) h (fun _ _ _ _ _ => trivial) fun _ hfalse => hfalse.elim

/-! ### One level up from templates that fail -/

section Declarations

variable {enter : Evaluator σ} (hheight : ∀ t slot, Keeps SameHeight (enter t slot))
variable (hplace : ∀ t slot, Keeps SamePlace (enter t slot))
variable {declarations : List (String × Template)} (hnames : ∀ e ∈ declarations, e.1 ∉ names)
include hheight hplace hnames

theorem assignAll_clear (c : Context σ) (u : Unit) (c' : Context σ) (hc : c.Clear names)
    (h : assignAll enter declarations c = .ok u c') : c'.Clear names := by
  induction declarations generalizing c with
  | nil =>
    cases h
    exact hc
  | cons declaration rest ih =>
    obtain ⟨name, t⟩ := declaration
    rw [List.forall_mem_cons] at hnames
    obtain ⟨value, c₁, hvalue, -⟩ := Run.bind_inv h
    rw [assignAll_of_value hvalue] at h
    have hc₁ := Context.Clear.of_keeps (hheight t none) (hplace t none) c value c₁ hc hvalue
    exact ih hnames.2 _ (hc₁.assign hnames.1 _) h

/-- Declarations fail if the value of a further one does. -/
theorem assignAll_append_fails {name : String} {t : Template} (hfails : (enter t none).Fails names)
    (after : List (String × Template)) :
    (assignAll enter (declarations ++ (name, t) :: after)).Fails names := by
  induction declarations with
  | nil =>
    intro c u c' hc h
    obtain ⟨value, c₁, hvalue, -⟩ := Run.bind_inv h
    exact hfails c value c₁ hc hvalue
  | cons declaration rest ih =>
    obtain ⟨other, u⟩ := declaration
    rw [List.forall_mem_cons] at hnames
    intro c u c' hc h
    obtain ⟨value, c₁, hvalue, -⟩ := Run.bind_inv h
    rw [List.cons_append, assignAll_of_value hvalue] at h
    have hc₁ := Context.Clear.of_keeps (hheight _ none) (hplace _ none) c value c₁ hc hvalue
    exact ih hnames.2 _ u c' (hc₁.assign hnames.1 _) h

/-- Declarations fail if one of their values does. -/
theorem assignAll_fails {e : String × Template} (he : e ∈ declarations)
    (hfails : (enter e.2 none).Fails names) : (assignAll enter declarations).Fails names := by
  obtain ⟨before, after, rfl⟩ := List.append_of_mem he
  exact assignAll_append_fails hheight hplace (fun e he => hnames e (List.mem_append_left _ he)) hfails
    after

end Declarations

section Inside

variable [RandomSource σ] {g : Grammar σ} {enter : Evaluator σ}

/-- A rule fails if an alternative with weight is picked and all of these fail. -/
theorem expandRuleWith_fails {r : Rule}
    (hpick : ∀ s : σ, ∃ slot ∈ r.weightedSlots, (r.pick none s).1 = some slot)
    (hfails : ∀ slot ∈ r.weightedSlots, ∀ t, g.template slot = .ok t →
      (enter t (some slot)).Fails names) :
    (expandRuleWith g enter r).Fails names := by
  intro c value c' hc h
  obtain ⟨slot, hslot, hpicked⟩ := hpick c.source
  have hrun : Run.pick r c = .ok (some slot) (c.afterPick r) := by
    rw [pick_apply, hc.untracked.excluded, hpicked]
  rw [expandRuleWith_of_some hrun] at h
  cases ht : g.template slot with
  | error e =>
    rw [ht] at h
    cases h
  | ok t =>
    rw [ht] at h
    exact hfails slot hslot t ht (c.afterPick r) value c' ⟨hc.untracked, hc.lookup⟩ h

variable (hmodels : ∀ name ∈ names, g.models.get? name = none)
variable (hrules : ∀ name ∈ names, ∃ r, g.rule? name = some r ∧
  (expandRuleWith g enter r).Fails names)

section References

include hmodels hrules

theorem resolve_fails {name : String} (hname : name ∈ names) : (resolve g enter name).Fails names := by
  intro c found c' hc h
  obtain ⟨r, hr, hfails⟩ := hrules name hname
  rw [resolve_of_rule (hc.lookup name hname) (hmodels name hname) hr] at h
  exact hfails.bind _ c found c' hc h

variable (hheight : ∀ t slot, Keeps SameHeight (enter t slot))
variable (hplace : ∀ t slot, Keeps SamePlace (enter t slot))
variable (henter : ∀ t slot, (enter t slot).Answers)
variable (hg : g.OverridesKeep SameHeight) (hg' : g.OverridesKeep SamePlace)
include hheight hplace henter hg hg'

/-- References fail if one of them is to such a rule: those before it are not passed by. -/
theorem expandReferences_fails {references : List Reference} {r : Reference} (hr : r ∈ references)
    (hsymbol : r.symbol ∈ names) (values : List String) (live : Bool) :
    (expandReferences g enter values live references).Fails names := by
  induction references generalizing values live with
  | nil => cases hr
  | cons r' rest ih =>
    rcases List.mem_cons.mp hr with rfl | hr
    · exact ((resolve_fails hmodels hrules hsymbol).bind _).bind _
    · have hanswers := expandReference_answers hheight henter hg r'
      refine Gives.bind (hanswers.mono fun c hc => hc.untracked) (Context.Clear.of_keeps
        (SameHeight.invariant.expandReference_keeps hheight hg r')
        (SamePlace.invariant.expandReference_keeps hplace hg' r')) fun found hfound => ?_
      obtain ⟨resolved, rfl⟩ := Option.ne_none_iff_exists'.mp hfound
      exact ih hr _ _

end References

end Inside

/-! ### Whole expansions -/

/-- What is left of the levels makes no difference to a rule that fails at all of them, nor do globals
with other names. -/
theorem expandRule_fails_of [RandomSource σ] {g : Grammar σ} {name : String} {r : Rule}
    (hheight : g.OverridesKeep SameHeight) (hplace : g.OverridesKeep SamePlace)
    (hglobals : ∀ e ∈ g.globals, e.1 ∉ names) (hr : g.rule? name = some r)
    (hfails : ∀ levels, (expandRuleWith g (g.evaluate levels) r).Fails names) :
    (g.expandRule name).Fails names := by
  refine Gives.get_bind fun c value c' hc hvalue => ?_
  unfold Grammar.engineAt at hvalue
  rw [engineWith_rule hr] at hvalue
  refine Gives.withGlobals (Q := Context.Clear names) (hfails _) (fun c hc => hc.enterGlobals) ?_
    c value c' hc hvalue
  exact assignAll_clear (SameHeight.invariant.evaluate_keeps hheight _)
    (SamePlace.invariant.evaluate_keeps hplace _) hglobals

section Whole

variable [RandomSource σ] {g : Grammar σ} (h : g.OnlyRecurses names) (hpicks : g.Picks names)
include h hpicks

/-- The rules of an evaluator fail if it does on templates that recurse. -/
theorem rules_fail {enter : Evaluator σ}
    (henter : ∀ t slot, t.RefersTo names → t.DeclaresNone names → (enter t slot).Fails names) :
    ∀ name ∈ names, ∃ r, g.rule? name = some r ∧ (expandRuleWith g enter r).Fails names := by
  intro name hname
  obtain ⟨r, hr, hpick⟩ := hpicks name hname
  refine ⟨r, hr, expandRuleWith_fails hpick fun slot hslot t ht => ?_⟩
  have hholds : g.Holds t := .inl ⟨name, r, hr, slot, r.weightedSlots_subset hslot, ht⟩
  exact henter t (some slot) (h.recurses name hname r hr slot hslot t ht) (h.undeclared t hholds)

variable (hheight : g.OverridesKeep SameHeight) (hplace : g.OverridesKeep SamePlace)
include hheight hplace

/-- Templates that recurse fail, by induction on the levels that are left. -/
theorem evaluate_fails (levels : Nat) {t : Template} (slot : Option Slot) (ht : t.RefersTo names)
    (hnone : t.DeclaresNone names) : (g.evaluate levels t slot).Fails names := by
  induction levels generalizing t slot with
  | zero => exact .throw _
  | succ levels ih =>
    have hkeepsHeight := SameHeight.invariant.evaluate_keeps hheight levels
    have hkeepsPlace := SamePlace.invariant.evaluate_keeps hplace levels
    have hnames := hnone t (by simp)
    refine Gives.within (P := Context.Clear names) ?_ fun c hc => hc.enterTemplate
    rw [expandBody_eq]
    rcases ht.cases with ⟨r, hr, hsymbol⟩ | ⟨e, he, hvalue⟩
    · -- the reference is reached, and the rule that it stands for fails
      refine (Gives.any _).bind (assignAll_clear hkeepsHeight hkeepsPlace hnames) fun _ _ => ?_
      refine Run.Fails.bind ?_ _
      exact expandReferences_fails h.models
        (rules_fail h hpicks fun t slot ht hnone => ih slot ht hnone) hkeepsHeight
        hkeepsPlace (evaluate_answers hheight levels) hheight hplace hr hsymbol _ _
    · -- the reference stands in a declaration, which fails one level below
      exact (assignAll_fails hkeepsHeight hkeepsPlace hnames he
        (ih none hvalue (hnone.value he))).bind _

theorem expandRule_fails {name : String} (hname : name ∈ names) :
    (g.expandRule name).Fails names := by
  have hglobals : ∀ e ∈ g.globals, e.1 ∉ names := fun e he hmem =>
    h.globals e.1 hmem (List.mem_map_of_mem he)
  obtain ⟨r, hr, hpick⟩ := hpicks name hname
  refine expandRule_fails_of hheight hplace hglobals hr fun levels => ?_
  obtain ⟨r', hr', hfails⟩ := rules_fail h hpicks
    (fun t slot ht hnone => evaluate_fails h hpicks hheight hplace levels slot ht hnone) name hname
  cases hr.symm.trans hr'
  exact hfails

end Whole

/-! ### Modifiers that leave the trackers balanced -/

/-- The routine leaves as many trackers active as it has found, if the expansions that it asks for do. -/
def Routine.Balanced (σ : Type) [RandomSource σ] (r : Routine) : Prop :=
  ∀ engine : Engine σ, engine.Keeps SameHeight → Keeps SameHeight (r.run engine)

section Overrides

variable [RandomSource σ] {g : Grammar σ} (hg : g.OverridesAre (Routine.Balanced σ))
include hg

theorem Grammar.OverridesAre.sameHeight : g.OverridesKeep SameHeight := by
  intro name f hf engine he value args
  obtain ⟨r, rfl, hbalanced⟩ := hg name f hf
  exact hbalanced value args engine he

theorem Grammar.OverridesAre.samePlace : g.OverridesKeep SamePlace := by
  intro name f hf engine he value args
  obtain ⟨r, rfl, -⟩ := hg name f hf
  exact SamePlace.invariant.routine_keeps (fun _ => ⟨rfl, rfl, rfl⟩) (fun _ => ⟨rfl, rfl, rfl⟩) he _

end Overrides

/-- Ask for a tale under a tracker of one's own, and keep the value if there is none. -/
def whispering (value : String) (_ : List Argument) : Routine :=
  .push <| .rule "tale" fun answer => .pop <|
    match answer with
    | .ok text => .give (text.getD value)
    | .error _ => .give value

theorem whispering_balanced (σ : Type) [RandomSource σ] (value : String) (args : List Argument) :
    (whispering value args).Balanced σ := by
  intro engine he c
  have hheight := he.rule "tale" c.pushTracker
  have hafter : ((whispering value args).run engine).after c =
      ((engine.expandRule "tale").after c.pushTracker).popTracker := by
    show ((Run.attempt (engine.expandRule "tale") >>= _).after c.pushTracker) = _
    unfold Run.after
    rw [Run.bind_apply]
    unfold Run.attempt
    dsimp only
    cases engine.expandRule "tale" c.pushTracker <;> rfl
  rw [hafter]
  exact Context.SameHeight.invariant.tracker hheight

/-- What a bard was heard to sing. -/
def songs : List String := ["sing o muse", "sing of wrath"]

/-- Tales of myths, and myths of tales. The only tale that comes to an end has no weight. -/
def legends : Grammar Scripted := .ofChanges [
  .addRule "tale" [("once {hero= {{myth}}}{hero}", 1), ("\x7bbroken", 2), ("the end", 0)],
  .addTexts "myth" ["{bard} and {tale.whisper}"],
  .addMarkov "bard" songs {},
  .putOverride "whisper" (Routine.override whispering)]

theorem legends_tale :
    legends.rule? "tale" = some (Rule.named "tale" [⟨0, 1⟩, ⟨1, 2⟩, ⟨2, 0⟩]) := by
  with_unfolding_all rfl

theorem legends_myth : legends.rule? "myth" = some (Rule.named "myth" [⟨3, 1⟩]) := by
  with_unfolding_all rfl

theorem legends_rest : legends.models = [("bard", Markov.trained songs {})] ∧ legends.globals = [] ∧
    legends.overrides = [("whisper", Routine.override whispering)] := by
  with_unfolding_all exact ⟨rfl, rfl, rfl⟩

theorem legends_template {slot : Slot} {t : Template} (ht : legends.template slot = .ok t) :
    some t = match slot with
    | 0 => some ⟨"once {hero= {{myth}}}{hero}", "once {0}", [⟨"hero", [], false⟩],
        [("hero", ⟨"{{myth}}", "{0}", [⟨"myth", [], true⟩], []⟩)]⟩
    | 1 => none
    | 2 => some ⟨"the end", "the end", [], []⟩
    | 3 => some ⟨"{bard} and {tale.whisper}", "{0} and {1}",
        [⟨"bard", [], false⟩, ⟨"tale", [⟨"whisper", []⟩], false⟩], []⟩
    | _ => some ⟨"", "", [], []⟩ := by
  have htext : some t = (legends.template slot).toOption := by rw [ht]; rfl
  rw [htext]
  match slot with
  | 0 | 1 | 2 | 3 | n + 4 => with_unfolding_all rfl

theorem legends_declaresNone {slot : Slot} {t : Template} (ht : legends.template slot = .ok t) :
    t.DeclaresNone {"tale", "myth"} := by
  have ht := legends_template ht
  match slot with
  | 1 => cases ht
  | 0 | 2 | 3 | n + 4 =>
    cases ht
    simp [Template.DeclaresNone, Template.walk, Template.walk.walkAll]

theorem legends_overrides : legends.OverridesAre (Routine.Balanced Scripted) := by
  intro name f hf
  rw [legends_rest.2.2, Table.get?_cons] at hf
  split at hf
  · exact ⟨whispering, (Option.some.inj hf).symm, whispering_balanced Scripted⟩
  · cases hf

theorem legends_onlyRecurses : legends.OnlyRecurses {"tale", "myth"} where
  total := by
    rintro name (rfl | rfl)
    · exact ⟨_, legends_tale, by decide +kernel⟩
    · exact ⟨_, legends_myth, by decide +kernel⟩
  recurses := by
    rintro name (rfl | rfl) r hr slot hslot t ht
    · cases legends_tale.symm.trans hr
      have hslots : (Rule.named "tale" [⟨0, 1⟩, ⟨1, 2⟩, ⟨2, 0⟩]).weightedSlots = [0, 1] := by
        decide +kernel
      have ht := legends_template ht
      rw [hslots] at hslot
      fin_cases hslot <;> cases ht
      -- the hero of the tale is a myth
      refine ⟨⟨"{{myth}}", "{0}", [⟨"myth", [], true⟩], []⟩, ?_, ⟨"myth", [], true⟩, ?_, ?_⟩
      · simp [Template.walk, Template.walk.walkAll]
      · simp
      · simp
    · cases legends_myth.symm.trans hr
      have hslots : (Rule.named "myth" [⟨3, 1⟩]).weightedSlots = [3] := by decide +kernel
      have ht := legends_template ht
      rw [hslots] at hslot
      fin_cases hslot
      cases ht
      exact ⟨_, Template.mem_walk_self _, ⟨"tale", [⟨"whisper", []⟩], false⟩, by simp, by simp⟩
  models := by simp [legends_rest.1, Table.get?_cons, Table.get?_nil]
  globals := by simp [legends_rest.2.1, Table.names]
  undeclared := by
    rintro t (⟨-, r, -, slot, -, ht⟩ | ⟨name, hmem⟩)
    · exact legends_declaresNone ht
    · simp [legends_rest.2.1] at hmem

theorem whispering_ends (value : String) (args : List Argument) : (whispering value args).Ends := by
  intro answer _
  cases answer <;> trivial

theorem legends_ends : legends.Ends where
  models name m hm := by
    rw [legends_rest.1, Table.get?_cons] at hm
    split at hm
    · exact Option.some.inj hm ▸ (Markov.filled_trained songs {}).ends
    · cases hm
  overrides name f hf := by
    rw [legends_rest.2.2, Table.get?_cons] at hf
    split at hf
    · exact Option.some.inj hf ▸ Routine.override_ends whispering_ends
    · cases hf

end Fabula
