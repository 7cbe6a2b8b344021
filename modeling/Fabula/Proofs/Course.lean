import Fabula.Proofs.Confinement

/-!
# Fabula.Proofs.Course

**The course of an expansion.** Expanding a template sets off the expansion of others: of the values
that it declares, and of the alternatives that are picked from the rules it refers to. A template in
the context in which it is expanded is a `Site`, and `Site.LeadsTo` goes from one site to those that it
sets off itself, so the reflexive and transitive closure of it is all that happens in the course of an
expansion. What modifiers expand on their own is left out.

Along a course scopes are only added (`Site.Course.scopes`), and whatever lies on the course of an
expansion that gives a value has come to a value itself (`Site.Course.ok`).
-/

namespace Fabula

variable {σ : Type}

/-- A template at the place where it is expanded. -/
structure Site (σ : Type) where
  /-- How many levels are left. -/
  levels : Nat
  /-- The template. -/
  template : Template
  /-- Its place, if it is an alternative of a rule. -/
  slot : Option Slot
  /-- The context that it is expanded in. -/
  context : Context σ

namespace Site

section Steps

variable [RandomSource σ] (g : Grammar σ)

/-- What the expansion comes to. -/
def result (s : Site σ) : EStateM.Result ExpandError (Context σ) (Option String) :=
  g.evaluate s.levels s.template s.slot s.context

/-- The expansion evaluates the declaration of a name; its value stands at the second site. -/
inductive Declares : Site σ → String → Site σ → Prop
  /-- The declarations before it have been evaluated. -/
  | intro {levels : Nat} {t value : Template} {slot : Option Slot} {c d : Context σ} {name : String}
    {before after : List (String × Template)}
    (hsplit : t.declarations = before ++ (name, value) :: after)
    (hbefore : assignAll (g.evaluate levels) before c.enterTemplate = .ok () d) :
    Declares ⟨levels + 1, t, slot, c⟩ name ⟨levels, value, none, d⟩

/-- The expansion comes to a reference in this context, with so many levels left below. -/
inductive Refers : Site σ → Reference → Nat → Context σ → Prop
  /-- The declarations and the references before it have been evaluated. -/
  | intro {levels : Nat} {t : Template} {slot : Option Slot} {c c₁ d : Context σ} {r : Reference}
    {before after : List Reference} {values : List String} {live : Bool}
    (hdeclared : assignAll (g.evaluate levels) t.declarations c.enterTemplate = .ok () c₁)
    (hsplit : t.references = before ++ r :: after)
    (hbefore : expandReferences g (g.evaluate levels) [] false before c₁ =
      .ok (some (values, live)) d) :
    Refers ⟨levels + 1, t, slot, c⟩ r levels d

/-- The expansion comes to a reference that stands for a rule. -/
inductive Asks : Site σ → Rule → Nat → Context σ → Prop
  /-- The symbol is no name in scope and no model. -/
  | intro {s : Site σ} {r : Reference} {levels : Nat} {d : Context σ} {rule : Rule}
    (h : Refers g s r levels d) (hlookup : d.lookup r.symbol = none)
    (hmodel : g.models.get? r.symbol = none) (hrule : g.rule? r.symbol = some rule) :
    Asks s rule levels d

/-- Expanding the rule from a context opens an alternative at this site. -/
inductive Opens : Rule → Nat → Context σ → Site σ → Prop
  /-- The alternative is picked, and it can be read. -/
  | intro {rule : Rule} {levels : Nat} {d d' : Context σ} {slot : Slot} {t : Template}
    (hpick : Run.pick rule d = .ok (some slot) d') (ht : g.template slot = .ok t) :
    Opens rule levels d ⟨levels, t, some slot, d'⟩

/-- The expansion at one site sets off the one at the other. -/
inductive LeadsTo : Site σ → Site σ → Prop
  /-- It evaluates a declaration. -/
  | declaration {s s' : Site σ} {name : String} (h : Declares g s name s') : LeadsTo s s'
  /-- It opens an alternative of a rule that it refers to. -/
  | alternative {s s' : Site σ} {rule : Rule} {levels : Nat} {d : Context σ}
    (h : Asks g s rule levels d) (hopens : Opens g rule levels d s') : LeadsTo s s'

/-- What happens at the second site happens in the course of the expansion at the first. -/
def Course : Site σ → Site σ → Prop := Relation.ReflTransGen (LeadsTo g)

end Steps

end Site

/-! ### Scopes -/

section Scopes

/-- Declarations leave their names in the innermost scope, the last one in front. -/
theorem assignAll_scopes {enter : Evaluator σ}
    (henter : ∀ t slot, Run.Keeps Context.SamePlace (enter t slot))
    {declarations : List (String × Template)} {c c' : Context σ} {scope : Scope}
    {outer : List Scope} (hc : c.scopes = scope :: outer)
    (h : assignAll enter declarations c = .ok () c') :
    ∃ added : Scope, added.map Prod.fst = (declarations.map Prod.fst).reverse ∧
      c'.scopes = (added ++ scope) :: outer := by
  induction declarations generalizing c scope with
  | nil =>
    cases h
    exact ⟨[], rfl, hc⟩
  | cons declaration rest ih =>
    obtain ⟨name, t⟩ := declaration
    obtain ⟨value, c₁, hvalue, -⟩ := Run.bind_inv h
    rw [assignAll_of_value hvalue] at h
    have hc₁ : c₁.scopes = scope :: outer := ((henter t none).of_ok hvalue).scopes.trans hc
    have hassign : (c₁.assign name (value.getD "")).scopes =
        ((name, value.getD "") :: scope) :: outer := by
      unfold Context.assign
      rw [hc₁]
    obtain ⟨added, hadded, hscopes⟩ := ih hassign h
    refine ⟨added ++ [(name, value.getD "")], ?_, ?_⟩
    · rw [List.map_append, hadded, List.map_cons, List.map_cons, List.reverse_cons]
      rfl
    · rw [hscopes, List.append_assoc]
      rfl

variable [RandomSource σ] {g : Grammar σ} (hg : g.OverridesKeep Context.SamePlace) {s s' : Site σ}
include hg

/-- Where a declaration is evaluated, a scope is open with the names of those before it. -/
theorem Site.Declares.scopes {name : String} (h : s.Declares g name s') :
    ∃ before after scope, s.template.declarations = before ++ (name, s'.template) :: after ∧
      scope.map Prod.fst = (before.map Prod.fst).reverse ∧
      s'.context.scopes = scope :: s.context.scopes := by
  obtain ⟨hsplit, hbefore⟩ := h
  have henter := Context.SamePlace.invariant.evaluate_keeps hg
  obtain ⟨scope, hnames, hscopes⟩ := assignAll_scopes (henter _) rfl hbefore
  rw [List.append_nil] at hscopes
  exact ⟨_, _, scope, hsplit, hnames, hscopes⟩

/-- Where a reference is resolved, a scope is open with the names of all declarations. -/
theorem Site.Refers.scopes {r : Reference} {levels : Nat} {d : Context σ}
    (h : s.Refers g r levels d) :
    ∃ scope, scope.map Prod.fst = (s.template.declarations.map Prod.fst).reverse ∧
      d.scopes = scope :: s.context.scopes := by
  obtain ⟨hdeclared, -, hbefore⟩ := h
  have henter := Context.SamePlace.invariant.evaluate_keeps hg
  obtain ⟨scope, hnames, hscopes⟩ := assignAll_scopes (henter _) rfl hdeclared
  rw [List.append_nil] at hscopes
  have hplace := (Context.SamePlace.invariant.expandReferences_keeps (henter _) hg _ _ _).of_ok
    hbefore
  exact ⟨scope, hnames, hplace.scopes.trans hscopes⟩

/-- What an expansion sets off is expanded in one scope more. -/
theorem Site.LeadsTo.scopes (h : s.LeadsTo g s') :
    ∃ scope, s'.context.scopes = scope :: s.context.scopes := by
  cases h with
  | declaration h =>
    obtain ⟨_, _, scope, -, -, hscopes⟩ := h.scopes hg
    exact ⟨scope, hscopes⟩
  | alternative h hopens =>
    obtain ⟨h, -, -, -⟩ := h
    obtain ⟨hpick, -⟩ := hopens
    obtain ⟨scope, -, hscopes⟩ := h.scopes hg
    have hplace := (Context.SamePlace.invariant.pick_keeps _).of_ok hpick
    exact ⟨scope, hplace.scopes.trans hscopes⟩

/-- The scopes that are open stay open throughout the course of an expansion. -/
theorem Site.Course.scopes (h : s.Course g s') :
    ∃ inner, s'.context.scopes = inner ++ s.context.scopes := by
  induction h with
  | refl => exact ⟨[], rfl⟩
  | tail _ hstep ih =>
    obtain ⟨inner, hinner⟩ := ih
    obtain ⟨scope, hscope⟩ := hstep.scopes hg
    exact ⟨scope :: inner, by rw [hscope, hinner]; rfl⟩

end Scopes

/-! ### Courses that end well -/

section Ends

/-- The references of a list that has been cut in two are expanded one part after the other. -/
theorem expandReferences_append [RandomSource σ] {g : Grammar σ} {enter : Evaluator σ}
    {before after : List Reference} {values values' : List String} {live live' : Bool}
    {c d : Context σ}
    (h : expandReferences g enter values live before c = .ok (some (values', live')) d) :
    expandReferences g enter values live (before ++ after) c =
      expandReferences g enter values'.reverse live' after d := by
  induction before generalizing values live c with
  | nil =>
    cases h
    rw [List.reverse_reverse, List.nil_append]
  | cons r before ih =>
    obtain ⟨found, c₁, hreference, h⟩ := Run.bind_inv h
    cases found with
    | none => cases h
    | some resolved =>
      rw [List.cons_append, expandReferences, Run.bind_apply, hreference]
      exact ih h

/-- So are the declarations. -/
theorem assignAll_append {enter : Evaluator σ} {before after : List (String × Template)}
    {c d : Context σ} (h : assignAll enter before c = .ok () d) :
    assignAll enter (before ++ after) c = assignAll enter after d := by
  induction before generalizing c with
  | nil =>
    cases h
    rfl
  | cons declaration before ih =>
    obtain ⟨name, t⟩ := declaration
    obtain ⟨value, c₁, hvalue, -⟩ := Run.bind_inv h
    rw [assignAll_of_value hvalue] at h
    rw [List.cons_append, assignAll_of_value hvalue]
    exact ih h

theorem Invariant.conclude_keeps {R B : Context σ → Context σ → Prop} (inv : Invariant R B)
    (t : Template) (slot : Option Slot) (found : Option (List String × Bool)) :
    Run.Keeps R (conclude t slot found) := by
  obtain _ | ⟨values, _ | _⟩ := found
  · exact inv.bind_keeps (inv.markSeen_keeps slot) fun _ => inv.pure_keeps none
  · exact inv.bind_keeps (inv.markSeen_keeps slot) fun _ => inv.pure_keeps _
  · exact inv.pure_keeps _

/-- Invert one level: an expansion that gives a value evaluates the declarations, then the references,
and concludes from what these have given. -/
theorem evaluate_inv [RandomSource σ] {g : Grammar σ} {levels : Nat} {t : Template}
    {slot : Option Slot} {value : Option String} {c c' : Context σ}
    (h : g.evaluate (levels + 1) t slot c = .ok value c') :
    ∃ c₁ found c₂ c₃, assignAll (g.evaluate levels) t.declarations c.enterTemplate = .ok () c₁ ∧
      expandReferences g (g.evaluate levels) [] false t.references c₁ = .ok found c₂ ∧
      conclude t slot found c₂ = .ok value c₃ ∧ c' = c₃.leaveTemplate := by
  obtain ⟨c₃, hbody, hleave⟩ := Run.within_inv h
  rw [expandBody_eq] at hbody
  obtain ⟨⟨⟩, c₁, hdeclared, hbody⟩ := Run.bind_inv hbody
  obtain ⟨found, c₂, hreferences, hconclude⟩ := Run.bind_inv hbody
  exact ⟨c₁, found, c₂, c₃, hdeclared, hreferences, hconclude, hleave⟩

/-- A rule that gives a value, or none, has it from the alternative that it opens. -/
theorem Site.Opens.result_eq [RandomSource σ] {g : Grammar σ} {rule : Rule} {levels : Nat}
    {d : Context σ} {s : Site σ} (h : Site.Opens g rule levels d s) :
    expandRuleWith g (g.evaluate levels) rule d = s.result g := by
  obtain ⟨hpick, ht⟩ := h
  rw [expandRuleWith_of_some hpick, ht]
  rfl

variable [RandomSource σ] {g : Grammar σ} (hg : g.OverridesKeep Context.TrackersGrow)
variable {s s' : Site σ} {value : Option String} {c : Context σ}
include hg

/-- If an expansion gives a value, so does every declaration that it evaluates, and nothing that has been
seen by then is forgotten. -/
theorem Site.Declares.ok {name : String} (h : s.Declares g name s')
    (hs : s.result g = .ok value c) :
    ∃ value' c', s'.result g = .ok value' c' ∧ c'.TrackersGrow c := by
  obtain @⟨levels, t, _, _, _, _, _, _, after, hsplit, hbefore⟩ := h
  have henter := Context.TrackersGrow.invariant.evaluate_keeps hg levels
  obtain ⟨c₁, found, c₂, c₃, hassign, hreferences, hconclude, rfl⟩ := evaluate_inv hs
  rw [hsplit, assignAll_append hbefore] at hassign
  obtain ⟨value', c', hvalue, -⟩ := Run.bind_inv hassign
  rw [assignAll_of_value hvalue] at hassign
  refine ⟨value', c', hvalue, ?_⟩
  -- the declarations after it and the references follow
  have hassigned := Context.TrackersGrow.invariant.assign c' name (value'.getD "")
  have hafter := (Context.TrackersGrow.invariant.assignAll_keeps henter after).of_ok hassign
  have hrest :=
    (Context.TrackersGrow.invariant.expandReferences_keeps henter hg _ _ _).of_ok hreferences
  have hend := (Context.TrackersGrow.invariant.conclude_keeps _ _ _).of_ok hconclude
  exact ((hassigned.trans hafter).trans hrest).trans hend

/-- So does every rule that it comes to. -/
theorem Site.Asks.ok {rule : Rule} {levels : Nat} {d : Context σ} (h : s.Asks g rule levels d)
    (hs : s.result g = .ok value c) :
    ∃ value' c', expandRuleWith g (g.evaluate levels) rule d = .ok value' c' ∧ c'.TrackersGrow c := by
  obtain ⟨⟨hdeclared, hsplit, hbefore⟩, hlookup, hmodel, hrule⟩ := h
  have henter := Context.TrackersGrow.invariant.evaluate_keeps hg levels
  obtain ⟨_, _, c₁, c₃, hdeclared', hreferences, hconclude, rfl⟩ := evaluate_inv hs
  cases hdeclared.symm.trans hdeclared'
  have hend : c₁.TrackersGrow c₃ :=
    (Context.TrackersGrow.invariant.conclude_keeps _ _ _).of_ok hconclude
  -- the references before this one are known to have given values, so the run goes on with this one
  rw [hsplit, expandReferences_append hbefore] at hreferences
  obtain ⟨resolved, c₂, hreference, hrest⟩ := Run.bind_inv hreferences
  obtain ⟨found, c₃, hresolve, hmodifiers⟩ := Run.bind_inv hreference
  rw [resolve_of_rule hlookup hmodel hrule] at hresolve
  obtain ⟨value', _, hexpand, hlive⟩ := Run.bind_inv hresolve
  cases hlive
  refine ⟨value', c₃, hexpand, ?_⟩
  cases value' with
  | none =>
    cases hmodifiers
    cases hrest
    exact hend
  | some text =>
    obtain ⟨_, _, hmodifiers, hpure⟩ := Run.bind_inv hmodifiers
    cases hpure
    have hmodified := (Context.TrackersGrow.invariant.applyModifiers_keeps hg
      (Context.TrackersGrow.invariant.engineWith_keeps henter) _ _).of_ok hmodifiers
    have hrest :=
      (Context.TrackersGrow.invariant.expandReferences_keeps henter hg _ _ _).of_ok hrest
    exact (hmodified.trans hrest).trans hend

theorem Site.LeadsTo.ok (h : s.LeadsTo g s') (hs : s.result g = .ok value c) :
    ∃ value' c', s'.result g = .ok value' c' ∧ c'.TrackersGrow c := by
  cases h with
  | declaration h => exact h.ok hg hs
  | alternative h hopens =>
    rw [← hopens.result_eq]
    exact h.ok hg hs

/-- All that lies on the course of an expansion that gives a value has come to a value, and nothing that
has been seen by then is forgotten. -/
theorem Site.Course.ok (h : s.Course g s') (hs : s.result g = .ok value c) :
    ∃ value' c', s'.result g = .ok value' c' ∧ c'.TrackersGrow c := by
  induction h with
  | refl => exact ⟨value, c, hs, .refl c⟩
  | tail _ hstep ih =>
    obtain ⟨_, c₁, hresult, hgrow⟩ := ih
    obtain ⟨value', c', hresult', hgrow'⟩ := hstep.ok hg hresult
    exact ⟨value', c', hresult', hgrow'.trans hgrow⟩

end Ends

end Fabula
