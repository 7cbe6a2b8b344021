import Fabula.Proofs.Course
import Fabula.Proofs.Hazard
import Fabula.Proofs.Recording

/-!
# Fabula.Proofs.Accounts

**Why alternatives count as seen**, in grammars that consist of rules alone (`Grammar.RulesOnly`).

An alternative is entered in the trackers at the end of its expansion, if that has come to nothing or has
left nothing live. So each one that has been seen can be accounted for (`Accounted`): it is a text that has
been chosen, or a rule that it refers to has been used up, or it was *cut off* (`CutOff`). That is what
happens when a rule that it refers to comes to nothing although it is not used up, because the one
alternative that was picked from it did.

The expansions that belong together are a set of sites which is closed under what they set off
(`Grammar.Family`). From the start to the end of each of them everything that has been seen stays
accounted for (`Grammar.Family.accounts`), by induction on the levels.
-/

namespace Fabula

variable {σ : Type}

/-! ### Grammars of rules -/

/-- The grammar consists of rules, whose alternatives are texts with plain references to rules. -/
structure Grammar.RulesOnly (g : Grammar σ) : Prop where
  /-- There are no global variables. -/
  globals : g.globals = []
  /-- There are no Markov models. -/
  models : g.models = []
  /-- No modifiers are registered. -/
  overrides : g.overrides = []
  /-- Every alternative can be read, and declares and modifies nothing. -/
  alternatives : ∀ {name rule slot}, g.rule? name = some rule → slot ∈ rule.slots →
    ∃ t, g.template slot = .ok t ∧ t.declarations = [] ∧
      ∀ r ∈ t.references, r.calls = [] ∧ r.decorator = false ∧ g.rules.has r.symbol = true

/-- Alternatives are tracked in the context, and no name is in scope. -/
structure Context.Searching (c : Context σ) : Prop where
  /-- A tracker is active. -/
  tracking : c.tracking = true
  /-- No name has a value. -/
  lookup : ∀ name, c.lookup name = none

theorem Context.Searching.mono {c c' : Context σ} (h : c.Searching) (hgrow : c.TrackersGrow c')
    (hscopes : c'.scopes = c.scopes) : c'.Searching where
  tracking := hgrow.tracking.trans h.tracking
  lookup name := by
    unfold Context.lookup
    rw [hscopes]
    exact h.lookup name

theorem Context.Searching.enterTemplate {c : Context σ} (h : c.Searching) :
    c.enterTemplate.Searching := ⟨h.tracking, h.lookup⟩

/-- The site is one of an alternative of a rule, in such a context. -/
structure Site.Regular (g : Grammar σ) (s : Site σ) : Prop where
  /-- The context is one that alternatives are looked for in. -/
  searching : s.context.Searching
  /-- The template is an alternative. -/
  alternative : ∃ name rule slot, g.rule? name = some rule ∧ slot ∈ rule.slots ∧
    s.slot = some slot ∧ g.template slot = .ok s.template

section Regular

variable {g : Grammar σ} (hg : g.RulesOnly) {s s' : Site σ}
include hg

theorem Grammar.RulesOnly.keeps {R : Context σ → Context σ → Prop} : g.OverridesKeep R :=
  Grammar.overridesKeep_of_nil hg.overrides

theorem Grammar.RulesOnly.model (name : String) : g.models.get? name = none := by
  rw [hg.models]
  rfl

theorem Site.Regular.template (h : s.Regular g) : s.template.declarations = [] ∧
    ∀ r ∈ s.template.references, r.calls = [] ∧ r.decorator = false ∧
      ∃ rule, g.rule? r.symbol = some rule := by
  obtain ⟨name, rule, slot, hrule, hslot, -, ht⟩ := h.alternative
  obtain ⟨t, ht', hdeclarations, hreferences⟩ := hg.alternatives hrule hslot
  rw [ht] at ht'
  cases ht'
  refine ⟨hdeclarations, fun r hr => ?_⟩
  obtain ⟨hcalls, hdecorator, hhas⟩ := hreferences r hr
  exact ⟨hcalls, hdecorator, Option.isSome_iff_exists.mp hhas⟩

variable [RandomSource σ]

/-- A reference of an alternative is reached in a context in which alternatives are looked for. -/
theorem Site.Regular.refers (h : s.Regular g) {r : Reference} {levels : Nat} {d : Context σ}
    (hrefers : s.Refers g r levels d) : d.Searching := by
  obtain ⟨hdeclared, -, hbefore⟩ := hrefers
  rw [(h.template hg).1] at hdeclared
  cases hdeclared
  have henter := Context.Frame.invariant.evaluate_keeps hg.keeps
  have hframe := (Context.Frame.invariant.expandReferences_keeps (henter _) hg.keeps _ _ _).of_ok
    hbefore
  exact h.searching.enterTemplate.mono hframe.trackers hframe.scopes

omit hg in
theorem Site.Refers.mem {r : Reference} {levels : Nat} {d : Context σ}
    (h : s.Refers g r levels d) : r ∈ s.template.references := by
  obtain ⟨-, hsplit, -⟩ := h
  rw [hsplit]
  simp

omit hg in
/-- Under tracking an alternative is opened that has weight. -/
theorem Site.Opens.weighted {rule : Rule} {levels : Nat} {d : Context σ} (htrack : d.tracking = true)
    (h : Site.Opens g rule levels d s) :
    ∃ slot ∈ rule.weightedSlots, s.slot = some slot ∧ g.template slot = .ok s.template := by
  obtain ⟨hpick, ht⟩ := h
  rcases pick_cases (r := rule) htrack with ⟨slot, hslot, -, hpick'⟩ | ⟨-, hpick'⟩
  · obtain ⟨hsame, -⟩ := EStateM.Result.ok.inj (hpick.symm.trans hpick')
    cases hsame
    exact ⟨_, hslot, rfl, ht⟩
  · obtain ⟨hsame, -⟩ := EStateM.Result.ok.inj (hpick.symm.trans hpick')
    cases hsame

omit hg in
theorem hasUnseen_of_pick_none {rule : Rule} {d d' : Context σ} (htrack : d.tracking = true)
    (h : Run.pick rule d = .ok none d') : Builtin.hasUnseen rule d = false := by
  rcases pick_cases (r := rule) htrack with ⟨_, -, -, hpick⟩ | ⟨hclosed, -⟩
  · rw [h] at hpick
    cases hpick
  · exact hclosed

omit hg in
theorem Site.Opens.regular {name : String} {rule : Rule} {levels : Nat} {d : Context σ}
    (hrule : g.rule? name = some rule) (hd : d.Searching) (h : Site.Opens g rule levels d s) :
    s.Regular g := by
  obtain ⟨hpick, ht⟩ := h
  have hframe := (Context.Frame.invariant.pick_keeps rule).of_ok hpick
  refine ⟨hd.mono hframe.trackers hframe.scopes, name, rule, _, hrule, ?_, rfl, ht⟩
  rw [pick_apply] at hpick
  exact rule.weightedSlots_subset (Rule.pick_mem (EStateM.Result.ok.inj hpick).1)

theorem Site.LeadsTo.regular (hs : s.Regular g) (h : s.LeadsTo g s') : s'.Regular g := by
  cases h with
  | declaration h =>
    obtain ⟨hsplit, -⟩ := h
    rw [(hs.template hg).1] at hsplit
    simp at hsplit
  | alternative h hopens =>
    obtain ⟨hrefers, -, -, hrule⟩ := h
    exact hopens.regular hrule (hs.refers hg hrefers)

theorem Site.Course.regular (hs : s.Regular g) (h : s.Course g s') : s'.Regular g := by
  induction h with
  | refl => exact hs
  | tail _ hstep ih => exact hstep.regular hg ih

end Regular

/-! ### Accounts -/

section Accounts

variable [RandomSource σ] (g : Grammar σ) (sites : Site σ → Prop)

/-- The alternative in `slot` is expanded at one of the sites. -/
def Chosen (slot : Slot) : Prop := ∃ s, sites s ∧ s.slot = some slot

/-- At one of the sites the alternative in `slot` came to nothing because a rule did that it refers to,
although that rule was not used up. -/
def CutOff (slot : Slot) : Prop :=
  ∃ s rule levels d d', sites s ∧ s.slot = some slot ∧ s.Asks g rule levels d ∧
    expandRuleWith g (g.evaluate levels) rule d = .ok none d' ∧ Builtin.hasUnseen rule d' = true

/-- The template refers to a rule that has been used up. -/
def Template.RefersToUsedUp (t : Template) (c : Context σ) : Prop :=
  ∃ r ∈ t.references, ∃ rule, g.rule? r.symbol = some rule ∧ Builtin.hasUnseen rule c = false

/-- Why the alternative in `slot` counts as seen. -/
inductive Accounted (c : Context σ) (slot : Slot) : Prop
  /-- It is a text, and has been chosen. -/
  | text (hplain : g.Plain slot) (hchosen : Chosen sites slot)
  /-- It cannot say anything new. -/
  | usedUp {t : Template} (ht : g.template slot = .ok t) (h : t.RefersToUsedUp g c)
  /-- It was cut off. -/
  | cutOff (h : CutOff g sites slot)

/-- Everything that has been seen is accounted for. -/
def Context.Accounts (c : Context σ) : Prop :=
  ∀ slot, c.isSeen slot = true → Accounted g sites c slot

/-- The sites are those of alternatives, with all that their expansions set off. -/
structure Grammar.Family : Prop where
  /-- Each is one of an alternative. -/
  regular : ∀ {s}, sites s → s.Regular g
  /-- What is set off at one of them is among them. -/
  closed : ∀ {s s'}, sites s → s.LeadsTo g s' → sites s'

end Accounts

section Steps

variable [RandomSource σ] {g : Grammar σ} {sites : Site σ → Prop} {c c' : Context σ}

theorem Accounted.mono {slot : Slot} (hgrow : c.TrackersGrow c') (h : Accounted g sites c slot) :
    Accounted g sites c' slot := by
  cases h with
  | text hplain hchosen => exact .text hplain hchosen
  | usedUp ht h =>
    obtain ⟨r, hr, rule, hrule, hused⟩ := h
    exact .usedUp ht ⟨r, hr, rule, hrule, hgrow.hasUnseen hused⟩
  | cutOff h => exact .cutOff h

/-- Accounts are about trackers only. -/
theorem Context.Accounts.of_trackers (h : c.Accounts g sites) (heq : c'.trackers = c.trackers) :
    c'.Accounts g sites := by
  have hgrow : c.TrackersGrow c' := by
    unfold Context.TrackersGrow
    rw [heq]
    exact List.forall₂_same.mpr fun tracker _ => List.Subset.refl tracker
  intro slot hslot
  have hslot' : c.isSeen slot = true := by
    unfold Context.isSeen at *
    rwa [← heq]
  exact (h slot hslot').mono hgrow

/-- One more alternative may be entered that is accounted for. -/
theorem Context.Accounts.markSeen (h : c.Accounts g sites) {slot : Slot}
    (hslot : Accounted g sites c slot) : (c.markSeen slot).Accounts g sites := by
  have hgrow := Context.TrackersGrow.mark c slot
  intro other hother
  by_cases heq : other = slot
  · rw [heq]
    exact hslot.mono hgrow
  · refine (h other ?_).mono hgrow
    simpa [Context.isSeen, Context.markSeen, List.any_map, Function.comp_def, List.mem_insert_iff,
      heq] using hother

end Steps

/-! ### Expansions -/

section Expansions

variable [RandomSource σ] {g : Grammar σ} {sites : Site σ → Prop}

theorem pick_trackers {rule : Rule} {picked : Option Slot} {d d' : Context σ}
    (h : Run.pick rule d = .ok picked d') : d'.trackers = d.trackers := by
  rw [pick_apply] at h
  rw [← (EStateM.Result.ok.inj h).2]
  rfl

omit [RandomSource σ] in
/-- The expansion of an alternative that comes to nothing ends with entering it; one that gives a value
may. -/
theorem conclude_inv {t : Template} {slot : Slot} {found : Option (List String × Bool)}
    {value : Option String} {d d' : Context σ} (h : conclude t (some slot) found d = .ok value d') :
    d' = d.markSeen slot ∨ value ≠ none ∧ d' = d := by
  obtain _ | ⟨values, _ | _⟩ := found
  · cases h
    exact .inl rfl
  · cases h
    exact .inl rfl
  · cases h
    exact .inr ⟨nofun, rfl⟩

/-- A rule comes to what the alternative that it opens does, or nothing is picked from it. -/
theorem expandRuleWith_inv {levels : Nat} {rule : Rule} {value : Option String} {d d' : Context σ}
    (h : expandRuleWith g (g.evaluate levels) rule d = .ok value d') :
    (∃ s, Site.Opens g rule levels d s ∧ s.result g = .ok value d') ∨
      (Run.pick rule d = .ok none d' ∧ value = if d'.tracking then none else some "") := by
  obtain ⟨picked, d₁, hpick, -⟩ := Run.bind_inv h
  cases picked with
  | none =>
    rw [expandRuleWith_of_none hpick] at h
    cases h
    exact .inr ⟨hpick, rfl⟩
  | some slot =>
    cases ht : g.template slot with
    | error e =>
      rw [expandRuleWith_of_some hpick, ht] at h
      cases h
    | ok t =>
      have hopens : Site.Opens g rule levels d ⟨levels, t, some slot, d₁⟩ := .intro hpick ht
      rw [hopens.result_eq] at h
      exact .inl ⟨_, hopens, h⟩

/-- A plain reference to a rule gives what the rule gives, and is live as long as that is not used up. -/
theorem expandReference_inv {enter : Evaluator σ} {r : Reference} {rule : Rule} {d d' : Context σ}
    {found : Option Resolved} (hcalls : r.calls = []) (hlookup : d.lookup r.symbol = none)
    (hmodel : g.models.get? r.symbol = none) (hrule : g.rule? r.symbol = some rule)
    (h : expandReference g enter r d = .ok found d') :
    ∃ value, expandRuleWith g enter rule d = .ok value d' ∧
      found = value.map (⟨·, Builtin.hasUnseen rule d'⟩) := by
  obtain ⟨_, d₁, hresolve, h⟩ := Run.bind_inv h
  rw [resolve_of_rule hlookup hmodel hrule] at hresolve
  obtain ⟨value, _, hexpand, hlive⟩ := Run.bind_inv hresolve
  cases hlive
  cases value with
  | none =>
    cases h
    exact ⟨none, hexpand, rfl⟩
  | some text =>
    rw [Option.map_some, hcalls] at h
    cases h
    exact ⟨some text, hexpand, rfl⟩

namespace Grammar.Family

variable (hg : g.RulesOnly) (hfamily : g.Family sites)

/-- Accounts are kept while the alternatives are expanded that have so many levels left. -/
def Keeps (g : Grammar σ) (sites : Site σ → Prop) (levels : Nat) : Prop :=
  ∀ {s value c}, sites s → s.levels = levels → s.context.Accounts g sites →
    s.result g = .ok value c → c.Accounts g sites

section Levels

variable {levels : Nat} (hkeeps : Keeps g sites levels) {s : Site σ}
include hfamily hkeeps

theorem rule_accounts {rule : Rule} {value : Option String} {d d' : Context σ}
    (hs : sites s) (hasks : s.Asks g rule levels d) (hd : d.Accounts g sites)
    (h : expandRuleWith g (g.evaluate levels) rule d = .ok value d') : d'.Accounts g sites := by
  rcases expandRuleWith_inv h with ⟨s', hopens, hresult⟩ | ⟨hpick, -⟩
  · have hs' := hfamily.closed hs (.alternative hasks hopens)
    obtain ⟨hpick, -⟩ := hopens
    exact hkeeps hs' rfl (hd.of_trackers (pick_trackers hpick)) hresult
  · exact hd.of_trackers (pick_trackers hpick)

variable {t : Template} {slot : Slot} {c d d' : Context σ}
include hg

/-- When the references of an alternative have been expanded, something in it is live, or there is a
reason why not. -/
theorem references_accounts (hs : sites ⟨levels + 1, t, some slot, c⟩) {before rest : List Reference}
    {values : List String} {live : Bool} {found : Option (List String × Bool)}
    (hsplit : t.references = before ++ rest)
    (hbefore : expandReferences g (g.evaluate levels) [] false before c.enterTemplate =
      .ok (some (values, live)) d)
    (hlive : live = true ∨ before = [] ∨ t.RefersToUsedUp g d) (hd : d.Accounts g sites)
    (h : expandReferences g (g.evaluate levels) values.reverse live rest d = .ok found d') :
    d'.Accounts g sites ∧ ((∃ values', found = some (values', true)) ∨ t.references = [] ∨
      t.RefersToUsedUp g d' ∨ CutOff g sites slot) := by
  induction rest generalizing before values live d with
  | nil =>
    cases h
    rw [List.append_nil] at hsplit
    refine ⟨hd, ?_⟩
    rcases hlive with rfl | rfl | hused
    · exact .inl ⟨_, rfl⟩
    · exact .inr (.inl hsplit)
    · exact .inr (.inr (.inl hused))
  | cons r rest ih =>
    have hregular := hfamily.regular hs
    obtain ⟨hdeclarations, hreferences⟩ := hregular.template hg
    have hr : r ∈ t.references := by
      rw [hsplit]
      simp
    obtain ⟨hcalls, hdecorator, rule, hrule⟩ := hreferences r hr
    have hrefers : Site.Refers g ⟨levels + 1, t, some slot, c⟩ r levels d :=
      .intro (by rw [show t.declarations = [] from hdeclarations]; rfl) hsplit hbefore
    have hlookup := (hregular.refers hg hrefers).lookup r.symbol
    have hasks : Site.Asks g ⟨levels + 1, t, some slot, c⟩ rule levels d :=
      .intro hrefers hlookup (hg.model r.symbol) hrule
    obtain ⟨found₁, d₁, hreference, h⟩ := Run.bind_inv h
    obtain ⟨value, hexpand, rfl⟩ :=
      expandReference_inv hcalls hlookup (hg.model r.symbol) hrule hreference
    have hd₁ := rule_accounts hfamily hkeeps hs hasks hd hexpand
    cases value with
    | none =>
      -- the rule is used up now, or what was picked from it came to nothing on its own
      cases h
      refine ⟨hd₁, .inr (.inr ?_)⟩
      cases hopen : Builtin.hasUnseen rule d' with
      | false => exact .inl ⟨r, hr, rule, hrule, hopen⟩
      | true => exact .inr ⟨_, rule, levels, d, d', hs, rfl, hasks, hexpand, hopen⟩
    | some text =>
      have hbefore₁ : expandReferences g (g.evaluate levels) [] false (before ++ [r])
          c.enterTemplate = _ := expandReferences_append hbefore
      rw [expandReferences, Run.bind_apply, hreference] at hbefore₁
      have hsplit₁ : t.references = (before ++ [r]) ++ rest := by
        rw [hsplit, List.append_assoc]
        rfl
      refine ih hsplit₁ hbefore₁ ?_ hd₁ ?_
      · cases hopen : Builtin.hasUnseen rule d₁ with
        | false => exact .inr (.inr ⟨r, hr, rule, hrule, hopen⟩)
        | true => simp [hdecorator]
      · simpa using h

/-- Accounts are kept one level up: an alternative is entered for one of these reasons. -/
theorem keeps_succ : Keeps g sites (levels + 1) := by
  intro s value c' hs hlevels hc hresult
  obtain ⟨_, _, slot, _, _, hslot, ht⟩ := (hfamily.regular hs).alternative
  obtain ⟨hdeclarations, -⟩ := (hfamily.regular hs).template hg
  obtain ⟨_, t, _, c⟩ := s
  dsimp only at hlevels hslot ht hdeclarations
  subst hlevels hslot
  obtain ⟨c₁, found, c₂, c₃, hdeclared, hreferences, hconclude, rfl⟩ := evaluate_inv hresult
  rw [hdeclarations] at hdeclared
  cases hdeclared
  obtain ⟨hc₂, hreason⟩ := references_accounts hg hfamily hkeeps hs (List.nil_append _).symm rfl
    (.inr (.inl rfl)) (hc.of_trackers rfl) hreferences
  suffices hc₃ : c₃.Accounts g sites from hc₃.of_trackers rfl
  rcases hreason with ⟨_, rfl⟩ | hreason
  · cases hconclude
    exact hc₂
  · have hslot : Accounted g sites c₂ slot := by
      rcases hreason with htext | hused | hcut
      · exact .text ⟨t, ht, htext, hdeclarations⟩ ⟨_, hs, rfl⟩
      · exact .usedUp ht hused
      · exact .cutOff hcut
    rcases conclude_inv hconclude with rfl | ⟨-, rfl⟩
    · exact hc₂.markSeen hslot
    · exact hc₂

end Levels

include hg hfamily in
/-- Whatever is expanded at one of the sites, all that has been seen stays accounted for. -/
theorem accounts {s : Site σ} {value : Option String} {c : Context σ} (hs : sites s)
    (hc : s.context.Accounts g sites) (h : s.result g = .ok value c) : c.Accounts g sites := by
  suffices hall : ∀ levels, Keeps g sites levels from hall s.levels hs rfl hc h
  intro levels
  induction levels with
  | zero =>
    intro s value c _ hlevels _ hresult
    unfold Site.result at hresult
    rw [hlevels] at hresult
    cases hresult
  | succ levels ih => exact keeps_succ hg hfamily ih

end Grammar.Family

end Expansions

/-! ### What is marked -/

section Marks

variable [RandomSource σ] {g : Grammar σ} {s : Site σ} {slot : Slot} {value : Option String}
variable {c : Context σ}

/-- An alternative that comes to nothing has been entered. -/
theorem Site.isSeen_of_none (hg : g.OverridesKeep Context.TrackersGrow)
    (htrack : s.context.tracking = true) (hslot : s.slot = some slot)
    (h : s.result g = .ok none c) : c.isSeen slot = true := by
  have hgrow : s.context.TrackersGrow c :=
    (Context.TrackersGrow.invariant.evaluate_keeps hg _ _ _).of_ok h
  obtain ⟨_ | levels, t, _, d⟩ := s
  · cases h
  · dsimp only at hslot
    subst hslot
    obtain ⟨_, found, c₂, c₃, -, -, hconclude, rfl⟩ := evaluate_inv h
    rcases conclude_inv hconclude with rfl | ⟨hvalue, -⟩
    · have htrack' : (c₂.markSeen slot).tracking = true := hgrow.tracking.trans htrack
      rw [(Context.TrackersGrow.mark c₂ slot).tracking] at htrack'
      exact Context.isSeen_markSeen htrack' slot
    · exact absurd rfl hvalue

/-- One that is a text gives that, and has been entered. -/
theorem Site.isSeen_of_plain (htrack : s.context.tracking = true) (hslot : s.slot = some slot)
    (hreferences : s.template.references = []) (hdeclarations : s.template.declarations = [])
    (h : s.result g = .ok value c) : value ≠ none ∧ c.isSeen slot = true := by
  obtain ⟨_ | levels, t, _, d⟩ := s
  · cases h
  · dsimp only at hslot hreferences hdeclarations htrack
    subst hslot
    obtain ⟨_, _, _, _, hdeclared, hnone, hconclude, rfl⟩ := evaluate_inv h
    rw [hdeclarations] at hdeclared
    cases hdeclared
    rw [hreferences] at hnone
    cases hnone
    cases hconclude
    exact ⟨nofun, Context.isSeen_markSeen (c := d.enterTemplate) htrack slot⟩

end Marks

/-- Every rule that an alternative refers to has texts only, or no more than one alternative with
weight. -/
def Grammar.Steady (g : Grammar σ) : Prop :=
  ∀ {name rule slot t r target}, g.rule? name = some rule → slot ∈ rule.slots →
    g.template slot = .ok t → r ∈ t.references → g.rule? r.symbol = some target →
    (∀ s ∈ target.weightedSlots, g.Plain s) ∨
      ∀ s ∈ target.weightedSlots, ∀ s' ∈ target.weightedSlots, s = s'

/-- In such a grammar nothing is cut off. -/
theorem Grammar.Family.not_cutOff [RandomSource σ] {g : Grammar σ} {sites : Site σ → Prop}
    (hg : g.RulesOnly) (hsteady : g.Steady) (hfamily : g.Family sites) (slot : Slot) :
    ¬ CutOff g sites slot := by
  rintro ⟨s, rule, levels, d, d', hs, -, ⟨hrefers, -, -, hrule⟩, hexpand, hopen⟩
  have hregular := hfamily.regular hs
  have hd := hregular.refers hg hrefers
  have hgrow : d.TrackersGrow d' := (Context.TrackersGrow.invariant.expandRuleWith_keeps
    (Context.TrackersGrow.invariant.evaluate_keeps hg.keeps levels) rule).of_ok hexpand
  rcases expandRuleWith_inv hexpand with ⟨s', hopens, hresult⟩ | ⟨hpick, -⟩
  · have htrack := (hopens.regular hrule hd).searching.tracking
    obtain ⟨picked, hpicked, hslot, ht⟩ := hopens.weighted hd.tracking
    obtain ⟨_, _, _, hrule₀, hslot₀, -, ht₀⟩ := hregular.alternative
    rcases hsteady hrule₀ hslot₀ ht₀ hrefers.mem hrule with hplain | hsingle
    · -- a text does not come to nothing
      obtain ⟨t, ht', hreferences, hdeclarations⟩ := hplain picked hpicked
      rw [ht] at ht'
      cases ht'
      exact (Site.isSeen_of_plain htrack hslot hreferences hdeclarations hresult).1 rfl
    · -- once its only alternative has been entered, the rule is used up
      have hseen := Site.isSeen_of_none hg.keeps htrack hslot hresult
      obtain ⟨left, hleft, hunseen⟩ := hasUnseen_iff.mp hopen
      rw [hsingle left hleft picked hpicked, hseen] at hunseen
      cases hunseen
  · rw [hgrow.hasUnseen (hasUnseen_of_pick_none hd.tracking hpick)] at hopen
    cases hopen

end Fabula
