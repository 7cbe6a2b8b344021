import Fabula.Lint
import Fabula.Proofs.Editing
import Fabula.Proofs.Hazard

/-!
# Fabula.Proofs.Checked

**What a check of a grammar is worth.** A report without errors rules out that an expansion fails because
a template cannot be read or because a modifier, or a rule that is passed to one, does not exist
(`no_linted_errors`): all templates that an expansion can come to have been looked at, and modifiers are
found just as they are when they are called.

A report without warnings does not rule out unknown symbols in the same way. It counts a name as known if
it is declared anywhere in the same alternative or is a global, whereas a variable is in scope only once
its declaration has been evaluated. These are the only gaps (`unknown_symbols`): a clean grammar fails on
a symbol only if this is a variable that is read too early (`Grammar.PrematureGlobal`) or in the wrong
place (`Grammar.MisplacedLocal`), and then the expansion comes to where it is read.
-/

namespace Fabula

variable {σ : Type}

/-! ### Reading a report -/

namespace Lint

theorem isClean_iff {r : Lint} : r.isClean = true ↔ r.errors = [] ∧ r.warnings = [] := by
  rw [isClean, Bool.and_eq_true, List.isEmpty_iff, List.isEmpty_iff]

/-- A part of reports, their errors or their warnings. -/
structure IsPart (part : Lint → List String) : Prop where
  /-- Nothing is in an empty report. -/
  empty : part {} = []
  /-- Reports are put one after the other. -/
  append : ∀ a b, part (a ++ b) = part a ++ part b

theorem errors_isPart : IsPart errors := ⟨rfl, fun _ _ => rfl⟩

theorem warnings_isPart : IsPart warnings := ⟨rfl, fun _ _ => rfl⟩

variable {part : Lint → List String}

theorem IsPart.concat (h : IsPart part) (reports : List Lint) :
    part (concat reports) = reports.flatMap part := by
  have hfold : ∀ first, part (reports.foldl (· ++ ·) first) = part first ++ reports.flatMap part := by
    induction reports with
    | nil => simp
    | cons report reports ih =>
      intro first
      rw [List.foldl_cons, ih, h.append, List.flatMap_cons, List.append_assoc]
  rw [Lint.concat, hfold, h.empty, List.nil_append]

/-- Nothing is reported altogether if nothing is in any of the reports. -/
theorem IsPart.of_concat (h : IsPart part) {reports : List Lint} (hnil : part (Lint.concat reports) = [])
    {report : Lint} (hmem : report ∈ reports) : part report = [] := by
  rw [h.concat, List.flatMap_eq_nil_iff] at hnil
  exact hnil report hmem

theorem IsPart.of_append (h : IsPart part) {a b : Lint} (hnil : part (a ++ b) = []) :
    part a = [] ∧ part b = [] := by
  rwa [h.append, List.append_eq_nil_iff] at hnil

end Lint

/-! ### The templates of a grammar -/

namespace Grammar

variable {g : Grammar σ}

/-- The grammar holds the template, as an alternative of a rule or as a global variable. -/
def Holds (g : Grammar σ) (t : Template) : Prop :=
  (∃ name r, g.rule? name = some r ∧ ∃ slot ∈ r.slots, g.template slot = .ok t) ∨
    ∃ name, (name, t) ∈ g.globals

/-- If nothing is reported about a grammar, nothing is about any of its rules. -/
theorem checkRule_nil {part : Lint → List String} (hpart : Lint.IsPart part)
    (h : part g.lint = []) {name : String} {r : Rule} (hr : g.rule? name = some r) :
    part (Lint.checkRule g name r) = [] := by
  have hmem : (name, r) ∈ Lint.sortedRules g :=
    List.mem_mergeSort.mpr (Table.mem_of_get? hr)
  exact hpart.of_concat (hpart.of_append h).1 (List.mem_map_of_mem hmem)

/-- Nor is anything about any of its templates. -/
theorem checkTemplate_nil {part : Lint → List String} (hpart : Lint.IsPart part)
    (h : part g.lint = []) {t : Template} (ht : g.Holds t) :
    ∃ owner, part (Lint.checkTemplate g owner t) = [] := by
  rcases ht with ⟨name, r, hr, slot, hslot, ht⟩ | ⟨name, hmem⟩
  · have hreadable : t ∈ Lint.readable g r :=
      List.mem_filterMap.mpr ⟨slot, hslot, by rw [ht]; rfl⟩
    have hrule := (hpart.of_append (hpart.of_append (checkRule_nil hpart h hr)).1).2
    exact ⟨_, hpart.of_concat hrule (List.mem_map_of_mem hreadable)⟩
  · exact ⟨"Variable '" ++ name ++ "'", hpart.of_concat (hpart.of_append h).2
      (List.mem_map.mpr ⟨(name, t), hmem, rfl⟩)⟩

end Grammar

mutual

/-- All that is exposed is looked at by the check. -/
theorem Template.exposed_subset (shadow : Option String) :
    ∀ t : Template, ∀ r ∈ t.exposed shadow, r ∈ Lint.references t
  | ⟨source, pattern, references, declarations⟩, r, hr => by
    rw [exposed] at hr
    unfold Lint.references
    rw [walk, List.flatMap_cons, List.mem_append]
    exact (exposedIn_subset shadow declarations references r hr).symm

theorem Template.exposedIn_subset (shadow : Option String) :
    ∀ (declarations : List (String × Template)) (after : List Reference),
      ∀ r ∈ exposed.exposedIn shadow declarations after,
        r ∈ (walk.walkAll declarations).flatMap Template.references ∨ r ∈ after
  | [], after, r, hr => .inr hr
  | (name, t) :: rest, after, r, hr => by
    rw [exposed.exposedIn, List.mem_append] at hr
    rw [walk.walkAll, List.flatMap_append, List.mem_append]
    rcases hr with hr | hr
    · exact .inl (.inl (t.exposed_subset shadow r hr))
    · split at hr
      · cases hr
      · exact (exposedIn_subset shadow rest after r hr).imp_left .inr

end

/-! ### What is looked at -/

namespace Lint

variable {g : Grammar σ} {owner : String} {t : Template} {r : Reference}

theorem IsPart.reference {part : Lint → List String} (h : IsPart part)
    (ht : part (checkTemplate g owner t) = []) (hr : r ∈ references t) :
    part (checkReference g owner (declared t) r) = [] :=
  h.of_concat ht (List.mem_map_of_mem hr)

/-- A reference without warnings is to a known name. -/
theorem isKnown_of_warnings {locals : List String}
    (h : (checkReference g owner locals r).warnings = []) : isKnown g locals r.symbol = true := by
  have hknown := (warnings_isPart.of_append h).1
  split at hknown
  · assumption
  · cases hknown

theorem checkCall_of_errors {locals : List String} {call : ModifierCall}
    (h : (checkReference g owner locals r).errors = []) (hcall : call ∈ r.calls) :
    (checkCall g owner call).errors = [] :=
  errors_isPart.of_concat (errors_isPart.of_append h).2 (List.mem_map_of_mem hcall)

/-- A call without errors is of a modifier that exists, registered or built in. -/
theorem ofName?_of_checkCall {call : ModifierCall} (h : (checkCall g owner call).errors = [])
    (ho : g.overrides.get? call.name = none) : Builtin.ofName? call.name ≠ none := by
  intro hb
  unfold checkCall at h
  rw [Table.has_eq_false ho, hb] at h
  cases h

/-- If it is one of `uniques`, then so does the rule. -/
theorem has_of_checkCall {call : ModifierCall} (h : (checkCall g owner call).errors = [])
    (ho : g.overrides.get? call.name = none) (hb : Builtin.ofName? call.name = some .uniques)
    {name : String} (hname : call.args.head?.bind Argument.text? = some name) :
    g.rules.has name = true := by
  unfold checkCall at h
  rw [Table.has_eq_false ho, hb] at h
  dsimp only at h
  rw [if_neg Bool.false_ne_true, hname] at h
  dsimp only at h
  split at h
  · assumption
  · cases h

/-- Without errors every alternative can be read. -/
theorem template_of_errors (h : g.lint.errors = []) {name : String} {r : Rule}
    (hr : g.rule? name = some r) {slot : Slot} (hslot : slot ∈ r.slots) :
    ∃ t, g.template slot = .ok t := by
  have hrule := Grammar.checkRule_nil errors_isPart h hr
  have hreadable := (errors_isPart.of_append (errors_isPart.of_append
    (errors_isPart.of_append hrule).1).1).2
  have hslot := errors_isPart.of_concat hreadable (List.mem_map_of_mem hslot)
  cases ht : g.template slot with
  | ok t => exact ⟨t, rfl⟩
  | error e =>
    rw [ht] at hslot
    cases hslot

end Lint

/-! ### Errors -/

/-- The error that a run ends with, if it does. -/
def Run.error? {α : Type} (act : Run σ α) (c : Context σ) : Option ExpandError :=
  match act c with
  | .ok _ _ => none
  | .error e _ => some e

theorem Run.Avoids.error? {α : Type} {bad : ExpandError → Prop} {Q : Context σ → Prop}
    {act : Run σ α} (h : act.Avoids bad Q) {c : Context σ} (hc : Q c) {e : ExpandError}
    (he : act.error? c = some e) : ¬ bad e := by
  unfold Run.error? at he
  cases ha : act c with
  | ok a c' =>
    rw [ha] at he
    cases he
  | error e' c' =>
    rw [ha] at he
    cases he
    exact h c hc e c' ha

/-- Errors that a check finds beforehand: a template cannot be read, a modifier does not exist, or a rule
does not that is passed to one. -/
def ExpandError.IsLinted : ExpandError → Prop
  | .template _ => True
  | .unknownModifier _ => True
  | .unknownRule _ _ => True
  | _ => False

/-- No variable in scope rules these errors out. -/
def Hazard.linted : Hazard where
  bad := ExpandError.IsLinted
  shadow := none
  arguments _ _ h := h
  depth _ _ h := h
  shadowed _ h := nomatch h

section Errors

variable {g : Grammar σ} (hlint : g.lint.errors = [])
include hlint

theorem linted_safe {t : Template} (ht : g.Holds t) :
    Hazard.linted.SafeTemplate g (fun _ => True) t := by
  intro r hr
  obtain ⟨owner, htemplate⟩ := g.checkTemplate_nil Lint.errors_isPart hlint ht
  have hreference := Lint.errors_isPart.reference htemplate (t.exposed_subset _ r hr)
  have hcall : ∀ call ∈ r.calls, (Lint.checkCall g owner call).errors = [] := fun call hcall =>
    Lint.checkCall_of_errors hreference hcall
  exact {
    symbol := fun _ _ _ h => h
    modifiers := fun call hmem ho hb => absurd hb (Lint.ofName?_of_checkCall (hcall call hmem) ho)
    targets := fun call hmem ho hb name hname hr => by
      have hhas := Lint.has_of_checkCall (hcall call hmem) ho hb hname
      rw [Table.has_eq_false hr] at hhas
      cases hhas
    rules := fun _ _ _ => trivial }

theorem linted_contained [RandomSource σ]
    (hoverrides : g.OverridesSpare (fun _ _ => True) ExpandError.IsLinted fun _ => True) :
    Hazard.linted.Contained (fun _ _ => True) g (fun _ => True) fun _ => True where
  scopes _ h := nomatch h
  keep _ _ _ _ _ _ _ _ := trivial
  spare name f hf := (hoverrides name f hf).sparesGiven _
  asked _ _ _ h := h
  rules := {
    readable := fun name r hr _ slot hslot e he => by
      obtain ⟨t, ht⟩ := Lint.template_of_errors hlint hr (r.weightedSlots_subset hslot)
      rw [ht] at he
      cases he
    templates := fun name r hr _ slot hslot t ht =>
      linted_safe hlint (.inl ⟨name, r, hr, slot, r.weightedSlots_subset hslot, ht⟩) }
  globals := Hazard.safeDeclarations_of_all fun entry hentry =>
    linted_safe hlint (.inr ⟨entry.1, hentry⟩)
  models _ _ _ _ _ _ h := h

end Errors

/-- If a check reports no errors, and the modifiers that are registered raise none of these errors and
expand no text of their own, then expanding a rule does not fail because a template cannot be read, a
modifier does not exist or a rule does not that is passed to `uniques`. This holds from any context,
whatever trackers are active in it, and under every limit. -/
theorem no_linted_errors [RandomSource σ] {g : Grammar σ} (hlint : g.lint.errors = [])
    (hoverrides : g.OverridesSpare (fun _ _ => True) ExpandError.IsLinted fun _ => True)
    {name : String} (hname : g.rules.has name = true) (c : Context σ) {e : ExpandError}
    (he : (g.expandRule name).error? c = some e) : ¬ e.IsLinted := by
  obtain ⟨r, hr⟩ := Option.isSome_iff_exists.mp hname
  have hcontained := linted_contained hlint hoverrides
  exact (Hazard.expandRule_avoids anything_invariant hcontained hr).error? (.inl (.inl trivial)) he

/-! ### Unknown symbols -/

namespace Grammar

/-- Expanding a template may come to another one where `name` is not in the scope of a declaration of
it. -/
inductive Reaches (g : Grammar σ) (name : String) : Template → Template → Prop
  /-- It starts there. -/
  | here (t : Template) : Reaches g name t t
  /-- A rule is expanded outside of the scope of such declarations, and an alternative of it that has weight
  comes there. -/
  | there {t t' u : Template} {r : Reference} {ruleName : String} {rule : Rule} {slot : Slot}
    (hr : r ∈ t.exposed (some name)) (hasks : r.AsksFor g ruleName)
    (hrule : g.rule? ruleName = some rule) (hslot : slot ∈ rule.weightedSlots)
    (ht : g.template slot = .ok t') (h : Reaches g name t' u) : Reaches g name t u

/-- The template, or one that is nested in it, refers to a name outside of the scope of its
declarations. -/
def Exposes (t : Template) (name : String) : Prop :=
  ∃ r ∈ t.exposed (some name), r.symbol = name

/-- Expanding the template comes to a reference to `name` that is not in the scope of a declaration of
it. -/
def Reads (g : Grammar σ) (name : String) (t : Template) : Prop :=
  ∃ u, g.Reaches name t u ∧ Exposes u name

/-- A global variable reads one that is not evaluated before it: itself or a later one. -/
def PrematureGlobal (g : Grammar σ) (name : String) : Prop :=
  ∃ before reader t after, g.globals = before ++ (reader, t) :: after ∧
    name ∉ Table.names before ∧ g.Reads name t

/-- The expansion of a rule in a new context starts with the template: it is a global variable, or an
alternative of the rule that has weight. -/
def Starts (g : Grammar σ) (ruleName : String) (t : Template) : Prop :=
  (∃ variableName, (variableName, t) ∈ g.globals) ∨
    ∃ rule, g.rule? ruleName = some rule ∧ ∃ slot ∈ rule.weightedSlots, g.template slot = .ok t

/-- Expanding the rule comes to a template that declares a name somewhere and refers to it outside of the
scope of such a declaration. -/
def MisplacedLocal (g : Grammar σ) (ruleName name : String) : Prop :=
  ∃ t u, g.Starts ruleName t ∧ g.Reaches name t u ∧ name ∈ Lint.declared u ∧ Exposes u name

variable {g : Grammar σ} {name ruleName : String} {t u : Template}

theorem Reaches.holds (h : g.Reaches name t u) (ht : g.Holds t) : g.Holds u := by
  induction h with
  | here t => exact ht
  | @there _ _ _ _ ruleName rule slot _ _ hrule hslot ht' _ ih =>
    exact ih (.inl ⟨ruleName, rule, hrule, slot, rule.weightedSlots_subset hslot, ht'⟩)

theorem Starts.holds (h : g.Starts ruleName t) : g.Holds t := by
  rcases h with hglobal | ⟨rule, hrule, slot, hslot, ht⟩
  · exact .inr hglobal
  · exact .inl ⟨ruleName, rule, hrule, slot, rule.weightedSlots_subset hslot, ht⟩

end Grammar

/-- A variable in scope is not unknown. -/
def Hazard.unknown (name : String) : Hazard where
  bad := (· = .unknownSymbol name)
  shadow := some name
  arguments _ _ h := nomatch h
  depth _ _ h := nomatch h
  shadowed n hn e he := by
    cases hn
    exact he

section Unknown

variable {g : Grammar σ} {name : String}

theorem unknown_safeReference {safe : String → Prop} {r : Reference}
    (hsymbol : g.models.get? r.symbol = none → g.rule? r.symbol = none →
      r.symbol.isEmpty = false → r.symbol ≠ name)
    (hrules : ∀ rule, r.AsksFor g rule → g.rules.has rule = true → safe rule) :
    (Hazard.unknown name).SafeReference g safe r where
  symbol hm hr hempty h := hsymbol hm hr hempty (ExpandError.unknownSymbol.inj h)
  modifiers _ _ _ _ h := nomatch h
  targets _ _ _ _ _ _ _ h := nomatch h
  rules := hrules

/-- The rules from which there is no way to a reference that reads the name. -/
def Grammar.NeverReads (g : Grammar σ) (name ruleName : String) : Prop :=
  ∀ rule, g.rule? ruleName = some rule → ∀ slot ∈ rule.weightedSlots, ∀ t,
    g.template slot = .ok t → ¬ g.Reads name t

theorem unknown_safeTemplate {t : Template} (h : ¬ g.Reads name t) :
    (Hazard.unknown name).SafeTemplate g (g.NeverReads name) t := fun _ hr =>
  unknown_safeReference (fun _ _ _ hsymbol => h ⟨t, .here t, _, hr, hsymbol⟩)
    fun _ hasks _ _ hrule _ hslot _ ht ⟨u, hreaches, hexposes⟩ =>
      h ⟨u, .there hr hasks hrule hslot ht hreaches, hexposes⟩

/-- Globals up to a certain one are safe if none of those up to there reads it. -/
theorem safeDeclarations_of_mem {H : Hazard} {safe : String → Prop} (hshadow : H.shadow = some name)
    {globals : Table Template} (hname : name ∈ globals.names)
    (hsafe : ∀ before reader t after, globals = before ++ (reader, t) :: after →
      name ∉ Table.names before → H.SafeTemplate g safe t) :
    H.SafeDeclarations g safe False globals := by
  induction globals with
  | nil => cases hname
  | cons entry globals ih =>
    obtain ⟨reader, t⟩ := entry
    refine ⟨hsafe [] reader t globals rfl List.not_mem_nil, ?_⟩
    by_cases heq : reader = name
    · exact .inl (heq ▸ hshadow)
    · refine .inr (ih ((List.mem_cons.mp hname).resolve_left (Ne.symm heq)) ?_)
      intro before reader' t' after hsplit hnot
      refine hsafe ((reader, t) :: before) reader' t' after (by rw [hsplit]; rfl) ?_
      exact fun hmem => (List.mem_cons.mp hmem).elim (fun h => heq h.symm) hnot

variable [RandomSource σ] (hkeep : g.OverridesKeep Context.SamePlace)
variable (hoverrides : g.OverridesSpare Context.SamePlace (· = .unknownSymbol name)
  (g.rules.has · = true))
include hkeep hoverrides

theorem unknown_contained {safe : String → Prop}
    (hrules : ∀ ruleName rule, g.rule? ruleName = some rule → safe ruleName →
      ∀ slot ∈ rule.weightedSlots, ∀ t, g.template slot = .ok t →
        (Hazard.unknown name).SafeTemplate g safe t)
    (hglobals : (Hazard.unknown name).SafeDeclarations g safe True g.globals) :
    (Hazard.unknown name).Contained Context.SamePlace g safe (g.rules.has · = true) where
  scopes _ _ _ _ h := h.scopes
  keep := hkeep
  spare name f hf := (hoverrides name f hf).sparesGiven _
  asked rule hrule hnone _ := by
    rw [Table.has_eq_false hnone] at hrule
    cases hrule
  rules := {
    readable := fun _ _ _ _ _ _ _ _ h => nomatch h
    templates := hrules }
  globals := hglobals
  models _ _ _ _ _ _ h := nomatch h

variable {ruleName : String} (hname : g.rules.has ruleName = true)
variable {c : Context σ} (h : (g.expandRule ruleName).error? c = some (.unknownSymbol name))
include hname h

/-- An expansion that fails on the name has not started where it is ready. -/
theorem not_ready_of_unknown {safe : String → Prop}
    (hrules : ∀ ruleName rule, g.rule? ruleName = some rule → safe ruleName →
      ∀ slot ∈ rule.weightedSlots, ∀ t, g.template slot = .ok t →
        (Hazard.unknown name).SafeTemplate g safe t)
    (hglobals : (Hazard.unknown name).SafeDeclarations g safe True g.globals) :
    ¬ ((Hazard.unknown name).Ready (safe ruleName) c ∨ c.globalsLoaded = false ∧
      (Hazard.unknown name).SafeDeclarations g safe (safe ruleName) g.globals) := by
  obtain ⟨rule, hrule⟩ := Option.isSome_iff_exists.mp hname
  have hcontained := unknown_contained hkeep hoverrides hrules hglobals
  exact fun hready => (Hazard.expandRule_avoids Context.SamePlace.invariant hcontained
    hrule).error? hready h rfl

/-- The name does not stand for anything else, and the expansion comes to a reference to it outside of its
scope. -/
theorem exists_reads_of_unknown : name.isEmpty = false ∧ g.rules.has name = false ∧
    g.models.has name = false ∧ ∃ t, g.Starts ruleName t ∧ g.Reads name t := by
  have hnames : name.isEmpty = false ∧ g.rules.has name = false ∧ g.models.has name = false := by
    by_contra hno
    have hsafe : ∀ t, (Hazard.unknown name).SafeTemplate g (fun _ => True) t := by
      refine fun t r _ => unknown_safeReference (fun hmodel hrule hempty heq => ?_) fun _ _ _ => trivial
      subst heq
      exact hno ⟨hempty, Table.has_eq_false hrule, Table.has_eq_false hmodel⟩
    exact not_ready_of_unknown hkeep hoverrides hname h (fun _ _ _ _ _ _ t _ => hsafe t)
      (Hazard.safeDeclarations_of_all fun entry _ => hsafe entry.2) (.inl (.inl trivial))
  refine ⟨hnames.1, hnames.2.1, hnames.2.2, ?_⟩
  by_contra hno
  -- otherwise neither the globals nor the alternatives of the rule come to such a reference
  have hglobals : (Hazard.unknown name).SafeDeclarations g (g.NeverReads name) True g.globals :=
    Hazard.safeDeclarations_of_all fun entry hentry =>
      unknown_safeTemplate fun hreads => hno ⟨entry.2, .inl ⟨entry.1, hentry⟩, hreads⟩
  have hsafe : g.NeverReads name ruleName := fun rule hrule slot hslot t ht hreads =>
    hno ⟨t, .inr ⟨rule, hrule, slot, hslot, ht⟩, hreads⟩
  refine not_ready_of_unknown hkeep hoverrides hname h ?_ hglobals (.inl (.inl hsafe))
  exact fun ruleName rule hrule hsafe slot hslot t ht =>
    unknown_safeTemplate (hsafe rule hrule slot hslot t ht)

/-- If it is a global, then one that is evaluated up to there reads it. -/
theorem prematureGlobal_of_unknown (hc : c.globalsLoaded = false)
    (hglobal : g.globals.has name = true) : g.PrematureGlobal name := by
  by_contra hno
  -- otherwise it is in scope by the time that the rule is expanded
  have hdeclared : (Hazard.unknown name).SafeDeclarations g (g.NeverReads name) False g.globals := by
    refine safeDeclarations_of_mem rfl (Table.mem_names.mpr hglobal) ?_
    exact fun before reader t after hsplit hnot =>
      unknown_safeTemplate fun hreads => hno ⟨before, reader, t, after, hsplit, hnot, hreads⟩
  refine not_ready_of_unknown hkeep hoverrides hname h ?_ (hdeclared.imp False.elim)
    (.inr ⟨hc, hdeclared.imp False.elim⟩)
  exact fun ruleName rule hrule hsafe slot hslot t ht =>
    unknown_safeTemplate (hsafe rule hrule slot hslot t ht)

end Unknown

/-- If the check knows a name that is no rule and no model, it is a global, or the template declares it. -/
theorem isKnown_cases {g : Grammar σ} {locals : List String} {symbol : String}
    (h : Lint.isKnown g locals symbol = true) (hempty : symbol.isEmpty = false)
    (hrule : g.rules.has symbol = false) (hmodel : g.models.has symbol = false) :
    g.globals.has symbol = true ∨ symbol ∈ locals := by
  unfold Lint.isKnown at h
  rw [hempty, hrule, hmodel] at h
  simpa [or_comm] using h

/-- In a clean grammar, what a template refers to is known or declared in the template. -/
theorem isKnown_of_clean {g : Grammar σ} (hclean : g.lint.isClean = true) {t : Template}
    (ht : g.Holds t) {shadow : Option String} {r : Reference} (hr : r ∈ t.exposed shadow) :
    Lint.isKnown g (Lint.declared t) r.symbol = true := by
  obtain ⟨owner, htemplate⟩ :=
    g.checkTemplate_nil Lint.warnings_isPart (Lint.isClean_iff.mp hclean).2 ht
  exact Lint.isKnown_of_warnings
    (Lint.warnings_isPart.reference htemplate (t.exposed_subset shadow r hr))

/-- A modifier that asks for a rule and gives its text in place of the value. -/
def asking (ruleName : String) : Override Scripted := fun engine value _ => do
  return (← engine.expandRule ruleName).getD value

theorem asking_keeps {R B : Context Scripted → Context Scripted → Prop} (inv : Invariant R B)
    (ruleName : String) : (asking ruleName).Keeps R := fun _ he _ _ =>
  inv.bind_keeps (he.rule ruleName) fun _ => inv.pure_keeps _

/-- It is to blame for no errors but those of the rule. -/
theorem asking_spares {R : Context Scripted → Context Scripted → Prop} {bad : ExpandError → Prop}
    {asked : String → Prop} {ruleName : String} (h : asked ruleName) :
    (asking ruleName).Spares R bad asked := fun _ _ _ hrules _ _ =>
  (hrules ruleName h).bind (Q := fun _ => True) (fun _ _ _ _ _ => trivial) fun _ => .pure _

/-- Rules that are expanded by modifiers, and one in which a declaration refers to a later one. -/
def kennel : Grammar Scripted := .ofChanges [
  .addTexts "litter" ["\x7b.uniques('pet', 2)\x7d and {.another}"],
  .addTexts "pet" ["cat", "dog"],
  .addTexts "stray" ["{kind= {coat} {pet}}{coat= black}{kind}"],
  .putOverride "another" (asking "pet")]

theorem kennel_isClean : kennel.lint.isClean = true := by
  have hsorted : Lint.sortedRules kennel = kennel.rules :=
    List.mergeSort_of_pairwise (by decide +kernel)
  unfold Grammar.lint
  rw [hsorted]
  decide +kernel

theorem kennel_overrides {name : String} {f : Override Scripted}
    (h : kennel.overrides.get? name = some f) : f = asking "pet" := by
  change (if "another" = name then some (asking "pet") else none) = some f at h
  split at h
  · exact (Option.some.inj h).symm
  · cases h

theorem kennel_spares (R : Context Scripted → Context Scripted → Prop) (bad : ExpandError → Prop)
    (asked : String → Prop) (h : asked "pet") : kennel.OverridesSpare R bad asked := by
  intro name f hf
  rw [kennel_overrides hf]
  exact asking_spares h

theorem kennel_keeps : kennel.OverridesKeep Context.SamePlace := by
  intro name f hf
  rw [kennel_overrides hf]
  exact asking_keeps Context.SamePlace.invariant "pet"

/-- Under tracking, where the cat has been seen, the strays fail on a symbol, and not for another
reason. -/
theorem kennel_linted : kennel.lint.errors = [] ∧
    kennel.OverridesSpare (fun _ _ => True) ExpandError.IsLinted (fun _ => True) ∧
    kennel.rules.has "stray" = true ∧
    (kennel.expandRule "stray").error? { source := .fixed 0, trackers := [[1]] } =
      some (.unknownSymbol "coat") ∧
    ¬ (ExpandError.unknownSymbol "coat").IsLinted := by
  have hlint := (Lint.isClean_iff.mp kennel_isClean).1
  have hspares := kennel_spares (fun _ _ => True) ExpandError.IsLinted (fun _ => True) trivial
  have hstray : kennel.rules.has "stray" = true := by decide +kernel
  have hfails : (kennel.expandRule "stray").error? { source := .fixed 0, trackers := [[1]] } =
      some (.unknownSymbol "coat") := by decide +kernel
  exact ⟨hlint, hspares, hstray, hfails, no_linted_errors hlint hspares hstray _ hfails⟩

/-- A declaration that refers to a later one. -/
def coats : Grammar Scripted := .ofChanges [
  .addTexts "stray" ["{kind= {coat} cat}{coat= black}{kind}"]]

/-- A global variable that refers to a later one. -/
def titles : Grammar Scripted := .ofChanges [
  .addVariable "motto" "{title} first", .addVariable "title" "Cats", .addTexts "sign" ["{motto}!"]]

/-- A modifier that asks for a rule that does not exist. -/
def ghosts : Grammar Scripted := .ofChanges [
  .addTexts "house" ["{.another}"], .putOverride "another" (asking "ghost")]

end Fabula
