import Fabula.Proofs.Accounts
import Fabula.Proofs.Exhaustion

/-!
# Fabula.Proofs.Shortfall

**What has been left out when `uniques` stops short**, in grammars that consist of rules alone. It stops
before it has found as many texts as it was asked for when the rule has been used up, that is when all of
its alternatives count as seen. Everything that counts as seen is accounted for by then
(`Fabula.Proofs.Accounts`), so every derivation tree of the rule has an alternative in it that is a text and
has been chosen, or one that was cut off (`uniques_shortfall`).

Nothing is cut off if each rule that is referred to has texts only or a single alternative. In other
grammars texts can get lost, because an alternative is given up as soon as one that was picked below it
comes to nothing, even if others could be picked there (`owls_lost`).
-/

namespace Fabula

variable {σ : Type}

/-! ### Derivation trees -/

/-- The derivation trees of some rules, side by side. Of each tree all alternatives are listed, every one
before those below it. -/
inductive Derivation (g : Grammar σ) : List String → List Slot → Prop
  /-- There are no rules left. -/
  | done : Derivation g [] []
  /-- An alternative with weight stands for a rule, and the rules that it refers to come next. -/
  | rule {name : String} {names : List String} {rule : Rule} {slot : Slot} {t : Template}
    {slots : List Slot} (hrule : g.rule? name = some rule) (hslot : slot ∈ rule.weightedSlots)
    (ht : g.template slot = .ok t)
    (h : Derivation g (t.references.map Reference.symbol ++ names) slots) :
    Derivation g (name :: names) (slot :: slots)

/-- The trees of a rule that has been used up have something in them that is accounted for on its own:
the reason why an alternative counts as seen leads down to it. -/
theorem Derivation.accounted [RandomSource σ] {g : Grammar σ} {sites : Site σ → Prop} {c : Context σ}
    (hc : c.Accounts g sites) {names : List String} {slots : List Slot}
    (h : Derivation g names slots) {name : String} {rule : Rule} (hname : name ∈ names)
    (hrule : g.rule? name = some rule) (hused : Builtin.hasUnseen rule c = false) :
    ∃ slot ∈ slots, g.Plain slot ∧ Chosen sites slot ∨ CutOff g sites slot := by
  induction h generalizing name rule with
  | done => cases hname
  | @rule name' names rule' slot t slots hrule' hslot ht _ ih =>
    rcases List.mem_cons.mp hname with rfl | hname
    · rw [hrule] at hrule'
      cases hrule'
      rcases hc slot (isSeen_of_used hused hslot) with
        ⟨hplain, hchosen⟩ | ⟨ht', r, hr, below, hbelow, hused⟩ | ⟨hcut⟩
      · exact ⟨slot, List.mem_cons_self, .inl ⟨hplain, hchosen⟩⟩
      · rw [ht] at ht'
        cases ht'
        have hmem : r.symbol ∈ t.references.map Reference.symbol ++ names :=
          List.mem_append_left _ (List.mem_map_of_mem hr)
        obtain ⟨slot', hslot', hfound⟩ := ih hmem hbelow hused
        exact ⟨slot', List.mem_cons_of_mem _ hslot', hfound⟩
      · exact ⟨slot, List.mem_cons_self, .inr hcut⟩
    · obtain ⟨slot', hslot', hfound⟩ := ih (List.mem_append_right _ hname) hrule hused
      exact ⟨slot', List.mem_cons_of_mem _ hslot', hfound⟩

/-! ### Tries -/

/-- In the course of collecting texts, a try is made in this context. -/
inductive Tries (attempt : Run σ (Option String)) (isOpen : Context σ → Bool) (count : Nat) :
    List String → Context σ → Context σ → Prop
  /-- There are not enough texts yet. -/
  | here {texts c} (h : ¬ count ≤ texts.length) : Tries attempt isOpen count texts c c
  /-- A text has been found. -/
  | text {texts c text c' d} (h : ¬ count ≤ texts.length) (ha : attempt c = .ok (some text) c')
    (hrest : Tries attempt isOpen count (addText texts text) c' d) :
    Tries attempt isOpen count texts c d
  /-- One branch had nothing new to say. -/
  | branch {texts c c' d} (h : ¬ count ≤ texts.length) (ha : attempt c = .ok none c')
    (hopen : isOpen c' = true) (hrest : Tries attempt isOpen count texts c' d) :
    Tries attempt isOpen count texts c d

/-- The context with the scope of the globals open, as it is when a rule is expanded. -/
def Context.forRule (c : Context σ) : Context σ := if c.globalsLoaded then c else c.enterGlobals

theorem Context.forRule_trackers (c : Context σ) : c.forRule.trackers = c.trackers := by
  unfold Context.forRule
  split <;> rfl

theorem Context.Searching.forRule {c : Context σ} (h : c.Searching) : c.forRule.Searching := by
  unfold Context.forRule
  split
  · exact h
  · exact ⟨h.tracking, h.lookup⟩

/-- Without globals, asking for a rule is expanding it. -/
theorem engineRule_inv [RandomSource σ] {g : Grammar σ} (hglobals : g.globals = [])
    {enter : Evaluator σ} {name : String} {rule : Rule} (hrule : g.rule? name = some rule)
    {value : Option String} {c c' : Context σ}
    (h : (engineWith g enter).expandRule name c = .ok value c') :
    ∃ d, expandRuleWith g enter rule c.forRule = .ok value d ∧ d.trackers = c'.trackers := by
  rw [engineWith_rule hrule] at h
  unfold Context.forRule
  cases hl : c.globalsLoaded with
  | true =>
    rw [withGlobals_of_loaded hl] at h
    exact ⟨c', h, rfl⟩
  | false =>
    rw [withGlobals_of_not_loaded hl, hglobals] at h
    obtain ⟨d, hinside, rfl⟩ := Run.within_inv h
    obtain ⟨⟨⟩, c₁, hassign, hexpand⟩ := Run.bind_inv hinside
    cases hassign
    exact ⟨d, hexpand, rfl⟩

section Calls

variable [RandomSource σ] {g : Grammar σ} {levels : Nat} {name : String} {rule : Rule}

/-- What is expanded in tries that start in these contexts: the alternatives that are opened, with all
that lies on their courses. -/
def TrySites (g : Grammar σ) (levels : Nat) (rule : Rule) (starts : Context σ → Prop)
    (s : Site σ) : Prop :=
  ∃ d first, starts d ∧ Site.Opens g rule levels d.forRule first ∧ first.Course g s

/-- The expansions of one rule by an engine. -/
def attempts (g : Grammar σ) (levels : Nat) (name : String) : Run σ (Option String) :=
  (engineWith g (g.evaluate levels)).expandRule name

variable (hg : g.RulesOnly) (hrule : g.rule? name = some rule) {starts : Context σ → Prop}
include hg hrule

theorem trySites_family (hstarts : ∀ d, starts d → d.Searching) :
    g.Family (TrySites g levels rule starts) where
  regular := by
    rintro s ⟨d, first, hd, hopens, hcourse⟩
    exact hcourse.regular hg (hopens.regular hrule (hstarts d hd).forRule)
  closed := by
    rintro s s' ⟨d, first, hd, hopens, hcourse⟩ hstep
    exact ⟨d, first, hd, hopens, hcourse.tail hstep⟩

/-- Accounts are kept in a try. -/
theorem try_accounts (hstarts : ∀ d, starts d → d.Searching) {d d' : Context σ} (hd : starts d)
    {value : Option String} (haccounts : d.Accounts g (TrySites g levels rule starts))
    (h : attempts g levels name d = .ok value d') :
    d'.Accounts g (TrySites g levels rule starts) := by
  obtain ⟨e, hexpand, htrackers⟩ := engineRule_inv hg.globals hrule h
  suffices he : e.Accounts g (TrySites g levels rule starts) from he.of_trackers htrackers.symm
  have hd' := haccounts.of_trackers d.forRule_trackers
  rcases expandRuleWith_inv hexpand with ⟨s, hopens, hresult⟩ | ⟨hpick, -⟩
  · have hs : TrySites g levels rule starts s := ⟨d, s, hd, hopens, .refl⟩
    obtain ⟨hpick, -⟩ := hopens
    exact (trySites_family hg hrule hstarts).accounts hg hs
      (hd'.of_trackers (pick_trackers hpick)) hresult
  · exact hd'.of_trackers (pick_trackers hpick)

/-- Collecting that gives too few texts has used the rule up, and all that it has seen is accounted
for. -/
theorem collects_accounts (hstarts : ∀ d, starts d → d.Searching) {count tries : Nat}
    {texts texts' : List String} {c c' : Context σ}
    (h : Collects (attempts g levels name) (Builtin.hasUnseen rule) count texts c tries
      (.ok texts' c'))
    (htries : ∀ d, Tries (attempts g levels name) (Builtin.hasUnseen rule) count texts c d → starts d)
    (hc : c.Accounts g (TrySites g levels rule starts)) (hshort : texts'.length < count) :
    c'.Accounts g (TrySites g levels rule starts) ∧ Builtin.hasUnseen rule c' = false := by
  generalize hresult : EStateM.Result.ok texts' c' = result at h
  induction h with
  | enough henough =>
    cases hresult
    exact absurd henough (Nat.not_le.mpr hshort)
  | text henough ha _ ih =>
    have hc' := try_accounts hg hrule hstarts (htries _ (.here henough)) hc ha
    exact ih (fun d hd => htries d (.text henough ha hd)) hc' hresult
  | branch henough ha hopen _ ih =>
    have hc' := try_accounts hg hrule hstarts (htries _ (.here henough)) hc ha
    exact ih (fun d hd => htries d (.branch henough ha hopen hd)) hc' hresult
  | exhausted henough ha hclosed =>
    cases hresult
    exact ⟨try_accounts hg hrule hstarts (htries _ (.here henough)) hc ha, hclosed⟩
  | error => cases hresult

omit hrule in
/-- In all tries no name is in scope, and a tracker is active. -/
theorem Tries.searching {count : Nat} {isOpen : Context σ → Bool} {texts : List String}
    {c d : Context σ} (h : Tries (attempts g levels name) isOpen count texts c d)
    (hc : c.Searching) : d.Searching := by
  have hkeeps := (Context.Frame.invariant.levelEngine_keeps (g := g) hg.keeps levels).rule name
  induction h with
  | here => exact hc
  | text _ ha _ ih =>
    have hframe := hkeeps.of_ok ha
    exact ih (hc.mono hframe.trackers hframe.scopes)
  | branch _ ha _ _ ih =>
    have hframe := hkeeps.of_ok ha
    exact ih (hc.mono hframe.trackers hframe.scopes)

end Calls

/-! ### Stopping short -/

/-- What `uniques` gives for the texts that have been collected. -/
theorem runUniques_of_collect {g : Grammar σ} {engine : Engine σ} {args : List Argument}
    {name separator : String} {count : Nat} {rule : Rule} {texts : List String} {c c' : Context σ}
    (hargs : Builtin.uniquesArgs args = .ok (name, count, separator))
    (hrule : g.rule? name = some rule)
    (h : Builtin.collect (engine.expandRule name) (Builtin.hasUnseen rule) count []
      Builtin.maxUniqueTries c.pushTracker = .ok texts c') :
    Builtin.runUniques g engine args c =
      .ok (String.intercalate separator texts) c'.popTracker := by
  rw [Builtin.runUniques, hargs, Run.ofExcept, pure_bind]
  dsimp only
  rw [hrule]
  dsimp only
  rw [Run.withTracker, Run.within, Run.bind_apply, h]
  rfl

/-- What a call of `uniques` for so many texts expands. -/
def CallSites [RandomSource σ] (g : Grammar σ) (levels : Nat) (name : String) (rule : Rule)
    (count : Nat) (c : Context σ) : Site σ → Prop :=
  TrySites g levels rule
    (Tries (attempts g levels name) (Builtin.hasUnseen rule) count [] c.pushTracker)

/-- **When `uniques` stops short, every derivation tree has been dealt with.** In a grammar of rules
alone, when no name is in scope and nothing is tracked, let `uniques` collect fewer texts than it was asked
for in fewer tries than the limit. Then it gives these, and every derivation tree of the rule has an
alternative that is a text and was chosen in this call, or one that was cut off in it. If each rule that is
referred to has texts only or a single alternative, then there is always one of the first kind. -/
theorem uniques_shortfall [RandomSource σ] {g : Grammar σ} (hg : g.RulesOnly) {levels : Nat}
    {c : Context σ} (htrackers : c.trackers = []) (hlookup : ∀ name, c.lookup name = none)
    {args : List Argument} {name separator : String} {count : Nat}
    (hargs : Builtin.uniquesArgs args = .ok (name, count, separator)) {rule : Rule}
    (hrule : g.rule? name = some rule) {tries : Nat} {texts : List String} {c' : Context σ}
    (h : Collects (attempts g levels name) (Builtin.hasUnseen rule) count [] c.pushTracker tries
      (.ok texts c'))
    (htries : tries < Builtin.maxUniqueTries) (hshort : texts.length < count) :
    Builtin.runUniques g (engineWith g (g.evaluate levels)) args c =
        .ok (String.intercalate separator texts) c'.popTracker ∧
      (∀ slots, Derivation g [name] slots → ∃ slot ∈ slots,
        g.Plain slot ∧ Chosen (CallSites g levels name rule count c) slot ∨
          CutOff g (CallSites g levels name rule count c) slot) ∧
      (g.Steady → ∀ slots, Derivation g [name] slots → ∃ slot ∈ slots,
        g.Plain slot ∧ Chosen (CallSites g levels name rule count c) slot) := by
  have hstart : c.pushTracker.Searching := ⟨rfl, hlookup⟩
  have hsearching (d : Context σ)
      (hd : Tries (attempts g levels name) (Builtin.hasUnseen rule) count [] c.pushTracker d) :
      d.Searching := hd.searching hg hstart
  have hnothing : c.pushTracker.Accounts g (CallSites g levels name rule count c) := by
    intro slot hslot
    simp [Context.isSeen, Context.pushTracker, htrackers] at hslot
  obtain ⟨haccounts, hused⟩ :=
    collects_accounts hg hrule hsearching h (fun _ hd => hd) hnothing hshort
  have htrees (slots : List Slot) (hslots : Derivation g [name] slots) :=
    hslots.accounted haccounts List.mem_cons_self hrule hused
  refine ⟨?_, htrees, fun hsteady slots hslots => ?_⟩
  · exact runUniques_of_collect hargs hrule (h.collect_eq (Nat.le_of_lt htries))
  · obtain ⟨slot, hslot, hplain | hcut⟩ := htrees slots hslots
    · exact ⟨slot, hslot, hplain⟩
    · exact absurd hcut ((trySites_family hg hrule hsearching).not_cutOff hg hsteady slot)

/-! ### What has been chosen -/

section Chosen

variable {attempt : Run σ (Option String)} {isOpen : Context σ → Bool} {count tries : Nat}
variable {texts texts' : List String} {c c' d : Context σ}

/-- What follows a text that has been found is a collection with that text. -/
theorem Collects.text_inv {text : String} {result : EStateM.Result ExpandError (Context σ) (List String)}
    (h : Collects attempt isOpen count texts c tries result) (henough : ¬ count ≤ texts.length)
    (ha : attempt c = .ok (some text) d) :
    ∃ tries', Collects attempt isOpen count (addText texts text) d tries' result := by
  cases h with
  | enough h => exact absurd h henough
  | text _ ha' hrest =>
    cases ha.symm.trans ha'
    exact ⟨_, hrest⟩
  | branch _ ha' => cases ha.symm.trans ha'
  | exhausted _ ha' => cases ha.symm.trans ha'
  | error _ ha' => cases ha.symm.trans ha'

/-- What follows a branch with nothing new to say is a collection too. -/
theorem Collects.branch_inv {result : EStateM.Result ExpandError (Context σ) (List String)}
    (h : Collects attempt isOpen count texts c tries result) (henough : ¬ count ≤ texts.length)
    (ha : attempt c = .ok none d) (hopen : isOpen d = true) :
    ∃ tries', Collects attempt isOpen count texts d tries' result := by
  cases h with
  | enough h => exact absurd h henough
  | text _ ha' => cases ha.symm.trans ha'
  | branch _ ha' _ hrest =>
    cases ha.symm.trans ha'
    exact ⟨_, hrest⟩
  | exhausted _ ha' hclosed =>
    cases ha.symm.trans ha'
    cases hopen.symm.trans hclosed
  | error _ ha' => cases ha.symm.trans ha'

/-- In a collection that succeeds every try has, and nothing that has been seen by then is forgotten. -/
theorem Tries.ok (hkeeps : Run.Keeps Context.TrackersGrow attempt)
    (hd : Tries attempt isOpen count texts c d)
    (h : Collects attempt isOpen count texts c tries (.ok texts' c')) :
    ∃ value d', attempt d = .ok value d' ∧ d'.TrackersGrow c' := by
  have hgrows {texts c tries}
      (h : Collects attempt isOpen count texts c tries (.ok texts' c')) : c.TrackersGrow c' :=
    (Context.TrackersGrow.invariant.collect_keeps hkeeps isOpen count texts tries).of_ok
      (h.collect_eq (Nat.le_refl tries))
  induction hd generalizing tries with
  | here henough =>
    cases h with
    | enough h => exact absurd h henough
    | text _ ha hrest => exact ⟨_, _, ha, hgrows hrest⟩
    | branch _ ha _ hrest => exact ⟨_, _, ha, hgrows hrest⟩
    | exhausted _ ha => exact ⟨_, _, ha, .refl _⟩
  | text henough ha _ ih =>
    obtain ⟨_, hrest⟩ := h.text_inv henough ha
    exact ih hrest
  | branch henough ha hopen _ ih =>
    obtain ⟨_, hrest⟩ := h.branch_inv henough ha hopen
    exact ih hrest

variable [RandomSource σ] {g : Grammar σ} (hg : g.RulesOnly)
variable {levels : Nat} {name : String} {rule : Rule}
include hg

/-- The texts that have been chosen in a call are in its tracker at the end. -/
theorem isSeen_of_chosen (hrule : g.rule? name = some rule) (hc : c.pushTracker.Searching)
    (h : Collects (attempts g levels name) (Builtin.hasUnseen rule) count [] c.pushTracker tries
      (.ok texts c')) {slot : Slot} (hplain : g.Plain slot)
    (hchosen : Chosen (CallSites g levels name rule count c) slot) : c'.isSeen slot = true := by
  obtain ⟨s, ⟨d, first, hd, hopens, hcourse⟩, hslot⟩ := hchosen
  have hkeeps := (Context.TrackersGrow.invariant.levelEngine_keeps (g := g) hg.keeps levels).rule name
  obtain ⟨value, d', hattempt, hgrow⟩ := hd.ok hkeeps h
  obtain ⟨e, hexpand, htrackers⟩ := engineRule_inv hg.globals hrule hattempt
  rw [hopens.result_eq] at hexpand
  obtain ⟨_, c'', hresult, hgrow'⟩ := hcourse.ok hg.keeps hexpand
  have hregular := hcourse.regular hg (hopens.regular hrule (hd.searching hg hc).forRule)
  obtain ⟨_, _, _, _, _, hslot', ht⟩ := hregular.alternative
  obtain ⟨t, ht', hreferences, hdeclarations⟩ := hplain
  rw [hslot] at hslot'
  cases hslot'
  rw [ht] at ht'
  cases ht'
  have hseen := (Site.isSeen_of_plain hregular.searching.tracking hslot hreferences hdeclarations
    hresult).2
  have hsame : e.isSeen slot = d'.isSeen slot := by
    unfold Context.isSeen
    rw [htrackers]
  exact hgrow.isSeen (hsame ▸ hgrow'.isSeen hseen)

end Chosen

/-- With one try more than there are alternatives collecting ends by itself, so what it comes to is seen
from running it. -/
theorem collects_of_run [RandomSource σ] {g : Grammar σ} (hg : g.RulesOnly) {levels : Nat}
    {name : String} {rule : Rule} (hrule : g.rule? name = some rule) {count limit : Nat} {c : Context σ}
    (hlimit : g.weightedSlots.length + 1 ≤ limit) {P : List String → Context σ → Bool}
    (hrun : (match Builtin.collect (attempts g levels name) (Builtin.hasUnseen rule) count [] limit
        c.pushTracker with
      | .ok texts c' => P texts c'
      | .error _ _ => false) = true) :
    ∃ tries ≤ limit, ∃ texts c', Collects (attempts g levels name) (Builtin.hasUnseen rule) count []
      c.pushTracker tries (.ok texts c') ∧ P texts c' = true := by
  obtain ⟨tries, htries, result, hcollects⟩ :=
    (levelEngine_progresses hg.models hg.keeps levels).collects hrule count [] (c := c.pushTracker) rfl
  have hleft := g.unseenCount_le_length c.pushTracker
  have henough : tries ≤ limit := by omega
  have hresult : Builtin.collect (attempts g levels name) (Builtin.hasUnseen rule) count [] limit
      c.pushTracker = result := hcollects.collect_eq henough
  rw [hresult] at hrun
  cases result with
  | error e c' => cases hrun
  | ok texts c' => exact ⟨tries, henough, texts, c', hcollects, hrun⟩

/-! ### Some grammars -/

/-- Strays, each of which is a pet. -/
def strays : Grammar Scripted where
  rules := [
    ("stray", Rule.ofAlternatives [⟨0, 1⟩]),
    ("pet", Rule.ofAlternatives [⟨1, 1⟩, ⟨2, 1⟩])]
  store := #["stray {pet}", "cat", "dog"]

theorem strays_template (slot : Slot) : strays.template slot = .ok (match slot with
    | 0 => ⟨"stray {pet}", "stray {0}", [⟨"pet", [], false⟩], []⟩
    | 1 => ⟨"cat", "cat", [], []⟩
    | 2 => ⟨"dog", "dog", [], []⟩
    | _ => ⟨"", "", [], []⟩) := by
  match slot with
  | 0 | 1 | 2 | n + 3 => with_unfolding_all rfl

theorem strays_rulesOnly : strays.RulesOnly where
  globals := rfl
  models := rfl
  overrides := rfl
  alternatives := by
    intro name rule slot _ _
    refine ⟨_, strays_template slot, ?_⟩
    match slot with
    | 0 | 1 | 2 | n + 3 => simp [strays, Table.has, Table.get?_cons]

theorem strays_steady : strays.Steady := by
  intro name rule slot t r target _ _ ht hr htarget
  -- only the first alternative refers to a rule, and that has texts only
  rw [strays_template] at ht
  cases ht
  match slot with
  | 0 =>
    cases List.mem_singleton.mp hr
    cases htarget
    refine .inl fun s hs => ?_
    rw [show (Rule.ofAlternatives [⟨1, 1⟩, ⟨2, 1⟩]).weightedSlots = [1, 2] by decide +kernel] at hs
    rcases List.mem_cons.mp hs with rfl | hs
    · exact ⟨_, strays_template 1, rfl, rfl⟩
    · cases List.mem_singleton.mp hs
      exact ⟨_, strays_template 2, rfl, rfl⟩
  | 1 | 2 | n + 3 => cases hr

/-- Three strays are asked for, and two are found. -/
theorem strays_collects : ∃ tries ≤ 5, ∃ texts c',
    Collects (attempts strays 20 "stray") (Builtin.hasUnseen (Rule.ofAlternatives [⟨0, 1⟩])) 3 []
      (Context.pushTracker { source := .fixed 0 }) tries (.ok texts c') ∧
      decide (texts = ["stray cat", "stray dog"]) = true :=
  collects_of_run strays_rulesOnly rfl (by decide +kernel) (by decide +kernel)

/-- There is a stray cat. -/
theorem strays_derivation : Derivation strays ["stray"] [0, 1] :=
  .rule rfl (by decide +kernel) (strays_template 0)
    (.rule rfl (by decide +kernel) (strays_template 1) .done)

/-- Every stray is one of the two that are found. -/
theorem strays_shortfall : strays.RulesOnly ∧ strays.Steady ∧
    Builtin.uniquesArgs [.text "stray", .number 3, .text ", "] = .ok ("stray", 3, ", ") ∧
    ∃ rule tries c', strays.rule? "stray" = some rule ∧
      Collects (attempts strays 20 "stray") (Builtin.hasUnseen rule) 3 []
        (Context.pushTracker { source := .fixed 0 }) tries (.ok ["stray cat", "stray dog"] c') ∧
      tries < Builtin.maxUniqueTries ∧ Derivation strays ["stray"] [0, 1] ∧
      ∀ slots, Derivation strays ["stray"] slots → ∃ slot ∈ slots, strays.Plain slot ∧
        Chosen (CallSites strays 20 "stray" rule 3 { source := .fixed 0 }) slot := by
  have hrule : strays.rule? "stray" = some (Rule.ofAlternatives [⟨0, 1⟩]) := rfl
  have hargs : Builtin.uniquesArgs [.text "stray", .number 3, .text ", "] = .ok ("stray", 3, ", ") := by
    decide +kernel
  obtain ⟨tries, htries, texts, c', hcollects, htexts⟩ := strays_collects
  have hfew : tries < Builtin.maxUniqueTries := Nat.lt_of_le_of_lt htries (by decide)
  cases of_decide_eq_true htexts
  have hshort := uniques_shortfall strays_rulesOnly rfl (fun _ => rfl) hargs hrule hcollects hfew
    (by decide)
  exact ⟨strays_rulesOnly, strays_steady, hargs, _, tries, c', hrule, hcollects, hfew,
    strays_derivation, hshort.2.2 strays_steady⟩

/-- Phrases with nouns, one of which is big and takes a pet. -/
def owls : Grammar Scripted where
  rules := [
    ("phrase", Rule.ofAlternatives [⟨0, 1⟩]),
    ("noun", Rule.ofAlternatives [⟨1, 1⟩, ⟨2, 1⟩]),
    ("size", Rule.ofAlternatives [⟨3, 1⟩]),
    ("pet", Rule.ofAlternatives [⟨4, 1⟩, ⟨5, 1⟩])]
  store := #["{noun}", "{size} {pet}", "owl", "big", "cat", "dog"]

theorem owls_template (slot : Slot) : owls.template slot = .ok (match slot with
    | 0 => ⟨"{noun}", "{0}", [⟨"noun", [], false⟩], []⟩
    | 1 => ⟨"{size} {pet}", "{0} {1}", [⟨"size", [], false⟩, ⟨"pet", [], false⟩], []⟩
    | 2 => ⟨"owl", "owl", [], []⟩
    | 3 => ⟨"big", "big", [], []⟩
    | 4 => ⟨"cat", "cat", [], []⟩
    | 5 => ⟨"dog", "dog", [], []⟩
    | _ => ⟨"", "", [], []⟩) := by
  match slot with
  | 0 | 1 | 2 | 3 | 4 | 5 | n + 6 => with_unfolding_all rfl

theorem owls_rulesOnly : owls.RulesOnly where
  globals := rfl
  models := rfl
  overrides := rfl
  alternatives := by
    intro name rule slot _ _
    refine ⟨_, owls_template slot, ?_⟩
    match slot with
    | 0 | 1 | 2 | 3 | 4 | 5 | n + 6 => simp [owls, Table.has, Table.get?_cons]

theorem owls_args : Builtin.uniquesArgs [.text "phrase", .number 2, .text ", "] =
    .ok ("phrase", 2, ", ") := by
  decide +kernel

/-- Two phrases are asked for, and `big cat` is all that is found. -/
theorem owls_collects : ∃ tries ≤ 7, ∃ texts c',
    Collects (attempts owls 20 "phrase") (Builtin.hasUnseen (Rule.ofAlternatives [⟨0, 1⟩])) 2 []
      (Context.pushTracker { source := .fixed 0 }) tries (.ok texts c') ∧
      (decide (texts = ["big cat"]) && !c'.isSeen 2) = true :=
  collects_of_run owls_rulesOnly rfl (by decide +kernel) (by decide +kernel)

/-- No rule reaches itself: every reference leads down. -/
def Grammar.Acyclic (g : Grammar σ) : Prop :=
  ∃ rank : String → Nat, ∀ {name rule slot t r}, g.rule? name = some rule → slot ∈ rule.slots →
    g.template slot = .ok t → r ∈ t.references → rank r.symbol < rank name

theorem owls_acyclic : owls.Acyclic := by
  refine ⟨fun name => if name = "phrase" then 2 else if name = "noun" then 1 else 0, ?_⟩
  intro name rule slot t r hrule hslot ht hr
  rw [owls_template] at ht
  cases ht
  have hmem := Table.mem_of_get? hrule
  simp only [owls, List.mem_cons, List.not_mem_nil, or_false, Prod.mk.injEq] at hmem
  rcases hmem with ⟨rfl, rfl⟩ | ⟨rfl, rfl⟩ | ⟨rfl, rfl⟩ | ⟨rfl, rfl⟩ <;>
    simp only [Rule.slots, Rule.ofAlternatives, List.map_cons, List.map_nil, List.mem_cons,
      List.not_mem_nil, or_false] at hslot
  · subst hslot
    cases List.mem_singleton.mp hr
    decide
  · rcases hslot with rfl | rfl
    · rcases List.mem_cons.mp hr with rfl | hr
      · decide
      · cases List.mem_singleton.mp hr
        decide
    · cases hr
  · subst hslot
    cases hr
  · rcases hslot with rfl | rfl <;> cases hr

/-- The owl is lost: it is neither found nor is anything that it is made of, and still the phrases count
as used up after a few tries. -/
theorem owls_lost : owls.RulesOnly ∧ owls.Acyclic ∧
    (∀ entry ∈ owls.rules, ∀ w ∈ entry.2.alternatives, 0 < w.weight) ∧
    ∃ rule tries c', owls.rule? "phrase" = some rule ∧
      Collects (attempts owls 20 "phrase") (Builtin.hasUnseen rule) 2 []
        (Context.pushTracker { source := .fixed 0 }) tries (.ok ["big cat"] c') ∧
      tries < Builtin.maxUniqueTries ∧
      Builtin.runUniques owls (engineWith owls (owls.evaluate 20))
        [.text "phrase", .number 2, .text ", "] { source := .fixed 0 } = .ok "big cat" c'.popTracker ∧
      ∃ slots, Derivation owls ["phrase"] slots ∧ ∀ slot ∈ slots, owls.Plain slot →
        ¬ Chosen (CallSites owls 20 "phrase" rule 2 { source := .fixed 0 }) slot := by
  have hrule : owls.rule? "phrase" = some (Rule.ofAlternatives [⟨0, 1⟩]) := rfl
  have hnoun : owls.rule? "noun" = some (Rule.ofAlternatives [⟨1, 1⟩, ⟨2, 1⟩]) := rfl
  obtain ⟨tries, htries, texts, c', hcollects, hcheck⟩ := owls_collects
  have hfew : tries < Builtin.maxUniqueTries := Nat.lt_of_le_of_lt htries (by decide)
  obtain ⟨htexts, howl⟩ := (Bool.and_eq_true _ _).mp hcheck
  cases of_decide_eq_true htexts
  have hruns := runUniques_of_collect owls_args hrule (hcollects.collect_eq (Nat.le_of_lt hfew))
  have hderivation : Derivation owls ["phrase"] [0, 2] :=
    .rule hrule (by decide +kernel) (owls_template 0)
      (.rule hnoun (by decide +kernel) (owls_template 2) .done)
  refine ⟨owls_rulesOnly, owls_acyclic, by decide +kernel, _, tries, c', hrule, hcollects, hfew,
    hruns, [0, 2], hderivation, ?_⟩
  intro slot hslot hplain hchosen
  have hseen := isSeen_of_chosen owls_rulesOnly hrule ⟨rfl, fun _ => rfl⟩ hcollects hplain hchosen
  rcases List.mem_cons.mp hslot with rfl | hslot
  · -- the phrase itself is not a text
    obtain ⟨t, ht, hreferences, -⟩ := hplain
    rw [owls_template] at ht
    cases ht
    cases hreferences
  · cases List.mem_singleton.mp hslot
    rw [hseen] at howl
    cases howl

end Fabula
