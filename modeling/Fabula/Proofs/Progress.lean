import Fabula.Proofs.Frame
import Fabula.Proofs.PositiveFloat
import Fabula.Proofs.Steps

/-!
# Fabula.Proofs.Progress

**Tracked picking makes progress.** While alternatives are tracked, an expansion of a rule that gives a
text has seen an alternative that had not been seen before (`Context.Gains`).

The alternative that is picked need not be that one. It is marked when its template has nothing new to
say, and stays open as long as one of its references is live. But then that reference stands for a rule
that was expanded as well, one level below, and that expansion has seen something new. So the proof
goes down the levels: `Evaluator.Gains` says of the templates one level below what is proved of those
above.
-/

namespace Fabula

variable {σ : Type}

/-! ### Alternatives with weight -/

/-- The places of the alternatives of a rule that have weight. -/
def Rule.weightedSlots (r : Rule) : List Slot :=
  (Weighted.eligible (fun _ => true) r.alternatives).map Weighted.item

/-- The places of all alternatives that have weight. -/
def Grammar.weightedSlots (g : Grammar σ) : List Slot :=
  g.rules.flatMap fun entry => entry.2.weightedSlots

theorem Grammar.weightedSlots_of_rule {g : Grammar σ} {r : Rule} {name : String}
    (hr : g.rule? name = some r) : r.weightedSlots ⊆ g.weightedSlots := fun _ hs =>
  List.mem_flatMap.mpr ⟨(name, r), Table.mem_of_get? hr, hs⟩

theorem Rule.mem_weightedSlots {r : Rule} {w : Weighted Slot Float} (hw : w ∈ r.alternatives)
    (hweight : 0 < w.weight) : w.item ∈ r.weightedSlots :=
  List.mem_map.mpr ⟨w, List.mem_filter.mpr ⟨hw, by rw [decide_eq_true hweight]; rfl⟩, rfl⟩

theorem Rule.weight_of_mem {r : Rule} {slot : Slot} (h : slot ∈ r.weightedSlots) :
    ∃ w ∈ r.alternatives, w.item = slot ∧ 0 < w.weight := by
  obtain ⟨w, hw, rfl⟩ := List.mem_map.mp h
  obtain ⟨hw, hweight⟩ := List.mem_filter.mp hw
  rw [Bool.and_true] at hweight
  exact ⟨w, hw, rfl, of_decide_eq_true hweight⟩

theorem Rule.weightedSlots_subset (r : Rule) : r.weightedSlots ⊆ r.slots := fun slot hslot => by
  obtain ⟨w, hw, rfl, -⟩ := Rule.weight_of_mem hslot
  exact List.mem_map_of_mem hw

/-- A rule is open as long as there is an alternative with weight that has not been seen. -/
theorem hasUnseen_iff {r : Rule} {c : Context σ} :
    Builtin.hasUnseen r c = true ↔ ∃ slot ∈ r.weightedSlots, c.isSeen slot = false := by
  unfold Builtin.hasUnseen
  constructor
  · intro h
    obtain ⟨w, hw, h⟩ := List.any_eq_true.mp h
    rw [Bool.and_eq_true, Bool.not_eq_true'] at h
    exact ⟨w.item, Rule.mem_weightedSlots hw (of_decide_eq_true h.1), h.2⟩
  · rintro ⟨slot, hslot, hseen⟩
    obtain ⟨w, hw, rfl, hweight⟩ := Rule.weight_of_mem hslot
    refine List.any_eq_true.mpr ⟨w, hw, ?_⟩
    rw [Bool.and_eq_true, Bool.not_eq_true']
    exact ⟨decide_eq_true hweight, hseen⟩

/-- If a rule has been used up, all its alternatives with weight have been seen. -/
theorem isSeen_of_used {r : Rule} {c : Context σ} (h : Builtin.hasUnseen r c = false) {slot : Slot}
    (hslot : slot ∈ r.weightedSlots) : c.isSeen slot = true := by
  by_contra hunseen
  rw [Bool.not_eq_true] at hunseen
  rw [hasUnseen_iff.mpr ⟨slot, hslot, hunseen⟩] at h
  cases h

/-! ### Gains -/

/-- From one context to the other, an alternative with weight has been seen for the first time. -/
def Context.Gains (g : Grammar σ) (c c' : Context σ) : Prop :=
  ∃ slot ∈ g.weightedSlots, c.isSeen slot = false ∧ c'.isSeen slot = true

theorem Context.TrackersGrow.not_isSeen {c c' : Context σ} (h : c.TrackersGrow c') {slot : Slot}
    (hs : c'.isSeen slot = false) : c.isSeen slot = false := by
  cases hc : c.isSeen slot with
  | false => rfl
  | true => exact absurd (h.isSeen hc) (by rw [hs]; exact Bool.false_ne_true)

namespace Context.Gains

variable {g : Grammar σ} {c c₁ c' : Context σ}

theorem after (hgrow : c.TrackersGrow c₁) (h : Gains g c₁ c') : Gains g c c' :=
  let ⟨slot, hslot, hold, hnew⟩ := h
  ⟨slot, hslot, hgrow.not_isSeen hold, hnew⟩

theorem before (h : Gains g c c₁) (hgrow : c₁.TrackersGrow c') : Gains g c c' :=
  let ⟨slot, hslot, hold, hnew⟩ := h
  ⟨slot, hslot, hold, hgrow.isSeen hnew⟩

end Context.Gains

/-- A rule that has been used up was so before, unless something new has been seen. -/
theorem hasUnseen_or_gains {g : Grammar σ} {r : Rule} {name : String} {c c' : Context σ}
    (hr : g.rule? name = some r) (h : Builtin.hasUnseen r c' = false) :
    Context.Gains g c c' ∨ Builtin.hasUnseen r c = false := by
  cases hc : Builtin.hasUnseen r c with
  | false => exact Or.inr rfl
  | true =>
    obtain ⟨slot, hslot, hold⟩ := hasUnseen_iff.mp hc
    refine Or.inl ⟨slot, Grammar.weightedSlots_of_rule hr hslot, hold, ?_⟩
    cases hnew : c'.isSeen slot with
    | true => rfl
    | false => exact absurd (hasUnseen_iff.mpr ⟨slot, hslot, hnew⟩) (by rw [h]; exact Bool.false_ne_true)

theorem Context.TrackersGrow.hasUnseen {r : Rule} {c c' : Context σ} (h : c.TrackersGrow c')
    (hr : Builtin.hasUnseen r c = false) : Builtin.hasUnseen r c' = false := by
  cases hc : Builtin.hasUnseen r c' with
  | false => rfl
  | true =>
    obtain ⟨slot, hslot, hunseen⟩ := hasUnseen_iff.mp hc
    have hopen := hasUnseen_iff.mpr ⟨slot, hslot, h.not_isSeen hunseen⟩
    exact absurd hopen (by rw [hr]; exact Bool.false_ne_true)

theorem Context.isSeen_markSeen {c : Context σ} (htrack : c.tracking = true) (slot : Slot) :
    (c.markSeen slot).isSeen slot = true := by
  unfold Context.tracking at htrack
  unfold Context.isSeen Context.markSeen
  dsimp only
  cases h : c.trackers with
  | nil =>
    rw [h] at htrack
    cases htrack
  | cons tracker rest =>
    rw [List.map_cons, List.any_cons, List.contains_iff_mem.mpr List.mem_insert_self]
    rfl

theorem Context.contains_seen (c : Context σ) (slot : Slot) :
    c.seen.contains slot = c.isSeen slot := by
  rw [Bool.eq_iff_iff, List.contains_iff_mem]
  simp [Context.seen, Context.isSeen, List.mem_eraseDups]

/-! ### Picks -/

namespace Weighted

variable {ι : Type} {ws : List (Weighted ι Float)} {target reached : Float} {last : Option ι}

/-- Whatever the target is, a candidate is found, unless there is none. -/
theorem locate_cases : (∃ w ∈ ws, locate target reached last ws = some w.item) ∨
    (ws = [] ∧ locate target reached last ws = last) := by
  induction ws generalizing reached last with
  | nil => exact Or.inr ⟨rfl, rfl⟩
  | cons w ws ih =>
    refine Or.inl ?_
    unfold locate
    split
    · exact ⟨w, List.mem_cons_self, rfl⟩
    · rcases @ih (reached + w.weight) (some w.item) with ⟨w', hw', h⟩ | ⟨rfl, h⟩
      · exact ⟨w', List.mem_cons_of_mem w hw', h⟩
      · exact ⟨w, List.mem_cons_self, h⟩

/-- One of some candidates that all have weight is chosen, unless there is none. -/
theorem choose_cases {τ : Type} (next : τ → Float × τ) (s : τ) (hpos : ∀ w ∈ ws, 0 < w.weight) :
    (∃ w ∈ ws, (choose next (sum ws) ws s).1 = some w.item) ∨
      (ws = [] ∧ (choose next (sum ws) ws s).1 = none) := by
  unfold choose
  split
  · rename_i htotal
    have hnil : ws = [] := by
      cases ws with
      | nil => rfl
      | cons w ws => exact absurd htotal (sum_not_le (List.cons_ne_nil w ws) hpos)
    exact Or.inr ⟨hnil, rfl⟩
  · exact locate_cases

end Weighted

section Picks

variable [RandomSource σ] {r : Rule} {c c' : Context σ}

/-- When some alternatives are excluded, one of the others that have weight is picked, unless there is
none. -/
theorem Rule.pick_excluding (r : Rule) (isExcluded : Slot → Bool) (s : σ) :
    (∃ slot ∈ r.weightedSlots, isExcluded slot = false ∧
      (r.pick (some isExcluded) s).1 = some slot) ∨
    ((∀ slot ∈ r.weightedSlots, isExcluded slot = true) ∧
      (r.pick (some isExcluded) s).1 = none) := by
  have hpos : ∀ w ∈ Weighted.eligible (fun slot => !isExcluded slot) r.alternatives,
      0 < w.weight := by
    intro w hw
    have h := (List.mem_filter.mp hw).2
    rw [Bool.and_eq_true] at h
    exact of_decide_eq_true h.1
  rcases Weighted.choose_cases RandomSource.next s hpos with ⟨w, hw, hchosen⟩ | ⟨hnil, hchosen⟩
  · obtain ⟨hmem, hw⟩ := List.mem_filter.mp hw
    rw [Bool.and_eq_true, Bool.not_eq_true'] at hw
    exact .inl ⟨w.item, Rule.mem_weightedSlots hmem (of_decide_eq_true hw.1), hw.2, hchosen⟩
  · refine .inr ⟨fun slot hslot => ?_, hchosen⟩
    obtain ⟨w, hw, rfl, hweight⟩ := Rule.weight_of_mem hslot
    have hnot := List.filter_eq_nil_iff.mp hnil w hw
    simpa [hweight] using hnot

/-- When none is excluded, one that has weight is picked from a rule with a total above zero. -/
theorem Rule.pick_weighted {r : Rule} (htotal : 0 < r.total) (hsome : r.weightedSlots ≠ []) (s : σ) :
    ∃ slot ∈ r.weightedSlots, (r.pick none s).1 = some slot := by
  have hle : ¬ r.total ≤ 0 := Numeral.not_le_of_positive (Numeral.positive_of_lt htotal)
  simp only [Rule.pick, Weighted.pick, Weighted.choose, if_neg hle]
  rcases Weighted.locate_cases with ⟨w, hw, hlocate⟩ | ⟨hnil, -⟩
  · exact ⟨w.item, List.mem_map_of_mem hw, hlocate⟩
  · exact absurd (by rw [Rule.weightedSlots, hnil, List.map_nil]) hsome

/-- Under tracking an alternative is picked that has weight and has not been seen, if there is one. -/
theorem pick_cases (htrack : c.tracking = true) :
    (∃ slot ∈ r.weightedSlots, c.isSeen slot = false ∧
      Run.pick r c = .ok (some slot) (c.afterPick r)) ∨
    (Builtin.hasUnseen r c = false ∧ Run.pick r c = .ok none (c.afterPick r)) := by
  have hexcluded : c.excluded = some c.isSeen := if_pos htrack
  rw [pick_apply, hexcluded]
  rcases r.pick_excluding c.isSeen c.source with ⟨slot, hslot, hseen, hpick⟩ | ⟨hall, hpick⟩
  · exact .inl ⟨slot, hslot, hseen, by rw [hpick]⟩
  · refine .inr ⟨?_, by rw [hpick]⟩
    rw [← Bool.not_eq_true, hasUnseen_iff]
    rintro ⟨slot, hslot, hseen⟩
    rw [hall slot hslot] at hseen
    cases hseen

/-- What is picked under tracking has not been seen. -/
theorem pick_unseen (htrack : c.tracking = true) {slot : Slot}
    (h : Run.pick r c = .ok (some slot) c') : c.isSeen slot = false := by
  rcases pick_cases (r := r) htrack with ⟨slot', -, hunseen, hpick⟩ | ⟨-, hpick⟩
  · rw [h] at hpick
    cases hpick
    exact hunseen
  · rw [h] at hpick
    cases hpick

/-- A rule is open exactly when something is picked from it, whatever the draw, with all that has been
seen excluded. -/
theorem hasUnseen_iff_pick : Builtin.hasUnseen r c = true ↔
    ∀ (τ : Type) [RandomSource τ] (s : τ), (r.pick (some c.seen.contains) s).1.isSome = true := by
  have hexcluded : c.seen.contains = c.isSeen := funext c.contains_seen
  rw [hexcluded, hasUnseen_iff]
  constructor
  · rintro ⟨slot, hslot, hseen⟩ τ _ s
    rcases r.pick_excluding c.isSeen s with ⟨_, _, _, hpick⟩ | ⟨hall, _⟩
    · rw [hpick]
      rfl
    · rw [hall slot hslot] at hseen
      cases hseen
  · intro h
    have hsome := h σ c.source
    rcases r.pick_excluding c.isSeen c.source with ⟨slot, hslot, hseen, _⟩ | ⟨_, hpick⟩
    · exact ⟨slot, hslot, hseen⟩
    · rw [hpick] at hsome
      cases hsome

end Picks

/-! ### Templates one level below -/

/-- The evaluator sees something new in the template of an alternative with weight that it has not
seen, whether there is anything to say or not. -/
def Evaluator.Gains (g : Grammar σ) (enter : Evaluator σ) : Prop :=
  ∀ t slot c value c', c.tracking = true → slot ∈ g.weightedSlots → c.isSeen slot = false →
    enter t (some slot) c = .ok value c' → Context.Gains g c c'

section Inside

variable [RandomSource σ] {g : Grammar σ} {enter : Evaluator σ} {c c' : Context σ}
variable (hgains : Evaluator.Gains g enter)

include hgains in
/-- A rule that gives a text has seen something new; one that does not has been used up, or has. -/
theorem expandRuleWith_gains {r : Rule} {name : String} (hr : g.rule? name = some r)
    (htrack : c.tracking = true) {value : Option String}
    (h : expandRuleWith g enter r c = .ok value c') :
    Context.Gains g c c' ∨ (value = none ∧ Builtin.hasUnseen r c = false) := by
  rcases pick_cases (r := r) htrack with ⟨slot, hslot, hunseen, hpick⟩ | ⟨hclosed, hpick⟩
  · rw [expandRuleWith_of_some hpick] at h
    cases hparse : g.template slot with
    | ok t =>
      rw [hparse] at h
      -- a draw changes nothing that is tracked, and what was picked has not been seen
      have hgains : Context.Gains g (c.afterPick r) c' :=
        hgains t slot _ value c' htrack (Grammar.weightedSlots_of_rule hr hslot) hunseen h
      exact Or.inl hgains
    | error e =>
      rw [hparse] at h
      cases h
  · rw [expandRuleWith_of_none hpick, Context.afterPick_tracking, if_pos htrack] at h
    cases h
    exact Or.inr ⟨rfl, hclosed⟩

variable (hm : g.models = [])
include hgains hm

/-- Only a rule that has just been expanded is live. -/
theorem resolve_gains {name : String} {resolved : Resolved} (htrack : c.tracking = true)
    (h : resolve g enter name c = .ok (some resolved) c') (hlive : resolved.live = true) :
    Context.Gains g c c' := by
  have hmodel : g.models.get? name = none := by rw [hm]; rfl
  cases hv : c.lookup name with
  | some value =>
    rw [resolve_of_lookup hv] at h
    cases h
    cases hlive
  | none =>
    cases hr : g.rule? name with
    | some r =>
      rw [resolve_of_rule hv hmodel hr] at h
      obtain ⟨value, c₁, hrule, h⟩ := Run.bind_inv h
      rw [Run.get_bind] at h
      cases value with
      | none => cases h
      | some value =>
        cases h
        rcases expandRuleWith_gains hgains hr htrack hrule with hgains | ⟨hnone, -⟩
        · exact hgains
        · cases hnone
    | none =>
      rw [resolve_of_unknown hv hmodel hr] at h
      split at h
      · cases h
        cases hlive
      · cases h

variable (hk : ∀ t slot, Run.Keeps Context.TrackersGrow (enter t slot))
variable (hg : g.OverridesKeep Context.TrackersGrow)
include hk hg

theorem expandReference_gains {r : Reference} {resolved : Resolved} (htrack : c.tracking = true)
    (h : expandReference g enter r c = .ok (some resolved) c') (hlive : resolved.live = true) :
    Context.Gains g c c' := by
  obtain ⟨found, c₁, hresolve, h⟩ := Run.bind_inv h
  cases found with
  | none => cases h
  | some found =>
    obtain ⟨value, c₂, hmodifiers, h⟩ := Run.bind_inv h
    cases h
    have he := Context.TrackersGrow.invariant.engineWith_keeps (g := g) hk
    have hgrow : c₁.TrackersGrow c' :=
      (Context.TrackersGrow.invariant.applyModifiers_keeps hg he _ _).of_ok hmodifiers
    exact (resolve_gains hgains hm htrack hresolve hlive).before hgrow

/-- References that come out live, when those before them were not, have one among them that is. -/
theorem expandReferences_gains {references : List Reference} {values values' : List String}
    (htrack : c.tracking = true)
    (h : expandReferences g enter values false references c = .ok (some (values', true)) c') :
    Context.Gains g c c' := by
  induction references generalizing values c with
  | nil => cases h
  | cons r rest ih =>
    obtain ⟨found, c₁, hreference, h⟩ := Run.bind_inv h
    have hgrow : c.TrackersGrow c₁ :=
      (Context.TrackersGrow.invariant.expandReference_keeps hk hg r).of_ok hreference
    cases found with
    | none => cases h
    | some resolved =>
      dsimp only at h
      have hrest : c₁.TrackersGrow c' :=
        (Context.TrackersGrow.invariant.expandReferences_keeps hk hg rest _ _).of_ok h
      -- either this reference is live, or the flag comes from one of the rest
      cases hlive : resolved.live with
      | true =>
        exact (expandReference_gains hgains hm hk hg htrack hreference hlive).before hrest
      | false =>
        rw [hlive] at h
        exact (ih (hgrow.tracking.trans htrack) h).after hgrow

/-- A template that is not marked as seen has something live in it. -/
theorem expandBody_gains {t : Template} {slot : Slot} {value : Option String}
    (htrack : c.tracking = true) (hslot : slot ∈ g.weightedSlots) (hunseen : c.isSeen slot = false)
    (h : expandBody g enter t (some slot) c = .ok value c') : Context.Gains g c c' := by
  rw [expandBody_eq] at h
  obtain ⟨⟨⟩, c₁, hassign, h⟩ := Run.bind_inv h
  obtain ⟨found, c₂, hreferences, h⟩ := Run.bind_inv h
  have hgrow : c.TrackersGrow c₁ :=
    (Context.TrackersGrow.invariant.assignAll_keeps hk t.declarations).of_ok hassign
  have hgrow₂ : c₁.TrackersGrow c₂ :=
    (Context.TrackersGrow.invariant.expandReferences_keeps hk hg t.references _ _).of_ok hreferences
  have htrack₁ : c₁.tracking = true := hgrow.tracking.trans htrack
  have hmark : Context.Gains g c (c₂.markSeen slot) :=
    ⟨slot, hslot, hunseen, Context.isSeen_markSeen (hgrow₂.tracking.trans htrack₁) slot⟩
  -- the slot itself is new if it is marked; if it is left open, something below it is
  obtain _ | ⟨values, _ | _⟩ := found
  · cases h
    exact hmark
  · cases h
    exact hmark
  · cases h
    exact (expandReferences_gains hgains hm hk hg htrack₁ hreferences).after hgrow

end Inside

/-! ### All levels -/

section Levels

variable [RandomSource σ] {g : Grammar σ} (hm : g.models = [])
variable (hg : g.OverridesKeep Context.TrackersGrow)
include hm hg

/-- At every level something new is seen, by induction on the levels. -/
theorem evaluate_gains (levels : Nat) : Evaluator.Gains g (g.evaluate levels) := by
  induction levels with
  | zero =>
    intro t slot c value c' _ _ _ h
    cases h
  | succ levels ih =>
    intro t slot c value c' htrack hslot hunseen h
    obtain ⟨c₁, hbody, rfl⟩ := Run.within_inv h
    have hgains : Context.Gains g c.enterTemplate c₁ :=
      expandBody_gains ih hm (Context.TrackersGrow.invariant.evaluate_keeps hg levels) hg
        htrack hslot hunseen hbody
    exact hgains

/-- So it is with globals that are evaluated first. -/
theorem levelEngine_gains (levels : Nat) {name : String} {value : Option String} {c c' : Context σ}
    (htrack : c.tracking = true)
    (h : (engineWith g (g.evaluate levels)).expandRule name c = .ok value c') :
    ∃ r, g.rule? name = some r ∧
      (Context.Gains g c c' ∨ (value = none ∧ Builtin.hasUnseen r c = false)) := by
  have hk := Context.TrackersGrow.invariant.evaluate_keeps hg levels
  have hgains := evaluate_gains hm hg levels
  cases hr : g.rule? name with
  | none =>
    rw [engineWith_unknown hr] at h
    cases h
  | some r =>
    rw [engineWith_rule hr] at h
    refine ⟨r, rfl, ?_⟩
    cases hl : c.globalsLoaded with
    | true =>
      rw [withGlobals_of_loaded hl] at h
      exact expandRuleWith_gains hgains hr htrack h
    | false =>
      rw [withGlobals_of_not_loaded hl] at h
      obtain ⟨c₂, hinside, rfl⟩ := Run.within_inv h
      obtain ⟨⟨⟩, c₁, hglobals, hrule⟩ := Run.bind_inv hinside
      have hgrow : c.enterGlobals.TrackersGrow c₁ :=
        (Context.TrackersGrow.invariant.assignAll_keeps hk g.globals).of_ok hglobals
      have hgrow' : c₁.TrackersGrow c₂ :=
        (Context.TrackersGrow.invariant.expandRuleWith_keeps (g := g) hk r).of_ok hrule
      have hends : Context.Gains g c.enterGlobals c₂ ∨
          (value = none ∧ Builtin.hasUnseen r c.enterGlobals = false) := by
        rcases expandRuleWith_gains hgains hr (hgrow.tracking.trans htrack) hrule with
          hnew | ⟨hnone, hclosed⟩
        · exact Or.inl (hnew.after hgrow)
        · -- what the pick found used up may have been used up by the globals
          rcases hasUnseen_or_gains (c := c.enterGlobals) hr hclosed with hnew | hclosed
          · exact Or.inl (hnew.before hgrow')
          · exact Or.inr ⟨hnone, hclosed⟩
      exact hends

end Levels

end Fabula
