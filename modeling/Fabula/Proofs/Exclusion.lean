import Fabula.Proofs.Editing
import Fabula.Proofs.Progress

/-!
# Fabula.Proofs.Exclusion

**Excluding alternatives is the same as deleting them.** A pick without exclusions lays out the total
that has been stored with the rule, zero weights included, and one with exclusions adds up what is left
without them. In a grammar that is reached by calls no weight is negative, so zeros make no difference to
a sum, and both come to a choice among the same candidates with the sum of their weights
(`Rule.InOrder.pick_eq`).
-/

namespace Fabula

/-! ### Candidates -/

/-- The alternatives that a pick chooses among. -/
def Rule.candidates (r : Rule) (excluded : Option (Slot → Bool)) : List (Weighted Slot Float) :=
  Weighted.eligible (fun slot => !(excluded.map (· slot)).getD false) r.alternatives

/-- A rule has an alternative with weight in this place, and it is not excluded. -/
def Rule.Offers (r : Rule) (excluded : Option (Slot → Bool)) (slot : Slot) : Prop :=
  ∃ w ∈ r.alternatives, w.item = slot ∧ 0 < w.weight ∧ ∀ isExcluded ∈ excluded, isExcluded slot = false

/-- The rule without the alternatives that are excluded, as it is entered under its name. -/
def Rule.without (r : Rule) (isExcluded : Slot → Bool) : Rule :=
  Rule.named r.name (r.alternatives.filter fun w => !isExcluded w.item)

/-- The weights of a rule are accepted, and its total is their sum. -/
structure Rule.InOrder (r : Rule) : Prop where
  /-- Weights are finite and not negative. -/
  weights : ∀ w ∈ r.alternatives, Numeral.isFinite w.weight = true ∧ ¬ w.weight < 0
  /-- The total is the sum of the weights in order. -/
  total : r.total = Weighted.sum r.alternatives

section Candidates

variable {r : Rule} {excluded : Option (Slot → Bool)}

theorem Rule.mem_candidates {w : Weighted Slot Float} :
    w ∈ r.candidates excluded ↔
      w ∈ r.alternatives ∧ 0 < w.weight ∧ ∀ isExcluded ∈ excluded, isExcluded w.item = false := by
  unfold candidates Weighted.eligible
  rw [List.mem_filter, Bool.and_eq_true, decide_eq_true_iff]
  cases excluded <;> simp

theorem Rule.offers_iff {slot : Slot} :
    r.Offers excluded slot ↔ ∃ w ∈ r.candidates excluded, w.item = slot := by
  constructor
  · rintro ⟨w, hw, rfl, hweight, hfree⟩
    exact ⟨w, mem_candidates.mpr ⟨hw, hweight, hfree⟩, rfl⟩
  · rintro ⟨w, hw, rfl⟩
    have ⟨hw, hweight, hfree⟩ := mem_candidates.mp hw
    exact ⟨w, hw, rfl, hweight, hfree⟩

/-- Deleting what is excluded leaves the same candidates. -/
theorem Rule.candidates_without (isExcluded : Slot → Bool) :
    (r.without isExcluded).candidates none = r.candidates (some isExcluded) := by
  unfold candidates Weighted.eligible
  show (r.alternatives.filter fun w => !isExcluded w.item).filter _ = _
  rw [List.filter_filter]
  simp

theorem Rule.InOrder.without (h : r.InOrder) (isExcluded : Slot → Bool) :
    (r.without isExcluded).InOrder where
  weights w hw := h.weights w (List.mem_filter.mp hw).1
  total := rfl

/-- A pick is a choice among the candidates with the sum of their weights. -/
theorem Rule.InOrder.pick_eq {τ : Type} [RandomSource τ] (h : r.InOrder)
    (excluded : Option (Slot → Bool)) (s : τ) :
    r.pick excluded s =
      Weighted.choose RandomSource.next (Weighted.sum (r.candidates excluded)) (r.candidates excluded)
        s := by
  cases excluded with
  | some isExcluded => rfl
  | none =>
    have htotal : r.total = Weighted.sum (r.candidates none) :=
      h.total.trans (Weighted.sum_eligible h.weights).symm
    rw [← htotal]
    rfl

end Candidates

/-! ### Choices -/

/-- A choice among candidates that all have weight takes one draw, unless there is none. -/
theorem Weighted.choose_source {ι τ : Type} {ws : List (Weighted ι Float)} (next : τ → Float × τ)
    (s : τ) (hpos : ∀ w ∈ ws, 0 < w.weight) :
    (choose next (sum ws) ws s).2 = if ws = [] then s else (next s).2 := by
  by_cases hnil : ws = []
  · subst hnil
    have hzero : sum ([] : List (Weighted ι Float)) ≤ 0 := show (0 : Float) ≤ 0 by decide
    rw [if_pos rfl, choose, if_pos hzero]
  · rw [if_neg hnil, choose, if_neg (sum_not_le hnil hpos)]

theorem Grammar.Edited.inOrder {σ : Type} {g : Grammar σ} (h : g.Edited) {name : String} {r : Rule}
    (hr : g.rule? name = some r) : r.InOrder :=
  have hmem := Table.mem_of_get? hr
  ⟨h.built.intact.weights name r hmem, h.built.intact.total name r hmem⟩

/-- **Excluding alternatives from a pick is the same as deleting them from the rule**, in every grammar
that is reached by calls: the same alternative is picked and the same draws are taken. So it makes no
difference whether nothing is excluded or none of the alternatives. What is picked is an alternative of
the rule that has weight and is not excluded. If there is one, an alternative is picked by one draw; if
there is none, nothing is picked and nothing is drawn. -/
theorem excluding_is_deleting {σ τ : Type} [RandomSource τ] {g : Grammar σ} (h : g.Edited)
    {name : String} {r : Rule} (hr : g.rule? name = some r) (s : τ) :
    (∀ isExcluded, r.pick (some isExcluded) s = (r.without isExcluded).pick none s) ∧
    r.pick none s = r.pick (some fun _ => false) s ∧
    ∀ excluded,
      (∀ slot, (r.pick excluded s).1 = some slot → r.Offers excluded slot) ∧
      ((r.pick excluded s).1 = none ↔ ¬ ∃ slot, r.Offers excluded slot) ∧
      ((r.pick excluded s).1 = none → (r.pick excluded s).2 = s) ∧
      ((r.pick excluded s).1 ≠ none → (r.pick excluded s).2 = (RandomSource.next s).2) := by
  have horder := h.inOrder hr
  refine ⟨fun isExcluded => ?_, by rw [horder.pick_eq, horder.pick_eq]; rfl, fun excluded => ?_⟩
  · rw [horder.pick_eq, (horder.without isExcluded).pick_eq, Rule.candidates_without]
  · have hpos : ∀ w ∈ r.candidates excluded, 0 < w.weight := fun w hw =>
      (Rule.mem_candidates.mp hw).2.1
    have hsource := Weighted.choose_source RandomSource.next s hpos
    rw [horder.pick_eq]
    rcases Weighted.choose_cases RandomSource.next s hpos with ⟨w, hw, hchosen⟩ | ⟨hnil, hchosen⟩
    · have hoffers := Rule.offers_iff.mpr ⟨w, hw, rfl⟩
      rw [if_neg (List.ne_nil_of_mem hw)] at hsource
      rw [hchosen, hsource]
      refine ⟨?_, ⟨nofun, fun hnone => absurd ⟨_, hoffers⟩ hnone⟩, nofun, fun _ => rfl⟩
      rintro slot ⟨⟩
      exact hoffers
    · have hnone : ¬ ∃ slot, r.Offers excluded slot := by
        rintro ⟨slot, hoffers⟩
        obtain ⟨w, hw, -⟩ := Rule.offers_iff.mp hoffers
        rw [hnil] at hw
        cases hw
      rw [if_pos hnil] at hsource
      rw [hchosen, hsource]
      exact ⟨nofun, ⟨fun _ => hnone, fun _ => rfl⟩, fun _ => rfl, fun hsome => absurd rfl hsome⟩

/-- A grammar with a rule for a coin, which may not come to stand. -/
def coins : Grammar Scripted :=
  .ofChanges [.addRule "coin" [("on edge", 0), ("heads", 1), ("lost", -0), ("tails", 2)]]

/-- If it has shown heads already, it shows tails, at the cost of a draw; if it has shown both, there is
nothing to be drawn for. -/
theorem coins_pick : coins.Edited ∧ ∃ r, coins.rule? "coin" = some r ∧
    (r.pick (some (· == 1)) (Scripted.fixed 0)).1 = some 3 ∧
    (r.pick (some (· == 1)) (Scripted.fixed 0)).2.drawn = 1 ∧
    (r.pick (some (· == 1)) (Scripted.fixed 0)) = ((r.without (· == 1)).pick none (Scripted.fixed 0)) ∧
    (r.pick (some fun slot => slot == 1 || slot == 3) (Scripted.fixed 0)).1 = none ∧
    (r.pick (some fun slot => slot == 1 || slot == 3) (Scripted.fixed 0)).2 = Scripted.fixed 0 := by
  have hedited : coins.Edited := .ofChanges _
  have hr : coins.rule? "coin" = some (Rule.named "coin" [⟨0, 0⟩, ⟨1, 1⟩, ⟨2, -0⟩, ⟨3, 2⟩]) := rfl
  obtain ⟨hdeleting, -, hpick⟩ := excluding_is_deleting hedited hr (Scripted.fixed 0)
  obtain ⟨-, -, hstays, -⟩ := hpick (some fun slot => slot == 1 || slot == 3)
  have hnone : ((Rule.named "coin" [⟨0, 0⟩, ⟨1, 1⟩, ⟨2, -0⟩, ⟨3, 2⟩]).pick
      (some fun slot => slot == 1 || slot == 3) (Scripted.fixed 0)).1 = none := by decide +kernel
  exact ⟨hedited, _, hr, by decide +kernel, by decide +kernel, hdeleting _, hnone, hstays hnone⟩

end Fabula
