import Fabula.Proofs.Editing
import Mathlib.Algebra.BigOperators.Group.List.Basic
import Mathlib.Algebra.Order.Field.Rat
import Mathlib.Order.Interval.Set.Basic

/-!
# Fabula.Proofs.Proportions

**An alternative is picked on a stretch in proportion to its weight**, when weights and draws are exact
fractions. The loop that looks for the alternative has come to the running sum of the weights before it,
and has not found the target below that; as the target lies below the sum of all, the loop is left at the
one candidate whose stretch holds the target (`Weighted.locate_stretch`).

A pick is the same for all kinds of weights (`Weighted.pick`). A rule picks with floats; here the weights
are exact, and the alternatives differ, as they do in a rule (`Grammar.Edited.nodup_items`).
-/

namespace Fabula

namespace Weighted

/-! ### Picks -/

section Pick

variable {ι ω : Type} [OfNat ω 0] [Add ω] [Mul ω] [LT ω] [LE ω] [DecidableLT ω] [DecidableLE ω]

/-- The alternatives that a pick chooses among. -/
def candidates (excluded : Option (ι → Bool)) (ws : List (Weighted ι ω)) : List (Weighted ι ω) :=
  eligible (fun i => !(excluded.map (· i)).getD false) ws

/-- The first candidate whose stretch ends beyond `target`. If they all end before, it is `otherwise`. -/
def locateOr (otherwise : Option ι) (target reached : ω) : List (Weighted ι ω) → Option ι
  | [] => otherwise
  | w :: ws =>
    if target < reached + w.weight then some w.item
    else locateOr otherwise target (reached + w.weight) ws

/-- Where the stretch of candidate `i` begins: the sum of the weights before it. -/
def reach (ws : List (Weighted ι ω)) (i : Nat) : ω := sum (ws.take i)

end Pick

end Weighted

/-- No alternative stands twice in a rule. -/
theorem Grammar.Edited.nodup_items {σ : Type} {g : Grammar σ} (h : g.Edited) {name : String} {r : Rule}
    (hr : g.rule? name = some r) : (r.alternatives.map Weighted.item).Nodup :=
  (List.nodup_flatMap.mp h.built.intact.apart).1 (name, r) (Table.mem_of_get? hr)

namespace Weighted

/-! ### Running sums -/

section Exact

variable {ι : Type}

theorem sum_eq (ws : List (Weighted ι ℚ)) : sum ws = (ws.map Weighted.weight).sum := by
  rw [sum, List.sum_eq_foldl, List.foldl_map]

@[simp]
theorem sum_nil : sum ([] : List (Weighted ι ℚ)) = 0 := rfl

@[simp]
theorem sum_cons (w : Weighted ι ℚ) (ws : List (Weighted ι ℚ)) :
    sum (w :: ws) = w.weight + sum ws := by
  simp [sum_eq]

/-- The alternatives of a rule with exact weights: no weight is negative, and none stands twice. -/
structure Exact (ws : List (Weighted ι ℚ)) : Prop where
  /-- Weights are not negative. -/
  nonneg : ∀ w ∈ ws, 0 ≤ w.weight
  /-- The alternatives differ. -/
  nodup : (ws.map Weighted.item).Nodup

/-- Alternatives without weight add nothing to the total. -/
theorem sum_candidates_none {ws : List (Weighted ι ℚ)} (hws : ∀ w ∈ ws, 0 ≤ w.weight) :
    sum (candidates none ws) = sum ws := by
  induction ws with
  | nil => rfl
  | cons w ws ih =>
    have hrest := ih fun v hv => hws v (List.mem_cons_of_mem _ hv)
    unfold candidates eligible at hrest ⊢
    by_cases hw : 0 < w.weight
    · simp [hw, ← hrest]
    · have hzero : w.weight = 0 := le_antisymm (not_lt.mp hw) (hws w List.mem_cons_self)
      simp [hzero, ← hrest]

variable {ws : List (Weighted ι ℚ)}

@[simp]
theorem reach_zero : reach ws 0 = 0 := rfl

@[simp]
theorem reach_cons_succ (w : Weighted ι ℚ) (i : Nat) :
    reach (w :: ws) (i + 1) = w.weight + reach ws i :=
  sum_cons w (ws.take i)

theorem reach_length : reach ws ws.length = sum ws := by
  rw [reach, List.take_length]

theorem reach_succ {i : Nat} (hi : i < ws.length) : reach ws (i + 1) = reach ws i + ws[i].weight := by
  rw [reach, reach, ← List.take_append_getElem hi]
  simp only [sum_eq, List.map_append, List.sum_append, List.map_cons, List.map_nil, List.sum_singleton]

theorem reach_monotone (hpos : ∀ w ∈ ws, 0 < w.weight) : Monotone (reach ws) := by
  refine monotone_nat_of_le_succ fun i => ?_
  rcases Nat.lt_or_ge i ws.length with hi | hi
  · rw [reach_succ hi]
    exact le_add_of_nonneg_right (hpos _ (List.getElem_mem hi)).le
  · rw [reach, reach, List.take_of_length_le hi, List.take_of_length_le (Nat.le_succ_of_le hi)]

/-! ### The loop -/

/-- Where the loop has come to `reached` without finding the target below that, and the target lies below
the sum of all weights, there is a candidate whose stretch holds the target. The loop ends with it,
before it comes to the end of the list. -/
theorem locate_stretch {target reached : ℚ} (hreached : reached ≤ target)
    (hend : target < reached + sum ws) (last otherwise : Option ι) :
    ∃ i, ∃ hi : i < ws.length, reached + reach ws i ≤ target ∧ target < reached + reach ws (i + 1) ∧
      locate target reached last ws = some ws[i].item ∧
      locateOr otherwise target reached ws = some ws[i].item := by
  induction ws generalizing reached last with
  | nil =>
    rw [sum_nil, add_zero] at hend
    exact absurd hend hreached.not_gt
  | cons w ws ih =>
    by_cases hfound : target < reached + w.weight
    · refine ⟨0, Nat.succ_pos _, by simpa using hreached, by simpa using hfound, ?_, ?_⟩
      · exact if_pos hfound
      · exact if_pos hfound
    · rw [sum_cons, ← add_assoc] at hend
      obtain ⟨i, hi, hbegin, hstop, hlocate, hlocateOr⟩ :=
        ih (not_lt.mp hfound) hend (some w.item)
      refine ⟨i + 1, Nat.succ_lt_succ hi, ?_, ?_, ?_, ?_⟩
      · rwa [reach_cons_succ, ← add_assoc]
      · rwa [reach_cons_succ, ← add_assoc]
      · exact (if_neg hfound).trans hlocate
      · exact (if_neg hfound).trans hlocateOr

/-- The stretches do not overlap. -/
theorem stretch_unique (hpos : ∀ w ∈ ws, 0 < w.weight) {target : ℚ} {i j : Nat}
    (hi : reach ws i ≤ target ∧ target < reach ws (i + 1))
    (hj : reach ws j ≤ target ∧ target < reach ws (j + 1)) : i = j := by
  have hmono := reach_monotone hpos
  rcases Nat.lt_trichotomy i j with h | h | h
  · exact absurd (hmono h) (hj.1.trans_lt hi.2).not_ge
  · exact h
  · exact absurd (hmono h) (hi.1.trans_lt hj.2).not_ge

/-- Of candidates that differ, the loop ends with the one whose stretch holds the target. -/
theorem locate_iff (hpos : ∀ w ∈ ws, 0 < w.weight) (hnodup : (ws.map Weighted.item).Nodup) {target : ℚ}
    (hzero : 0 ≤ target) (hend : target < 0 + sum ws) (last : Option ι) (i : Nat) (hi : i < ws.length) :
    locate target 0 last ws = some ws[i].item ↔ reach ws i ≤ target ∧ target < reach ws (i + 1) := by
  obtain ⟨j, hj, hbegin, hstop, hlocate, -⟩ := locate_stretch hzero hend last none
  rw [zero_add] at hbegin hstop
  rw [hlocate, Option.some.injEq]
  constructor
  · intro hitem
    have hsame : ws[j] = ws[i] :=
      List.inj_on_of_nodup_map hnodup (List.getElem_mem hj) (List.getElem_mem hi) hitem
    have hji : j = i := (List.Nodup.of_map _ hnodup).getElem_inj_iff.mp hsame
    subst hji
    exact ⟨hbegin, hstop⟩
  · intro hstretch
    have hji := stretch_unique hpos ⟨hbegin, hstop⟩ hstretch
    subst hji
    rfl

/-- The first stretch begins at 0. -/
theorem locate_zero (hpos : ∀ w ∈ ws, 0 < w.weight) (htotal : 0 < sum ws) (last : Option ι) :
    locate 0 0 last ws = ws.head?.map Weighted.item := by
  cases ws with
  | nil => exact absurd htotal (lt_irrefl 0)
  | cons w ws => exact if_pos (by simpa using hpos w List.mem_cons_self)

/-! ### Shares -/

/-- The draws that pick candidate `i`. -/
def share (cs : List (Weighted ι ℚ)) (i : Nat) : Set ℚ :=
  Set.Ico (reach cs i / sum cs) (reach cs (i + 1) / sum cs)

theorem mem_share {cs : List (Weighted ι ℚ)} (htotal : 0 < sum cs) {u : ℚ} {i : Nat} :
    u ∈ share cs i ↔ reach cs i ≤ u * sum cs ∧ u * sum cs < reach cs (i + 1) := by
  rw [share, Set.mem_Ico, div_le_iff₀ htotal, lt_div_iff₀ htotal]

/-- The shares lie one after the other from 0 to 1, and the length of each is what its candidate has of
the total weight. -/
structure Tiled (cs : List (Weighted ι ℚ)) : Prop where
  /-- They leave nothing out, and they lie nowhere else. -/
  cover : ∀ u, u ∈ Set.Ico 0 1 ↔ ∃ i < cs.length, u ∈ share cs i
  /-- They do not overlap. -/
  disjoint : ∀ u i j, u ∈ share cs i → u ∈ share cs j → i = j
  /-- The first begins at 0. -/
  first : reach cs 0 / sum cs = 0
  /-- The last ends at 1. -/
  last : reach cs cs.length / sum cs = 1
  /-- A share is as long as its candidate is heavy. -/
  length : ∀ i (hi : i < cs.length),
    reach cs (i + 1) / sum cs - reach cs i / sum cs = cs[i].weight / sum cs

theorem tiled {cs : List (Weighted ι ℚ)} (hpos : ∀ w ∈ cs, 0 < w.weight) (htotal : 0 < sum cs) :
    Tiled cs where
  first := by rw [reach_zero, zero_div]
  last := by rw [reach_length, div_self htotal.ne']
  length i hi := by rw [reach_succ hi, ← sub_div, add_sub_cancel_left]
  disjoint u i j hi hj := stretch_unique hpos ((mem_share htotal).mp hi) ((mem_share htotal).mp hj)
  cover u := by
    simp only [mem_share htotal, Set.mem_Ico]
    constructor
    · rintro ⟨hzero, hone⟩
      have htarget : u * sum cs < 0 + sum cs := by
        rw [zero_add]
        exact (mul_lt_iff_lt_one_left htotal).mpr hone
      obtain ⟨i, hi, hbegin, hend, -⟩ :=
        locate_stretch (mul_nonneg hzero htotal.le) htarget none none
      exact ⟨i, hi, by simpa using hbegin, by simpa using hend⟩
    · rintro ⟨i, hi, hbegin, hend⟩
      have hzero : 0 ≤ reach cs i := reach_monotone hpos (Nat.zero_le i)
      have hone : reach cs (i + 1) ≤ sum cs := (reach_monotone hpos hi).trans_eq reach_length
      constructor
      · exact nonneg_of_mul_nonneg_left (hzero.trans hbegin) htotal
      · exact (mul_lt_iff_lt_one_left htotal).mp (hend.trans_le hone)

variable {ws : List (Weighted ι ℚ)} {excluded : Option (ι → Bool)}

theorem candidates_pos : ∀ w ∈ candidates excluded ws, 0 < w.weight := by
  intro w hw
  have hpass := (List.mem_filter.mp hw).2
  simp only [Bool.and_eq_true, decide_eq_true_iff] at hpass
  exact hpass.1

theorem Exact.nodup_candidates (hws : Exact ws) (excluded : Option (ι → Bool)) :
    ((candidates excluded ws).map Weighted.item).Nodup :=
  hws.nodup.sublist (List.filter_sublist.map Weighted.item)

theorem Exact.pick_eq {σ : Type} (hws : Exact ws) (next : σ → ℚ × σ) (excluded : Option (ι → Bool))
    (s : σ) : pick next (sum ws) ws excluded s =
      choose next (sum (candidates excluded ws)) (candidates excluded ws) s := by
  cases excluded with
  | none =>
    rw [sum_candidates_none hws.nonneg]
    rfl
  | some isExcluded => rfl

/-- **An alternative is picked on an interval in proportion to its weight.** With exact weights and a draw
`u` of at least 0 and below 1, let `cs` be the alternatives that have weight and are not excluded, in the
order of their declaration, and let them have a total weight. A pick takes that one draw, and it picks the
candidate for which `u` times the total weight lies within its stretch; it does so in the loop, so it makes
no difference what comes after the loop. The candidates divide the draws among them without gap and
without overlap, each with a share in proportion to its weight, and a draw of 0 picks the first. -/
theorem pick_proportional {σ : Type} (next : σ → ℚ × σ) (s : σ) (hws : Exact ws)
    (excluded : Option (ι → Bool)) (htotal : 0 < sum (candidates excluded ws))
    (hu : (next s).1 ∈ Set.Ico 0 1) :
    let cs := candidates excluded ws
    let u := (next s).1
    let picked := pick next (sum ws) ws excluded s
    (∀ i (hi : i < cs.length), picked.1 = some cs[i].item ↔
      reach cs i ≤ u * sum cs ∧ u * sum cs < reach cs (i + 1)) ∧
    (∃ i, ∃ hi : i < cs.length, picked.1 = some cs[i].item ∧ u ∈ share cs i) ∧
    Tiled cs ∧
    (∀ otherwise, picked.1 = locateOr otherwise (u * sum cs) 0 cs) ∧
    (u = 0 → picked.1 = cs.head?.map Weighted.item) ∧
    picked.2 = (next s).2 := by
  intro cs u picked
  have hpos : ∀ w ∈ cs, 0 < w.weight := candidates_pos
  have hpicked : picked = (locate (u * sum cs) 0 none cs, (next s).2) := by
    show pick next (sum ws) ws excluded s = _
    rw [hws.pick_eq, choose, if_neg htotal.not_ge]
  have hzero : 0 ≤ u * sum cs := mul_nonneg hu.1 htotal.le
  have hend : u * sum cs < 0 + sum cs := by
    rw [zero_add]
    exact (mul_lt_iff_lt_one_left htotal).mpr hu.2
  have hiff := locate_iff hpos (hws.nodup_candidates excluded) hzero hend none
  rw [hpicked]
  refine ⟨hiff, ?_, tiled hpos htotal, ?_, ?_, rfl⟩
  · obtain ⟨i, hi, -, -, hlocate, -⟩ := locate_stretch hzero hend none none
    exact ⟨i, hi, hlocate, (mem_share htotal).mpr ((hiff i hi).mp hlocate)⟩
  · intro otherwise
    obtain ⟨i, hi, -, -, hlocate, hlocateOr⟩ := locate_stretch hzero hend none otherwise
    exact hlocate.trans hlocateOr.symm
  · intro hu
    rw [hu, zero_mul]
    exact locate_zero hpos htotal none

end Exact

/-- What a die may show that is thrown across a table, with how often it does. -/
def throws : List (Weighted String ℚ) := [⟨"lost", 0⟩, ⟨"odd", 1 / 2⟩, ⟨"even", 3⟩, ⟨"tilted", 1⟩]

/-- If it is not to show an even number, a draw of a third lies just where the stretch of the odd ones
ends, so it comes to lie tilted. -/
theorem throws_pick : Exact throws ∧ 0 < sum (candidates (some (· == "even")) throws) ∧
    (1 / 3 : ℚ) ∈ Set.Ico 0 1 ∧
    (pick (fun u : ℚ => (u, u)) (sum throws) throws (some (· == "even")) (1 / 3)).1 = some "tilted" ∧
    (1 / 3 : ℚ) ∉ share (candidates (some (· == "even")) throws) 0 := by
  have hthrows : Exact throws := ⟨by decide +kernel, by decide +kernel⟩
  have htotal : 0 < sum (candidates (some (· == "even")) throws) := by decide +kernel
  have hdraw : (1 / 3 : ℚ) ∈ Set.Ico 0 1 := ⟨by decide +kernel, by decide +kernel⟩
  obtain ⟨hpicked, -⟩ := pick_proportional (fun u : ℚ => (u, u)) (1 / 3) hthrows _ htotal hdraw
  refine ⟨hthrows, htotal, hdraw, ?_, ?_⟩
  · exact ((hpicked 1 (by decide +kernel)).mpr ⟨by decide +kernel, by decide +kernel⟩).trans
      (by decide +kernel)
  · rw [mem_share htotal]
    decide +kernel

end Weighted

end Fabula
