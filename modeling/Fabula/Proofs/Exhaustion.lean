import Fabula.Proofs.Progress
import Fabula.Random.Scripted

/-!
# Fabula.Proofs.Exhaustion

**Tracked expansions run out.** As every text that a rule gives under tracking comes with an
alternative seen for the first time, a grammar gives no more texts than it has alternatives with weight
(`Grammar.Progresses.textsGiven_le`), and whoever collects different texts comes to an end without
being stopped (`Grammar.Progresses.collects`).
-/

namespace Fabula

variable {σ : Type}

/-- Expansions of rules that make progress under tracking. -/
structure Grammar.Progresses (g : Grammar σ) (expand : String → Run σ (Option String)) : Prop where
  /-- What has been seen stays seen. -/
  grows : ∀ name, Run.Keeps Context.TrackersGrow (expand name)
  /-- If there is a text, something new has been seen. -/
  text : ∀ {name c text c'}, c.tracking = true → expand name c = .ok (some text) c' →
    Context.Gains g c c'
  /-- If there is none, something new has been seen or the rule had been used up. -/
  nothing : ∀ {name c c'}, c.tracking = true → expand name c = .ok none c' →
    ∃ r, g.rule? name = some r ∧ (Context.Gains g c c' ∨ Builtin.hasUnseen r c = false)

/-! ### Counting what is left -/

/-- How many alternatives with weight have not been seen. -/
def Grammar.unseenCount (g : Grammar σ) (c : Context σ) : Nat :=
  g.weightedSlots.countP fun slot => !c.isSeen slot

theorem Grammar.unseenCount_le_length (g : Grammar σ) (c : Context σ) :
    g.unseenCount c ≤ g.weightedSlots.length := List.countP_le_length

section Counting

variable {g : Grammar σ} {c c' : Context σ}

theorem countP_not_isSeen_le (hgrow : c.TrackersGrow c') (slots : List Slot) :
    slots.countP (fun slot => !c'.isSeen slot) ≤ slots.countP fun slot => !c.isSeen slot := by
  refine List.countP_mono_left fun slot _ h => ?_
  rw [Bool.not_eq_true'] at h ⊢
  exact hgrow.not_isSeen h

/-- What is seen for the first time is no longer left. -/
theorem countP_not_isSeen_lt (hgrow : c.TrackersGrow c') {slots : List Slot} {slot : Slot}
    (hslot : slot ∈ slots) (hold : c.isSeen slot = false) (hnew : c'.isSeen slot = true) :
    slots.countP (fun slot => !c'.isSeen slot) < slots.countP fun slot => !c.isSeen slot := by
  -- split at the slot that was seen: it no longer counts, and on neither side more slots do
  obtain ⟨before, after, hsplit⟩ := List.append_of_mem hslot
  have hbefore := countP_not_isSeen_le hgrow before
  have hafter := countP_not_isSeen_le hgrow after
  rw [hsplit, List.countP_append, List.countP_append, List.countP_cons, List.countP_cons, hold, hnew]
  exact Nat.add_lt_add_of_le_of_lt hbefore (Nat.lt_succ_of_le hafter)

theorem Context.TrackersGrow.unseenCount_le (hgrow : c.TrackersGrow c') :
    g.unseenCount c' ≤ g.unseenCount c := countP_not_isSeen_le hgrow g.weightedSlots

theorem Context.Gains.unseenCount_lt (h : Context.Gains g c c') (hgrow : c.TrackersGrow c') :
    g.unseenCount c' < g.unseenCount c :=
  let ⟨_, hslot, hold, hnew⟩ := h
  countP_not_isSeen_lt hgrow hslot hold hnew

end Counting

/-! ### Sequences of expansions -/

/-- How many expansions of some rules, one after the other, give a text. -/
def textsGiven (expand : String → Run σ (Option String)) : List String → Context σ → Nat
  | [], _ => 0
  | name :: names, c =>
    match expand name c with
    | .ok (some _) c' => textsGiven expand names c' + 1
    | .ok none c' => textsGiven expand names c'
    | .error _ c' => textsGiven expand names c'

namespace Grammar.Progresses

variable {g : Grammar σ} {expand : String → Run σ (Option String)} (h : g.Progresses expand)
include h

/-- Every text takes from what is left. -/
theorem textsGiven_le_unseenCount (names : List String) {c : Context σ} (htrack : c.tracking = true) :
    textsGiven expand names c ≤ g.unseenCount c := by
  induction names generalizing c with
  | nil => exact Nat.zero_le _
  | cons name names ih =>
    unfold textsGiven
    cases he : expand name c with
    | error e c' =>
      have hgrow : c.TrackersGrow c' := (h.grows name).of_error he
      exact Nat.le_trans (ih (hgrow.tracking.trans htrack)) hgrow.unseenCount_le
    | ok value c' =>
      have hgrow : c.TrackersGrow c' := (h.grows name).of_ok he
      have hrest := ih (hgrow.tracking.trans htrack)
      cases value with
      | none => exact Nat.le_trans hrest hgrow.unseenCount_le
      | some text =>
        exact Nat.lt_of_le_of_lt hrest ((h.text htrack he).unseenCount_lt hgrow)

theorem textsGiven_le (names : List String) {c : Context σ} (htrack : c.tracking = true) :
    textsGiven expand names c ≤ g.weightedSlots.length :=
  Nat.le_trans (h.textsGiven_le_unseenCount names htrack) (g.unseenCount_le_length c)

end Grammar.Progresses

/-! ### Collecting different texts -/

/-- Collecting texts without a limit ends with this result after so many tries. -/
inductive Collects (attempt : Run σ (Option String)) (isOpen : Context σ → Bool) (count : Nat) :
    List String → Context σ → Nat → EStateM.Result ExpandError (Context σ) (List String) → Prop
  /-- There are enough. -/
  | enough {texts c} (h : count ≤ texts.length) :
    Collects attempt isOpen count texts c 0 (.ok texts c)
  /-- A text is found. -/
  | text {texts c text c' tries result} (h : ¬ count ≤ texts.length)
    (ha : attempt c = .ok (some text) c')
    (hrest : Collects attempt isOpen count (addText texts text) c' tries result) :
    Collects attempt isOpen count texts c (tries + 1) result
  /-- One branch has nothing new to say. -/
  | branch {texts c c' tries result} (h : ¬ count ≤ texts.length) (ha : attempt c = .ok none c')
    (hopen : isOpen c' = true) (hrest : Collects attempt isOpen count texts c' tries result) :
    Collects attempt isOpen count texts c (tries + 1) result
  /-- There is nothing new to say any more. -/
  | exhausted {texts c c'} (h : ¬ count ≤ texts.length) (ha : attempt c = .ok none c')
    (hclosed : isOpen c' = false) : Collects attempt isOpen count texts c 1 (.ok texts c')
  /-- A try fails. -/
  | error {texts c e c'} (h : ¬ count ≤ texts.length) (ha : attempt c = .error e c') :
    Collects attempt isOpen count texts c 1 (.error e c')

/-- A limit that leaves enough tries changes nothing. -/
theorem Collects.collect_eq {attempt : Run σ (Option String)} {isOpen : Context σ → Bool}
    {count tries : Nat} {texts : List String} {c : Context σ}
    {result : EStateM.Result ExpandError (Context σ) (List String)}
    (h : Collects attempt isOpen count texts c tries result) {limit : Nat} (hlimit : tries ≤ limit) :
    Builtin.collect attempt isOpen count texts limit c = result := by
  induction h generalizing limit with
  | enough h => exact collect_of_enough h
  | text h ha _ ih =>
    cases limit with
    | zero => exact absurd hlimit (Nat.not_succ_le_zero _)
    | succ limit =>
      rw [collect_of_text h ha]
      exact ih (Nat.le_of_succ_le_succ hlimit)
  | branch h ha hopen _ ih =>
    cases limit with
    | zero => exact absurd hlimit (Nat.not_succ_le_zero _)
    | succ limit =>
      rw [collect_of_none h ha, if_pos hopen]
      exact ih (Nat.le_of_succ_le_succ hlimit)
  | exhausted h ha hclosed =>
    cases limit with
    | zero => exact absurd hlimit (Nat.not_succ_le_zero _)
    | succ limit => rw [collect_of_none h ha, if_neg (by rw [hclosed]; exact Bool.false_ne_true)]
  | error h ha =>
    cases limit with
    | zero => exact absurd hlimit (Nat.not_succ_le_zero _)
    | succ limit => rw [collect_of_error h ha]

/-- Every try but the last takes from what is left. -/
theorem Grammar.Progresses.collects {g : Grammar σ} {expand : String → Run σ (Option String)}
    (h : g.Progresses expand) {name : String} {r : Rule} (hr : g.rule? name = some r) (count : Nat)
    (texts : List String) {c : Context σ} (htrack : c.tracking = true) :
    ∃ tries ≤ g.unseenCount c + 1, ∃ result,
      Collects (expand name) (Builtin.hasUnseen r) count texts c tries result := by
  induction hleft : g.unseenCount c using Nat.strong_induction_on generalizing texts c with
  | _ left ih =>
    subst hleft
    by_cases henough : count ≤ texts.length
    · exact ⟨0, Nat.zero_le _, _, .enough henough⟩
    cases he : expand name c with
    | error e c' => exact ⟨1, Nat.le_add_left 1 _, _, .error henough he⟩
    | ok value c' =>
      have hgrow : c.TrackersGrow c' := (h.grows name).of_ok he
      have htrack' : c'.tracking = true := hgrow.tracking.trans htrack
      cases value with
      | some text =>
        have hless := (h.text htrack he).unseenCount_lt hgrow
        obtain ⟨tries, htries, result, hrest⟩ := ih _ hless (addText texts text) htrack' rfl
        exact ⟨tries + 1, by omega, result, .text henough he hrest⟩
      | none =>
        cases hopen : Builtin.hasUnseen r c' with
        | false => exact ⟨1, Nat.le_add_left 1 _, _, .exhausted henough he hopen⟩
        | true =>
          -- the rule is open after this try, so it was open before, and the try has seen something
          obtain ⟨r', hr', hends⟩ := h.nothing htrack he
          rw [hr] at hr'
          cases hr'
          rcases hends with hgains | hclosed
          · have hless := hgains.unseenCount_lt hgrow
            obtain ⟨tries, htries, result, hrest⟩ := ih _ hless texts htrack' rfl
            exact ⟨tries + 1, by omega, result, .branch henough he hopen hrest⟩
          · exact absurd hopen (by rw [hgrow.hasUnseen hclosed]; exact Bool.false_ne_true)

/-! ### Grammars without Markov symbols -/

section Whole

variable [RandomSource σ] {g : Grammar σ} (hm : g.models = [])
variable (hg : g.OverridesKeep Context.TrackersGrow)
include hm hg

theorem levelEngine_progresses (levels : Nat) :
    g.Progresses (engineWith g (g.evaluate levels)).expandRule where
  grows := (Context.TrackersGrow.invariant.levelEngine_keeps hg levels).rule
  text htrack he := by
    obtain ⟨_, _, hgains | ⟨hnone, _⟩⟩ := levelEngine_gains hm hg levels htrack he
    · exact hgains
    · cases hnone
  nothing htrack he := by
    obtain ⟨r, hr, hends⟩ := levelEngine_gains hm hg levels htrack he
    exact ⟨r, hr, hends.imp_right And.right⟩

theorem expandRule_progresses : g.Progresses g.expandRule where
  grows name c := (levelEngine_progresses hm hg (g.settings.maxDepth - c.depth)).grows name c
  text htrack he := (levelEngine_progresses hm hg _).text htrack he
  nothing htrack he := (levelEngine_progresses hm hg _).nothing htrack he

end Whole

/-- **Tracked picking makes progress**, in grammars without Markov symbols whose registered modifiers
leave the trackers as they found them, at every level of an expansion and whatever is drawn: an
expansion of a rule that gives a text has seen an alternative with weight for the first time, and one
that gives none has too, or its rule had been used up. So there are no more texts in any sequence of
expansions than alternatives with weight, and the loop that collects different texts ends by itself
with one more try at most: its limit changes nothing if it leaves so many. -/
theorem tracked_expansions_end [RandomSource σ] (g : Grammar σ) (hm : g.models = [])
    (hg : g.OverridesKeep Context.TrackersGrow) :
    g.Progresses g.expandRule ∧
    (∀ levels, g.Progresses (engineWith g (g.evaluate levels)).expandRule) ∧
    (∀ names c, c.tracking = true → textsGiven g.expandRule names c ≤ g.weightedSlots.length) ∧
    (∀ levels names c, c.tracking = true →
      textsGiven (engineWith g (g.evaluate levels)).expandRule names c ≤ g.weightedSlots.length) ∧
    ∀ levels name r count (c : Context σ), g.rule? name = some r →
      ∃ tries ≤ g.weightedSlots.length + 1, ∃ result,
        Collects ((engineWith g (g.evaluate levels)).expandRule name) (Builtin.hasUnseen r) count []
          c.pushTracker tries result ∧
        ∀ limit, tries ≤ limit →
          Builtin.collect ((engineWith g (g.evaluate levels)).expandRule name) (Builtin.hasUnseen r)
            count [] limit c.pushTracker = result := by
  have hlevel := levelEngine_progresses hm hg
  have htop := expandRule_progresses hm hg
  refine ⟨htop, hlevel, fun names c => htop.textsGiven_le names,
    fun levels names c => (hlevel levels).textsGiven_le names, ?_⟩
  intro levels name r count c hr
  obtain ⟨tries, htries, result, hcollects⟩ :=
    (hlevel levels).collects hr count [] (c := c.pushTracker) rfl
  have hleft := g.unseenCount_le_length c.pushTracker
  exact ⟨tries, by omega, result, hcollects, fun limit hlimit => hcollects.collect_eq hlimit⟩

/-- Pets, their owners, and a pet that there is no chance to meet. -/
def pets : Grammar Scripted where
  rules := [
    ("pet", Rule.ofAlternatives [⟨0, 1⟩, ⟨1, 2⟩, ⟨2, 0⟩]),
    ("owner", Rule.ofAlternatives [⟨3, 1⟩])]
  store := #["cat", "dog", "unicorn", "the one with the {pet}"]

theorem pets_weightedSlots : pets.weightedSlots = [0, 1, 3] := by
  decide +kernel

/-- However often one asks, no more than three texts are given, and four tries are enough to collect
all that can be said about owners. -/
theorem pets_expansions_end :
    pets.models = [] ∧ pets.OverridesKeep Context.TrackersGrow ∧
    (∀ names, textsGiven pets.expandRule names { source := .fixed 0, trackers := [[]] } ≤ 3) ∧
    ∃ tries ≤ 4, ∃ result, ∀ limit, tries ≤ limit →
      Builtin.collect ((engineWith pets (pets.evaluate 20)).expandRule "owner")
        (Builtin.hasUnseen (Rule.ofAlternatives [⟨3, 1⟩])) 10 [] limit
        (Context.pushTracker { source := .fixed 0 }) = result := by
  have hg : pets.OverridesKeep Context.TrackersGrow := Grammar.overridesKeep_of_nil rfl
  have hlength : pets.weightedSlots.length = 3 := by rw [pets_weightedSlots]; rfl
  obtain ⟨-, -, htop, -, hcollects⟩ := tracked_expansions_end pets rfl hg
  rw [hlength] at htop hcollects
  obtain ⟨tries, htries, result, -, hlimit⟩ :=
    hcollects 20 "owner" (Rule.ofAlternatives [⟨3, 1⟩]) 10 { source := .fixed 0 } rfl
  exact ⟨rfl, hg, fun names => htop names _ rfl, tries, htries, result, hlimit⟩

end Fabula
