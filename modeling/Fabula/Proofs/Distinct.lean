import Fabula.Proofs.Shortfall

/-!
# Fabula.Proofs.Distinct

**The texts of `uniques` differ, and of a flat rule none is left out.** What `uniques` collects are the
texts that the expansions of its rule have given, each once (`collect_repeats`).

An expansion of a flat rule, one with texts only, sees one alternative more (`attempt_flat`), so there are
enough tries for all of them. The texts that have been collected are at any time those of the alternatives
that have been seen (`Collected`). They may be fewer, because alternatives may have the same text; but when
all alternatives have been seen no text is missing.
-/

namespace Fabula

variable {σ : Type}

/-! ### What is collected -/

/-- An action that is run several times gives these values. -/
inductive Run.Repeats {α : Type} (act : Run σ α) : Context σ → List α → Context σ → Prop
  /-- It is not run any more. -/
  | done {c} : Repeats act c [] c
  /-- It is run once more. -/
  | again {c a d values c'} (h : act c = .ok a d) (hrest : Repeats act d values c') :
    Repeats act c (a :: values) c'

section Texts

variable {texts : List String} {text : String}

theorem mem_addText {other : String} : other ∈ addText texts text ↔ other ∈ texts ∨ other = text := by
  unfold addText
  split
  · rename_i hold
    rw [List.contains_iff_mem] at hold
    exact ⟨.inl, fun h => h.elim id fun heq => heq ▸ hold⟩
  · simp

theorem addText_nodup (h : texts.Nodup) : (addText texts text).Nodup := by
  unfold addText
  split
  · exact h
  · rename_i hnew
    rw [List.contains_iff_mem] at hnew
    exact List.nodup_append_comm.mp (List.nodup_cons.mpr ⟨hnew, h⟩)

theorem length_addText_le : (addText texts text).length ≤ texts.length + 1 := by
  unfold addText
  split
  · exact Nat.le_succ _
  · exact Nat.le_of_eq List.length_append

end Texts

/-- Different texts are collected up to the count: those that there were before and those that the tries
give. -/
theorem collect_repeats {attempt : Run σ (Option String)} {isOpen : Context σ → Bool}
    {count limit : Nat} {texts texts' : List String} {c c' : Context σ}
    (h : Builtin.collect attempt isOpen count texts limit c = .ok texts' c') (hnodup : texts.Nodup)
    (hcount : texts.length ≤ count) :
    ∃ answers, Run.Repeats attempt c answers c' ∧ answers.length ≤ limit ∧
      texts'.Nodup ∧ texts'.length ≤ count ∧
      ∀ text, text ∈ texts' ↔ text ∈ texts ∨ some text ∈ answers := by
  induction limit generalizing texts c with
  | zero =>
    cases h
    exact ⟨[], .done, Nat.le_refl _, hnodup, hcount, by simp⟩
  | succ limit ih =>
    by_cases henough : count ≤ texts.length
    · rw [collect_of_enough henough] at h
      cases h
      exact ⟨[], .done, Nat.zero_le _, hnodup, hcount, by simp⟩
    cases ha : attempt c with
    | error e d =>
      rw [collect_of_error henough ha] at h
      cases h
    | ok answer d =>
      cases answer with
      | some text =>
        rw [collect_of_text henough ha] at h
        have hcount' : (addText texts text).length ≤ count :=
          Nat.le_trans length_addText_le (Nat.lt_of_not_le henough)
        obtain ⟨answers, hrepeats, hlimit, hnodup', hfew, hmem⟩ := ih h (addText_nodup hnodup) hcount'
        refine ⟨some text :: answers, .again ha hrepeats, Nat.succ_le_succ hlimit, hnodup', hfew, ?_⟩
        intro other
        rw [hmem, mem_addText, List.mem_cons, Option.some_inj, or_assoc]
      | none =>
        rw [collect_of_none henough ha] at h
        split at h
        · obtain ⟨answers, hrepeats, hlimit, hrest⟩ := ih h hnodup hcount
          exact ⟨none :: answers, .again ha hrepeats, Nat.succ_le_succ hlimit, by simpa using hrest⟩
        · cases h
          exact ⟨[none], .again ha .done, Nat.succ_le_succ (Nat.zero_le _), hnodup, hcount, by simp⟩

/-- The texts behind what `uniques` gives. -/
theorem runUniques_inv {g : Grammar σ} {engine : Engine σ} {args : List Argument}
    {name separator value : String} {count : Nat} {c c' : Context σ}
    (hargs : Builtin.uniquesArgs args = .ok (name, count, separator))
    (h : Builtin.runUniques g engine args c = .ok value c') :
    ∃ rule texts d, g.rule? name = some rule ∧
      Builtin.collect (engine.expandRule name) (Builtin.hasUnseen rule) count []
        Builtin.maxUniqueTries c.pushTracker = .ok texts d ∧
      value = String.intercalate separator texts ∧ c' = d.popTracker := by
  rw [Builtin.runUniques, hargs, Run.ofExcept, pure_bind] at h
  dsimp only at h
  cases hrule : g.rule? name with
  | none =>
    rw [hrule] at h
    cases h
  | some rule =>
    rw [hrule] at h
    obtain ⟨d, hinside, rfl⟩ := Run.within_inv h
    obtain ⟨texts, d, hcollect, hjoin⟩ := Run.bind_inv hinside
    cases hjoin
    exact ⟨rule, texts, d, rfl, hcollect, rfl, rfl⟩

/-! ### Flat rules -/

/-- The text of an alternative that has neither references nor declarations. -/
def Grammar.plainText (g : Grammar σ) (slot : Slot) : String :=
  match g.template slot with
  | .ok t => t.fill []
  | .error _ => ""

/-- The texts of the alternatives of a rule that have weight. -/
def Grammar.plainTexts (g : Grammar σ) (r : Rule) : Finset String :=
  (r.weightedSlots.map g.plainText).toFinset

/-- A rule is flat in a context: the alternatives that have weight are texts, few enough to be tried one
by one, and not seen yet, and no globals have to be evaluated to expand the rule. -/
structure Grammar.Flat (g : Grammar σ) (r : Rule) (c : Context σ) : Prop where
  /-- There are texts only. -/
  plain : ∀ slot ∈ r.weightedSlots, g.Plain slot
  /-- There are no more than may be tried. -/
  few : r.weightedSlots.length ≤ Builtin.maxUniqueTries
  /-- None has been seen. -/
  unseen : ∀ slot ∈ r.weightedSlots, c.isSeen slot = false
  /-- There are no globals, or they have been evaluated. -/
  globals : g.globals = [] ∨ c.globalsLoaded = true

/-- What an expansion of a flat rule comes to under tracking. -/
inductive FlatResult (g : Grammar σ) (r : Rule) (levels : Nat) (c : Context σ) :
    EStateM.Result ExpandError (Context σ) (Option String) → Prop
  /-- The rule has been used up. -/
  | nothing {d} (hclosed : Builtin.hasUnseen r c = false) (htrackers : d.trackers = c.trackers)
    (hloaded : d.globalsLoaded = c.globalsLoaded) : FlatResult g r levels c (.ok none d)
  /-- One alternative more has been seen, and its text is given. -/
  | text {slot d} (hslot : slot ∈ r.weightedSlots) (hunseen : c.isSeen slot = false)
    (htrackers : d.trackers = (c.markSeen slot).trackers)
    (hloaded : d.globalsLoaded = c.globalsLoaded) :
    FlatResult g r levels c (.ok (some (g.plainText slot)) d)
  /-- There is no level left for an alternative. -/
  | error {e d} (hlevels : levels = 0) : FlatResult g r levels c (.error e d)

theorem FlatResult.within_globals {g : Grammar σ} {r : Rule} {levels : Nat} {c : Context σ}
    {act : Run σ (Option String)} (hc : c.globalsLoaded = false)
    (h : FlatResult g r levels c.enterGlobals (act c.enterGlobals)) :
    FlatResult g r levels c (Run.within Context.enterGlobals Context.leaveGlobals act c) := by
  unfold Run.within
  generalize act c.enterGlobals = result at h
  cases h with
  | nothing hclosed htrackers => exact .nothing hclosed htrackers hc.symm
  | text hslot hunseen htrackers => exact .text hslot hunseen htrackers hc.symm
  | error hlevels => exact .error hlevels

section Attempts

variable [RandomSource σ] {g : Grammar σ} {levels : Nat} {name : String} {r : Rule} {c : Context σ}

/-- A plain alternative gives its text and is marked as seen. -/
theorem evaluate_plain {slot : Slot} (h : g.Plain slot) (c : Context σ) :
    (Run.ofParsed (g.template slot) >>= fun t => g.evaluate (levels + 1) t (some slot)) c =
      .ok (some (g.plainText slot)) (c.markSeen slot) := by
  obtain ⟨t, ht, hreferences, hdeclarations⟩ := h
  have htext : g.plainText slot = t.fill [] := by rw [Grammar.plainText, ht]
  rw [ht, htext]
  show Run.within _ _ (expandBody g (g.evaluate levels) t (some slot)) c = _
  rw [expandBody_eq, hdeclarations, hreferences]
  rfl

variable (hplain : ∀ slot ∈ r.weightedSlots, g.Plain slot) (htrack : c.tracking = true)
include hplain htrack

theorem expandRuleWith_flat : FlatResult g r levels c (expandRuleWith g (g.evaluate levels) r c) := by
  rcases pick_cases (r := r) htrack with ⟨slot, hslot, hunseen, hpick⟩ | ⟨hclosed, hpick⟩
  · rw [expandRuleWith_of_some hpick]
    cases levels with
    | zero =>
      obtain ⟨t, ht, -⟩ := hplain slot hslot
      rw [ht]
      exact .error rfl
    | succ levels =>
      rw [evaluate_plain (hplain slot hslot)]
      exact .text hslot hunseen rfl rfl
  · rw [expandRuleWith_of_none hpick, Context.afterPick_tracking, if_pos htrack]
    exact .nothing hclosed rfl rfl

/-- A try of a flat rule sees one alternative more, unless the rule has been used up. -/
theorem attempt_flat (hr : g.rule? name = some r)
    (hglobals : g.globals = [] ∨ c.globalsLoaded = true) :
    FlatResult g r levels c (attempts g levels name c) := by
  unfold attempts
  rw [engineWith_rule hr]
  cases hl : c.globalsLoaded with
  | true =>
    rw [withGlobals_of_loaded hl]
    exact expandRuleWith_flat hplain htrack
  | false =>
    have hnone : g.globals = [] := hglobals.resolve_right (by simp [hl])
    rw [withGlobals_of_not_loaded hl, hnone]
    exact FlatResult.within_globals hl (expandRuleWith_flat hplain htrack)

end Attempts

/-! ### What has been seen -/

section Seen

variable {c d : Context σ}

theorem Context.isSeen_markSeen_iff (htrack : c.tracking = true) {slot other : Slot} :
    (c.markSeen slot).isSeen other = true ↔ other = slot ∨ c.isSeen other = true := by
  constructor
  · simp only [Context.markSeen, Context.isSeen, List.any_map, List.any_eq_true, Function.comp_apply,
      List.contains_iff_mem, List.mem_insert_iff]
    rintro ⟨tracker, htracker, hother | hother⟩
    · exact .inl hother
    · exact .inr ⟨tracker, htracker, hother⟩
  · rintro (rfl | hother)
    · exact c.isSeen_markSeen htrack other
    · exact (Context.TrackersGrow.mark c slot).isSeen hother

theorem Context.isSeen_of_trackers (h : d.trackers = c.trackers) (slot : Slot) :
    d.isSeen slot = c.isSeen slot := by
  unfold Context.isSeen
  rw [h]

theorem Context.TrackersGrow.of_trackers (h : d.trackers = c.trackers) : c.TrackersGrow d := by
  unfold TrackersGrow
  rw [h]
  exact TrackersGrow.refl c

end Seen

/-- The texts that have been collected are those of the alternatives of a rule that have been seen. -/
structure Collected (g : Grammar σ) (r : Rule) (count : Nat) (texts : List String) (c : Context σ) :
    Prop where
  /-- They differ. -/
  nodup : texts.Nodup
  /-- There are not more than have been asked for. -/
  length_le : texts.length ≤ count
  /-- They are the texts of what has been seen. -/
  mem_iff : ∀ text, text ∈ texts ↔
    ∃ slot ∈ r.weightedSlots, c.isSeen slot = true ∧ g.plainText slot = text

namespace Collected

variable {g : Grammar σ} {r : Rule} {count : Nat} {texts : List String} {c d : Context σ}

/-- If nothing has been seen, nothing has been collected. -/
theorem nil (h : ∀ slot ∈ r.weightedSlots, c.isSeen slot = false) : Collected g r count [] c where
  nodup := List.nodup_nil
  length_le := Nat.zero_le _
  mem_iff text := by
    refine ⟨nofun, fun ⟨slot, hslot, hseen, _⟩ => ?_⟩
    rw [h slot hslot] at hseen
    cases hseen

variable (h : Collected g r count texts c)
include h

/-- If an alternative is seen, its text is added. -/
theorem addText (hless : ¬ count ≤ texts.length) (htrack : c.tracking = true) {slot : Slot}
    (hslot : slot ∈ r.weightedSlots) (htrackers : d.trackers = (c.markSeen slot).trackers) :
    Collected g r count (addText texts (g.plainText slot)) d where
  nodup := addText_nodup h.nodup
  length_le := Nat.le_trans length_addText_le (Nat.lt_of_not_le hless)
  mem_iff text := by
    simp only [mem_addText, h.mem_iff, Context.isSeen_of_trackers htrackers,
      Context.isSeen_markSeen_iff htrack]
    constructor
    · rintro (⟨s, hs, hseen, htext⟩ | rfl)
      · exact ⟨s, hs, .inr hseen, htext⟩
      · exact ⟨slot, hslot, .inl rfl, rfl⟩
    · rintro ⟨s, hs, rfl | hseen, htext⟩
      · exact .inr htext.symm
      · exact .inl ⟨s, hs, hseen, htext⟩

/-- If there are enough, there are as many as have been asked for. -/
theorem length_of_enough (henough : count ≤ texts.length) :
    texts.length = min count (g.plainTexts r).card := by
  have hsub : texts.toFinset ⊆ g.plainTexts r := by
    intro text htext
    obtain ⟨slot, hslot, -, rfl⟩ := (h.mem_iff text).mp (List.mem_toFinset.mp htext)
    exact List.mem_toFinset.mpr (List.mem_map_of_mem hslot)
  have hcard := Finset.card_le_card hsub
  rw [List.toFinset_card_of_nodup h.nodup] at hcard
  have hfew := h.length_le
  omega

/-- If all has been seen, nothing is missing. -/
theorem length_of_seen (hall : ∀ slot ∈ r.weightedSlots, c.isSeen slot = true) :
    texts.length = min count (g.plainTexts r).card := by
  have htexts : texts.toFinset = g.plainTexts r := by
    ext text
    rw [List.mem_toFinset, h.mem_iff, Grammar.plainTexts, List.mem_toFinset, List.mem_map]
    exact ⟨fun ⟨slot, hslot, _, htext⟩ => ⟨slot, hslot, htext⟩,
      fun ⟨slot, hslot, htext⟩ => ⟨slot, hslot, hall slot hslot, htext⟩⟩
  rw [← htexts, List.toFinset_card_of_nodup h.nodup]
  exact (Nat.min_eq_right h.length_le).symm

end Collected

/-! ### Collecting the texts of a flat rule -/

/-- What collecting texts of a flat rule comes to. -/
inductive FlatTexts (g : Grammar σ) (r : Rule) (count levels : Nat) :
    EStateM.Result ExpandError (Context σ) (List String) → Prop
  /-- There are as many as have been asked for, or as there are. -/
  | texts {texts c} (h : texts.length = min count (g.plainTexts r).card) :
    FlatTexts g r count levels (.ok texts c)
  /-- There is no level left for an alternative. -/
  | error {e c} (hlevels : levels = 0) : FlatTexts g r count levels (.error e c)

variable [RandomSource σ]

/-- If there are tries for all alternatives that have not been seen, no text is missing in the end. -/
theorem collect_flat {g : Grammar σ} {r : Rule} {name : String} (hr : g.rule? name = some r)
    (hplain : ∀ slot ∈ r.weightedSlots, g.Plain slot) {levels count limit : Nat} {texts : List String}
    {c : Context σ} (htrack : c.tracking = true) (hglobals : g.globals = [] ∨ c.globalsLoaded = true)
    (hcollected : Collected g r count texts c)
    (hlimit : r.weightedSlots.countP (fun slot => !c.isSeen slot) ≤ limit) :
    FlatTexts g r count levels (Builtin.collect (attempts g levels name) (Builtin.hasUnseen r) count
      texts limit c) := by
  induction limit generalizing texts c with
  | zero =>
    -- every alternative has been seen, so it does not matter that there are no tries left
    have hnone := List.countP_eq_zero.mp (Nat.le_zero.mp hlimit)
    exact .texts (hcollected.length_of_seen (by simpa using hnone))
  | succ limit ih =>
    by_cases henough : count ≤ texts.length
    · rw [collect_of_enough henough]
      exact .texts (hcollected.length_of_enough henough)
    have hattempt : FlatResult g r levels c (attempts g levels name c) :=
      attempt_flat hplain htrack hr hglobals
    generalize ha : attempts g levels name c = result at hattempt
    cases hattempt with
    | nothing hclosed htrackers =>
      rw [collect_of_none henough ha]
      have hclosed' := (Context.TrackersGrow.of_trackers htrackers).hasUnseen hclosed
      rw [hclosed', if_neg Bool.false_ne_true]
      exact .texts (hcollected.length_of_seen fun _ => isSeen_of_used hclosed)
    | @text slot d hslot hunseen htrackers hloaded =>
      rw [collect_of_text henough ha]
      have hgrow : c.TrackersGrow d :=
        (Context.TrackersGrow.mark c slot).trans (.of_trackers htrackers)
      have hseen : d.isSeen slot = true := by
        rw [Context.isSeen_of_trackers htrackers, c.isSeen_markSeen htrack]
      have hless := countP_not_isSeen_lt hgrow hslot hunseen hseen
      exact ih (hgrow.tracking.trans htrack) (hloaded ▸ hglobals)
        (hcollected.addText henough htrack hslot htrackers) (by omega)
    | error hlevels =>
      rw [collect_of_error henough ha]
      exact .error hlevels

/-- **The texts of `uniques` differ, and of a flat rule none is left out**, whatever the grammar and the
draws. When `uniques` gives something, the rule exists, and what is given are different texts, no more than
have been asked for, with the separator in between. They are what a number of expansions of the rule have
given, made one after the other under a tracker of their own. The tracker is gone at the end, and if
registered modifiers leave the trackers as they found them then the same ones as before are active.

If the rule is flat, there are as many texts as have been asked for, or as many as there are different
ones. And something is given then, as long as there is a level left for the alternatives. -/
theorem uniques_distinct (g : Grammar σ) {args : List Argument} {name separator : String} {count : Nat}
    (hargs : Builtin.uniquesArgs args = .ok (name, count, separator)) (levels : Nat) (c : Context σ) :
    (∀ value c', Builtin.runUniques g (engineWith g (g.evaluate levels)) args c = .ok value c' →
      ∃ rule texts, g.rule? name = some rule ∧
        value = String.intercalate separator texts ∧ texts.Nodup ∧ texts.length ≤ count ∧
        (∃ answers d, Run.Repeats (attempts g levels name) c.pushTracker answers d ∧
          (∀ text, text ∈ texts ↔ some text ∈ answers) ∧ c' = d.popTracker) ∧
        (g.OverridesKeep Context.TrackersGrow → c.TrackersGrow c') ∧
        (g.Flat rule c → texts.length = min count (g.plainTexts rule).card)) ∧
    ∀ rule, g.rule? name = some rule → g.Flat rule c → levels ≠ 0 →
      ∃ value c', Builtin.runUniques g (engineWith g (g.evaluate levels)) args c = .ok value c' := by
  have hflat {rule : Rule} (hrule : g.rule? name = some rule) (h : g.Flat rule c) :
      FlatTexts g rule count levels (Builtin.collect (attempts g levels name) (Builtin.hasUnseen rule)
        count [] Builtin.maxUniqueTries c.pushTracker) :=
    collect_flat hrule h.plain rfl h.globals (.nil h.unseen)
      (Nat.le_trans List.countP_le_length h.few)
  constructor
  · intro value c' h
    obtain ⟨rule, texts, d, hrule, hcollect, rfl, rfl⟩ := runUniques_inv hargs h
    obtain ⟨answers, hrepeats, -, hnodup, hcount, hmem⟩ :=
      collect_repeats hcollect List.nodup_nil (Nat.zero_le _)
    refine ⟨rule, texts, hrule, rfl, hnodup, hcount, ⟨answers, d, hrepeats, by simpa using hmem, rfl⟩,
      fun hg => ?_, fun hrule' => ?_⟩
    · have hkeeps := Context.TrackersGrow.invariant.levelEngine_keeps hg levels
      exact (Context.TrackersGrow.invariant.runUniques_keeps g hkeeps args).of_ok h
    · have htexts := hflat hrule hrule'
      unfold attempts at htexts
      rw [hcollect] at htexts
      cases htexts with
      | texts hlength => exact hlength
  · intro rule hrule h hlevels
    have htexts := hflat hrule h
    generalize hcollect : Builtin.collect _ _ _ _ _ _ = result at htexts
    cases htexts with
    | texts => exact ⟨_, _, runUniques_of_collect hargs hrule hcollect⟩
    | error hzero => exact absurd hzero hlevels

/-- Colors, one of which comes twice and one never. -/
def colors : Grammar Scripted where
  rules := [("color", Rule.ofAlternatives [⟨0, 1⟩, ⟨1, 2⟩, ⟨2, 0⟩, ⟨3, 3⟩])]
  store := #["red", "blue", "green", "red"]

theorem colors_template (slot : Slot) : colors.template slot = .ok (match slot with
    | 0 | 3 => ⟨"red", "red", [], []⟩
    | 1 => ⟨"blue", "blue", [], []⟩
    | 2 => ⟨"green", "green", [], []⟩
    | _ => ⟨"", "", [], []⟩) := by
  match slot with
  | 0 | 1 | 2 | 3 | n + 4 => with_unfolding_all rfl

theorem colors_weightedSlots :
    (Rule.ofAlternatives [⟨0, 1⟩, ⟨1, 2⟩, ⟨2, 0⟩, ⟨3, 3⟩]).weightedSlots = [0, 1, 3] := by
  decide +kernel

/-- Five colors are asked for, and the two that there are are given. -/
theorem colors_uniques :
    Builtin.uniquesArgs [.text "color", .number 5, .text ", "] = .ok ("color", 5, ", ") ∧
    ∃ texts c', Builtin.runUniques colors (engineWith colors (colors.evaluate 20))
        [.text "color", .number 5, .text ", "] { source := .fixed 0, trackers := [[2]] } =
          .ok (String.intercalate ", " texts) c' ∧ texts.Nodup ∧ texts.length = 2 := by
  have hargs : Builtin.uniquesArgs [.text "color", .number 5, .text ", "] = .ok ("color", 5, ", ") := by
    decide +kernel
  have hrule : colors.rule? "color" = some (Rule.ofAlternatives [⟨0, 1⟩, ⟨1, 2⟩, ⟨2, 0⟩, ⟨3, 3⟩]) := rfl
  have hflat : colors.Flat (Rule.ofAlternatives [⟨0, 1⟩, ⟨1, 2⟩, ⟨2, 0⟩, ⟨3, 3⟩])
      { source := .fixed 0, trackers := [[2]] } := by
    refine ⟨fun slot _ => ⟨_, colors_template slot, ?_⟩, ?_, ?_, .inl rfl⟩
    · split <;> exact ⟨rfl, rfl⟩
    · rw [colors_weightedSlots]
      decide
    · rw [colors_weightedSlots]
      decide
  have htexts : (colors.plainTexts (Rule.ofAlternatives [⟨0, 1⟩, ⟨1, 2⟩, ⟨2, 0⟩, ⟨3, 3⟩])).card = 2 := by
    rw [Grammar.plainTexts, colors_weightedSlots]
    simp only [List.map_cons, List.map_nil, Grammar.plainText, colors_template]
    decide +kernel
  obtain ⟨hgives, hsucceeds⟩ := uniques_distinct colors hargs 20
    { source := .fixed 0, trackers := [[2]] }
  obtain ⟨value, c', hvalue⟩ := hsucceeds _ hrule hflat (by decide)
  obtain ⟨rule, texts, hrule', rfl, hnodup, -, -, -, hlength⟩ := hgives value c' hvalue
  cases hrule.symm.trans hrule'
  rw [htexts] at hlength
  exact ⟨hargs, texts, c', hvalue, hnodup, hlength hflat⟩

end Fabula
