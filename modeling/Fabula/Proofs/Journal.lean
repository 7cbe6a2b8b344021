import Fabula.Proofs.Progress

/-!
# Fabula.Proofs.Journal

**Journals of what has been seen.** All that happens to trackers in the course of expansions is a list
of events: trackers are activated and deactivated, alternatives are picked, give a text or run out, and
are entered in every tracker that is active then. Replaying the events gives the trackers at every
moment (`replay`).

A journal is *lawful* if no alternative is picked while an active tracker has it. From that it follows,
by reasoning about the list alone, that what has been seen stays out of reach until the last of the
trackers that have it is deactivated (`StaysOut`), and that an alternative which is entered every time
it gives a text gives it once under each tracker (`GivenOnce`).
-/

namespace Fabula

/-- What happens to trackers, or under them. -/
inductive Event
  /-- A tracker is activated. -/
  | push
  /-- The latest tracker is deactivated. -/
  | pop
  /-- An alternative is picked and entered. -/
  | pick (slot : Slot)
  /-- An alternative gives a text. It counts as seen then, unless it is live. -/
  | give (slot : Slot) (live : Bool)
  /-- An alternative has nothing new to say, and counts as seen. -/
  | exhaust (slot : Slot)

namespace Event

/-- What becomes of the trackers. -/
def act (trackers : List Tracker) : Event → List Tracker
  | push => [] :: trackers
  | pop => trackers.tail
  | pick _ => trackers
  | give slot live => if live then trackers else trackers.map (·.insert slot)
  | exhaust slot => trackers.map (·.insert slot)

/-- The alternative in `slot` is entered in every active tracker. -/
def Records (slot : Slot) : Event → Prop
  | give s live => s = slot ∧ live = false
  | exhaust s => s = slot
  | _ => False

/-- The alternative in `slot` gives a text. -/
def gives (slot : Slot) : Event → Bool
  | give s _ => s == slot
  | _ => false

end Event

/-- No active tracker has the alternative in `slot`. -/
def Unseen (trackers : List Tracker) (slot : Slot) : Prop := ∀ tracker ∈ trackers, slot ∉ tracker

/-- While these trackers are active the alternative in `slot` is picked from no rule, whatever the
draw. -/
def OutOfReach (trackers : List Tracker) (slot : Slot) : Prop :=
  ∀ (τ : Type) [RandomSource τ] (r : Rule) (c c' : Context τ), c.trackers = trackers →
    Run.pick r c ≠ .ok (some slot) c'

theorem not_isSeen_iff {σ : Type} {c : Context σ} {slot : Slot} :
    c.isSeen slot = false ↔ Unseen c.trackers slot := by
  simp [Context.isSeen, Unseen]

/-- When nothing is tracked, there is no tracker to have seen anything. -/
theorem unseen_of_tracking {σ : Type} {c : Context σ} {slot : Slot}
    (h : c.tracking = true → c.isSeen slot = false) : Unseen c.trackers slot := by
  cases htrack : c.tracking with
  | true => exact not_isSeen_iff.mp (h htrack)
  | false =>
    have hnone : c.trackers = [] := by simpa [Context.tracking] using htrack
    rw [hnone]
    exact fun _ htracker => by cases htracker

/-- What an active tracker has is out of reach. -/
theorem outOfReach_of_mem {trackers : List Tracker} {tracker : Tracker} {slot : Slot}
    (htracker : tracker ∈ trackers) (hslot : slot ∈ tracker) : OutOfReach trackers slot := by
  intro τ _ r c c' hc hpick
  subst hc
  have htrack : c.tracking = true := by
    unfold Context.tracking
    cases htrackers : c.trackers with
    | nil => rw [htrackers] at htracker; cases htracker
    | cons => rfl
  exact not_isSeen_iff.mp (pick_unseen htrack hpick) tracker htracker hslot

/-! ### Replaying -/

/-- The trackers after some events, when there were none before. -/
def replay (journal : List Event) : List Tracker := journal.foldl Event.act []

theorem replay_concat (journal : List Event) (e : Event) :
    replay (journal ++ [e]) = e.act (replay journal) := by
  simp [replay]

/-- The tracker at this height, counted from the oldest, has the alternative in `slot`. -/
def HasAt (trackers : List Tracker) (height : Nat) (slot : Slot) : Prop :=
  ∃ later tracker older, trackers = later ++ tracker :: older ∧ older.length = height ∧ slot ∈ tracker

theorem HasAt.outOfReach {trackers : List Tracker} {height : Nat} {slot : Slot}
    (h : HasAt trackers height slot) : OutOfReach trackers slot := by
  obtain ⟨later, tracker, older, rfl, -, hslot⟩ := h
  exact outOfReach_of_mem (by simp) hslot

/-- Trackers only gain alternatives, so what one of them has stays in it as long as it is there. -/
theorem HasAt.act {trackers : List Tracker} {height : Nat} {slot : Slot}
    (h : HasAt trackers height slot) (e : Event) (hopen : height < (e.act trackers).length) :
    HasAt (e.act trackers) height slot := by
  obtain ⟨later, tracker, older, rfl, rfl, hslot⟩ := h
  have hmark (s : Slot) :
      HasAt ((later ++ tracker :: older).map (·.insert s)) older.length slot :=
    ⟨later.map (·.insert s), tracker.insert s, older.map (·.insert s), by simp, by simp,
      List.mem_insert_of_mem hslot⟩
  cases e with
  | push => exact ⟨[] :: later, tracker, older, rfl, rfl, hslot⟩
  | pop =>
    cases later with
    | nil => simp [Event.act] at hopen
    | cons _ later => exact ⟨later, tracker, older, rfl, rfl, hslot⟩
  | pick => exact ⟨later, tracker, older, rfl, rfl, hslot⟩
  | give s live =>
    cases live with
    | true => exact ⟨later, tracker, older, rfl, rfl, hslot⟩
    | false => exact hmark s
  | exhaust s => exact hmark s

/-- What is entered is in every tracker that is active. -/
theorem Event.Records.hasAt {trackers : List Tracker} {e : Event} {slot : Slot} {height : Nat}
    (h : e.Records slot) (hheight : height < trackers.length) :
    HasAt (e.act trackers) height slot := by
  obtain ⟨later, tracker, older, rfl, rfl⟩ : ∃ later tracker older,
      trackers = later ++ tracker :: older ∧ older.length = height :=
    ⟨trackers.take (trackers.length - 1 - height), trackers[trackers.length - 1 - height],
      trackers.drop (trackers.length - 1 - height + 1), by simp, by simp; omega⟩
  have hmark : HasAt ((later ++ tracker :: older).map (·.insert slot)) older.length slot :=
    ⟨later.map (·.insert slot), tracker.insert slot, older.map (·.insert slot), by simp, by simp,
      List.mem_insert_self⟩
  cases e with
  | give s live =>
    obtain ⟨rfl, rfl⟩ := h
    exact hmark
  | exhaust s =>
    cases h
    exact hmark
  | _ => exact h.elim

/-- The tracker at this height stays active while these events happen. -/
def StaysActive (before : List Event) (height : Nat) (period : List Event) : Prop :=
  ∀ first rest, period = first ++ rest → height < (replay (before ++ first)).length

theorem StaysActive.tail {before : List Event} {height : Nat} {e : Event} {period : List Event}
    (h : StaysActive before height (e :: period)) : StaysActive (before ++ [e]) height period := by
  intro first rest hsplit
  have := h (e :: first) rest (by rw [hsplit]; rfl)
  simpa using this

theorem HasAt.replay {before period : List Event} {height : Nat} {slot : Slot}
    (h : HasAt (replay before) height slot) (hactive : StaysActive before height period) :
    HasAt (Fabula.replay (before ++ period)) height slot := by
  induction period generalizing before with
  | nil => simpa using h
  | cons e period ih =>
    have hnext : HasAt (Fabula.replay (before ++ [e])) height slot := by
      have hlength := hactive [e] period rfl
      rw [replay_concat] at hlength ⊢
      exact h.act e hlength
    simpa using ih hnext hactive.tail

/-- A property of the elements of a list, each with those before it, is one of a longer list if the
last element has it. -/
theorem forall_split_concat {α : Type} {P : List α → α → Prop} {l : List α} {a : α}
    (h : ∀ before b after, l = before ++ b :: after → P before b) (ha : P l a) :
    ∀ before b after, l ++ [a] = before ++ b :: after → P before b := by
  intro before b after hsplit
  rcases List.eq_nil_or_concat after with rfl | ⟨after, last, rfl⟩
  · obtain ⟨rfl, hlast⟩ := List.append_inj' hsplit rfl
    cases hlast
    exact ha
  · have hsplit' : l ++ [a] = (before ++ b :: after) ++ [last] := by simpa using hsplit
    obtain ⟨hl, -⟩ := List.append_inj' hsplit' rfl
    exact h before b after hl

/-- An event with the trackers that were active when it happened. -/
structure Entry where
  /-- What happened. -/
  event : Event
  /-- The trackers before it. -/
  trackers : List Tracker

/-- The trackers that were active when an event happened are those that the events before it give. -/
def Faithful (entries : List Entry) : Prop :=
  ∀ before entry after, entries = before ++ entry :: after →
    entry.trackers = replay (before.map Entry.event)

/-! ### Lawful journals -/

/-- The event may happen while these trackers are active: only what is unseen is picked, and an
alternative that is `plain` gives its text only then, and is entered. -/
def Event.Allowed (plain : Slot → Prop) (trackers : List Tracker) : Event → Prop
  | pick slot => Unseen trackers slot
  | give slot live => plain slot → Unseen trackers slot ∧ live = false
  | _ => True

/-- Every event was allowed when it happened. -/
def Lawful (plain : Slot → Prop) (journal : List Event) : Prop :=
  ∀ before e after, journal = before ++ e :: after → e.Allowed plain (replay before)

section Lawful

variable {plain : Slot → Prop} {journal : List Event}

theorem lawful_nil : Lawful plain [] := by
  intro before e after h
  simp at h

theorem Lawful.concat (h : Lawful plain journal) {e : Event}
    (he : e.Allowed plain (replay journal)) : Lawful plain (journal ++ [e]) :=
  forall_split_concat (P := fun before (e : Event) => e.Allowed plain (replay before)) h he

end Lawful

/-! ### What follows for the course of events -/

/-- At each pick no active tracker has the alternative that is picked. -/
def PicksUnseen (journal : List Event) : Prop :=
  ∀ before slot after, journal = before ++ .pick slot :: after → Unseen (replay before) slot

/-- What is entered while trackers are active stays out of reach as long as one of them is active. -/
def StaysOut (journal : List Event) : Prop :=
  ∀ before e period after slot height, journal = before ++ e :: (period ++ after) →
    e.Records slot → height < (replay before).length →
    StaysActive (before ++ [e]) height period → OutOfReach (replay (before ++ e :: period)) slot

/-- As long as a tracker is active, a plain alternative gives its text once at most. -/
def GivenOnce (plain : Slot → Prop) (journal : List Event) : Prop :=
  ∀ before period after slot, plain slot → journal = before ++ .push :: (period ++ after) →
    StaysActive (before ++ [.push]) (replay before).length period → period.countP (·.gives slot) ≤ 1

/-- A property holds of one element at most if no two hold it one after the other. -/
theorem countP_le_one {α : Type} {p : α → Bool} {l : List α}
    (h : ∀ before a after, l = before ++ a :: after → p a = true → ∀ b ∈ after, ¬ p b = true) :
    l.countP p ≤ 1 := by
  induction l with
  | nil => simp
  | cons a l ih =>
    by_cases ha : p a = true
    · have hnone : l.countP p = 0 := List.countP_eq_zero.mpr (h [] a l rfl ha)
      rw [List.countP_cons_of_pos ha, hnone]
    · rw [List.countP_cons_of_neg ha]
      exact ih fun before b after hsplit => h (a :: before) b after (by rw [hsplit]; rfl)

theorem staysOut (journal : List Event) : StaysOut journal := by
  intro before e period after slot height _ hrecords hheight hactive
  have hhas : HasAt (replay (before ++ [e])) height slot := by
    rw [replay_concat]
    exact hrecords.hasAt hheight
  simpa using (hhas.replay hactive).outOfReach

theorem Lawful.picksUnseen {plain : Slot → Prop} {journal : List Event} (h : Lawful plain journal) :
    PicksUnseen journal := fun before slot after hsplit => h before (.pick slot) after hsplit

theorem Lawful.givenOnce {plain : Slot → Prop} {journal : List Event} (h : Lawful plain journal) :
    GivenOnce plain journal := by
  intro before period after slot hplain hsplit hactive
  refine countP_le_one fun first e rest hperiod hgives e' he' hgives' => ?_
  obtain ⟨middle, last, rfl⟩ := List.append_of_mem he'
  subst hperiod
  -- at the first of the two texts the alternative is entered in the tracker that was activated
  have hallowed := h (before ++ .push :: first) e (middle ++ e' :: last ++ after) (by simp [hsplit])
  have hrecords : e.Records slot := by
    cases e <;> simp only [Event.gives, Bool.false_eq_true, beq_iff_eq] at hgives
    subst hgives
    exact ⟨rfl, (hallowed hplain).2⟩
  have hheight := hactive first (e :: (middle ++ e' :: last)) rfl
  have hhas : HasAt (replay (before ++ .push :: first ++ [e])) (replay before).length slot := by
    rw [replay_concat]
    exact hrecords.hasAt (by simpa using hheight)
  -- there it still is at the second one, which was allowed all the same
  have hlater : HasAt (replay (before ++ .push :: first ++ [e] ++ middle)) (replay before).length
      slot := by
    refine hhas.replay fun front back hmiddle => ?_
    have := hactive (first ++ e :: front) (back ++ e' :: last) (by simp [hmiddle])
    simpa using this
  have hallowed' := h (before ++ .push :: first ++ [e] ++ middle) e' (last ++ after)
    (by simp [hsplit])
  obtain ⟨above, tracker, older, htrackers, -, hslot⟩ := hlater
  cases e' <;> simp only [Event.gives, Bool.false_eq_true, beq_iff_eq] at hgives'
  subst hgives'
  refine (hallowed' hplain).1 tracker ?_ hslot
  rw [htrackers]
  simp

end Fabula
