import Fabula.Proofs.Progress

/-!
# Fabula.Proofs.Correspondence

**Corresponding runs.** Two runs of the interpreter, over different grammars or different sources of
randomness, are compared step by step. A `Correspondence` says what is allowed to differ between them:

* the sources, as long as they give the same draws;
* the places that alternatives have in the store, as long as each place of the one run stands for one
  place of the other;
* what becomes of the second run after the first one has failed with an error that is *excused*.

Everything else in the contexts is the same (`Correspondence.Contexts`), and runs correspond when they
give the same value, or the same error, and leave corresponding contexts behind
(`Correspondence.Runs`). The depth at which a run stands is part of the comparison, so that a step may
be known to be taken at one depth only.
-/

namespace Fabula

variable {σ τ α β : Type}

/-- What can be looked at in a context: everything but the source. -/
abbrev View := Context Unit

/-- A context without its source. -/
def Context.view (c : Context σ) : View :=
  ⟨(), c.depth, c.scopes, c.trackers, c.produced, c.globalsLoaded⟩

/-- There is nothing more to a context than its source and what can be looked at. -/
theorem Context.eq_of_view {c d : Context σ} (hsource : c.source = d.source)
    (hview : c.view = d.view) : c = d := by
  cases c
  cases d
  cases hsource
  cases hview
  rfl

/-- What may differ between two runs, the first with sources of type `σ` and the second of type `τ`. -/
structure Correspondence (σ τ : Type) where
  /-- The sources correspond, while these trackers are active and these texts have been produced in the
  first run. -/
  source : List Tracker → Std.HashSet (String × String) → σ → τ → Prop
  /-- The places stand for the same alternative. -/
  slot : Slot → Slot → Prop
  /-- When the first run fails with this error, nothing is asked of the second. -/
  excused : ExpandError → Prop

namespace Correspondence

/-- The contexts correspond, both at this depth. -/
structure Contexts (K : Correspondence σ τ) (depth : Nat) (c : Context σ) (d : Context τ) : Prop where
  /-- Their sources correspond. -/
  source : K.source c.trackers c.produced c.source d.source
  /-- The first is at this depth. -/
  depth_left : c.depth = depth
  /-- So is the second. -/
  depth_right : d.depth = depth
  /-- The scopes are the same, with all their names. -/
  scopes : d.scopes = c.scopes
  /-- The same alternatives have been seen. -/
  trackers : List.Forall₂ (List.Forall₂ K.slot) c.trackers d.trackers
  /-- The same texts have been produced. -/
  produced : d.produced = c.produced
  /-- The globals are loaded in both or in neither. -/
  globalsLoaded : d.globalsLoaded = c.globalsLoaded

/-- The results correspond, with contexts at this depth. -/
inductive Results (K : Correspondence σ τ) (depth : Nat) :
    EStateM.Result ExpandError (Context σ) α → EStateM.Result ExpandError (Context τ) α → Prop
  /-- Both give the same value. -/
  | ok (a : α) {c d} (h : K.Contexts depth c d) : Results K depth (.ok a c) (.ok a d)
  /-- Both fail with the same error. -/
  | error (e : ExpandError) {c d} (h : K.Contexts depth c d) :
    Results K depth (.error e c) (.error e d)
  /-- The first one fails with an error that is excused. -/
  | excused {e : ExpandError} {c r} (h : K.excused e) : Results K depth (.error e c) r

/-- The actions do the same in corresponding contexts at this depth, and stay at it. -/
def Runs (K : Correspondence σ τ) (depth : Nat) (act : Run σ α) (act' : Run τ α) : Prop :=
  ∀ c d, K.Contexts depth c d → K.Results depth (act c) (act' d)

/-- The engines do the same at this depth. -/
structure Engines (K : Correspondence σ τ) (depth : Nat) (engine : Engine σ) (engine' : Engine τ) :
    Prop where
  /-- They expand templates alike. -/
  template : ∀ t, K.Runs depth (engine.expandTemplate t) (engine'.expandTemplate t)
  /-- They expand rules alike. -/
  rule : ∀ name, K.Runs depth (engine.expandRule name) (engine'.expandRule name)

/-- The modifiers do the same if the engines that they are given do. -/
def Overrides (K : Correspondence σ τ) (f : Override σ) (f' : Override τ) : Prop :=
  ∀ depth engine engine', K.Engines depth engine engine' → ∀ value args,
    K.Runs depth (f engine value args) (f' engine' value args)

/-- Corresponding sources give the same draw, and correspond after it. -/
def Draws (K : Correspondence σ τ) (f : σ → α × σ) (f' : τ → α × τ) : Prop :=
  ∀ ⦃trackers produced s t⦄, K.source trackers produced s t →
    (f s).1 = (f' t).1 ∧ K.source trackers produced (f s).2 (f' t).2

/-- What is needed to carry a correspondence through an expansion. -/
structure Lawful [RandomSource σ] [RandomSource τ] (K : Correspondence σ τ) : Prop where
  /-- No place stands for two others, either way. -/
  unique : Relator.BiUnique K.slot
  /-- Floats are drawn alike. -/
  next : K.Draws RandomSource.next RandomSource.next
  /-- Integers are drawn alike. -/
  between : ∀ a b, K.Draws (RandomSource.between a b) (RandomSource.between a b)
  /-- Indices are drawn alike. -/
  index : ∀ size, K.Draws (RandomSource.index size) (RandomSource.index size)
  /-- The sources still correspond when a text has been produced. -/
  produce : ∀ ⦃trackers produced s t⦄, K.source trackers produced s t →
    ∀ e, K.source trackers (produced.insert e) s t

/-- Trackers have no part in the correspondence of sources. -/
def Trackless (K : Correspondence σ τ) : Prop :=
  ∀ {trackers produced s t}, K.source trackers produced s t →
    ∀ trackers', K.source trackers' produced s t

variable {K : Correspondence σ τ} {depth : Nat}

/-! ### The same source, the same places -/

section Same

variable {K : Correspondence σ σ} (hsource : ∀ trackers produced, K.source trackers produced = Eq)
include hsource

theorem trackless_of_eq : K.Trackless := by
  intro trackers produced s t h trackers'
  rwa [hsource] at h ⊢

theorem draws_of_eq (f : σ → α × σ) : K.Draws f f := by
  intro trackers produced s t h
  rw [hsource] at h ⊢
  subst h
  exact ⟨rfl, rfl⟩

/-- Runs from the same source take the same draws. -/
theorem lawful_of_eq [RandomSource σ] (hunique : Relator.BiUnique K.slot) : K.Lawful where
  unique := hunique
  next := draws_of_eq hsource _
  between _ _ := draws_of_eq hsource _
  index _ := draws_of_eq hsource _
  produce trackers produced s t h e := by rwa [hsource] at h ⊢

end Same

theorem biUnique_eq : Relator.BiUnique (Eq : Slot → Slot → Prop) :=
  ⟨fun _ _ _ h h' => h.trans h'.symm, fun _ _ _ h h' => h.symm.trans h'⟩

theorem trackers_refl (hrefl : ∀ slot, K.slot slot slot) (trackers : List Tracker) :
    List.Forall₂ (List.Forall₂ K.slot) trackers trackers :=
  List.forall₂_same.mpr fun _ _ => List.forall₂_same.mpr fun slot _ => hrefl slot

/-! ### Plain steps -/

section Steps

variable {act : Run σ α} {act' : Run τ α}

theorem pure_runs (a : α) : K.Runs depth (pure a) (pure a) := fun _ _ h => .ok a h

theorem throw_runs (e : ExpandError) : K.Runs depth (throw e : Run σ α) (throw e) :=
  fun _ _ h => .error e h

theorem ofExcept_runs (e : Except ExpandError α) :
    K.Runs depth (Run.ofExcept e) (Run.ofExcept e) := by
  cases e with
  | ok a => exact pure_runs a
  | error e => exact throw_runs e

theorem ofParsed_runs (e : Except SyntaxError α) :
    K.Runs depth (Run.ofParsed e) (Run.ofParsed e) := by
  cases e with
  | ok a => exact pure_runs a
  | error e => exact throw_runs (.template e)

theorem Runs.bind {f : α → Run σ β} {f' : α → Run τ β} (h : K.Runs depth act act')
    (hf : ∀ a, K.Runs depth (f a) (f' a)) : K.Runs depth (act >>= f) (act' >>= f') := by
  intro c d hcd
  rw [Run.bind_apply, Run.bind_apply]
  have hr := h c d hcd
  generalize act c = r, act' d = r' at hr
  cases hr with
  | ok a h => exact hf a _ _ h
  | error e h => exact .error e h
  | excused h => exact .excused h

theorem Runs.map (f : α → β) (h : K.Runs depth act act') : K.Runs depth (f <$> act) (f <$> act') := by
  intro c d hcd
  rw [Run.map_apply, Run.map_apply]
  have hr := h c d hcd
  generalize act c = r, act' d = r' at hr
  cases hr with
  | ok a h => exact .ok (f a) h
  | error e h => exact .error e h
  | excused h => exact .excused h

/-- What follows a look at the context is compared in corresponding contexts. -/
theorem get_runs {f : Context σ → Run σ α} {f' : Context τ → Run τ α}
    (h : ∀ c d, K.Contexts depth c d → K.Results depth (f c c) (f' d d)) :
    K.Runs depth (get >>= f) (get >>= f') := h

/-- The context is changed in the same way in both runs. -/
theorem modify_runs {f : Context σ → Context σ} {f' : Context τ → Context τ}
    (h : ∀ c d, K.Contexts depth c d → K.Contexts depth (f c) (f' d)) :
    K.Runs depth (modify f) (modify f') := fun c d hcd => .ok () (h c d hcd)

/-- What is opened for an action and closed after it may lead to another depth. -/
theorem Results.within {inner : Nat} {enter leave : Context σ → Context σ}
    {enter' leave' : Context τ → Context τ} {c : Context σ} {d : Context τ}
    (h : K.Results inner (act (enter c)) (act' (enter' d)))
    (leaves : ∀ c d, K.Contexts inner c d → K.Contexts depth (leave c) (leave' d)) :
    K.Results depth (Run.within enter leave act c) (Run.within enter' leave' act' d) := by
  unfold Run.within
  generalize act (enter c) = r, act' (enter' d) = r' at h
  cases h with
  | ok a h => exact .ok a (leaves _ _ h)
  | error e h => exact .error e (leaves _ _ h)
  | excused h => exact .excused h

theorem Runs.within {inner : Nat} {enter leave : Context σ → Context σ}
    {enter' leave' : Context τ → Context τ} (h : K.Runs inner act act')
    (enters : ∀ c d, K.Contexts depth c d → K.Contexts inner (enter c) (enter' d))
    (leaves : ∀ c d, K.Contexts inner c d → K.Contexts depth (leave c) (leave' d)) :
    K.Runs depth (Run.within enter leave act) (Run.within enter' leave' act') :=
  fun c d hcd => Results.within (h _ _ (enters c d hcd)) leaves

theorem Draws.runs {f : σ → α × σ} {f' : τ → α × τ} (h : K.Draws f f') :
    K.Runs depth (Run.draw f) (Run.draw f') := by
  intro c d hcd
  obtain ⟨hvalue, hsource⟩ := h hcd.source
  show K.Results depth (.ok (f c.source).1 { c with source := (f c.source).2 })
    (.ok (f' d.source).1 { d with source := (f' d.source).2 })
  rw [← hvalue]
  exact .ok _ { hcd with source := hsource }

end Steps

/-- Where nothing is excused, corresponding results leave corresponding contexts behind. -/
theorem Results.after {act : Run σ α} {act' : Run τ α} {c : Context σ} {d : Context τ}
    (hexcused : ∀ e, ¬ K.excused e) (h : K.Results depth (act c) (act' d)) :
    K.Contexts depth (act.after c) (act'.after d) := by
  unfold Run.after
  generalize act c = r, act' d = r' at h
  cases h with
  | ok a h => exact h
  | error e h => exact h
  | excused h => exact (hexcused _ h).elim

/-! ### Opening and closing -/

namespace Contexts

variable {c : Context σ} {d : Context τ} (h : K.Contexts depth c d)
include h

theorem lookup_eq (name : String) : d.lookup name = c.lookup name := by
  unfold Context.lookup
  rw [h.scopes]

theorem tracking_eq : d.tracking = c.tracking := by
  have htrackers := h.trackers
  unfold Context.tracking
  generalize c.trackers = left, d.trackers = right at htrackers
  cases htrackers <;> rfl

theorem assign (name value : String) :
    K.Contexts depth (c.assign name value) (d.assign name value) := by
  unfold Context.assign
  rw [h.scopes]
  cases c.scopes with
  | nil => exact h
  | cons scope outer => exact { h with scopes := rfl }

theorem enterTemplate : K.Contexts (depth + 1) c.enterTemplate d.enterTemplate :=
  { h with
    depth_left := congrArg (· + 1) h.depth_left
    depth_right := congrArg (· + 1) h.depth_right
    scopes := congrArg ([] :: ·) h.scopes }

theorem enterGlobals : K.Contexts depth c.enterGlobals d.enterGlobals :=
  { h with
    scopes := congrArg ([] :: ·) h.scopes
    globalsLoaded := rfl }

theorem leaveGlobals : K.Contexts depth c.leaveGlobals d.leaveGlobals :=
  { h with
    scopes := congrArg List.tail h.scopes
    globalsLoaded := rfl }

theorem pushTracker (hK : K.Trackless) : K.Contexts depth c.pushTracker d.pushTracker :=
  { h with
    source := hK h.source _
    trackers := .cons .nil h.trackers }

theorem popTracker (hK : K.Trackless) : K.Contexts depth c.popTracker d.popTracker := by
  have htrackers := h.trackers
  refine { h with source := hK h.source _, trackers := ?_ }
  unfold Context.popTracker
  dsimp only
  generalize c.trackers = left, d.trackers = right at htrackers
  cases htrackers with
  | nil => exact .nil
  | cons _ hrest => exact hrest

end Contexts

/-- When every place stands for itself alone, the trackers are the same. -/
theorem Contexts.trackers_eq {c : Context σ} {d : Context τ} (hslot : K.slot = Eq)
    (h : K.Contexts depth c d) : d.trackers = c.trackers := by
  have htrackers := h.trackers
  rw [hslot, List.forall₂_eq_eq_eq, List.forall₂_eq_eq_eq] at htrackers
  exact htrackers.symm

/-- Nor is there anything else to tell the contexts apart, but the sources. -/
theorem Contexts.view_eq {c : Context σ} {d : Context τ} (hslot : K.slot = Eq)
    (h : K.Contexts depth c d) : c.view = d.view := by
  unfold Context.view
  rw [h.depth_left, h.depth_right, h.scopes, h.trackers_eq hslot, h.produced, h.globalsLoaded]

theorem Contexts.leaveTemplate {c : Context σ} {d : Context τ} (h : K.Contexts (depth + 1) c d) :
    K.Contexts depth c.leaveTemplate d.leaveTemplate :=
  { h with
    depth_left := congrArg (· - 1) h.depth_left
    depth_right := congrArg (· - 1) h.depth_right
    scopes := congrArg List.tail h.scopes }

/-! ### Alternatives that have been seen -/

section Seen

variable (hunique : Relator.BiUnique K.slot) {c : Context σ} {d : Context τ} {slot slot' : Slot}
include hunique

theorem contains_slot {tracker tracker' : Tracker} (h : List.Forall₂ K.slot tracker tracker')
    (hslot : K.slot slot slot') : tracker'.contains slot' = tracker.contains slot := by
  rw [Bool.eq_iff_iff, List.contains_iff_mem, List.contains_iff_mem]
  exact (List.rel_mem hunique hslot h).symm

theorem insert_slot {tracker tracker' : Tracker} (h : List.Forall₂ K.slot tracker tracker')
    (hslot : K.slot slot slot') :
    List.Forall₂ K.slot (tracker.insert slot) (tracker'.insert slot') := by
  by_cases hmem : slot ∈ tracker
  · have hmem' : slot' ∈ tracker' := (List.rel_mem hunique hslot h).mp hmem
    rw [List.insert_of_mem hmem, List.insert_of_mem hmem']
    exact h
  · have hmem' : slot' ∉ tracker' := fun hm => hmem ((List.rel_mem hunique hslot h).mpr hm)
    rw [List.insert_of_not_mem hmem, List.insert_of_not_mem hmem']
    exact .cons hslot h

theorem Contexts.isSeen_eq (h : K.Contexts depth c d) (hslot : K.slot slot slot') :
    d.isSeen slot' = c.isSeen slot := by
  have htrackers := h.trackers
  unfold Context.isSeen
  generalize c.trackers = left, d.trackers = right at htrackers
  induction htrackers with
  | nil => rfl
  | cons htracker _ ih =>
    rw [List.any_cons, List.any_cons, ih, contains_slot hunique htracker hslot]

theorem Contexts.markSeen (hK : K.Trackless) (h : K.Contexts depth c d)
    (hslot : K.slot slot slot') :
    K.Contexts depth (c.markSeen slot) (d.markSeen slot') := by
  have hinsert := List.rel_map (fun _ _ htracker => insert_slot hunique htracker hslot) h.trackers
  exact { h with source := hK h.source _, trackers := hinsert }

end Seen

/-! ### Rules -/

/-- The alternatives stand for each other and have the same weight. -/
def Alternatives (K : Correspondence σ τ) (w w' : Weighted Slot Float) : Prop :=
  K.slot w.item w'.item ∧ w'.weight = w.weight

/-- The rules have corresponding alternatives in the same order, and the same total. -/
structure Rules (K : Correspondence σ τ) (r r' : Rule) : Prop where
  /-- The alternatives correspond one by one. -/
  alternatives : List.Forall₂ K.Alternatives r.alternatives r'.alternatives
  /-- The totals are the same. -/
  total : r'.total = r.total

theorem Rules.refl (hrefl : ∀ slot, K.slot slot slot) (r : Rule) : K.Rules r r :=
  ⟨List.forall₂_same.mpr fun w _ => ⟨hrefl w.item, rfl⟩, rfl⟩

theorem rules_refl (hrefl : ∀ slot, K.slot slot slot) (found : Option Rule) :
    Option.Rel K.Rules found found := by
  cases found with
  | none => exact .none
  | some r => exact .some (.refl hrefl r)

section Weights

variable {ws ws' : List (Weighted Slot Float)} (h : List.Forall₂ K.Alternatives ws ws')
include h

theorem sum_eq : Weighted.sum ws' = Weighted.sum ws := by
  have hadd : ∀ a a' : Float, a = a' → ∀ w w', K.Alternatives w w' →
      a + w.weight = a' + w'.weight := fun a a' ha w w' hw => by rw [ha, hw.2]
  exact (List.rel_foldl hadd rfl h).symm

theorem eligible_rel (allowed allowed' : Slot → Bool)
    (hallowed : ∀ slot slot', K.slot slot slot' → allowed' slot' = allowed slot) :
    List.Forall₂ K.Alternatives (Weighted.eligible allowed ws) (Weighted.eligible allowed' ws') := by
  refine List.rel_filter (fun w w' hw => ?_) h
  dsimp only
  rw [hw.2, hallowed _ _ hw.1]

theorem locate_rel (target reached : Float) {last last' : Option Slot}
    (hlast : Option.Rel K.slot last last') :
    Option.Rel K.slot (Weighted.locate target reached last ws)
      (Weighted.locate target reached last' ws') := by
  induction h generalizing reached last last' with
  | nil => exact hlast
  | cons hw _ ih =>
    unfold Weighted.locate
    rw [hw.2]
    split
    · exact .some hw.1
    · exact ih _ (.some hw.1)

theorem choose_rel [RandomSource σ] [RandomSource τ] (hK : K.Lawful) (total : Float)
    {trackers : List Tracker} {produced : Std.HashSet (String × String)} {s : σ} {t : τ}
    (hs : K.source trackers produced s t) :
    Option.Rel K.slot (Weighted.choose RandomSource.next total ws s).1
      (Weighted.choose RandomSource.next total ws' t).1 ∧
    K.source trackers produced (Weighted.choose RandomSource.next total ws s).2
      (Weighted.choose RandomSource.next total ws' t).2 := by
  obtain ⟨hdraw, hnext⟩ := hK.next hs
  unfold Weighted.choose
  split
  · exact ⟨.none, hs⟩
  · dsimp only
    rw [hdraw]
    exact ⟨locate_rel h _ _ .none, hnext⟩

end Weights

section Picks

variable [RandomSource σ] [RandomSource τ] (hK : K.Lawful) {r r' : Rule} {c : Context σ}
variable {d : Context τ}
include hK

theorem hasUnseen_eq (hr : K.Rules r r') (h : K.Contexts depth c d) :
    Builtin.hasUnseen r' d = Builtin.hasUnseen r c := by
  have halternatives := hr.alternatives
  unfold Builtin.hasUnseen
  generalize r.alternatives = ws, r'.alternatives = ws' at halternatives
  induction halternatives with
  | nil => rfl
  | cons hw _ ih => rw [List.any_cons, List.any_cons, ih, hw.2, h.isSeen_eq hK.unique hw.1]

/-- Alternatives that stand for each other are picked, or none. -/
theorem pick_rel (hr : K.Rules r r') (h : K.Contexts depth c d) :
    Option.Rel K.slot (r.pick c.excluded c.source).1 (r'.pick d.excluded d.source).1 ∧
      K.Contexts depth (c.afterPick r) (d.afterPick r') := by
  suffices hpick : Option.Rel K.slot (r.pick c.excluded c.source).1 (r'.pick d.excluded d.source).1 ∧
      K.source c.trackers c.produced (r.pick c.excluded c.source).2
        (r'.pick d.excluded d.source).2 from
    ⟨hpick.1, { h with source := hpick.2 }⟩
  unfold Context.excluded
  rw [h.tracking_eq]
  cases c.tracking with
  | true =>
    have hremaining := eligible_rel hr.alternatives (fun slot => !c.isSeen slot)
      (fun slot => !d.isSeen slot) fun slot slot' hslot => by rw [h.isSeen_eq hK.unique hslot]
    rw [if_pos rfl, if_pos rfl]
    unfold Rule.pick Weighted.pick
    dsimp only
    rw [sum_eq hremaining]
    exact choose_rel hremaining hK _ h.source
  | false =>
    have hall := eligible_rel hr.alternatives (fun _ => true) (fun _ => true) fun _ _ _ => rfl
    rw [if_neg Bool.false_ne_true, if_neg Bool.false_ne_true]
    unfold Rule.pick Weighted.pick
    dsimp only
    rw [hr.total]
    exact choose_rel hall hK r.total h.source

end Picks

/-! ### Draws -/

section Sources

variable [RandomSource σ] [RandomSource τ] (hK : K.Lawful)
include hK

theorem throwFrom_draws (sides : Nat) (total : Int) (count : Nat) :
    K.Draws (Dice.throwFrom sides total count) (Dice.throwFrom sides total count) := by
  induction count generalizing total with
  | zero => exact fun _ _ _ _ hs => ⟨rfl, hs⟩
  | succ count ih =>
    intro trackers produced s t hs
    obtain ⟨hdraw, hnext⟩ := hK.between 1 sides hs
    unfold Dice.throwFrom
    dsimp only
    rw [hdraw]
    exact ih _ hnext

theorem extend_draws (m : Markov.Model) (context words : List String) (characters draws : Nat) :
    K.Draws (m.extend context words characters draws) (m.extend context words characters draws) := by
  induction draws generalizing context words characters with
  | zero => exact fun _ _ _ _ hs => ⟨rfl, hs⟩
  | succ draws ih =>
    intro trackers produced s t hs
    unfold Markov.Model.extend
    cases (m.transitions.get? (Markov.key context)).getD [] with
    | nil => exact ⟨rfl, hs⟩
    | cons candidate candidates =>
      obtain ⟨hdraw, hnext⟩ := hK.index (candidates.length + 1) hs
      dsimp only
      rw [hdraw]
      split
      · exact ⟨rfl, hnext⟩
      · split
        · exact ⟨rfl, hnext⟩
        · exact ih _ _ _ hnext

theorem generate_draws (m : Markov.Model) : K.Draws m.generate m.generate := by
  intro trackers produced s t hs
  unfold Markov.Model.generate
  split
  · exact ⟨rfl, hs⟩
  · exact extend_draws hK m _ _ _ _ hs

theorem generate_runs (m : Markov.Model) : K.Runs depth (Run.generate m) (Run.generate m) := by
  intro c d hcd
  obtain ⟨hvalue, hsource⟩ := generate_draws hK m hcd.source
  unfold Run.generate
  rcases hs : m.generate c.source with ⟨found, s⟩
  rcases ht : m.generate d.source with ⟨found', t⟩
  rw [hs, ht] at hvalue hsource
  dsimp only at hvalue hsource
  subst hvalue
  cases found with
  | ok text => exact .ok text { hcd with source := hsource }
  | error e => exact .error (.markov e) { hcd with source := hsource }

theorem resolveMarkov_runs (name : String) (m : Markov.Model) (tries : Nat) :
    K.Runs depth (resolveMarkov name m tries) (resolveMarkov name m tries) := by
  induction tries with
  | zero => exact pure_runs ""
  | succ tries ih =>
    refine (generate_runs hK m).bind fun text => ?_
    cases text with
    | none => exact ih
    | some text =>
      refine get_runs fun c d hcd => ?_
      rw [hcd.produced]
      split
      · -- the text is entered in both records
        refine .ok text { hcd with source := hK.produce hcd.source _, produced := ?_ }
        exact congrArg (·.insert (name, text)) hcd.produced
      · exact ih c d hcd

end Sources

end Correspondence

end Fabula
