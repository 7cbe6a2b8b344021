import Mathlib
import Fabula.Proofs.Editing

/-!
# Fabula.Proofs.StoreGrowth

**How far the store grows when rules are replaced.** A rule that replaces another takes over its places,
and new ones are added only for what it has more than that one. Places that it does not need are given
up for good: a rule that loses alternatives and gets them back later gets new places for them.

So the store has one place for every alternative by which some rule has ever grown (`Grammar.rises`), not
one for each that it has had at most (`Grammar.largest`). The two are the same exactly when no rule grows
again after it has shrunk (`Grammar.NeverRegrown`, `store_growth`).

All calls come down to one thing, which is entering rules of distinct names
(`Grammar.Revision.enters`), and the store is counted name by name for that (`Grammar.size_enter`,
`Grammar.count_enter`).
-/

namespace Fabula

variable {σ : Type}

namespace Grammar

/-! ### Calls and what they leave -/

/-- A call that changes a grammar. -/
inductive Revision (σ : Type)
  /-- A call that says itself what it changes. -/
  | change (c : Change σ)
  /-- Another grammar is merged, its tables being listed in any order. -/
  | merge (other : Grammar σ) (h : other.Edited)

/-- Make the call. -/
def Revision.act : Revision σ → Edit σ Unit
  | .change c => c.act
  | .merge other _ => Edit.merge other

/-- The grammar after a history of calls, of which the last one stands first. -/
def revised : List (Revision σ) → Grammar σ
  | [] => {}
  | c :: earlier => c.act.after (revised earlier)

/-- How many alternatives are found under a name. -/
def count (g : Grammar σ) (name : String) : Nat := (g.released name).length

/-- The largest number of alternatives that a name has had. -/
def largest (name : String) : List (Revision σ) → Nat
  | [] => 0
  | c :: earlier => max ((revised (c :: earlier)).count name) (largest name earlier)

/-- By how many alternatives a name has grown, each time that it has, in all. -/
def rises (name : String) : List (Revision σ) → Nat
  | [] => 0
  | c :: earlier =>
    ((revised (c :: earlier)).count name - (revised earlier).count name) + rises name earlier

/-- Whenever a name got more alternatives than it had, it had as many as ever before. -/
def NeverRegrown (name : String) : List (Revision σ) → Prop
  | [] => True
  | c :: earlier =>
    ((revised earlier).count name < (revised (c :: earlier)).count name →
      (revised earlier).count name = largest name earlier) ∧ NeverRegrown name earlier

section Names

variable (name : String) (history : List (Revision σ))

theorem count_le_largest : (revised history).count name ≤ largest name history := by
  cases history with
  | nil => exact Nat.zero_le _
  | cons c earlier => exact Nat.le_max_left _ _

theorem largest_le_rises : largest name history ≤ rises name history := by
  induction history with
  | nil => exact Nat.le_refl 0
  | cons c earlier ih =>
    have hcount := count_le_largest name earlier
    unfold largest rises
    omega

/-- A name has grown by more than it has had at most if it has grown again after it had shrunk. -/
theorem rises_eq_largest_iff :
    rises name history = largest name history ↔ NeverRegrown name history := by
  induction history with
  | nil => exact iff_of_true rfl trivial
  | cons c earlier ih =>
    have hcount := count_le_largest name earlier
    have hrises := largest_le_rises name earlier
    unfold rises largest NeverRegrown
    rw [← ih]
    omega

end Names

/-! ### Entering rules -/

/-- Enter rules one after the other. -/
def enter (g : Grammar σ) (entries : Table (List (String × Float))) : Grammar σ :=
  entries.foldl (fun g e => g.putRule e.1 e.2) g

theorem length_place (store : Array String) (free : List Slot) (texts : List (String × Float)) :
    (place store free texts).2.length = texts.length := by
  induction texts generalizing store free with
  | nil => cases free <;> rfl
  | cons entry rest ih =>
    obtain ⟨text, weight⟩ := entry
    rw [Edit.place_cons, List.length_cons, List.length_cons, ih]

/-- Only what has no free place makes the store grow. -/
theorem size_place (store : Array String) (free : List Slot) (texts : List (String × Float)) :
    (place store free texts).1.size = store.size + (texts.length - free.length) := by
  induction texts generalizing store free with
  | nil => cases free <;> simp [place]
  | cons entry rest ih =>
    obtain ⟨text, weight⟩ := entry
    cases free with
    | nil =>
      rw [place, ih, Array.size_push, List.length_cons, List.length_nil]
      omega
    | cons slot free =>
      rw [place, ih, Array.size_setIfInBounds, List.length_cons, List.length_cons]
      omega

section Enter

variable (g : Grammar σ)

theorem count_putRule (name : String) (texts : List (String × Float)) (name' : String) :
    (g.putRule name texts).count name' =
      if name = name' then texts.length else g.count name' := by
  unfold count
  rw [released, putRule_rule?]
  split
  · simp [replacement, Rule.named, Rule.ofAlternatives, Rule.slots, length_place]
  · rfl

theorem size_putRule (name : String) (texts : List (String × Float)) :
    (g.putRule name texts).store.size = g.store.size + (texts.length - g.count name) :=
  size_place g.store (g.released name) texts

theorem count_enter (entries : Table (List (String × Float)))
    (hnames : entries.names.Nodup) (name : String) :
    (g.enter entries).count name = ((entries.get? name).map List.length).getD (g.count name) := by
  induction entries generalizing g with
  | nil => rfl
  | cons e entries ih =>
    obtain ⟨n, texts⟩ := e
    have ⟨hn, hnames⟩ := List.nodup_cons.mp hnames
    rw [enter, List.foldl_cons, ← enter, ih _ hnames, count_putRule, Table.get?_cons]
    by_cases h : n = name
    · subst h
      rw [if_pos rfl, if_pos rfl, Table.get?_eq_none hn]
      rfl
    · rw [if_neg h, if_neg h]

/-- Rules of distinct names make the store grow by what each has more than the one that it replaces. -/
theorem size_enter (entries : Table (List (String × Float))) (hnames : entries.names.Nodup) :
    (g.enter entries).store.size =
      g.store.size + (entries.map fun e => e.2.length - g.count e.1).sum := by
  induction entries generalizing g with
  | nil => rfl
  | cons e entries ih =>
    obtain ⟨n, texts⟩ := e
    have ⟨hn, hnames⟩ := List.nodup_cons.mp hnames
    -- the rules that follow have other names, so they find what was there before
    have hrest : (entries.map fun e => e.2.length - (g.putRule n texts).count e.1) =
        entries.map fun e => e.2.length - g.count e.1 := by
      refine List.map_congr_left fun e he => ?_
      rw [count_putRule, if_neg fun heq => hn (by rw [heq]; exact Table.mem_names_of_mem he)]
    rw [enter, List.foldl_cons, ← enter, ih _ hnames, size_putRule, hrest, List.map_cons,
      List.sum_cons]
    omega

theorem mem_names_enter (entries : Table (List (String × Float))) (name : String) :
    name ∈ (g.enter entries).rules.names ↔ name ∈ g.rules.names ∨ name ∈ entries.names := by
  induction entries generalizing g with
  | nil => simp [enter, Table.names]
  | cons e entries ih =>
    have hput : name ∈ (g.putRule e.1 e.2).rules.names ↔ name ∈ g.rules.names ∨ e.1 = name := by
      rw [Table.mem_names, Table.mem_names]
      exact Bool.eq_iff_iff.mp (Table.has_put ..) |>.trans (by simp [or_comm])
    rw [enter, List.foldl_cons, ← enter, ih, hput, or_assoc]
    simp [Table.names, eq_comm]

end Enter

/-- As far as rules and the store go, rules of distinct names have been entered. -/
def Enters (g g' : Grammar σ) : Prop :=
  ∃ entries : Table (List (String × Float)), entries.names.Nodup ∧
    g'.rules = (g.enter entries).rules ∧ g'.store = (g.enter entries).store

section Enters

variable {g g' : Grammar σ}

theorem Enters.none (hrules : g'.rules = g.rules) (hstore : g'.store = g.store) : g.Enters g' :=
  ⟨[], List.nodup_nil, hrules, hstore⟩

theorem Enters.one {name : String} {texts : List (String × Float)}
    (h : g' = g.putRule name texts) : g.Enters g' :=
  ⟨[(name, texts)], List.nodup_singleton name, congrArg rules h, congrArg store h⟩

theorem Enters.changed {c : Change σ} (hc : g.changed c = .ok g') : g.Enters g' := by
  cases c with
  | addRule name alternatives => exact .one (addRule_ok hc)
  | addTexts name texts => exact .one (addRule_ok hc)
  | addVariable name text =>
    have hc : g.addVariable name text = .ok g' := hc
    unfold addVariable at hc
    split at hc <;> cases hc
    exact .none rfl rfl
  | addMarkov name sentences settings =>
    have hc : g.addMarkov name sentences settings = .ok g' := hc
    unfold addMarkov at hc
    split at hc <;> cases hc
    exact .none rfl rfl
  | putModel | putOverride | limit =>
    cases hc
    exact .none rfl rfl

/-- The rules of the other grammar have distinct names. -/
theorem Enters.merged {other : Grammar σ} (h : other.WellPlaced) : g.Enters (g.merge other) := by
  refine ⟨other.rules.map fun r => (r.1, other.alternatives r.2), ?_, ?_⟩
  · have hnames : Table.names (other.rules.map fun r => (r.1, other.alternatives r.2)) =
        other.rules.names := List.map_map
    rw [hnames]
    exact h.ruleNames
  · unfold Grammar.merge enter
    rw [List.foldl_map]
    exact ⟨rfl, rfl⟩

/-- Whatever a call does, it comes down to that. -/
theorem Revision.enters (c : Revision σ) (g : Grammar σ) : g.Enters (c.act.after g) := by
  cases c with
  | merge other hother =>
    have hplaced := hother.built.wellPlaced
    have hafter : (Edit.merge other).after g = g.merge other := by
      unfold Edit.after
      rw [Edit.merge_eq hplaced]
    exact hafter ▸ .merged hplaced
  | change c =>
    show g.Enters (c.act.after g)
    unfold Edit.after
    rw [act_eq]
    cases hc : g.changed c with
    | error e => exact .none rfl rfl
    | ok g' => exact .changed hc

/-- Name by name, the store grows by what there is more under the name than before. -/
theorem Enters.size_eq (h : g.Enters g') {names : List String} (hnames : names.Nodup)
    (hall : ∀ name ∈ g'.rules.names, name ∈ names) :
    g'.store.size = g.store.size + (names.map fun name => g'.count name - g.count name).sum := by
  obtain ⟨entries, hnodup, hrules, hstore⟩ := h
  have hcount : ∀ name, g'.count name =
      ((entries.get? name).map List.length).getD (g.count name) := by
    intro name
    rw [← count_enter g entries hnodup]
    unfold count released rule?
    rw [hrules]
  -- only names that have been entered count
  have hsubset : entries.names.toFinset ⊆ names.toFinset := by
    intro name hname
    rw [List.mem_toFinset] at hname ⊢
    refine hall name ?_
    rw [hrules]
    exact (mem_names_enter g entries name).mpr (.inr hname)
  have hothers : ∀ name ∈ names.toFinset, name ∉ entries.names.toFinset →
      g'.count name - g.count name = 0 := by
    intro name _ hname
    rw [List.mem_toFinset] at hname
    rw [hcount, Table.get?_eq_none hname]
    exact Nat.sub_self _
  have hentries : (entries.map fun e => e.2.length - g.count e.1) =
      entries.names.map fun name => g'.count name - g.count name := by
    unfold Table.names
    rw [List.map_map]
    refine List.map_congr_left fun e he => ?_
    simp [hcount, Table.get?_of_mem hnodup he]
  rw [hstore, size_enter g entries hnodup, hentries, ← List.sum_toFinset _ hnodup,
    ← List.sum_toFinset _ hnames, Finset.sum_subset hsubset hothers]

theorem Enters.mem_names (h : g.Enters g') {name : String} (hname : name ∈ g.rules.names) :
    name ∈ g'.rules.names := by
  obtain ⟨entries, -, hrules, -⟩ := h
  rw [hrules]
  exact (mem_names_enter g entries name).mpr (.inl hname)

end Enters

/-! ### Histories -/

section Histories

variable (history : List (Revision σ))

theorem edited_revised : (revised history).Edited := by
  induction history with
  | nil => exact .new
  | cons c earlier ih =>
    cases c with
    | change c => exact ih.change c
    | merge other hother => exact ih.merge hother

/-- A name that never had a rule has none now. -/
theorem rises_eq_zero {name : String} (h : name ∉ (revised history).rules.names) :
    rises name history = 0 := by
  induction history with
  | nil => rfl
  | cons c earlier ih =>
    have hearlier : name ∉ (revised earlier).rules.names := fun hmem =>
      h ((c.enters (revised earlier)).mem_names hmem)
    have hcount : (revised (c :: earlier)).count name = 0 := by
      unfold count released rule?
      rw [Table.get?_eq_none h]
      rfl
    unfold rises
    rw [ih hearlier, hcount, Nat.zero_sub]

/-- There is a place for every alternative by which some name has grown. -/
theorem size_revised {names : List String} (hnames : names.Nodup)
    (hall : ∀ name ∈ (revised history).rules.names, name ∈ names) :
    (revised history).store.size = (names.map fun name => rises name history).sum := by
  induction history with
  | nil => simp [revised, rises]
  | cons c earlier ih =>
    have henters := c.enters (revised earlier)
    rw [show revised (c :: earlier) = c.act.after (revised earlier) from rfl,
      henters.size_eq hnames hall, ih fun name hname => hall name (henters.mem_names hname),
      Nat.add_comm, ← List.sum_map_add]
    rfl

end Histories

end Grammar

open Grammar in
/-- **The store has a place for every alternative by which a rule has ever grown.** After any calls, with
or without other calls between those that enter rules, the store is counted over the names of all rules
that there have been: it has as many places as the rules have grown by, each time that they have. This is
never less than the sum of the largest numbers of alternatives that the names have had, and it is no more
than that if and only if no rule has ever grown after it had shrunk. -/
theorem store_growth (history : List (Revision σ)) :
    (revised history).store.size =
      ((revised history).rules.names.map fun name => rises name history).sum ∧
    (∀ name ∉ (revised history).rules.names, largest name history = 0) ∧
    ((revised history).rules.names.map fun name => largest name history).sum ≤
      (revised history).store.size ∧
    ((revised history).store.size ≤
      ((revised history).rules.names.map fun name => largest name history).sum ↔
        ∀ name, NeverRegrown name history) := by
  have hnodup := (edited_revised history).built.wellPlaced.ruleNames
  have hsize := size_revised history hnodup fun _ h => h
  have hunknown : ∀ name ∉ (revised history).rules.names, rises name history = 0 := fun _ h =>
    rises_eq_zero history h
  have hle : ((revised history).rules.names.map fun name => largest name history).sum ≤
      ((revised history).rules.names.map fun name => rises name history).sum :=
    List.sum_le_sum fun name _ => largest_le_rises name history
  refine ⟨hsize, fun name h => ?_, hsize ▸ hle, ?_⟩
  · have := largest_le_rises name history
    rw [hunknown name h] at this
    exact Nat.le_zero.mp this
  · rw [hsize, ← List.sum_toFinset _ hnodup, ← List.sum_toFinset _ hnodup]
    have hpoint : ∀ name ∈ (revised history).rules.names.toFinset,
        largest name history ≤ rises name history := fun name _ => largest_le_rises name history
    -- the two sums are the same when they are the same name by name
    have hsame := Finset.sum_eq_sum_iff_of_le hpoint
    constructor
    · intro h name
      rw [← rises_eq_largest_iff]
      by_cases hname : name ∈ (revised history).rules.names
      · have heq := hsame.mp (Nat.le_antisymm (Finset.sum_le_sum hpoint) h)
        exact (heq name (List.mem_toFinset.mpr hname)).symm
      · have := largest_le_rises name history
        have := hunknown name hname
        omega
    · intro h
      exact (hsame.mpr fun name _ => ((rises_eq_largest_iff name history).mpr (h name)).symm).ge

/-- A rule with two alternatives is replaced by one with a single alternative, and that again by one with
two. -/
def flock : List (Grammar.Revision Scripted) :=
  [.change (.addTexts "pet" ["ewe", "ram"]), .change (.addTexts "pet" ["owl"]),
    .change (.addTexts "pet" ["cat", "dog"])]

/-- There have never been more than two alternatives, but three places are taken: the one that was given
up is not used again. -/
theorem flock_outgrows :
    (Grammar.revised flock).rules.names = ["pet"] ∧ Grammar.largest "pet" flock = 2 ∧
    (Grammar.revised flock).store = #["ewe", "dog", "ram"] ∧
    ¬ (Grammar.revised flock).store.size ≤
      ((Grammar.revised flock).rules.names.map fun name => Grammar.largest name flock).sum := by
  decide +kernel

end Fabula
