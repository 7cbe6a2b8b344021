import Fabula.Proofs.Editing

/-!
# Fabula.Proofs.Merging

**Merging is a union in which the second grammar counts first.** What is said after a merge depends only
on what the two grammars say (`Grammar.Built.merge_contents`), so the laws of merging are those of
`Contents.union`: it is associative, a grammar without content changes nothing when it is merged into
another, and merging a grammar into itself changes nothing at all.

The limits are not merged. A new grammar that takes in another one says what that one says, but keeps
its own limits.
-/

namespace Fabula

variable {σ : Type}

/-! ### Unions -/

namespace Contents

/-- What two grammars say together. Where both have a name, that of the second counts; the limits are
those of the first. -/
def union (a b : Contents σ) : Contents σ where
  rules name := (b.rules name).or (a.rules name)
  globals := a.globals.map (fun e => (e.1, (b.globals.get? e.1).getD e.2)) ++
    b.globals.filter (!a.globals.has ·.1)
  models name := (b.models name).or (a.models name)
  overrides name := (b.overrides name).or (a.overrides name)
  settings := a.settings

/-- The globals of a union are put one after the other. -/
theorem globals_union {a b : Contents σ} (ha : a.globals.names.Nodup) (hb : b.globals.names.Nodup) :
    (a.union b).globals = a.globals.putAll b.globals := (Table.putAll_eq ha hb).symm

theorem union_assoc {a b c : Contents σ} (ha : a.globals.names.Nodup) (hb : b.globals.names.Nodup)
    (hc : c.globals.names.Nodup) : (a.union b).union c = a.union (b.union c) := by
  have hab := globals_union ha hb
  have hbc := globals_union hb hc
  have hab' : (a.union b).globals.names.Nodup := by
    rw [hab]
    exact Table.nodup_putAll ha _
  have hbc' : (b.union c).globals.names.Nodup := by
    rw [hbc]
    exact Table.nodup_putAll hb _
  refine Contents.ext ?_ ?_ ?_ ?_ rfl
  · exact funext fun name => (Option.or_assoc ..).symm
  · rw [globals_union hab' hc, globals_union ha hbc', hab, hbc, Table.putAll_assoc ha hb hc]
  · exact funext fun name => (Option.or_assoc ..).symm
  · exact funext fun name => (Option.or_assoc ..).symm

/-- Nothing is added to what a new grammar says but the limits. -/
theorem new_union (b : Contents σ) :
    (({} : Grammar σ).contents).union b = { b with settings := {} } := by
  refine Contents.ext ?_ ?_ ?_ ?_ rfl
  · exact funext fun name => Option.or_none
  · simp [union, Grammar.contents, Table.has]
  · exact funext fun name => Option.or_none
  · exact funext fun name => Option.or_none

end Contents

/-! ### Merged grammars -/

namespace Grammar

variable {g other : Grammar σ}

theorem Reordered.alternatives_eq {g' : Grammar σ} (h : g.Reordered g') :
    g'.alternatives = g.alternatives := by
  unfold alternatives text
  rw [h.store]

theorem Reordered.contents_eq {g' : Grammar σ} (h : g.Reordered g') (hg : g.WellPlaced) :
    g'.contents = g.contents := by
  refine Contents.ext (funext fun name => ?_) h.globals (funext fun name => ?_)
    (funext fun name => ?_) h.settings
  · show (g'.rule? name).map g'.alternatives = (g.rule? name).map g.alternatives
    rw [h.alternatives_eq]
    exact congrArg _ (Table.get?_perm h.rules hg.ruleNames name)
  · exact Table.get?_perm h.models hg.modelNames name
  · exact Table.get?_perm h.overrides hg.overrideNames name

theorem Built.merge_contents (h : g.Built) (hother : other.Built) :
    (g.merge other).contents = g.contents.union other.contents := by
  have hrules := h.wellPlaced.putRules_contents other.alternatives hother.wellPlaced.ruleNames
  have htexts := congrArg Contents.rules hrules
  have hglobals := congrArg Contents.globals hrules
  have hmodels := congrArg Contents.models hrules
  have hoverrides := congrArg Contents.overrides hrules
  have hsettings := congrArg Contents.settings hrules
  refine Contents.ext htexts ?_ ?_ ?_ hsettings
  · rw [Contents.globals_union h.entered.globalNames hother.entered.globalNames]
    exact congrArg (Table.putAll · other.globals) hglobals
  · funext name
    refine (Table.get?_putAll _ hother.wellPlaced.modelNames name).trans ?_
    exact congrArg ((other.models.get? name).or ·) (congrFun hmodels name)
  · funext name
    refine (Table.get?_putAll _ hother.wellPlaced.overrideNames name).trans ?_
    exact congrArg ((other.overrides.get? name).or ·) (congrFun hoverrides name)

/-- A grammar takes in nothing new from itself, in whatever order its tables are listed. -/
theorem Built.merge_self (h : g.Built) {g' : Grammar σ} (hsame : g.Reordered g') :
    g.merge g' = g := by
  have hplaced := h.wellPlaced
  have hrule : ∀ entry ∈ g'.rules, g.putRule entry.1 (g.alternatives entry.2) = g := by
    intro entry hentry
    have hr : g.rule? entry.1 = some entry.2 :=
      Table.get?_of_mem hplaced.ruleNames (hsame.rules.mem_iff.mpr hentry)
    exact putRule_self hr (h.entered.named _ _ hr) (hplaced.placed _ _ hr).total
  have hrules : g'.rules.foldl (fun g r => g.putRule r.1 (g'.alternatives r.2)) g = g := by
    rw [hsame.alternatives_eq]
    generalize g.alternatives = texts at hrule
    generalize g'.rules = rules at hrule
    induction rules with
    | nil => rfl
    | cons entry rules ih =>
      have ⟨hentry, hrest⟩ := List.forall_mem_cons.mp hrule
      rw [List.foldl_cons, hentry, ih hrest]
  have hglobals : g.globals.putAll g'.globals = g.globals := by
    rw [hsame.globals]
    exact Table.putAll_self fun e he => Table.get?_of_mem h.entered.globalNames he
  have hmodels : g.models.putAll g'.models = g.models :=
    Table.putAll_self fun e he =>
      Table.get?_of_mem hplaced.modelNames (hsame.models.mem_iff.mpr he)
  have hoverrides : g.overrides.putAll g'.overrides = g.overrides :=
    Table.putAll_self fun e he =>
      Table.get?_of_mem hplaced.overrideNames (hsame.overrides.mem_iff.mpr he)
  unfold Grammar.merge
  dsimp only
  rw [hrules, hglobals, hmodels, hoverrides]

end Grammar

/-- Merging gives the union of what the two grammars say, in whatever order the tables of the second one
are listed. It is associative. A new grammar that is merged into another one changes nothing, nor does a
grammar that is merged into itself; a new grammar that takes in another one says what that one says, but
for the limits, which stay those of a new grammar. -/
theorem merge_is_union {a b : Grammar σ} (ha : a.Edited) (hb : b.Edited) :
    (∀ b', b.Reordered b' → ∃ merged, Edit.merge b' a = .ok () merged ∧
      merged.contents = a.contents.union b.contents) ∧
    (∀ c : Grammar σ, c.Edited → ∃ ab bc abc abc',
      Edit.merge b a = .ok () ab ∧ Edit.merge c ab = .ok () abc ∧
      Edit.merge c b = .ok () bc ∧ Edit.merge bc a = .ok () abc' ∧
      abc.contents = abc'.contents) ∧
    Edit.merge {} a = .ok () a ∧
    (∃ merged, Edit.merge b {} = .ok () merged ∧
      merged.contents = { b.contents with settings := {} }) ∧
    ∀ a', a.Reordered a' → Edit.merge a' a = .ok () a := by
  have ha := ha.built
  have hb := hb.built
  refine ⟨fun b' hb' => ?_, fun c hc => ?_, ?_, ?_, fun a' ha' => ?_⟩
  · have hbuilt : b'.Built := hb.reordered hb'
    refine ⟨a.merge b', Edit.merge_eq hbuilt.wellPlaced a, ?_⟩
    rw [ha.merge_contents hbuilt, hb'.contents_eq hb.wellPlaced]
  · have hc := hc.built
    have hbc := hb.merge hc
    refine ⟨a.merge b, b.merge c, (a.merge b).merge c, a.merge (b.merge c),
      Edit.merge_eq hb.wellPlaced a, Edit.merge_eq hc.wellPlaced _, Edit.merge_eq hc.wellPlaced b,
      Edit.merge_eq hbc.wellPlaced a, ?_⟩
    rw [(ha.merge hb).merge_contents hc, ha.merge_contents hb, ha.merge_contents hbc,
      hb.merge_contents hc]
    exact Contents.union_assoc ha.entered.globalNames hb.entered.globalNames hc.entered.globalNames
  · exact Edit.merge_eq Grammar.Built.new.wellPlaced a
  · refine ⟨Grammar.merge {} b, Edit.merge_eq hb.wellPlaced {}, ?_⟩
    rw [Grammar.Built.new.merge_contents hb, Contents.new_union]
  · rw [Edit.merge_eq (ha.reordered ha').wellPlaced a, ha.merge_self ha']

/-- A grammar whose limits have been changed. -/
def limited : Grammar Scripted := .ofChanges [.limit { maxDepth := 5 }]

/-- The limits of a grammar that is merged into a new one are lost. -/
theorem new_merge_limited : limited.Edited ∧
    ∃ merged, Edit.merge limited {} = .ok () merged ∧ merged.contents ≠ limited.contents := by
  refine ⟨.ofChanges _, _, rfl, fun heq => ?_⟩
  have hdepth : (20 : Nat) = 5 := congrArg (·.settings.maxDepth) heq
  exact absurd hdepth (by decide)

/-- A farm takes in a barn, whose rules count then, and gains nothing from itself. -/
theorem farm_merge_barn : farm.Edited ∧ barn.Edited ∧
    (∃ merged, Edit.merge barn farm = .ok () merged ∧
      merged.contents = farm.contents.union barn.contents) ∧
    Edit.merge farm farm = .ok () farm :=
  have ⟨hunion, _, _, _, hself⟩ := merge_is_union farm_edited barn_edited
  ⟨farm_edited, barn_edited, hunion barn ⟨.refl _, .refl _, .refl _, rfl, rfl, rfl⟩,
    hself farm ⟨.refl _, .refl _, .refl _, rfl, rfl, rfl⟩⟩

end Fabula
