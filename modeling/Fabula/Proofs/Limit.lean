import Fabula.Proofs.Routine

/-!
# Fabula.Proofs.Limit

**The limit on depth only decides about recursion errors.** A call that does not fail because templates
nest too deep does the same under every higher limit, and no body of a template is ever expanded above
the limit (`raising_limit`).

Both are comparisons of two runs in which everything is the same (`Correspondence.same`). In the first
one the second run goes on where the first has reached its limit; that is excused, and because neither
the interpreter nor the modifiers catch the error, it is then what the first call comes to. In the
second one the other run sounds an alarm in place of every body above the limit.
-/

namespace Fabula

variable {σ α : Type}

/-! ### Runs in which everything is the same -/

namespace Correspondence

/-- Two runs in which everything is the same, until the first fails with an error that is excused. -/
def same (excused : ExpandError → Prop) : Correspondence σ σ where
  source _ _ := Eq
  slot := Eq
  excused := excused

variable {excused : ExpandError → Prop} {depth : Nat}

theorem same_trackless : (same excused : Correspondence σ σ).Trackless :=
  trackless_of_eq fun _ _ => rfl

theorem same_lawful [RandomSource σ] : (same excused : Correspondence σ σ).Lawful :=
  lawful_of_eq (fun _ _ => rfl) biUnique_eq

theorem same_contexts {c : Context σ} (h : c.depth = depth) : (same excused).Contexts depth c c where
  source := rfl
  depth_left := h
  depth_right := h
  scopes := rfl
  trackers := trackers_refl (fun _ => rfl) c.trackers
  produced := rfl
  globalsLoaded := rfl

theorem Contexts.eq_of_same {c d : Context σ} (h : (same excused).Contexts depth c d) : d = c :=
  (Context.eq_of_view h.source (h.view_eq rfl)).symm

/-- Such runs end alike, or the first ends with an error that is excused. -/
theorem Results.eq_of_same {r r' : EStateM.Result ExpandError (Context σ) α}
    (h : (same excused).Results depth r r') : r' = r ∨ ∃ e c, r = .error e c ∧ excused e := by
  cases h with
  | ok a h => exact .inl (by rw [h.eq_of_same])
  | error e h => exact .inl (by rw [h.eq_of_same])
  | excused h => exact .inr ⟨_, _, rfl, h⟩

/-- Actions that correspond with nothing excused are the same. -/
theorem Runs.eq_of_same {act act' : Run σ α} {c : Context σ}
    (h : (same fun _ => False).Runs c.depth act act') : act' c = act c := by
  rcases (h c c (same_contexts rfl)).eq_of_same with heq | ⟨_, _, _, hfalse⟩
  · exact heq
  · exact hfalse.elim

/-- Grammars correspond that differ in nothing but the limits. -/
theorem same_grammars [RandomSource σ] {g : Grammar σ}
    (hg : g.OverridesAre (Routine.Passes excused)) (settings : Grammar.Settings) :
    (same excused).Grammars g { g with settings } := by
  have hrules : ∀ name, Option.Rel (same excused : Correspondence σ σ).Rules (g.rule? name)
      (g.rule? name) := fun name => rules_refl (fun _ => rfl) (g.rule? name)
  refine ⟨hrules, fun slot slot' h => ?_, rfl, fun _ => rfl, fun depth engine engine' he => ?_⟩
  · cases h
    rfl
  · refine applyModifier_runs same_lawful same_trackless hrules (fun name => ?_) he
    cases hf : g.overrides.get? name with
    | none => exact .none
    | some f =>
      obtain ⟨r, rfl, hpasses⟩ := hg name f hf
      exact .some (override_overrides same_lawful same_trackless (fun _ _ _ h => h.view_eq rfl)
        hpasses fun value args => (r value args).alike_eq)

end Correspondence

/-! ### Raising the limit -/

/-- Templates nest too deep. -/
def ExpandError.IsTooDeep (e : ExpandError) : Prop := ∃ limit source, e = .tooDeep limit source

/-- The action fails because templates nest too deep. -/
def Run.RunsOut (act : Run σ α) (c : Context σ) : Prop :=
  ∃ e c', act c = .error e c' ∧ e.IsTooDeep

namespace Grammar

variable [RandomSource σ]

/-- The grammar with another limit. -/
def limited (g : Grammar σ) (limit : Nat) : Grammar σ := { g with settings := { maxDepth := limit } }

/-! ### Bodies above the limit -/

/-- Expand the body of a template within the limit, and do something else in its place above it. -/
def guardedBody (g : Grammar σ) (alarm enter : Evaluator σ) : Evaluator σ := fun t slot => do
  if (← get).depth ≤ g.settings.maxDepth then expandBody g enter t slot else alarm t slot

/-- Expand a template when this many levels are left, every body being guarded. -/
def guarded (g : Grammar σ) (alarm : Evaluator σ) : Nat → Evaluator σ
  | 0, t, _ => throw (.tooDeep g.settings.maxDepth t.source)
  | levels + 1, t, slot =>
    Run.within Context.enterTemplate Context.leaveTemplate
      (g.guardedBody alarm (g.guarded alarm levels) t slot)

/-- What can be asked for in a context, when every body is guarded. -/
def guardedEngineAt (g : Grammar σ) (alarm : Evaluator σ) (depth : Nat) : Engine σ :=
  engineWith g (g.guarded alarm (g.settings.maxDepth - depth))

/-- No body is expanded above the limit: whatever is done in its place there is never done. -/
def BodiesWithinLimit (g : Grammar σ) : Prop :=
  ∀ (alarm : Evaluator σ) (c : Context σ),
    (∀ text, (g.guardedEngineAt alarm c.depth).expand text c = g.expandIn text c) ∧
    (∀ t, (g.guardedEngineAt alarm c.depth).expandTemplate t c = g.expandTemplate t c) ∧
    (∀ name, (g.guardedEngineAt alarm c.depth).expandRule name c = g.expandRule name c) ∧
    ∀ call value, applyModifier g (g.guardedEngineAt alarm c.depth) call value c =
      applyModifier g (g.engineAt c.depth) call value c

end Grammar

namespace Correspondence

variable [RandomSource σ] {g : Grammar σ} {excused : ExpandError → Prop}
variable (hg : g.OverridesAre (Routine.Passes excused))
include hg

/-- With no more levels left than the depth leaves, the guards let every body pass. -/
theorem guarded_evaluators (alarm : Evaluator σ) {levels depth : Nat}
    (hlevels : levels ≤ g.settings.maxDepth - depth) :
    (same excused).Evaluators g depth (g.evaluate levels) (g.guarded alarm levels) := by
  refine .of_runs ?_
  induction levels generalizing depth with
  | zero => exact fun t _ _ _ => throw_runs _
  | succ levels ih =>
    intro t slot slot' hslot
    have hbelow : levels ≤ g.settings.maxDepth - (depth + 1) := by omega
    have hbody := expandBody_runs same_lawful same_trackless (same_grammars hg g.settings)
      (.of_runs (ih hbelow)) t hslot
    refine Runs.within ?_ (fun c d hcd => hcd.enterTemplate) fun c d hcd => hcd.leaveTemplate
    intro c d hcd
    unfold Grammar.guardedBody
    rw [Run.get_bind, if_pos (by rw [hcd.depth_right]; omega)]
    exact hbody c d hcd

theorem guardedEngineAt_engines (alarm : Evaluator σ) (depth : Nat) :
    (same excused).Engines depth (g.engineAt depth) (g.guardedEngineAt alarm depth) :=
  engineWith_engines (guarded_evaluators hg alarm (Nat.le_refl _)) (same_grammars hg g.settings)
    same_lawful

end Correspondence

open Correspondence

section Limit

variable [RandomSource σ] {g : Grammar σ}

theorem Grammar.bodiesWithinLimit {ok : Routine → Prop} (h : g.OverridesAre ok) :
    g.BodiesWithinLimit := by
  intro alarm c
  have hg := h.mono fun r _ => r.passes_none
  have he := guardedEngineAt_engines hg alarm c.depth
  exact ⟨fun text => (he.expand text).eq_of_same, fun t => (he.template t).eq_of_same,
    fun name => (he.rule name).eq_of_same, fun call value =>
      ((same_grammars hg g.settings).modifiers c.depth _ _ he call value).eq_of_same⟩

/-- A call that does not run out of levels does the same when there are more. -/
theorem Grammar.call_limited (h : g.OverridesAre (Routine.Passes ExpandError.IsTooDeep))
    {limit limit' : Nat} (hle : limit ≤ limit') (call : Call) (c : Context σ)
    (hc : ¬ ((g.limited limit).call call).RunsOut c) :
    (g.limited limit').call call c = (g.limited limit).call call c := by
  have hruns : (same ExpandError.IsTooDeep).Runs c.depth ((g.limited limit).call call)
      ((g.limited limit').call call) :=
    call_runs same_lawful same_trackless
      (same_grammars (g := g.limited limit) h { maxDepth := limit' })
      (.inr ⟨hle, fun limit source => ⟨limit, source, rfl⟩⟩) call
  rcases (hruns c c (same_contexts rfl)).eq_of_same with heq | ⟨e, c', he, hdeep⟩
  · exact heq
  · exact absurd ⟨e, c', he, hdeep⟩ hc

end Limit

/-- If the modifiers that have been registered pass recursion errors on, then a call that does not fail
with one gives the same value or error under every higher limit, and leaves the same context behind:
the same draws have been taken, and the same alternatives and texts are remembered. Under every limit
no body is expanded above it. -/
theorem raising_limit [RandomSource σ] (g : Grammar σ)
    (h : g.OverridesAre (Routine.Passes ExpandError.IsTooDeep)) {limit limit' : Nat}
    (hle : limit ≤ limit') :
    (∀ call c, ¬ ((g.limited limit).call call).RunsOut c →
      (g.limited limit').call call c = (g.limited limit).call call c) ∧
    (g.limited limit).BodiesWithinLimit :=
  ⟨Grammar.call_limited h hle, Grammar.bodiesWithinLimit (g := g.limited limit) h⟩

/-- A grammar with a modifier that expands the value it is applied to. -/
def echoing : Grammar Scripted where
  overrides := [("expand", Routine.override fun value _ => Routine.expand value .give)]

theorem echoing_passes : echoing.OverridesAre (Routine.Passes ExpandError.IsTooDeep) := by
  intro name f hf
  rw [echoing, Table.get?_cons] at hf
  split at hf
  · exact ⟨_, (Option.some.inj hf).symm, fun value _ => Routine.expand_passes value fun _ => trivial⟩
  · cases hf

/-- The call that `raising_limit_echoing` is about: it expands a text. -/
def echoingCall : Call := .applyModifier ⟨"expand", []⟩ "a"

theorem echoing_parse : Template.parse "a" = .ok ⟨"a", "a", [], []⟩ := by
  cbv

theorem echoing_ends : ∃ value c',
    (echoing.limited 3).call echoingCall { source := Scripted.fixed 0 } = .ok value c' := by
  have hcall : (echoing.limited 3).call echoingCall { source := Scripted.fixed 0 } =
      (some <$> (Routine.expand "a" .give).run ((echoing.limited 3).engineAt 0))
        { source := Scripted.fixed 0 } := rfl
  unfold Routine.expand at hcall
  rw [echoing_parse] at hcall
  exact ⟨_, _, hcall⟩

/-- Such a text is expanded under a limit of five as under a limit of three. -/
theorem raising_limit_echoing :
    echoing.OverridesAre (Routine.Passes ExpandError.IsTooDeep) ∧ 3 ≤ 5 ∧
      ¬ ((echoing.limited 3).call echoingCall).RunsOut { source := Scripted.fixed 0 } ∧
      (echoing.limited 5).call echoingCall { source := Scripted.fixed 0 } =
        (echoing.limited 3).call echoingCall { source := Scripted.fixed 0 } ∧
      (echoing.limited 3).BodiesWithinLimit := by
  have hends : ¬ ((echoing.limited 3).call echoingCall).RunsOut { source := Scripted.fixed 0 } := by
    obtain ⟨value, c', hok⟩ := echoing_ends
    rintro ⟨e, c'', herror, -⟩
    rw [hok] at herror
    cases herror
  have h := raising_limit echoing echoing_passes (show 3 ≤ 5 by decide)
  exact ⟨echoing_passes, by decide, hends, h.1 _ _ hends, h.2⟩

end Fabula
