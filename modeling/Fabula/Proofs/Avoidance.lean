import Fabula.Proofs.Confinement

/-!
# Fabula.Proofs.Avoidance

**Runs that avoid errors.** An action avoids errors of a kind if it fails with none of them, from certain
contexts (`Run.Avoids`). The built-in modifiers fail with errors about their arguments only, but for
`uniques`, which expands a rule (`Builtin.runUniques_avoids`); of a registered modifier it may be known
that it brings no such error about by itself (`Override.Spares`).

Whether a symbol is unknown depends on the names in scope. `Context.Shadowed` says that a certain name is.
-/

namespace Fabula

variable {σ α β : Type}

/-! ### Runs that avoid errors -/

namespace Run

/-- In contexts that satisfy `Q` the action does not fail with such an error. -/
def Avoids (bad : ExpandError → Prop) (Q : Context σ → Prop) (act : Run σ α) : Prop :=
  ∀ c, Q c → ∀ e c', act c = .error e c' → ¬ bad e

variable {bad : ExpandError → Prop} {P Q : Context σ → Prop}

theorem Avoids.mono {act : Run σ α} (h : act.Avoids bad P) (hQ : ∀ c, Q c → P c) :
    act.Avoids bad Q := fun c hc => h c (hQ c hc)

theorem Avoids.pure (a : α) : Avoids bad Q (Pure.pure a : Run σ α) := fun _ _ _ _ h => nomatch h

theorem Avoids.throw {e : ExpandError} (h : ¬ bad e) : Avoids bad Q (throw e : Run σ α) := by
  intro c _ e' c' he
  cases he
  exact h

theorem Avoids.ofExcept {x : Except ExpandError α} (h : ∀ e, x = .error e → ¬ bad e) :
    Avoids bad Q (Run.ofExcept x : Run σ α) := by
  cases x with
  | ok a => exact .pure a
  | error e => exact .throw (h e rfl)

theorem Avoids.bind {act : Run σ α} {f : α → Run σ β} (h : act.Avoids bad P)
    (hQ : ∀ c a c', P c → act c = .ok a c' → Q c') (hf : ∀ a, (f a).Avoids bad Q) :
    (act >>= f).Avoids bad P := by
  intro c hc e c' he
  rw [Run.bind_apply] at he
  cases ha : act c with
  | ok a c₁ =>
    rw [ha] at he
    exact hf a c₁ (hQ c a c₁ hc ha) e c' he
  | error e₁ c₁ =>
    rw [ha] at he
    cases he
    exact h c hc e c' ha

theorem Avoids.get_bind {f : Context σ → Run σ α}
    (h : ∀ c, Q c → ∀ e c', f c c = .error e c' → ¬ bad e) : Avoids bad Q (get >>= f) := h

theorem Avoids.within {enter leave : Context σ → Context σ} {act : Run σ α}
    (h : act.Avoids bad P) (henter : ∀ c, Q c → P (enter c)) :
    (Run.within enter leave act).Avoids bad Q := by
  intro c hc e c' he
  unfold Run.within at he
  cases ha : act (enter c) with
  | ok a c₁ =>
    rw [ha] at he
    cases he
  | error e₁ c₁ =>
    rw [ha] at he
    cases he
    exact h _ (henter c hc) e c₁ ha

end Run

/-! ### Names in scope -/

namespace Context

/-- A name that has been given a value is in scope, and no other name goes out of scope. -/
theorem isSome_lookup_assign (c : Context σ) (name value other : String) :
    ((c.assign name value).lookup other).isSome =
      ((c.lookup other).isSome || (!c.scopes.isEmpty && other == name)) := by
  unfold Context.assign Context.lookup
  cases hscopes : c.scopes with
  | nil => simp [hscopes]
  | cons scope outer =>
    dsimp only
    rw [List.findSome?_cons, List.findSome?_cons, List.lookup_cons]
    cases hname : other == name <;> cases scope.lookup other <;> simp

/-- The shadow is in scope. -/
def Shadowed (shadow : Option String) (c : Context σ) : Prop :=
  ∃ name ∈ shadow, (c.lookup name).isSome = true

variable {shadow : Option String} {c c' : Context σ}

theorem Shadowed.scopes_eq (h : c.Shadowed shadow)
    (hscopes : ∀ name ∈ shadow, c'.scopes = c.scopes) : c'.Shadowed shadow := by
  obtain ⟨name, hname, hlookup⟩ := h
  refine ⟨name, hname, ?_⟩
  unfold Context.lookup at *
  rwa [hscopes name hname]

theorem Shadowed.assign (h : c.Shadowed shadow) (name value : String) :
    (c.assign name value).Shadowed shadow := by
  obtain ⟨n, hn, hlookup⟩ := h
  exact ⟨n, hn, by rw [isSome_lookup_assign, hlookup]; rfl⟩

theorem shadowed_assign (hopen : c.scopes ≠ []) {name : String} (hname : name ∈ shadow)
    (value : String) : (c.assign name value).Shadowed shadow :=
  ⟨name, hname, by rw [isSome_lookup_assign]; simp [hopen]⟩

end Context

/-! ### Modifiers -/

section Modifiers

open Run (Avoids)

variable {bad : ExpandError → Prop} {Q : Context σ → Prop}

/-- The modifier fails with such an error only if one of the rules does that it asks for, all of which
are `asked`. What a template of its own would give is left open, so it expands none. -/
def Override.Spares (R : Context σ → Context σ → Prop) (bad : ExpandError → Prop)
    (asked : String → Prop) (f : Override σ) : Prop :=
  ∀ engine : Engine σ, engine.Keeps R → ∀ c,
    (∀ name, asked name → (engine.expandRule name).Avoids bad (R c)) →
    ∀ value args, (f engine value args).Avoids bad (R c)

/-- All registered modifiers are like that. -/
def Grammar.OverridesSpare (R : Context σ → Context σ → Prop) (bad : ExpandError → Prop)
    (asked : String → Prop) (g : Grammar σ) : Prop :=
  ∀ name f, g.overrides.get? name = some f → f.Spares R bad asked

/-- The modifier fails with such an error only if something does that it asks for, be it one of the `asked`
rules or a `safe` template. -/
def Override.SparesGiven (R : Context σ → Context σ → Prop) (bad : ExpandError → Prop)
    (asked : String → Prop) (safe : Template → Prop) (f : Override σ) : Prop :=
  ∀ engine : Engine σ, engine.Keeps R → ∀ c,
    (∀ name, asked name → (engine.expandRule name).Avoids bad (R c)) →
    (∀ t, safe t → (engine.expandTemplate t).Avoids bad (R c)) →
    ∀ value args, (f engine value args).Avoids bad (R c)

theorem Override.Spares.sparesGiven {R : Context σ → Context σ → Prop} {asked : String → Prop}
    {f : Override σ} (h : f.Spares R bad asked) (safe : Template → Prop) :
    f.SparesGiven R bad asked safe :=
  fun engine he c hrules _ value args => h engine he c hrules value args

/-- If there is an error, it is about the arguments of a modifier. -/
def OnlyFaults (x : Except ExpandError α) : Prop :=
  ∀ e, x = .error e → ∃ modifier reason, e = .badArguments modifier reason

theorem OnlyFaults.ok (a : α) : OnlyFaults (.ok a) := fun _ h => nomatch h

theorem OnlyFaults.error (modifier reason : String) :
    OnlyFaults (.error (.badArguments modifier reason) : Except ExpandError α) := by
  intro e h
  cases h
  exact ⟨modifier, reason, rfl⟩

theorem OnlyFaults.bind {x : Except ExpandError α} {f : α → Except ExpandError β} (h : OnlyFaults x)
    (hf : ∀ a, OnlyFaults (f a)) : OnlyFaults (x >>= f) := by
  cases x with
  | ok a => exact hf a
  | error e =>
    intro e' he
    cases he
    exact h e rfl

theorem OnlyFaults.avoids {x : Except ExpandError α} (h : OnlyFaults x)
    (hbad : ∀ modifier reason, ¬ bad (.badArguments modifier reason)) :
    Avoids bad Q (Run.ofExcept x : Run σ α) := by
  refine .ofExcept fun e he => ?_
  obtain ⟨modifier, reason, rfl⟩ := h e he
  exact hbad modifier reason

namespace Builtin

theorem textArg_faults (b : Builtin) (args : List Argument) (index : Nat) :
    OnlyFaults (b.textArg args index) := by
  unfold textArg
  split
  · exact .ok _
  · exact .ok _
  · exact .error _ _

theorem integerArg_faults (b : Builtin) (args : List Argument) (index : Nat) :
    OnlyFaults (b.integerArg args index) := by
  have hfloat : ∀ x : Float, OnlyFaults (if Numeral.isFinite x then
      .ok (some (Numeral.wholeWithin Numeral.int64Min Numeral.int64Max x))
      else .error (b.argumentFault index "finite")) := by
    intro x
    split
    · exact .ok _
    · exact .error _ _
  unfold integerArg
  split
  · exact .ok _
  · exact hfloat _
  · split
    · exact hfloat _
    · exact .error _ _

theorem countArg_faults (b : Builtin) (args : List Argument) (index : Nat) :
    OnlyFaults (b.countArg args index) := by
  unfold countArg
  split
  · exact .ok _
  · split
    · exact .ok _
    · exact .error _ _
  · exact .error _ _

theorem required_faults (b : Builtin) (missing : String) (a : Option α) :
    OnlyFaults (b.required missing a) := by
  cases a with
  | none => exact .error _ _
  | some a => exact .ok a

theorem uniquesArgs_faults (args : List Argument) : OnlyFaults (uniquesArgs args) := by
  refine (textArg_faults _ _ _).bind fun _ => (required_faults _ _ _).bind fun _ => ?_
  refine (countArg_faults _ _ _).bind fun _ => (required_faults _ _ _).bind fun _ => ?_
  exact (textArg_faults _ _ _).bind fun _ => .ok _

theorem timesArg_faults (args : List Argument) : OnlyFaults (timesArg args) :=
  (countArg_faults _ _ _).bind fun _ => required_faults _ _ _

theorem repeated_faults (value : String) (count : Nat) : OnlyFaults (repeated value count) := by
  unfold repeated
  split
  · exact .ok _
  · exact .error _ _

theorem randomBounds_faults (args : List Argument) : OnlyFaults (randomBounds args) :=
  (integerArg_faults _ _ _).bind fun _ => (integerArg_faults _ _ _).bind fun _ => .ok _

theorem diceArg_faults (args : List Argument) : OnlyFaults (diceArg args) := by
  refine (textArg_faults _ _ _).bind fun _ => (required_faults _ _ _).bind fun text => ?_
  split
  · exact .ok _
  · exact .error _ _

/-- The rule that `uniques` is asked for is its first argument, as a text. -/
theorem uniquesArgs_head {args : List Argument} {name separator : String} {count : Nat}
    (h : uniquesArgs args = .ok (name, count, separator)) :
    args.head?.bind Argument.text? = some name := by
  cases args with
  | nil => cases h
  | cons a rest =>
    cases a with
    | number x => cases h
    | text s =>
      unfold uniquesArgs at h
      show some s = some name
      generalize hc : uniques.countArg (.text s :: rest) 1 = counted at h
      generalize ht : uniques.textArg (.text s :: rest) 2 = last at h
      obtain _ | _ | _ := counted <;> obtain _ | _ := last <;> cases h
      rfl

theorem collect_avoids {attempt : Run σ (Option String)} (h : attempt.Avoids bad Q)
    (stays : ∀ c, Q c → Q (attempt.after c)) (isOpen : Context σ → Bool) (count : Nat)
    (texts : List String) (tries : Nat) :
    (collect attempt isOpen count texts tries).Avoids bad Q := by
  induction tries generalizing texts with
  | zero => exact .pure texts
  | succ tries ih =>
    unfold collect
    split
    · exact .pure texts
    · refine h.bind (fun c found c' hc ha => Run.after_of_ok ha ▸ stays c hc) fun found => ?_
      cases found with
      | some text => exact ih _
      | none =>
        refine .get_bind fun c hc => ?_
        split
        · exact ih _ c hc
        · exact Avoids.pure texts c hc

/-- The rule that `uniques` expands is the only source of errors but for bad arguments and the case that
there is no such rule. -/
theorem runUniques_avoids {g : Grammar σ} {engine : Engine σ} {args : List Argument}
    (hbad : ∀ modifier reason, ¬ bad (.badArguments modifier reason))
    (hunknown : ∀ name, args.head?.bind Argument.text? = some name → g.rule? name = none →
      ∀ c, Q c → ¬ bad (.unknownRule uniques.name name))
    (hrule : ∀ name r, args.head?.bind Argument.text? = some name → g.rule? name = some r →
      (engine.expandRule name).Avoids bad Q)
    (stays : ∀ name c, Q c → Q ((engine.expandRule name).after c))
    (pushes : ∀ c, Q c → Q c.pushTracker) :
    (runUniques g engine args).Avoids bad Q := by
  unfold runUniques
  cases hargs : uniquesArgs args with
  | error e =>
    obtain ⟨modifier, reason, rfl⟩ := uniquesArgs_faults args e hargs
    exact .throw (hbad modifier reason)
  | ok parsed =>
    obtain ⟨name, count, separator⟩ := parsed
    have hhead := uniquesArgs_head hargs
    unfold Run.ofExcept
    rw [pure_bind]
    dsimp only
    cases hr : g.rule? name with
    | none => exact fun c hc => Avoids.throw (hunknown name hhead hr c hc) c hc
    | some r =>
      refine Avoids.within (P := Q) ?_ pushes
      have hcollect := collect_avoids (hrule name r hhead hr) (stays name) (hasUnseen r) count []
        maxUniqueTries
      exact hcollect.bind (Q := fun _ => True) (fun _ _ _ _ _ => trivial) fun _ => .pure _

/-- The other built-in modifiers fail for no other reason than bad arguments. -/
theorem apply_avoids [RandomSource σ] {b : Builtin} (hb : b ≠ uniques) (g : Grammar σ)
    (engine : Engine σ) (hbad : ∀ modifier reason, ¬ bad (.badArguments modifier reason))
    (value : String) (args : List Argument) : (b.apply g engine value args).Avoids bad Q := by
  have hdraw : ∀ {γ : Type} (f : σ → γ × σ), (Run.draw f).Avoids bad fun _ => True :=
    fun _ _ _ _ _ h => nomatch h
  cases b with
  | times => exact OnlyFaults.avoids ((timesArg_faults args).bind (repeated_faults value)) hbad
  | randomNumber =>
    refine ((randomBounds_faults args).avoids hbad).bind (fun _ _ _ _ _ => trivial)
      fun (low, high) => ?_
    exact (hdraw _).bind (fun _ _ _ _ _ => trivial) fun _ => .pure (Q := fun _ => True) _
  | roll =>
    refine ((diceArg_faults args).avoids hbad).bind (fun _ _ _ _ _ => trivial) fun dice => ?_
    exact (hdraw _).bind (fun _ _ _ _ _ => trivial) fun _ => .pure (Q := fun _ => True) _
  | uniques => exact absurd rfl hb
  | _ => exact .pure _

end Builtin

end Modifiers

end Fabula
