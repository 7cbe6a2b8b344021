import Fabula.Expand.Interpreter

/-!
# Fabula.Proofs.Runs

**Reasoning about runs.** A run of an action starts in a context and ends in one, with a value or with
an error. Three ways to speak about it are used throughout:

* `Run.after` is the context it ends in, and `Run.Keeps R` says that every run is related by `R` to
  where it started, errors included;
* `Run.EqOn P` says that two actions do the same in every context that satisfies `P`;
* the `_inv` lemmas take a run that gave a value apart into the runs of its steps.
-/

namespace Fabula

variable {σ α β : Type}

namespace Run

/-! ### Steps -/

theorem bind_apply (act : Run σ α) (f : α → Run σ β) (c : Context σ) :
    (act >>= f) c = match act c with
      | .ok a c' => f a c'
      | .error e c' => .error e c' := by
  show EStateM.bind act f c = _
  unfold EStateM.bind
  cases act c <;> rfl

theorem map_apply (f : α → β) (act : Run σ α) (c : Context σ) :
    (f <$> act) c = match act c with
      | .ok a c' => .ok (f a) c'
      | .error e c' => .error e c' := by
  show EStateM.map f act c = _
  unfold EStateM.map
  cases act c <;> rfl

@[simp] theorem get_bind (f : Context σ → Run σ α) (c : Context σ) :
    ((get : Run σ (Context σ)) >>= f) c = f c c := rfl

/-- Invert one step of a run that gave a value. -/
theorem bind_inv {act : Run σ α} {f : α → Run σ β} {c c' : Context σ} {b : β}
    (h : (act >>= f) c = .ok b c') :
    ∃ a c₁, act c = .ok a c₁ ∧ f a c₁ = .ok b c' := by
  rw [bind_apply] at h
  cases ha : act c with
  | ok a c₁ => exact ⟨a, c₁, rfl, by rwa [ha] at h⟩
  | error e c₁ =>
    rw [ha] at h
    cases h

theorem within_inv {enter leave : Context σ → Context σ} {act : Run σ α} {c c' : Context σ} {a : α}
    (h : within enter leave act c = .ok a c') :
    ∃ c₁, act (enter c) = .ok a c₁ ∧ c' = leave c₁ := by
  unfold within at h
  cases ha : act (enter c) with
  | ok b c₁ =>
    rw [ha] at h
    cases h
    exact ⟨c₁, rfl, rfl⟩
  | error e c₁ =>
    rw [ha] at h
    cases h

/-! ### Where a run ends -/

/-- The context that a run leaves behind, whether it fails or not. -/
def after (act : Run σ α) (c : Context σ) : Context σ :=
  match act c with
  | .ok _ c' => c'
  | .error _ c' => c'

theorem after_of_ok {act : Run σ α} {c c' : Context σ} {a : α} (h : act c = .ok a c') :
    act.after c = c' := by
  unfold after
  rw [h]

theorem after_of_error {act : Run σ α} {c c' : Context σ} {e : ExpandError}
    (h : act c = .error e c') : act.after c = c' := by
  unfold after
  rw [h]

@[simp] theorem after_ofExcept (e : Except ExpandError α) (c : Context σ) :
    (ofExcept e).after c = c := by
  cases e <;> rfl

@[simp] theorem after_ofParsed (e : Except SyntaxError α) (c : Context σ) :
    (ofParsed e : Run σ α).after c = c := by
  cases e <;> rfl

theorem after_draw (f : σ → α × σ) (c : Context σ) :
    (draw f).after c = { c with source := (f c.source).2 } := rfl

theorem after_within (enter leave : Context σ → Context σ) (act : Run σ α) (c : Context σ) :
    (within enter leave act).after c = leave (act.after (enter c)) := by
  unfold after within
  cases act (enter c) <;> rfl

theorem after_map (f : α → β) (act : Run σ α) (c : Context σ) :
    (f <$> act).after c = act.after c := by
  unfold after
  rw [map_apply]
  cases act c <;> rfl

/-! ### Relations between the ends of a run -/

variable {R B : Context σ → Context σ → Prop}

/-- Every run of the action is related by `R` to where it started. -/
def Keeps (R : Context σ → Context σ → Prop) (act : Run σ α) : Prop := ∀ c, R c (act.after c)

theorem Keeps.of_ok {act : Run σ α} {c c' : Context σ} {a : α} (h : Keeps R act)
    (ha : act c = .ok a c') : R c c' := by
  rw [← after_of_ok ha]
  exact h c

theorem Keeps.of_error {act : Run σ α} {c c' : Context σ} {e : ExpandError} (h : Keeps R act)
    (ha : act c = .error e c') : R c c' := by
  rw [← after_of_error ha]
  exact h c

theorem Keeps.mono {act : Run σ α} (h : Keeps R act) (hB : ∀ c c', R c c' → B c c') :
    Keeps B act := fun c => hB _ _ (h c)

theorem Keeps.bind {act : Run σ α} {f : α → Run σ β}
    (trans : ∀ {a b c}, R a b → R b c → R a c) (h : Keeps R act) (hf : ∀ a, Keeps R (f a)) :
    Keeps R (act >>= f) := by
  intro c
  unfold after
  rw [bind_apply]
  cases ha : act c with
  | ok a c₁ => exact trans (h.of_ok ha) (hf a c₁)
  | error e c₁ => exact h.of_error ha

theorem Keeps.map {act : Run σ α} (f : α → β) (h : Keeps R act) : Keeps R (f <$> act) := by
  intro c
  rw [after_map]
  exact h c

theorem Keeps.get_bind {f : Context σ → Run σ α} (h : ∀ c, R c ((f c).after c)) :
    Keeps R (get >>= f) := h

/-! ### Actions that do the same -/

variable {P : Context σ → Prop}

/-- The two actions do the same in every context that satisfies `P`. -/
def EqOn (P : Context σ → Prop) (act act' : Run σ α) : Prop := ∀ c, P c → act c = act' c

theorem EqOn.rfl {act : Run σ α} : EqOn P act act := fun _ _ => Eq.refl _

theorem EqOn.bind {act act' : Run σ α} {f f' : α → Run σ β} (h : EqOn P act act')
    (stays : ∀ c, P c → P (act.after c)) (hf : ∀ a, EqOn P (f a) (f' a)) :
    EqOn P (act >>= f) (act' >>= f') := by
  intro c hc
  have hP := stays c hc
  rw [bind_apply, bind_apply, ← h c hc]
  cases ha : act c with
  | ok a c₁ =>
    rw [after_of_ok ha] at hP
    exact hf a c₁ hP
  | error e c₁ => exact Eq.refl _

theorem EqOn.within {Q : Context σ → Prop} {enter leave : Context σ → Context σ}
    {act act' : Run σ α} (h : EqOn Q act act') (enters : ∀ c, P c → Q (enter c)) :
    EqOn P (Run.within enter leave act) (Run.within enter leave act') := by
  intro c hc
  unfold Run.within
  rw [h _ (enters c hc)]

end Run

end Fabula
