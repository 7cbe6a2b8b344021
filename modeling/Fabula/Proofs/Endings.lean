import Fabula.Proofs.DrawBound
import Fabula.Proofs.Hazard
import Fabula.Proofs.MarkovTries
import Fabula.Proofs.Routine

/-!
# Fabula.Proofs.Endings

**Without empty tokens every expansion comes back.** The one thing in an expansion that may go on for
ever is a text from a Markov model: templates nest up to a limit, and all else goes through lists. A text
is drawn until it ends or has too many characters, so only a token without characters can put off its
end.

To go on for ever counts as an error, and no template can be blamed for it (`Hazard.unending`). So if
every text from the models of a grammar comes to an end (`Markov.Model.Ends`), and the registered
modifiers come back, then so does every rule that is expanded (`Grammar.Ends.expandRule`).

* Texts come to an end whatever is drawn if there is no empty token in the table of the model
  (`Markov.Model.Filled.ends`), as there is none after training (`Markov.filled_trained`).
* A routine comes back if what it asks for does (`Routine.override_ends`).
-/

namespace Fabula

variable {σ α β : Type}

/-! ### Models without empty tokens -/

namespace Markov

/-- No token in the table is empty. -/
def Model.Filled (m : Model) : Prop := ∀ entry ∈ m.transitions, "" ∉ entry.2

theorem filled_observe {table : Table (List String)} (h : ∀ entry ∈ table, "" ∉ entry.2)
    {start ts : List String} (hts : "" ∉ ts) : ∀ entry ∈ observe start table ts, "" ∉ entry.2 := by
  induction ts generalizing start table with
  | nil => exact h
  | cons t ts ih =>
    rw [List.mem_cons, not_or] at hts
    refine ih (fun entry hentry => ?_) hts.2
    rcases Table.mem_modify hentry with hentry | rfl
    · exact h entry hentry
    · have hkept : "" ∉ (table.get? (key start)).getD [] := by
        cases hget : table.get? (key start) with
        | none => exact List.not_mem_nil
        | some successors => exact h _ (Table.mem_of_get? hget)
      simpa [hkept] using hts.1

/-- Training enters no empty token. -/
theorem filled_trained (sentences : List String) (settings : Settings) :
    (trained sentences settings).Filled := by
  have hfold : ∀ table : Table (List String), (∀ entry ∈ table, "" ∉ entry.2) → ∀ entry ∈
      sentences.foldl (fun table s => observe (opening settings.order) table (tokens s)) table,
      "" ∉ entry.2 := by
    induction sentences with
    | nil => exact fun _ h => h
    | cons s sentences ih =>
      refine fun table h => ih _ (filled_observe h fun hempty => ?_)
      exact absurd (mem_tokens hempty).2 (by decide)
  exact hfold [] fun _ h => absurd h List.not_mem_nil

variable [RandomSource σ] {m : Model}

/-- Every token takes some of the characters that are left, so there are draws enough to use them up. -/
theorem Model.Filled.extend_ne (h : m.Filled) {context words : List String} {characters draws : Nat}
    (hroom : characters ≤ m.settings.maxCharacters)
    (hdraws : m.settings.maxCharacters < characters + draws) (s : σ) :
    (m.extend context words characters draws s).1 ≠ .error .unfinished := by
  induction draws generalizing context words characters s with
  | zero => omega
  | succ draws ih =>
    rw [Model.extend]
    have hsuccessors : (m.transitions.get? (key context)).getD [] = m.successors context := rfl
    rw [hsuccessors]
    split
    · intro h
      cases h
    · rename_i candidate candidates hcandidates
      have hdrawn := m.drawn_successor context (RandomSource.index (candidates.length + 1) s).1
      rw [hcandidates] at hdrawn
      dsimp only
      generalize (candidate :: candidates).getD (RandomSource.index (candidates.length + 1) s).1
        endToken = token at hdrawn
      split
      · intro h
        cases h
      · rename_i hend
        split
        · intro h
          cases h
        · rename_i hshort
          have hsuccessor : token ∈ m.successors context := hcandidates ▸ hdrawn hend
          obtain ⟨entry, hentry, hmem⟩ := Model.exists_entry hsuccessor
          have hne : token ≠ "" := fun heq => h entry hentry (heq ▸ hmem)
          have hlength : token.length ≠ 0 := fun hzero => hne (String.length_eq_zero_iff.mp hzero)
          exact ih (by omega) (by omega) _

/-- Every text from the model comes to an end, or fails for one of the reasons that the model gives. -/
def Model.Ends (σ : Type) [RandomSource σ] (m : Model) : Prop :=
  ∀ s : σ, (m.generate s).1 ≠ .error .unfinished

/-- Without empty tokens that is so for every source. -/
theorem Model.Filled.ends (h : m.Filled) : m.Ends σ := by
  intro s
  unfold Model.generate
  split
  · nofun
  · have hlimit : 0 < Nat.pow 2 62 := by decide
    refine h.extend_ne (Nat.zero_le _) ?_ s
    unfold Settings.drawLimit
    omega

end Markov

/-! ### Runs that come back -/

/-- The action comes back: it is not stuck in a text without end. -/
abbrev Run.Ends (act : Run σ α) : Prop := act.Avoids (· = .markov .unfinished) fun _ => True

theorem Run.Ends.bind {act : Run σ α} {f : α → Run σ β} (h : act.Ends) (hf : ∀ a, (f a).Ends) :
    (act >>= f).Ends :=
  Avoids.bind h (fun _ _ _ _ _ => trivial) hf

theorem Run.Ends.get_bind {f : Context σ → Run σ α} (h : ∀ c, (f c).Ends) : (get >>= f).Ends :=
  fun c _ => h c c trivial

theorem Run.modify_ends (f : Context σ → Context σ) : (modify f : Run σ Unit).Ends :=
  fun _ _ _ _ h => nomatch h

/-- What follows an attempt is never answered that a text goes on for ever. -/
theorem Run.Ends.attempt_bind {act : Run σ α} (h : act.Ends) {f : Except ExpandError α → Run σ β}
    (hf : ∀ answer, answer ≠ .error (.markov .unfinished) → (f answer).Ends) :
    (act.attempt >>= f).Ends := by
  intro c _ e c' he
  rw [Run.bind_apply] at he
  unfold Run.attempt at he
  cases ha : act c with
  | ok a c₁ =>
    rw [ha] at he
    exact hf (.ok a) nofun c₁ trivial e c' he
  | error e₁ c₁ =>
    rw [ha] at he
    refine hf (.error e₁) (fun hanswer => ?_) c₁ trivial e c' he
    exact h c trivial e₁ c₁ ha (Except.error.inj hanswer)

/-- Whatever it is asked for comes back. -/
structure Engine.Ends (engine : Engine σ) : Prop where
  /-- A template does, -/
  template : ∀ t, (engine.expandTemplate t).Ends
  /-- and a rule. -/
  rule : ∀ name, (engine.expandRule name).Ends

/-- The modifier comes back if what it asks for does. -/
def Override.Ends (f : Override σ) : Prop :=
  ∀ engine : Engine σ, engine.Ends → ∀ value args, (f engine value args).Ends

/-- Unless it is told so, the routine does not say that a text goes on for ever. No program sees that, so
this is all that a routine needs to come back: it asks for one thing after the other, and each of its
branches has an end. -/
def Routine.Ends : Routine → Prop
  | give _ => True
  | fail e => e ≠ .markov .unfinished
  | look go => ∀ view, (go view).Ends
  | next go => ∀ u, (go u).Ends
  | between _ _ go => ∀ n, (go n).Ends
  | index _ go => ∀ i, (go i).Ends
  | push rest => rest.Ends
  | pop rest => rest.Ends
  | template _ go => ∀ answer, answer ≠ .error (.markov .unfinished) → (go answer).Ends
  | rule _ go => ∀ answer, answer ≠ .error (.markov .unfinished) → (go answer).Ends

/-- Such a routine comes back if what it asks for does. -/
theorem Routine.Ends.run [RandomSource σ] {engine : Engine σ} (he : engine.Ends) {r : Routine}
    (h : r.Ends) : (r.run engine).Ends := by
  have hdraw {β : Type} (draw : σ → β × σ) : (Run.draw draw : Run σ β).Ends :=
    fun _ _ _ _ h => nomatch h
  unfold Routine.run
  induction r with
  | give value => exact .pure value
  | fail e => exact .throw h
  | look go ih => exact .get_bind fun c => ih c.view (h c.view)
  | next go ih => exact (hdraw _).bind fun u => ih u (h u)
  | between a b go ih => exact (hdraw _).bind fun n => ih n (h n)
  | index size go ih => exact (hdraw _).bind fun i => ih i (h i)
  | push rest ih => exact (Run.modify_ends _).bind fun _ => ih h
  | pop rest ih => exact (Run.modify_ends _).bind fun _ => ih h
  | template t go ih => exact (he.template t).attempt_bind fun answer hne => ih answer (h answer hne)
  | rule name go ih => exact (he.rule name).attempt_bind fun answer hne => ih answer (h answer hne)

theorem Routine.override_ends [RandomSource σ] {r : String → List Argument → Routine}
    (h : ∀ value args, (r value args).Ends) : (Routine.override r : Override σ).Ends :=
  fun _ he value args => (h value args).run he

/-- Nothing in the grammar goes on for ever. -/
structure Grammar.Ends [RandomSource σ] (g : Grammar σ) : Prop where
  /-- Every text from a model comes to an end, -/
  models : ∀ name m, g.models.get? name = some m → m.Ends σ
  /-- and every registered modifier comes back. -/
  overrides : ∀ name f, g.overrides.get? name = some f → f.Ends

/-- In this context the action comes to no value. If nothing in the grammar goes on for ever, it fails with
an error that the program sees. -/
def Grammar.FailsAt [RandomSource σ] (g : Grammar σ) (act : Run σ α) (c : Context σ) : Prop :=
  (∀ a c', act c ≠ .ok a c') ∧
    (g.Ends → ∃ e c', act c = .error e c' ∧ e ≠ .markov .unfinished)

/-! ### Expansions -/

/-- Nothing but a text from a model goes on for ever. -/
def Hazard.unending : Hazard where
  bad := (· = .markov .unfinished)
  shadow := none
  arguments _ _ h := nomatch h
  depth _ _ h := nomatch h
  shadowed _ h := nomatch h

section Expansions

variable {g : Grammar σ}

/-- So no template is to blame. -/
theorem unending_safe (t : Template) : Hazard.unending.SafeTemplate g (fun _ => True) t := by
  intro r _
  exact {
    symbol := fun _ _ _ h => nomatch h
    modifiers := fun _ _ _ _ h => nomatch h
    targets := fun _ _ _ _ _ _ _ h => nomatch h
    rules := fun _ _ _ => trivial }

variable [RandomSource σ]

namespace Grammar.Ends

variable (hg : g.Ends)
include hg

theorem contained : Hazard.unending.Contained (fun _ _ => True) g (fun _ => True) fun _ => True where
  scopes _ h := nomatch h
  keep _ _ _ _ _ _ _ _ := trivial
  spare name f hf engine _ _ hrules htemplates value args :=
    have hengine : engine.Ends :=
      ⟨fun t => htemplates t (unending_safe t), fun name => hrules name trivial⟩
    hg.overrides name f hf engine hengine value args
  asked _ _ _ h := nomatch h
  rules := {
    readable := fun _ _ _ _ _ _ _ _ h => nomatch h
    templates := fun _ _ _ _ _ _ t _ => unending_safe t }
  globals := Hazard.safeDeclarations_of_all fun entry _ => unending_safe entry.2
  models name m hm s e he h := by
    cases h
    exact hg.models name m hm s he

/-- A rule that is expanded in a context comes back. -/
theorem expandRule (name : String) : (g.expandRule name).Ends := by
  cases hr : g.rule? name with
  | none =>
    refine .get_bind fun c => ?_
    rw [Grammar.engineAt, engineWith_unknown hr]
    exact .throw nofun
  | some r =>
    exact (Hazard.expandRule_avoids anything_invariant hg.contained hr).mono
      fun _ _ => .inl (.inl trivial)

end Grammar.Ends

/-- A rule that fails does so with an error that the program sees, if nothing goes on for ever. -/
theorem Grammar.failsAt_of_error {name : String} {c : Context σ}
    (h : ∃ e c', g.expandRule name c = .error e c') : g.FailsAt (g.expandRule name) c := by
  obtain ⟨e, c', he⟩ := h
  refine ⟨fun a c'' ha => ?_, fun hg => ⟨e, c', he, hg.expandRule name c trivial e c' he⟩⟩
  cases he.symm.trans ha

end Expansions

end Fabula
