import Fabula.Proofs.Runs
import Fabula.Proofs.TrainedLanguage

/-!
# Fabula.Proofs.MarkovTries

**How a Markov symbol comes to its text.** Texts are generated one after the other until one passes the
filters of the symbol, at most as many as its model allows. `Resolution` lists the three ways in which
this may end: a text is accepted and recorded, the tries run out, or a generation fails. In the last two
nothing is recorded, for this symbol or for any other (`resolveMarkov_resolution`).

Of the filters the one for long texts is applied in the course of generation, token by token, so that it
holds of a text is an invariant of that loop (`Markov.Model.extend_spells`).
-/

namespace Fabula

variable {σ : Type} [RandomSource σ]

/-! ### The text of a generation -/

namespace Markov

variable {m : Model} {context words : List String}

/-- From `context` on, these words are successors of what stands in front of them. -/
def Model.Follows (m : Model) (context words : List String) : Prop :=
  ∀ front token, (front, token) ∈ met context words → token ∈ m.successors front

theorem Model.follows_cons {word : String} : m.Follows context (word :: words) ↔
    word ∈ m.successors context ∧ m.Follows (slide context word) words := by
  unfold Follows
  simp [met, or_imp, forall_and]

/-- The text is joined from words that follow each other from the start of a sentence, and they have no
more characters together than a text may have. -/
def Model.Spells (m : Model) (text : String) : Prop :=
  ∃ words, text = String.intercalate " " words ∧ endToken ∉ words ∧
    characterCount words ≤ m.settings.maxCharacters ∧ m.Follows (opening m.settings.order) words

/-- What is drawn is a successor of the context, unless it is the end token, which stands in for an
index out of bounds. -/
theorem Model.drawn_successor (m : Model) (context : List String) (i : Nat)
    (hend : (m.successors context).getD i endToken ≠ endToken) :
    (m.successors context).getD i endToken ∈ m.successors context := by
  rw [List.getD_eq_getElem?_getD] at hend ⊢
  cases hget : (m.successors context)[i]? with
  | none =>
    rw [hget] at hend
    exact absurd rfl hend
  | some token => exact List.mem_of_getElem? hget

/-- A text is completed with words that follow its context and stay within the bound. -/
theorem Model.extend_spells {characters draws : Nat} {s s' : σ} {text : String}
    (hroom : characters ≤ m.settings.maxCharacters)
    (h : m.extend context words characters draws s = (.ok (some text), s')) :
    ∃ added, text = phrase (added.reverse ++ words) ∧ endToken ∉ added ∧
      characters + characterCount added ≤ m.settings.maxCharacters ∧ m.Follows context added := by
  induction draws generalizing context words characters s with
  | zero => cases h
  | succ draws ih =>
    rw [Model.extend] at h
    have hsuccessors : (m.transitions.get? (key context)).getD [] = m.successors context := rfl
    rw [hsuccessors] at h
    split at h
    · cases h
    · rename_i candidate candidates hcandidates
      have hdrawn := m.drawn_successor context (RandomSource.index (candidates.length + 1) s).1
      rw [hcandidates] at hdrawn
      dsimp only at h
      generalize (candidate :: candidates).getD (RandomSource.index (candidates.length + 1) s).1
        endToken = token at h hdrawn
      split at h
      · cases h
        exact ⟨[], rfl, by simp, hroom, fun _ _ hmem => absurd hmem (by simp [met])⟩
      · rename_i hend
        split at h
        · cases h
        · rename_i hshort
          obtain ⟨added, htext, hends, hcount, hfollows⟩ := ih (Nat.not_lt.mp hshort) h
          refine ⟨token :: added, by rw [htext]; simp, by simp [hends, Ne.symm hend], ?_,
            follows_cons.mpr ⟨hcandidates ▸ hdrawn hend, hfollows⟩⟩
          rwa [characterCount_cons, ← Nat.add_assoc]

theorem Model.generate_spells {s s' : σ} {text : String}
    (h : m.generate s = (.ok (some text), s')) : m.Spells text := by
  unfold Model.generate at h
  split at h
  · cases h
  · obtain ⟨words, htext, hends, hcount, hfollows⟩ := Model.extend_spells (Nat.zero_le _) h
    refine ⟨words, ?_, hends, by rwa [Nat.zero_add] at hcount, hfollows⟩
    rw [htext, phrase, List.append_nil, List.reverse_reverse]

end Markov

/-! ### Tries -/

/-- A generation leaves all of a context but its source as it is. -/
theorem generate_inv {m : Markov.Model} {c c' : Context σ} {found : Option String}
    (h : Run.generate m c = .ok found c') :
    m.generate c.source = (.ok found, c'.source) ∧ c'.produced = c.produced := by
  unfold Run.generate at h
  split at h
  · rename_i hgenerate
    cases h
    exact ⟨hgenerate, rfl⟩
  · cases h

/-- If it fails, it does so with an error of the model. -/
theorem generate_error_inv {m : Markov.Model} {c c' : Context σ} {e : ExpandError}
    (h : Run.generate m c = .error e c') :
    ∃ cause, e = .markov cause ∧ m.generate c.source = (.error cause, c'.source) ∧
      c'.produced = c.produced := by
  unfold Run.generate at h
  split at h
  · cases h
  · rename_i hgenerate
    cases h
    exact ⟨_, rfl, hgenerate, rfl⟩

/-- So many texts have been generated in a row, and none of them has passed the filters. -/
inductive Rejections (name : String) (m : Markov.Model) : Nat → Context σ → Context σ → Prop
  /-- Nothing has been tried. -/
  | none {c : Context σ} : Rejections name m 0 c c
  /-- No text was generated, or one that is rejected. -/
  | cons {calls : Nat} {c c₁ c₂ : Context σ} {found : Option String}
    (h : Run.generate m c = .ok found c₁)
    (hrejected : ∀ text, found = some text → accepts name m.settings c.produced text = false)
    (hrest : Rejections name m calls c₁ c₂) : Rejections name m (calls + 1) c c₂

/-- How the resolution of a symbol ends that may try so often, in terms of the generations that it has
asked for and of the record of accepted texts. -/
inductive Resolution (name : String) (m : Markov.Model) (tries : Nat) (c : Context σ) :
    EStateM.Result ExpandError (Context σ) String → Prop
  /-- The last of its tries gives a text that is accepted, and this is recorded. -/
  | accepted {calls : Nat} {c₁ c₂ : Context σ} {text : String} (hcalls : calls + 1 ≤ tries)
    (h : Rejections name m calls c c₁) (hgenerate : Run.generate m c₁ = .ok (some text) c₂)
    (haccepts : accepts name m.settings c.produced text = true) (hproduced : c₂.produced = c.produced) :
    Resolution name m tries c (.ok text { c₂ with produced := c.produced.insert (name, text) })
  /-- All of its tries are rejected. -/
  | exhausted {c₁ : Context σ} (h : Rejections name m tries c c₁) (hproduced : c₁.produced = c.produced) :
    Resolution name m tries c (.ok "" c₁)
  /-- One of its tries fails. -/
  | failed {calls : Nat} {c₁ c₂ : Context σ} {cause : Markov.MarkovError} (hcalls : calls + 1 ≤ tries)
    (h : Rejections name m calls c c₁) (hgenerate : Run.generate m c₁ = .error (.markov cause) c₂)
    (hproduced : c₂.produced = c.produced) :
    Resolution name m tries c (.error (.markov cause) c₂)

/-- A try that is rejected goes before the resolution. -/
theorem Resolution.cons {name : String} {m : Markov.Model} {tries : Nat} {c c₁ : Context σ}
    {found : Option String} {result : EStateM.Result ExpandError (Context σ) String}
    (hgenerate : Run.generate m c = .ok found c₁)
    (hrejected : ∀ text, found = some text → accepts name m.settings c.produced text = false)
    (h : Resolution name m tries c₁ result) : Resolution name m (tries + 1) c result := by
  have hsame := (generate_inv hgenerate).2
  cases h with
  | accepted hcalls h hlast haccepts hproduced =>
    rw [hsame] at haccepts hproduced ⊢
    exact .accepted (Nat.succ_le_succ hcalls) (.cons hgenerate hrejected h) hlast haccepts hproduced
  | exhausted h hproduced =>
    exact .exhausted (.cons hgenerate hrejected h) (hproduced.trans hsame)
  | failed hcalls h hlast hproduced =>
    exact .failed (Nat.succ_le_succ hcalls) (.cons hgenerate hrejected h) hlast
      (hproduced.trans hsame)

/-- A symbol is resolved in one of these ways. -/
theorem resolveMarkov_resolution (name : String) (m : Markov.Model) (tries : Nat) (c : Context σ) :
    Resolution name m tries c (resolveMarkov name m tries c) := by
  induction tries generalizing c with
  | zero => exact .exhausted .none rfl
  | succ tries ih =>
    rw [resolveMarkov, Run.bind_apply]
    cases hgenerate : Run.generate m c with
    | error e c₁ =>
      obtain ⟨cause, rfl, -, hproduced⟩ := generate_error_inv hgenerate
      exact .failed (Nat.le_add_left 1 tries) .none hgenerate hproduced
    | ok found c₁ =>
      cases found with
      | none => exact .cons hgenerate (fun _ h => nomatch h) (ih c₁)
      | some text =>
        have hsame := (generate_inv hgenerate).2
        dsimp only
        rw [Run.get_bind, hsame]
        by_cases haccepts : accepts name m.settings c.produced text = true
        · rw [if_pos haccepts]
          have hresult := Resolution.accepted (Nat.le_add_left 1 tries) .none hgenerate haccepts hsame
          rwa [← hsame] at hresult
        · rw [if_neg haccepts]
          refine .cons hgenerate ?_ (ih c₁)
          rintro _ ⟨⟩
          exact Bool.eq_false_iff.mpr haccepts

end Fabula
