import Fabula.Markov.File
import Fabula.Proofs.TrainedLanguage

/-!
# Fabula.Proofs.DrawBound

**How many draws a generation takes.** Every token that is drawn counts against the bound on characters,
but for the empty one. A trained model has no empty token in it; a stored one may.

So a generation from any model takes one draw more than there may be characters, at most, and one more
for every empty token that it draws (`generation_bounded`). Nothing bounds the number of those: a model
whose contexts lead to empty tokens again and again may never come to an end
(`stuttering_unbounded`).
-/

namespace Fabula.Markov

variable {σ : Type} [RandomSource σ]

/-! ### Generations and their beginnings -/

/-- A generation that starts with this source takes so many draws to come to a result, which leaves a
source behind. No bound on the draws is kept. -/
inductive Model.Takes (m : Model) (s : σ) :
    Nat → Except MarkovError (Option String) → σ → Prop
  /-- There is nothing to start from. -/
  | noData (h : m.transitions = []) : Takes m s 0 (.error .noData) s
  /-- The model is walked through from the start of a sentence. -/
  | walk {draws result s'} (h : m.transitions ≠ [])
    (hwalk : m.Walk (opening m.settings.order) [] 0 s draws result s') : Takes m s draws result s'

/-- From `context` on, with `characters` in all so far, the first tokens that are drawn are these, and
the text goes on after each of them. -/
inductive Model.Begins (m : Model) : List String → Nat → σ → List String → Prop
  /-- Nothing has been drawn yet. -/
  | nil {context characters s} : Begins m context characters s []
  /-- A token is drawn and the text goes on. -/
  | cons {context characters s i s' token tokens}
    (hdraw : RandomSource.index (m.successors context).length s = (i, s'))
    (htoken : (m.successors context)[i]? = some token) (hend : token ≠ endToken)
    (hshort : characters + token.length ≤ m.settings.maxCharacters)
    (hrest : Begins m (slide context token) (characters + token.length) s' tokens) :
    Begins m context characters s (token :: tokens)

section Draws

variable {m : Model} {context words tokens : List String} {characters : Nat} {s s' : σ}

/-- The bound on draws that is kept in fact changes nothing if it leaves enough of them. -/
theorem Model.Takes.generate_eq {draws : Nat} {result : Except MarkovError (Option String)}
    (h : m.Takes s draws result s') (hdraws : draws < m.settings.drawLimit) :
    m.generate s = (result, s') := by
  unfold Model.generate
  cases h with
  | noData h => rw [if_pos (by rw [h]; rfl)]
  | walk h hwalk =>
    rw [if_neg (by simpa using h)]
    exact hwalk.extend_eq hdraws

theorem Model.Begins.characterCount_le (h : m.Begins context characters s tokens)
    (hroom : characters ≤ m.settings.maxCharacters) :
    characters + characterCount tokens ≤ m.settings.maxCharacters := by
  induction h with
  | nil => simpa using hroom
  | cons _ _ _ hshort _ ih =>
    have := ih hshort
    rw [characterCount_cons]
    omega

theorem Model.Begins.known (h : m.Begins context characters s tokens) {token : String}
    (hmem : token ∈ tokens) : ∃ context, token ∈ m.successors context := by
  induction h with
  | nil => cases hmem
  | cons _ htoken _ _ _ ih =>
    rcases List.mem_cons.mp hmem with rfl | hmem
    · exact ⟨_, List.mem_of_getElem? htoken⟩
    · exact ih hmem

/-- Whatever follows a context stands in the table. -/
theorem Model.exists_entry {token : String} (h : token ∈ m.successors context) :
    ∃ entry ∈ m.transitions, token ∈ entry.2 := by
  unfold successors successorsIn at h
  cases hfound : m.transitions.get? (key context) with
  | none =>
    rw [hfound] at h
    cases h
  | some tokens =>
    rw [hfound] at h
    exact ⟨_, Table.mem_of_get? hfound, h⟩

/-- A walk has come to its end after so many draws, or it goes on. -/
theorem Model.walk_or_begins
    (hindex : ∀ size (s : σ), 0 < size → (RandomSource.index size s).1 < size) (limit : Nat)
    (context words : List String) (characters : Nat) (s : σ) :
    (∃ draws ≤ limit, ∃ result s', m.Walk context words characters s draws result s') ∨
      ∃ tokens, tokens.length = limit ∧ m.Begins context characters s tokens := by
  induction limit generalizing context words characters s with
  | zero => exact .inr ⟨[], rfl, .nil⟩
  | succ limit ih =>
    by_cases hnil : m.successors context = []
    · exact .inl ⟨0, Nat.zero_le _, _, s, .unknown hnil⟩
    have hlt := hindex (m.successors context).length s (List.length_pos_iff.mpr hnil)
    rcases hdraw : RandomSource.index (m.successors context).length s with ⟨i, s₁⟩
    rw [hdraw] at hlt
    obtain ⟨token, htoken⟩ : ∃ token, (m.successors context)[i]? = some token :=
      ⟨_, List.getElem?_eq_getElem hlt⟩
    by_cases hend : token = endToken
    · exact .inl ⟨1, Nat.le_add_left 1 _, _, s₁, .ends hdraw (hend ▸ htoken)⟩
    by_cases hlong : m.settings.maxCharacters < characters + token.length
    · exact .inl ⟨1, Nat.le_add_left 1 _, _, s₁, .long hdraw htoken hend hlong⟩
    have hshort := Nat.not_lt.mp hlong
    rcases ih (slide context token) (token :: words) (characters + token.length) s₁ with
      ⟨draws, hdraws, result, s', hwalk⟩ | ⟨tokens, hlength, hbegins⟩
    · exact .inl ⟨draws + 1, Nat.succ_le_succ hdraws, result, s',
        .step hdraw htoken hend hshort hwalk⟩
    · exact .inr ⟨token :: tokens, congrArg (· + 1) hlength,
        .cons hdraw htoken hend hshort hbegins⟩

/-- Within so many draws a generation has come to a result, or the empty token was among them so many
times. -/
theorem Model.takes_or_stutters
    (hindex : ∀ size (s : σ), 0 < size → (RandomSource.index size s).1 < size) (empties : Nat) :
    (∃ draws ≤ m.settings.maxCharacters + empties + 1, ∃ result s', m.Takes s draws result s') ∨
      ∃ tokens, tokens.length = m.settings.maxCharacters + empties + 1 ∧
        m.Begins (opening m.settings.order) 0 s tokens ∧ empties < tokens.count "" := by
  by_cases hm : m.transitions = []
  · exact .inl ⟨0, Nat.zero_le _, _, s, .noData hm⟩
  rcases walk_or_begins hindex (m.settings.maxCharacters + empties + 1) (opening m.settings.order) []
    0 s with ⟨draws, hdraws, result, s', hwalk⟩ | ⟨tokens, hlength, hbegins⟩
  · exact .inl ⟨draws, hdraws, result, s', .walk hm hwalk⟩
  · have hcount := hbegins.characterCount_le (Nat.zero_le _)
    have := length_le_characterCount tokens
    exact .inr ⟨tokens, hlength, hbegins, by omega⟩

end Draws

/-- **Empty tokens are all that a generation can waste draws on.** Whatever stands in a model and whatever
its settings are, from a source that keeps indices in their bounds a generation comes to a result after
one draw more than a text may have characters, or it has drawn the empty token by then; with so many
more draws as one likes, it comes to a result or has drawn the empty token more often than that. So with
a model that has no empty token in its table it never takes more than one draw beyond the bound on
characters. -/
theorem generation_bounded (m : Model)
    (hindex : ∀ size (s : σ), 0 < size → (RandomSource.index size s).1 < size) (s : σ) :
    (∀ empties,
      (∃ draws ≤ m.settings.maxCharacters + empties + 1, ∃ result s', m.Takes s draws result s') ∨
      ∃ tokens, tokens.length = m.settings.maxCharacters + empties + 1 ∧
        m.Begins (opening m.settings.order) 0 s tokens ∧ empties < tokens.count "") ∧
    ((∀ entry ∈ m.transitions, "" ∉ entry.2) →
      ∃ draws ≤ m.settings.maxCharacters + 1, ∃ result s',
        m.Takes s draws result s' ∧ m.generate s = (result, s')) := by
  refine ⟨Model.takes_or_stutters hindex, fun hfilled => ?_⟩
  rcases Model.takes_or_stutters (s := s) hindex 0 with
    ⟨draws, hdraws, result, s', htakes⟩ | ⟨tokens, -, hbegins, hempty⟩
  · have hlimit : 1 < Nat.pow 2 62 := by decide
    refine ⟨draws, hdraws, result, s', htakes, htakes.generate_eq ?_⟩
    unfold Settings.drawLimit
    omega
  · obtain ⟨context, hmem⟩ := hbegins.known (List.count_pos_iff.mp hempty)
    obtain ⟨entry, hentry, hmem⟩ := Model.exists_entry hmem
    exact absurd hmem (hfilled entry hentry)

/-! ### Some models -/

/-- A model with contexts of no tokens at all, which was cut off: nothing is known of what follows
`boo`. -/
def haunted : Model where
  settings := { order := 0, maxCharacters := 3 }
  transitions := [("", ["o", "boo"]), ("o", ["o", "boo", endToken])]
  sentences := 1

/-- It has no empty tokens, so four draws are enough, however they turn out. -/
theorem haunted_bounded :
    (∀ size (s : Scripted), 0 < size → (RandomSource.index size s).1 < size) ∧
      (∀ entry ∈ haunted.transitions, "" ∉ entry.2) ∧
      ∀ s : Scripted, ∃ draws ≤ 4, ∃ result s',
        haunted.Takes s draws result s' ∧ haunted.generate s = (result, s') :=
  have hindex : ∀ size (s : Scripted), 0 < size → (RandomSource.index size s).1 < size :=
    fun _ _ h => index_lt _ h
  have hfilled : ∀ entry ∈ haunted.transitions, "" ∉ entry.2 := by decide
  ⟨hindex, hfilled, fun s => (generation_bounded haunted hindex s).2 hfilled⟩

/-- A model that may say nothing again and again. -/
def stuttering : Model where
  settings := { order := 1, maxCharacters := 0 }
  transitions := [("", ["", endToken])]
  sentences := 1

/-- The text that it is stored as. -/
def stutteringText : String :=
  "(settings: (order: 1, max_characters: 0), " ++
    "transitions: \x7b\"\": [\"\", \"</S>\"]\x7d, sentence_count: 1)"

theorem ofRon?_stutteringText : Model.ofRon? stutteringText = some stuttering := by
  have hparts : (Model.ofRon? stutteringText).map
      (fun m => (m.settings, m.transitions, m.sentences)) =
        some (stuttering.settings, stuttering.transitions, stuttering.sentences) := by
    decide +kernel
  obtain ⟨m, hm, hparts⟩ := Option.map_eq_some_iff.mp hparts
  rw [hm]
  cases m
  cases hparts
  rfl

/-- The last float of a script stays. -/
theorem index_last (size : Nat) (x : Float) (drawn : Nat) :
    RandomSource.index size (⟨[x], drawn⟩ : Scripted) = (Draw.index x size, ⟨[x], drawn + 1⟩) := rfl

theorem index_script (size : Nat) (x y : Float) (rest : List Float) (drawn : Nat) :
    RandomSource.index size (⟨x :: y :: rest, drawn⟩ : Scripted) =
      (Draw.index x size, ⟨y :: rest, drawn + 1⟩) := rfl

theorem index_zero : Draw.index (Scripted.confine 0) 2 = 0 := by decide +kernel

/-- A source that always draws zero picks the first of two, again and again. -/
theorem index_fixed_zero {s : Scripted} (hs : s.script = [Scripted.confine 0]) :
    ∃ s', RandomSource.index 2 s = (0, s') ∧ s'.script = [Scripted.confine 0] := by
  obtain ⟨script, drawn⟩ := s
  cases hs
  exact ⟨_, by rw [index_last, index_zero], rfl⟩

/-- Then no walk comes to an end, for the empty token leads back to where it was drawn. -/
theorem stuttering_walks_on {words : List String} {s s' : Scripted} {draws : Nat}
    {result : Except MarkovError (Option String)} (hs : s.script = [Scripted.confine 0]) :
    ¬ stuttering.Walk [""] words 0 s draws result s' := by
  intro h
  generalize hcontext : [""] = context, hcharacters : 0 = characters at h
  induction h with
  | unknown hnil =>
    subst hcontext
    cases hnil
  | ends hdraw htoken =>
    subst hcontext
    obtain ⟨s₁, hzero, -⟩ := index_fixed_zero hs
    cases hzero.symm.trans hdraw
    exact absurd htoken (by decide)
  | long hdraw htoken _ hlong =>
    subst hcontext hcharacters
    obtain ⟨s₁, hzero, -⟩ := index_fixed_zero hs
    cases hzero.symm.trans hdraw
    cases htoken
    cases hlong
  | step hdraw htoken _ _ _ ih =>
    subst hcontext hcharacters
    obtain ⟨s₁, hzero, hs₁⟩ := index_fixed_zero hs
    cases hzero.symm.trans hdraw
    cases htoken
    exact ih hs₁ rfl rfl

/-- A stored model can be read that draws three tokens although its texts may have no characters, and that
never comes to an end with a source which always draws zero. -/
theorem stuttering_unbounded :
    Model.ofRon? stutteringText = some stuttering ∧ stuttering.settings.maxCharacters = 0 ∧
      (∃ s', stuttering.Takes (Scripted.ofList [0, 0, 0.9]) 3 (.ok (some " ")) s') ∧
      ∀ draws result s', ¬ stuttering.Takes (Scripted.fixed 0) draws result s' := by
  refine ⟨ofRon?_stutteringText, rfl, ?_, fun draws result s' htakes => ?_⟩
  · have hone : Draw.index (Scripted.confine 0.9) 2 = 1 := by decide +kernel
    have hfirst : RandomSource.index 2 (Scripted.ofList [0, 0, 0.9]) =
        (0, ⟨[Scripted.confine 0, Scripted.confine 0.9], 1⟩) :=
      (index_script 2 _ _ _ 0).trans (by rw [index_zero]; rfl)
    have hsecond : RandomSource.index 2
        (⟨[Scripted.confine 0, Scripted.confine 0.9], 1⟩ : Scripted) =
          (0, ⟨[Scripted.confine 0.9], 2⟩) := by rw [index_script, index_zero]
    have hthird : RandomSource.index 2 (⟨[Scripted.confine 0.9], 2⟩ : Scripted) =
        (1, ⟨[Scripted.confine 0.9], 3⟩) := by rw [index_last, hone]
    have htext : phrase ["", ""] = " " := by decide +kernel
    have hended : stuttering.Walk [""] ["", ""] 0 (⟨[Scripted.confine 0.9], 2⟩ : Scripted) 1
        (.ok (some " ")) ⟨[Scripted.confine 0.9], 3⟩ := htext ▸ .ends hthird rfl
    exact ⟨_, .walk (by decide) (.step hfirst rfl (by decide) (by decide)
      (.step hsecond rfl (by decide) (by decide) hended))⟩
  · cases htakes with
    | noData h => cases h
    | walk _ hwalk => exact stuttering_walks_on rfl hwalk

end Fabula.Markov
