import Mathlib
import Fabula.Proofs.TrainedModel

/-!
# Fabula.Proofs.TrainedLanguage

**The language of a trained model.** Which texts can a model say, if nothing is known of the source but
that it keeps indices in their bounds (`Model.CanSay`)? Those that look like the sentences everywhere:
every window of `order + 1` successive tokens, the empty ones in front and the end token included, has
been seen in some sentence (`Resembles`).

The proof goes through the tokens of a text with the contexts in front of them, which `met` lists:

* they are the windows of the text (`mem_met_iff`, `resembles_iff`);
* a text that a walk comes to has only successors among them (`Model.Walk.path`), and a text that has
  only successors is what a walk comes to for a source that gives the right answers
  (`Model.exists_walk`). This holds of every model, trained or not;
* in a trained model the successors are what was met in the sentences (`mem_successors_trained`).
-/

namespace Fabula.Markov

/-! ### What can be said -/

/-- Some source that keeps indices in their bounds makes the model give this text. -/
def Model.CanSay (m : Model) (text : String) : Prop :=
  ∃ (σ : Type) (_ : RandomSource σ) (s s' : σ),
    (∀ size (s : σ), 0 < size → (RandomSource.index size s).1 < size) ∧
      m.generate s = (.ok (some text), s')

/-- The tokens of a text as training sees them: after empty ones, and before the end token. -/
def padded (order : Nat) (words : List String) : List String := opening order ++ (words ++ [endToken])

/-- The tokens of a sentence as training sees them. -/
def paddedSentence (order : Nat) (sentence : String) : List String := opening order ++ tokens sentence

/-- Wherever one looks at `order + 1` successive tokens of a text, they stand like that in one of the
sentences. -/
def Resembles (sentences : List String) (order : Nat) (words : List String) : Prop :=
  ∀ window, window.length = order + 1 → window <:+: padded order words →
    ∃ sentence ∈ sentences, window <:+: paddedSentence order sentence

/-- How many characters the words have, the spaces between them left out. -/
def characterCount (words : List String) : Nat := (words.map String.length).sum

@[simp] theorem characterCount_nil : characterCount [] = 0 := rfl

@[simp] theorem characterCount_cons (word : String) (words : List String) :
    characterCount (word :: words) = word.length + characterCount words := by
  simp [characterCount]

/-- Of some words, all have a character but the empty ones. -/
theorem length_le_characterCount (words : List String) :
    words.length ≤ characterCount words + words.count "" := by
  induction words with
  | nil => simp
  | cons word words ih =>
    rw [characterCount_cons, List.length_cons]
    by_cases hempty : word = ""
    · subst hempty
      rw [List.count_cons_self]
      omega
    · have hfilled := Nat.pos_of_ne_zero fun h => hempty (String.length_eq_zero_iff.mp h)
      rw [List.count_cons_of_ne hempty]
      omega

/-! ### Windows -/

theorem length_slide {context : List String} (h : context ≠ []) (token : String) :
    (slide context token).length = context.length := by
  have := List.length_pos_iff.mpr h
  simp only [slide, List.length_append, List.length_tail, List.length_singleton]
  omega

theorem length_of_met {start context ts : List String} {token : String} (hstart : start ≠ [])
    (h : (context, token) ∈ met start ts) : context.length = start.length := by
  induction ts generalizing start with
  | nil => cases h
  | cons t ts ih =>
    rcases List.mem_cons.mp h with heq | h
    · cases heq
      rfl
    · rw [ih (slide_ne_nil start t) h, length_slide hstart]

theorem map_snd_met (start ts : List String) : (met start ts).map Prod.snd = ts := by
  induction ts generalizing start with
  | nil => rfl
  | cons t ts ih => rw [met, List.map_cons, ih]

/-- A token with the context in front of it is a window. -/
theorem mem_met_iff {start context ts : List String} {token : String} (hstart : start ≠ [])
    (hlength : context.length = start.length) :
    (context, token) ∈ met start ts ↔ context ++ [token] <:+: start ++ ts := by
  induction ts generalizing start with
  | nil =>
    refine ⟨fun h => (nomatch h), fun h => absurd h.length_le ?_⟩
    simp [hlength]
  | cons t ts ih =>
    obtain ⟨oldest, recent, rfl⟩ := List.exists_cons_of_ne_nil hstart
    -- a window stands at the front, or it is one of what follows the oldest token
    have hrest : (context, token) ∈ met (slide (oldest :: recent) t) ts ↔
        context ++ [token] <:+: recent ++ t :: ts := by
      rw [ih (slide_ne_nil _ _) (by rw [length_slide hstart, hlength])]
      simp [slide]
    have hfirst : context ++ [token] <+: oldest :: (recent ++ t :: ts) ↔
        (context, token) = (oldest :: recent, t) := by
      have hfront : oldest :: recent ++ [t] <+: oldest :: (recent ++ t :: ts) := ⟨ts, by simp⟩
      constructor
      · intro h
        have heq := (List.prefix_of_prefix_length_le h hfront (by simp [hlength])).eq_of_length
          (by simp [hlength])
        obtain ⟨hcontext, htoken⟩ := List.append_inj' heq rfl
        cases htoken
        rw [hcontext]
      · intro h
        cases h
        exact hfront
    rw [met, List.mem_cons, hrest, ← hfirst, List.cons_append, List.infix_cons_iff]

/-- A text resembles sentences when each of its tokens has been met after the context in front of it. -/
theorem resembles_iff {sentences words : List String} {order : Nat} (ho : 1 ≤ order) :
    Resembles sentences order words ↔
      ∀ context token, (context, token) ∈ met (opening order) (words ++ [endToken]) →
        Met sentences order context token := by
  have hopening : opening order ≠ [] := by simpa [opening] using Nat.ne_of_gt ho
  have hmet : ∀ {context token}, context.length = (opening order).length →
      (Met sentences order context token ↔
        ∃ sentence ∈ sentences, context ++ [token] <:+: paddedSentence order sentence) :=
    fun hlength => exists_congr fun _ => and_congr_right fun _ => mem_met_iff hopening hlength
  constructor
  · intro h context token hmem
    have hlength := length_of_met hopening hmem
    refine (hmet hlength).mpr (h _ ?_ ((mem_met_iff hopening hlength).mp hmem))
    simp [hlength, opening]
  · intro h window hsize hwindow
    have hne : window ≠ [] := List.ne_nil_of_length_eq_add_one hsize
    obtain ⟨context, token, rfl⟩ : ∃ context token, window = context ++ [token] :=
      ⟨window.dropLast, window.getLast hne, (List.dropLast_concat_getLast hne).symm⟩
    have hlength : context.length = (opening order).length := by simpa [opening] using hsize
    exact (hmet hlength).mp (h context token ((mem_met_iff hopening hlength).mpr hwindow))

/-! ### Walks and their texts -/

section Walks

variable {m : Model} {context words : List String} {characters : Nat}

/-- From `context` on, these words are successors of what stands in front of them, and so is the end
token after them. -/
def Model.Path (m : Model) (context words : List String) : Prop :=
  ∀ front token, (front, token) ∈ met context (words ++ [endToken]) → token ∈ m.successors front

theorem Model.path_cons {word : String} : m.Path context (word :: words) ↔
    word ∈ m.successors context ∧ m.Path (slide context word) words := by
  unfold Path
  simp [met, or_imp, forall_and]

theorem Model.path_nil : m.Path context [] ↔ endToken ∈ m.successors context := by
  unfold Path
  simp [met]

/-- A model that knows nothing has no words to go along. -/
theorem Model.Path.transitions_ne_nil (h : m.Path context words) : m.transitions ≠ [] := by
  intro hnil
  have hunknown : ∀ front, m.successors front = [] := by
    intro front
    unfold successors
    rw [hnil]
    rfl
  cases words with
  | nil => exact absurd (path_nil.mp h) (by simp [hunknown])
  | cons word words => exact absurd (path_cons.mp h).1 (by simp [hunknown])

/-- A walk that comes to a text goes along the words that it adds. -/
theorem Model.Walk.path {σ : Type} [RandomSource σ] {s s' : σ} {draws : Nat} {text : String}
    (h : m.Walk context words characters s draws (.ok (some text)) s')
    (hroom : characters ≤ m.settings.maxCharacters) :
    ∃ added, text = phrase (added.reverse ++ words) ∧ endToken ∉ added ∧
      characters + characterCount added ≤ m.settings.maxCharacters ∧ m.Path context added := by
  generalize hresult : (Except.ok (some text) : Except MarkovError (Option String)) = result at h
  induction h with
  | unknown h => cases hresult
  | ends hdraw htoken =>
    cases hresult
    exact ⟨[], rfl, by simp, hroom, path_nil.mpr (List.mem_of_getElem? htoken)⟩
  | long hdraw htoken hend hlong => cases hresult
  | step hdraw htoken hend hshort _ ih =>
    obtain ⟨added, htext, hends, hcount, hpath⟩ := ih hshort hresult
    refine ⟨_ :: added, by rw [htext]; simp, ?_, ?_,
      path_cons.mpr ⟨List.mem_of_getElem? htoken, hpath⟩⟩
    · simp [hends, Ne.symm hend]
    · rw [characterCount_cons]
      omega

/-- With a source that keeps indices in their bounds, what is generated is what a walk comes to. -/
theorem Model.walk_of_extend {σ : Type} [RandomSource σ] {s s' : σ} {text : String} {limit : Nat}
    (hindex : ∀ size (s : σ), 0 < size → (RandomSource.index size s).1 < size)
    (h : m.extend context words characters limit s = (.ok (some text), s')) :
    ∃ draws, m.Walk context words characters s draws (.ok (some text)) s' := by
  induction limit generalizing context words characters s with
  | zero => cases h
  | succ limit ih =>
    by_cases hnil : m.successors context = []
    · have hunknown : m.Walk context words characters s 0 _ s := .unknown hnil
      rw [hunknown.extend_eq (Nat.succ_pos limit)] at h
      cases h
    · have hlt := hindex (m.successors context).length s (List.length_pos_iff.mpr hnil)
      rcases hdraw : RandomSource.index (m.successors context).length s with ⟨i, s₁⟩
      rw [hdraw] at hlt
      have htoken := List.getElem?_eq_getElem hlt
      rw [Model.extend_of_draw hdraw htoken] at h
      split at h
      · rename_i hend
        cases h
        exact ⟨1, .ends hdraw (hend ▸ htoken)⟩
      · rename_i hend
        split at h
        · cases h
        · rename_i hlong
          obtain ⟨draws, hwalk⟩ := ih h
          exact ⟨draws + 1, .step hdraw htoken hend (Nat.not_lt.mp hlong) hwalk⟩

end Walks

/-! ### Sources that answer as one likes -/

/-- A source that gives these indices in order, each brought within the bounds that are asked for. -/
structure Answers where
  /-- The indices to come. -/
  indices : List Nat

instance : RandomSource Answers where
  next s := (0, s)
  between a _ s := (a, s)
  index size s := (s.indices.headD 0 % size, ⟨s.indices.tail⟩)

theorem Answers.index_lt (size : Nat) (s : Answers) (h : 0 < size) :
    (RandomSource.index size s).1 < size := Nat.mod_lt _ h

theorem Answers.index_cons {i size : Nat} (h : i < size) (rest : List Nat) :
    RandomSource.index size (⟨i :: rest⟩ : Answers) = (i, ⟨rest⟩) :=
  Prod.ext (Nat.mod_eq_of_lt h) rfl

/-- Words that are successors of what stands in front of them can be walked along, as long as they are
not too long. -/
theorem Model.exists_walk {m : Model} {context words added : List String} {characters : Nat}
    (hpath : m.Path context added) (hends : endToken ∉ added)
    (hroom : characters + characterCount added ≤ m.settings.maxCharacters) :
    ∃ (s s' : Answers), m.Walk context words characters s (added.length + 1)
      (.ok (some (phrase (added.reverse ++ words)))) s' := by
  induction added generalizing context words characters with
  | nil =>
    obtain ⟨i, htoken⟩ := List.mem_iff_getElem?.mp (path_nil.mp hpath)
    have hi := (List.getElem?_eq_some_iff.mp htoken).1
    exact ⟨⟨[i]⟩, ⟨[]⟩, .ends (Answers.index_cons hi []) htoken⟩
  | cons word added ih =>
    obtain ⟨hword, hpath⟩ := path_cons.mp hpath
    obtain ⟨i, htoken⟩ := List.mem_iff_getElem?.mp hword
    have hi := (List.getElem?_eq_some_iff.mp htoken).1
    obtain ⟨hend, hends⟩ := List.ne_and_not_mem_of_not_mem_cons hends
    have hroom : characters + word.length + characterCount added ≤ m.settings.maxCharacters := by
      rw [characterCount_cons] at hroom
      omega
    obtain ⟨⟨indices⟩, s', hwalk⟩ := ih hpath hends hroom
    refine ⟨⟨i :: indices⟩, s', ?_⟩
    rw [List.reverse_cons, List.append_assoc]
    exact .step (Answers.index_cons hi indices) htoken (Ne.symm hend) (by omega) hwalk

/-! ### Trained models -/

/-- In a trained model, what can be walked along has been met. -/
theorem met_of_path {sentences context words : List String} {settings : Settings}
    (ho : 1 ≤ settings.order) (hc : Spaceless context) (hne : context ≠ [])
    (h : (trained sentences settings).Path context words) {front : List String} {token : String}
    (hmem : (front, token) ∈ met context (words ++ [endToken])) :
    Met sentences settings.order front token := by
  induction words generalizing context with
  | nil =>
    have hend := Model.path_nil.mp h
    obtain ⟨rfl, rfl⟩ : front = context ∧ token = endToken := by simpa [met] using hmem
    exact (mem_successors_trained ho hc hne).mp hend
  | cons word words ih =>
    obtain ⟨hword, hrest⟩ := Model.path_cons.mp h
    have hmet := (mem_successors_trained ho hc hne).mp hword
    rcases List.mem_cons.mp hmem with heq | hmem
    · cases heq
      exact hmet
    · exact ih (hc.slide hmet.token_filled.1) (slide_ne_nil context word) hrest hmem

/-- The texts that can be walked along in a trained model are those that resemble the sentences. -/
theorem path_trained_iff {sentences words : List String} {settings : Settings}
    (ho : 1 ≤ settings.order) :
    (trained sentences settings).Path (opening settings.order) words ↔
      Resembles sentences settings.order words := by
  rw [resembles_iff ho]
  constructor
  · intro h front token hmem
    refine met_of_path ho (spaceless_opening _) ?_ h hmem
    simpa [opening] using Nat.ne_of_gt ho
  · intro h front token hmem
    have hmet := h front token hmem
    obtain ⟨hspaceless, hne⟩ := hmet.context_spaceless ho
    exact (mem_successors_trained ho hspaceless hne).mpr hmet

/-- Tokens that have been met are not empty, so there are no more of them than characters. -/
theorem length_le_of_resembles {sentences words : List String} {order : Nat} (ho : 1 ≤ order)
    (h : Resembles sentences order words) : words.length ≤ characterCount words := by
  have hfilled : "" ∉ words := by
    intro hempty
    have hmem : "" ∈ (met (opening order) (words ++ [endToken])).map Prod.snd := by
      rw [map_snd_met]
      exact List.mem_append_left _ hempty
    obtain ⟨⟨front, token⟩, hpair, heq⟩ := List.mem_map.mp hmem
    cases heq
    exact absurd ((resembles_iff ho).mp h front _ hpair).token_filled.2 (by decide)
  have := length_le_characterCount words
  rw [List.count_eq_zero.mpr hfilled] at this
  exact this

/-- **The language of a trained model.** Training never fails on contexts of one token or more, and the
texts that the model can then say, for some source that keeps indices in their bounds, are exactly the
words joined by spaces of which none is the end token, which have no more characters than are allowed,
and which look like the sentences everywhere: each window of `order + 1` successive tokens, with the
empty tokens in front and the end token behind, is a window of some sentence. -/
theorem trained_language (sentences : List String) (settings : Settings) (ho : 1 ≤ settings.order) :
    ∃ m, train sentences settings = .ok m ∧ ∀ text, m.CanSay text ↔
      ∃ words, text = String.intercalate " " words ∧ endToken ∉ words ∧
        characterCount words ≤ settings.maxCharacters ∧
        Resembles sentences settings.order words := by
  refine ⟨trained sentences settings, train_eq ho sentences, fun text => ⟨?_, ?_⟩⟩
  · rintro ⟨σ, _, s, s', hindex, hgenerate⟩
    unfold Model.generate at hgenerate
    split at hgenerate
    · cases hgenerate
    · obtain ⟨draws, hwalk⟩ := Model.walk_of_extend hindex hgenerate
      obtain ⟨words, htext, hends, hcount, hpath⟩ := hwalk.path (Nat.zero_le _)
      rw [Nat.zero_add] at hcount
      exact ⟨words, by simpa [phrase] using htext, hends, hcount, (path_trained_iff ho).mp hpath⟩
  · rintro ⟨words, rfl, hends, hcount, hlike⟩
    have hpath := (path_trained_iff ho).mpr hlike
    have hroom : 0 + characterCount words ≤ settings.maxCharacters := by rwa [Nat.zero_add]
    obtain ⟨s, s', hwalk⟩ := Model.exists_walk hpath hends hroom
    have hdraws : words.length + 1 ≤ settings.maxCharacters + 1 :=
      Nat.succ_le_succ (Nat.le_trans (length_le_of_resembles ho hlike) hcount)
    have hgenerate := Model.generate_of_walk hpath.transitions_ne_nil hdraws hwalk
    refine ⟨Answers, inferInstance, s, s', Answers.index_lt, ?_⟩
    rw [hgenerate]
    simp [phrase]

/-- Sentences may be mixed where they share a word, and one in which the end token stands may end there. -/
theorem sagas_language :
    1 ≤ (1 : Nat) ∧
      ∃ m, train ["odin fares far", "thor fares home", "odin </S> far"] { order := 1 } = .ok m ∧
        m.CanSay "odin fares home" ∧ m.CanSay "odin" := by
  obtain ⟨m, hm, hlanguage⟩ := trained_language
    ["odin fares far", "thor fares home", "odin </S> far"] { order := 1 } (by decide)
  have hlike : ∀ words ∈ [["odin", "fares", "home"], ["odin"]],
      ∀ seen ∈ met (opening 1) (words ++ [endToken]),
        ∃ sentence ∈ ["odin fares far", "thor fares home", "odin </S> far"],
          seen ∈ met (opening 1) (tokens sentence) := by decide +kernel
  refine ⟨by decide, m, hm, (hlanguage _).mpr ?_, (hlanguage _).mpr ?_⟩
  · refine ⟨["odin", "fares", "home"], by decide +kernel, by decide, by decide, ?_⟩
    exact (resembles_iff (by decide)).mpr fun _ _ hmem => hlike _ (by decide) _ hmem
  · refine ⟨["odin"], by decide +kernel, by decide, by decide, ?_⟩
    exact (resembles_iff (by decide)).mpr fun _ _ hmem => hlike _ (by decide) _ hmem

end Fabula.Markov
