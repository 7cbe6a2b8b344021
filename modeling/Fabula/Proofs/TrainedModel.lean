import Fabula.Markov.Model
import Fabula.Random.Scripted

/-!
# Fabula.Proofs.TrainedModel

**Trained models always know how to go on.** Generation moves from context to context, and fails in one
that has no successors. A context that training has met has one, and so does every context that
generation can get to from it.

The argument has three parts:

* a text under which a context is kept tells its tokens apart (`key_injective`), because tokens have no
  spaces in them; so the successors of a context are exactly the tokens that followed it
  (`mem_successors_train`);
* the contexts that training has met are closed under taking a successor, the end token apart
  (`Met.slide`);
* generation is a walk through contexts (`Model.Walk`), and a walk that starts in a closed set of them
  comes to an end, because every token counts against the bound on characters (`Model.Closed.walk`).
-/

namespace Fabula

/-! ### Words -/

namespace Text

theorem mem_closeWord {w word : List Char} {ws : List (List Char)} (h : w ∈ closeWord word ws) :
    w = word.reverse ∧ word ≠ [] ∨ w ∈ ws := by
  unfold closeWord at h
  cases word with
  | nil => exact .inr (by simpa using h)
  | cons c cs => simpa using h

/-- A word has a character in it, and no white space. -/
theorem of_mem_wordsFrom {word cs w : List Char} (hword : ∀ c ∈ word, isBlank c = false)
    (hw : w ∈ wordsFrom word cs) : w ≠ [] ∧ ∀ c ∈ w, isBlank c = false := by
  induction cs generalizing word with
  | nil =>
    rcases mem_closeWord hw with ⟨rfl, hne⟩ | hw
    · exact ⟨by simpa using hne, fun c hc => hword c (List.mem_reverse.mp hc)⟩
    · cases hw
  | cons c cs ih =>
    unfold wordsFrom at hw
    by_cases hc : isBlank c = true
    · rw [if_pos hc] at hw
      rcases mem_closeWord hw with ⟨rfl, hne⟩ | hw
      · exact ⟨by simpa using hne, fun c hc => hword c (List.mem_reverse.mp hc)⟩
      · exact ih (by simp) hw
    · rw [if_neg hc] at hw
      refine ih (fun d hd => ?_) hw
      rcases List.mem_cons.mp hd with rfl | hd
      · simpa using hc
      · exact hword d hd

theorem of_mem_words {cs w : List Char} (hw : w ∈ words cs) :
    w ≠ [] ∧ ∀ c ∈ w, isBlank c = false := of_mem_wordsFrom (by simp) hw

end Text

namespace Markov

/-! ### Tokens and the texts of contexts -/

/-- No token of a context has a space in it. -/
def Spaceless (context : List String) : Prop := ∀ token ∈ context, ' ' ∉ token.toList

theorem mem_tokens {sentence token : String} (h : token ∈ tokens sentence) :
    ' ' ∉ token.toList ∧ 0 < token.length := by
  unfold tokens at h
  rcases List.mem_append.mp h with h | h
  · obtain ⟨w, hw, rfl⟩ := List.mem_map.mp h
    obtain ⟨hne, hblank⟩ := Text.of_mem_words hw
    refine ⟨fun hspace => ?_, by simpa [List.length_pos_iff] using hne⟩
    exact absurd (hblank ' ' (by simpa using hspace)) (by decide)
  · rw [List.mem_singleton.mp h]
    decide

theorem spaceless_opening (order : Nat) : Spaceless (opening order) := by
  intro token h
  rw [List.eq_of_mem_replicate h]
  decide

theorem Spaceless.slide {context : List String} {token : String} (h : Spaceless context)
    (ht : ' ' ∉ token.toList) : Spaceless (slide context token) := by
  intro t hmem
  rcases List.mem_append.mp hmem with hmem | hmem
  · exact h t (List.mem_of_mem_tail hmem)
  · rwa [List.mem_singleton.mp hmem]

theorem slide_ne_nil (context : List String) (token : String) : slide context token ≠ [] := by
  simp [slide]

theorem toList_key (context : List String) :
    (key context).toList = [' '].intercalate (context.map String.toList) :=
  String.toList_intercalate

/-- Cutting the text of a context at the spaces gives its tokens back. -/
theorem splitOn_key {context : List String} (h : Spaceless context) (hne : context ≠ []) :
    (key context).toList.splitOn ' ' = context.map String.toList := by
  rw [toList_key]
  refine List.splitOn_intercalate ' ' (fun cs hcs => ?_) (by simpa using hne)
  obtain ⟨token, htoken, rfl⟩ := List.mem_map.mp hcs
  exact h token htoken

/-- Two contexts are never kept under the same text. -/
theorem key_injective {context context' : List String} (h : Spaceless context)
    (h' : Spaceless context') (hne : context ≠ []) (hne' : context' ≠ [])
    (heq : key context = key context') : context = context' := by
  have htokens : context.map String.toList = context'.map String.toList := by
    rw [← splitOn_key h hne, ← splitOn_key h' hne', heq]
  exact (List.map_inj_right fun _ _ => String.toList_inj.mp).mp htokens

/-! ### What training has met -/

/-- Every token of a sentence with the context in front of it, from `context` on. -/
def met (context : List String) : List String → List (List String × String)
  | [] => []
  | token :: rest => (context, token) :: met (slide context token) rest

/-- In one of the sentences `token` follows `context`. -/
def Met (sentences : List String) (order : Nat) (context : List String) (token : String) : Prop :=
  ∃ sentence ∈ sentences, (context, token) ∈ met (opening order) (tokens sentence)

theorem token_of_met {start ts context : List String} {token : String}
    (h : (context, token) ∈ met start ts) : token ∈ ts := by
  induction ts generalizing start with
  | nil => cases h
  | cons t ts ih =>
    rcases List.mem_cons.mp h with heq | h
    · cases heq
      exact List.mem_cons_self
    · exact List.mem_cons_of_mem _ (ih h)

theorem context_of_met {start ts context : List String} {token : String}
    (hts : ∀ t ∈ ts, ' ' ∉ t.toList) (hs : Spaceless start) (hne : start ≠ [])
    (h : (context, token) ∈ met start ts) : Spaceless context ∧ context ≠ [] := by
  induction ts generalizing start with
  | nil => cases h
  | cons t ts ih =>
    have ⟨ht, hts⟩ := List.forall_mem_cons.mp hts
    rcases List.mem_cons.mp h with heq | h
    · cases heq
      exact ⟨hs, hne⟩
    · exact ih hts (hs.slide ht) (slide_ne_nil _ _) h

/-- Only the last token of a sentence has nothing after it. -/
theorem slide_met {start ts context : List String} {token last : String}
    (h : (context, token) ∈ met start (ts ++ [last])) (hlast : token ≠ last) :
    ∃ next, (slide context token, next) ∈ met start (ts ++ [last]) := by
  induction ts generalizing start with
  | nil =>
    cases List.mem_singleton.mp h
    exact absurd rfl hlast
  | cons t ts ih =>
    rcases List.mem_cons.mp h with heq | h
    · cases heq
      cases ts with
      | nil => exact ⟨last, .tail _ (.head _)⟩
      | cons next rest => exact ⟨next, .tail _ (.head _)⟩
    · obtain ⟨next, hnext⟩ := ih h
      exact ⟨next, List.mem_cons_of_mem _ hnext⟩

section Met

variable {sentences context : List String} {order : Nat} {token : String}

theorem Met.token_filled (h : Met sentences order context token) :
    ' ' ∉ token.toList ∧ 0 < token.length := by
  obtain ⟨sentence, -, hmem⟩ := h
  exact mem_tokens (token_of_met hmem)

theorem Met.context_spaceless (ho : 1 ≤ order) (h : Met sentences order context token) :
    Spaceless context ∧ context ≠ [] := by
  obtain ⟨sentence, -, hmem⟩ := h
  refine context_of_met (fun t ht => (mem_tokens ht).1) (spaceless_opening order) ?_ hmem
  simpa [opening] using Nat.ne_of_gt ho

/-- The contexts that have been met are closed: after every token but the one that ends a sentence
there is another. -/
theorem Met.slide (h : Met sentences order context token) (hend : token ≠ endToken) :
    ∃ next, Met sentences order (slide context token) next := by
  obtain ⟨sentence, hsentence, hmem⟩ := h
  obtain ⟨next, hnext⟩ := slide_met hmem hend
  exact ⟨next, sentence, hsentence, hnext⟩

/-- Every sentence begins in the same context. -/
theorem met_opening (hs : sentences ≠ []) (order : Nat) :
    ∃ token, Met sentences order (opening order) token := by
  obtain ⟨sentence, hsentence⟩ := List.exists_mem_of_ne_nil sentences hs
  cases hts : tokens sentence with
  | nil => simp [tokens] at hts
  | cons token rest => exact ⟨token, sentence, hsentence, hts ▸ .head _⟩

end Met

/-! ### What is kept of it -/

/-- The successors kept in a table for a context. -/
def successorsIn (table : Table (List String)) (context : List String) : List String :=
  (table.get? (key context)).getD []

/-- The successors that a model knows of a context. -/
def Model.successors (m : Model) (context : List String) : List String :=
  successorsIn m.transitions context

/-- Observing a sentence adds the tokens that stand after a context to its successors, in order. -/
theorem successorsIn_observe (start : List String) (table : Table (List String))
    (ts context : List String) :
    successorsIn (observe start table ts) context = successorsIn table context ++
      ((met start ts).filter fun seen => key seen.1 = key context).map Prod.snd := by
  induction ts generalizing start table with
  | nil => simp [observe, met]
  | cons t ts ih =>
    have hmodify : successorsIn (table.modify (key start) [] (· ++ [t])) context =
        successorsIn table context ++ if key start = key context then [t] else [] := by
      unfold successorsIn
      rw [Table.get?_modify]
      by_cases h : key start = key context <;> simp [h]
    unfold observe met
    rw [ih, hmodify, List.filter_cons]
    by_cases h : key start = key context <;> simp [h]

theorem successorsIn_foldl (order : Nat) (sentences : List String) (table : Table (List String))
    (context : List String) :
    successorsIn (sentences.foldl (fun table s => observe (opening order) table (tokens s)) table)
        context =
      successorsIn table context ++
        ((sentences.flatMap fun s => met (opening order) (tokens s)).filter
          fun seen => key seen.1 = key context).map Prod.snd := by
  induction sentences generalizing table with
  | nil => simp
  | cons s sentences ih =>
    rw [List.foldl_cons, ih, successorsIn_observe]
    simp

/-- The model that sentences train. -/
def trained (sentences : List String) (settings : Settings) : Model where
  settings := settings
  transitions := sentences.foldl (fun table s => observe (opening settings.order) table (tokens s)) []
  sentences := sentences.length

theorem train_eq {settings : Settings} (ho : 1 ≤ settings.order) (sentences : List String) :
    train sentences settings = .ok (trained sentences settings) := by
  unfold train
  rw [if_neg (by omega)]
  rfl

/-- A trained model knows of a context what was met after it, in the order in which it was met and as
often. -/
theorem successors_trained {sentences context : List String} {settings : Settings}
    (ho : 1 ≤ settings.order) (hc : Spaceless context) (hne : context ≠ []) :
    (trained sentences settings).successors context =
      ((sentences.flatMap fun s => met (opening settings.order) (tokens s)).filter
        fun seen => seen.1 = context).map Prod.snd := by
  unfold Model.successors trained
  dsimp only
  rw [successorsIn_foldl]
  refine congrArg (List.map Prod.snd) (List.filter_congr fun seen hseen => ?_)
  obtain ⟨sentence, hsentence, hmem⟩ := List.mem_flatMap.mp hseen
  have ⟨hspaceless, hnonempty⟩ :=
    (show Met sentences settings.order seen.1 seen.2 from
      ⟨sentence, hsentence, hmem⟩).context_spaceless ho
  rw [decide_eq_decide]
  exact ⟨key_injective hspaceless hc hnonempty hne, congrArg key⟩

theorem mem_successors_trained {sentences context : List String} {settings : Settings}
    {token : String} (ho : 1 ≤ settings.order) (hc : Spaceless context) (hne : context ≠ []) :
    token ∈ (trained sentences settings).successors context ↔
      Met sentences settings.order context token := by
  rw [successors_trained ho hc hne]
  simp [Met]

/-! ### Walks -/

variable {σ : Type} [RandomSource σ]

/-- From `context` on, when `words` have been drawn, last first, with `characters` in all, a model
takes so many draws from a source to come to a result, which leaves a source behind. -/
inductive Model.Walk (m : Model) :
    List String → List String → Nat → σ → Nat → Except MarkovError (Option String) → σ → Prop
  /-- Nothing is known of the context. -/
  | unknown {context words characters s} (h : m.successors context = []) :
    Walk m context words characters s 0 (.error (.unknownContext (key context))) s
  /-- The token that ends a sentence is drawn. -/
  | ends {context words characters s i s'}
    (hdraw : RandomSource.index (m.successors context).length s = (i, s'))
    (htoken : (m.successors context)[i]? = some endToken) :
    Walk m context words characters s 1 (.ok (some (phrase words))) s'
  /-- The text has grown too long. -/
  | long {context words characters s i s' token}
    (hdraw : RandomSource.index (m.successors context).length s = (i, s'))
    (htoken : (m.successors context)[i]? = some token) (hend : token ≠ endToken)
    (hlong : m.settings.maxCharacters < characters + token.length) :
    Walk m context words characters s 1 (.ok none) s'
  /-- A token is drawn and the walk goes on. -/
  | step {context words characters s i s' token draws result s''}
    (hdraw : RandomSource.index (m.successors context).length s = (i, s'))
    (htoken : (m.successors context)[i]? = some token) (hend : token ≠ endToken)
    (hshort : characters + token.length ≤ m.settings.maxCharacters)
    (hrest : Walk m (slide context token) (token :: words) (characters + token.length) s' draws
      result s'') :
    Walk m context words characters s (draws + 1) result s''

variable {m : Model} {context words : List String} {characters : Nat} {s s' : σ}

/-- One step of a text that is being drawn. -/
theorem Model.extend_of_draw {i draws : Nat} {token : String}
    (hdraw : RandomSource.index (m.successors context).length s = (i, s'))
    (htoken : (m.successors context)[i]? = some token) :
    m.extend context words characters (draws + 1) s =
      if token = endToken then (.ok (some (phrase words)), s')
      else if m.settings.maxCharacters < characters + token.length then (.ok none, s')
      else m.extend (slide context token) (token :: words) (characters + token.length) draws s' := by
  unfold Model.successors successorsIn at hdraw htoken
  rw [Model.extend]
  generalize (m.transitions.get? (key context)).getD [] = candidates at hdraw htoken
  cases candidates with
  | nil => cases htoken
  | cons candidate candidates =>
    rw [List.length_cons] at hdraw
    dsimp only
    rw [hdraw]
    dsimp only
    rw [List.getD_eq_getElem?_getD, htoken, Option.getD_some]

/-- With more draws allowed than a walk takes, its result is the one that is computed. -/
theorem Model.Walk.extend_eq {draws limit : Nat} {result : Except MarkovError (Option String)}
    (h : m.Walk context words characters s draws result s') (hlimit : draws < limit) :
    m.extend context words characters limit s = (result, s') := by
  induction h generalizing limit with
  | unknown h =>
    obtain ⟨limit, rfl⟩ := Nat.exists_eq_add_one_of_ne_zero (Nat.ne_of_gt hlimit)
    unfold Model.successors successorsIn at h
    rw [Model.extend, h]
  | ends hdraw htoken =>
    obtain ⟨limit, rfl⟩ := Nat.exists_eq_add_one_of_ne_zero (Nat.ne_zero_of_lt hlimit)
    rw [Model.extend_of_draw hdraw htoken, if_pos rfl]
  | long hdraw htoken hend hlong =>
    obtain ⟨limit, rfl⟩ := Nat.exists_eq_add_one_of_ne_zero (Nat.ne_zero_of_lt hlimit)
    rw [Model.extend_of_draw hdraw htoken, if_neg hend, if_pos hlong]
  | step hdraw htoken hend hshort _ ih =>
    obtain ⟨limit, rfl⟩ := Nat.exists_eq_add_one_of_ne_zero (Nat.ne_zero_of_lt hlimit)
    rw [Model.extend_of_draw hdraw htoken, if_neg hend, if_neg (Nat.not_lt.mpr hshort)]
    exact ih (Nat.lt_of_succ_lt_succ hlimit)

/-- A set of contexts that a model never leaves and never gets stuck in. -/
structure Model.Closed (m : Model) (live : List String → Prop) : Prop where
  /-- Something is known of each of them. -/
  known : ∀ context, live context → m.successors context ≠ []
  /-- Taking a successor leads to another. -/
  slide : ∀ context token, live context → token ∈ m.successors context → token ≠ endToken →
    live (slide context token)
  /-- Every successor has a character. -/
  filled : ∀ context token, live context → token ∈ m.successors context → 0 < token.length

/-- A walk through a closed set of contexts comes to an end without an error. Each token but the last
has a character at least, so there are no more of them than there may be characters. -/
theorem Model.Closed.walk {live : List String → Prop} (h : m.Closed live)
    (hindex : ∀ size (s : σ), 0 < size → (RandomSource.index size s).1 < size)
    (hlive : live context) (hroom : characters ≤ m.settings.maxCharacters) :
    ∃ draws text s', draws ≤ m.settings.maxCharacters + 1 - characters ∧
      m.Walk context words characters s draws (.ok text) s' := by
  generalize hleft : m.settings.maxCharacters - characters = left
  induction left using Nat.strongRecOn generalizing context words characters s with
  | ind left ih =>
    have hpos := List.length_pos_iff.mpr (h.known context hlive)
    have hlt := hindex (m.successors context).length s hpos
    rcases hdraw : RandomSource.index (m.successors context).length s with ⟨i, s'⟩
    rw [hdraw] at hlt
    obtain ⟨token, htoken⟩ : ∃ token, (m.successors context)[i]? = some token :=
      ⟨_, List.getElem?_eq_getElem hlt⟩
    have hmem := List.mem_of_getElem? htoken
    have hlength := h.filled context token hlive hmem
    by_cases hend : token = endToken
    · subst hend
      exact ⟨1, _, s', by omega, .ends hdraw htoken⟩
    by_cases hlong : m.settings.maxCharacters < characters + token.length
    · exact ⟨1, none, s', by omega, .long hdraw htoken hend hlong⟩
    · have hshort := Nat.not_lt.mp hlong
      obtain ⟨draws, text, s'', hdraws, hwalk⟩ :=
        ih (m.settings.maxCharacters - (characters + token.length)) (by omega)
          (h.slide context token hlive hmem hend) hshort rfl
      exact ⟨draws + 1, text, s'', by omega, .step hdraw htoken hend hshort hwalk⟩

/-! ### Generation -/

/-- The contexts that training has met are closed. -/
theorem closed_trained {settings : Settings} (ho : 1 ≤ settings.order) (sentences : List String) :
    (trained sentences settings).Closed fun context =>
      ∃ token, Met sentences settings.order context token where
  known context hlive := by
    obtain ⟨token, hmet⟩ := hlive
    have ⟨hspaceless, hne⟩ := hmet.context_spaceless ho
    exact List.ne_nil_of_mem ((mem_successors_trained ho hspaceless hne).mpr hmet)
  slide context token hlive hmem hend := by
    obtain ⟨_, hmet⟩ := hlive
    have ⟨hspaceless, hne⟩ := hmet.context_spaceless ho
    exact ((mem_successors_trained ho hspaceless hne).mp hmem).slide hend
  filled context token hlive hmem := by
    obtain ⟨_, hmet⟩ := hlive
    have ⟨hspaceless, hne⟩ := hmet.context_spaceless ho
    exact ((mem_successors_trained ho hspaceless hne).mp hmem).token_filled.2

theorem Model.generate_of_walk {draws : Nat} {text : Option String} (hm : m.transitions ≠ [])
    (hdraws : draws ≤ m.settings.maxCharacters + 1)
    (h : m.Walk (opening m.settings.order) [] 0 s draws (.ok text) s') :
    m.generate s = (.ok text, s') := by
  unfold Model.generate
  rw [if_neg (by simpa using hm)]
  refine h.extend_eq ?_
  have : 1 < Nat.pow 2 62 := by decide
  unfold Settings.drawLimit
  omega

/-- A model that was trained on some sentences, whatever stands in them, never fails to generate: from
every source that keeps indices in their bounds it comes to a text, or to none, and takes at most one
draw more than a text may have characters. -/
theorem trained_generates (sentences : List String) (settings : Settings) (hs : sentences ≠ [])
    (ho : 1 ≤ settings.order)
    (hindex : ∀ size (s : σ), 0 < size → (RandomSource.index size s).1 < size) :
    ∃ m, train sentences settings = .ok m ∧
      ∀ s : σ, ∃ text s', m.generate s = (.ok text, s') ∧
        ∃ draws ≤ settings.maxCharacters + 1,
          m.Walk (opening settings.order) [] 0 s draws (.ok text) s' := by
  refine ⟨trained sentences settings, train_eq ho sentences, fun s => ?_⟩
  have hclosed := closed_trained ho sentences
  have hopening := met_opening hs settings.order
  obtain ⟨draws, text, s', hdraws, hwalk⟩ :=
    hclosed.walk hindex hopening (Nat.zero_le _)
  have hm : (trained sentences settings).transitions ≠ [] := by
    intro hnil
    refine hclosed.known _ hopening ?_
    unfold Model.successors
    rw [hnil]
    rfl
  exact ⟨text, s', Model.generate_of_walk hm hdraws hwalk, draws, hdraws, hwalk⟩

/-- The index that a float is turned into is one of the list. -/
theorem index_lt (u : Float) {size : Nat} (h : 0 < size) : Draw.index u size < size := by
  unfold Draw.index Numeral.wholeWithin Numeral.clamp
  omega

/-- Sentences may be empty or hold the token that ends them. -/
theorem sagas_generate :
    ["odin fares far", "odin </S> far", ""] ≠ [] ∧ 1 ≤ (2 : Nat) ∧
      (∀ size (s : Scripted), 0 < size → (RandomSource.index size s).1 < size) ∧
      ∃ m, train ["odin fares far", "odin </S> far", ""] { order := 2 } = .ok m ∧
        ∀ s : Scripted, ∃ text s', m.generate s = (.ok text, s') ∧
          ∃ draws ≤ 100001, m.Walk (opening 2) [] 0 s draws (.ok text) s' :=
  have hindex : ∀ size (s : Scripted), 0 < size → (RandomSource.index size s).1 < size :=
    fun _ _ h => index_lt _ h
  ⟨by decide, by decide, hindex,
    trained_generates ["odin fares far", "odin </S> far", ""] { order := 2 } (by decide) (by decide)
      hindex⟩

end Markov

end Fabula
