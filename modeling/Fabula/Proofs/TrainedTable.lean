import Mathlib
import Fabula.Proofs.TrainedLanguage

/-!
# Fabula.Proofs.TrainedTable

**Training counts windows.** What a trained model keeps for a context is, in order and as often as they
occur, the tokens that stand right after it in the sentences, with the empty tokens in front and the end
token behind (`observed`). It keeps that for every context that is met, and nothing else
(`trained_table`).

Training itself slides a context over a sentence, and `met` lists what it sees that way. That this is
what stands in the sentence, position by position, is `filter_met`. The rest is bookkeeping about the
table: contexts stand in it once, none without a successor (`Kept`), and every token that is entered
makes one list one longer (`total_observe`).
-/

namespace Fabula.Markov

/-! ### What stands after a context -/

/-- The tokens that stand right after `context`, wherever it stands among these tokens, in order. -/
def followers (context ts : List String) : List String :=
  (List.range ts.length).filterMap fun i =>
    if (ts.drop i).take context.length = context then ts[i + context.length]? else none

/-- The tokens that stand right after a context in sentences, one sentence after the other. -/
def observed (sentences : List String) (order : Nat) (context : List String) : List String :=
  sentences.flatMap fun sentence => followers context (paddedSentence order sentence)

theorem followers_cons (context : List String) (t : String) (ts : List String) :
    followers context (t :: ts) =
      (if (t :: ts).take context.length = context then (t :: ts)[context.length]? else none).toList ++
        followers context ts := by
  unfold followers
  rw [List.length_cons, List.range_succ_eq_map, List.filterMap_cons, List.filterMap_map]
  have hrest : (fun i => if ((t :: ts).drop i).take context.length = context then
        (t :: ts)[i + context.length]? else none) ∘ Nat.succ =
      fun i => if (ts.drop i).take context.length = context then ts[i + context.length]? else none := by
    funext i
    have hget : (t :: ts)[i.succ + context.length]? = ts[i + context.length]? := by
      rw [Nat.succ_add]
      rfl
    simp only [Function.comp, List.drop_succ_cons, hget]
  rw [hrest, List.drop_zero, Nat.zero_add]
  split <;> simp_all

/-- Nothing stands after a context that takes all the room there is. -/
theorem followers_of_length_le {context ts : List String} (h : ts.length ≤ context.length) :
    followers context ts = [] := by
  refine List.filterMap_eq_nil_iff.mpr fun i _ => ?_
  rw [List.getElem?_eq_none (by omega), ite_self]

/-- What training sees behind a context is what stands behind it. -/
theorem filter_met {start context : List String} (ts : List String) (hstart : start ≠ [])
    (hlength : context.length = start.length) :
    ((met start ts).filter fun seen => seen.1 = context).map Prod.snd =
      followers context (start ++ ts) := by
  induction ts generalizing start with
  | nil => rw [List.append_nil, followers_of_length_le hlength.ge]; rfl
  | cons t ts ih =>
    obtain ⟨oldest, recent, rfl⟩ := List.exists_cons_of_ne_nil hstart
    have hslide : slide (oldest :: recent) t ++ ts = recent ++ t :: ts := by simp [slide]
    have hrest := ih (slide_ne_nil (oldest :: recent) t) (by rw [length_slide hstart, hlength])
    rw [hslide] at hrest
    -- the context in front of the first token, and that token
    have hfront : (oldest :: (recent ++ t :: ts)).take context.length = oldest :: recent := by
      rw [hlength, ← List.cons_append, List.take_left]
    have htoken : (oldest :: (recent ++ t :: ts))[context.length]? = some t := by
      rw [hlength, ← List.cons_append, List.getElem?_append_right (Nat.le_refl _), Nat.sub_self]
      rfl
    rw [met, List.cons_append, followers_cons, hfront, htoken, ← hrest, List.filter_cons]
    by_cases h : oldest :: recent = context <;> simp [h]

/-! ### The table -/

/-- No token of a context has white space in it. -/
def Unbroken (context : List String) : Prop :=
  ∀ token ∈ context, ∀ c ∈ token.toList, Text.isBlank c = false

instance (context : List String) : Decidable (Unbroken context) :=
  decidable_of_iff (context.all fun token => token.toList.all fun c => !Text.isBlank c)
    (by simp [Unbroken])

theorem Unbroken.spaceless {context : List String} (h : Unbroken context) : Spaceless context :=
  fun token htoken hspace => absurd (h token htoken ' ' hspace) (by decide)

theorem Unbroken.slide {context : List String} {token : String} (h : Unbroken context)
    (ht : ∀ c ∈ token.toList, Text.isBlank c = false) : Unbroken (slide context token) := by
  intro t hmem
  rcases List.mem_append.mp hmem with hmem | hmem
  · exact h t (List.mem_of_mem_tail hmem)
  · rwa [List.mem_singleton.mp hmem]

theorem unbroken_opening (order : Nat) : Unbroken (opening order) := by
  intro token h
  rw [List.eq_of_mem_replicate h]
  simp

theorem unbroken_tokens (sentence : String) : Unbroken (tokens sentence) := by
  intro token h
  unfold tokens at h
  rcases List.mem_append.mp h with h | h
  · obtain ⟨w, hw, rfl⟩ := List.mem_map.mp h
    simpa using (Text.of_mem_words hw).2
  · have hend : Unbroken [endToken] := by decide
    exact hend token h

theorem opening_ne_nil {order : Nat} (ho : 1 ≤ order) : opening order ≠ [] := by
  simpa [opening] using Nat.ne_of_gt ho

/-- The table keeps contexts of `order` tokens, each once, and something follows each of them. -/
structure Kept (order : Nat) (table : Table (List String)) : Prop where
  /-- No context stands twice. -/
  names : table.names.Nodup
  /-- An entry is one of a context, with its successors. -/
  entries : ∀ e ∈ table, e.2 ≠ [] ∧
    ∃ context, context.length = order ∧ Unbroken context ∧ e.1 = key context

/-- How many successors a table has in all. -/
def total (table : Table (List String)) : Nat := (table.map fun e => e.2.length).sum

theorem total_modify (table : Table (List String)) (name token : String) :
    total (table.modify name [] (· ++ [token])) = total table + 1 := by
  induction table with
  | nil => rfl
  | cons e table ih =>
    obtain ⟨n, successors⟩ := e
    unfold total at ih ⊢
    by_cases hn : n = name
    · simp [Table.modify, hn]
      omega
    · simp [Table.modify, hn, ih]
      omega

/-- Each token of a sentence is entered once. -/
theorem total_observe (start : List String) (table : Table (List String)) (ts : List String) :
    total (observe start table ts) = total table + ts.length := by
  induction ts generalizing start table with
  | nil => rfl
  | cons t ts ih =>
    rw [observe, ih, total_modify, List.length_cons]
    omega

theorem Kept.observe {order : Nat} (ho : 1 ≤ order) {table : Table (List String)}
    (h : Kept order table) {start ts : List String} (hlength : start.length = order)
    (hstart : Unbroken start) (hts : Unbroken ts) : Kept order (observe start table ts) := by
  induction ts generalizing start table with
  | nil => exact h
  | cons t ts ih =>
    have ⟨ht, hts⟩ := List.forall_mem_cons.mp hts
    have hne : start ≠ [] := List.ne_nil_of_length_pos (by omega)
    refine ih ?_ (by rw [length_slide hne, hlength]) (hstart.slide ht) hts
    refine ⟨Table.nodup_modify h.names _ _ _, fun e he => ?_⟩
    rcases Table.mem_modify he with he | rfl
    · exact h.entries e he
    · exact ⟨by simp, start, hlength, hstart, rfl⟩

section Trained

variable {settings : Settings} (ho : 1 ≤ settings.order) (sentences : List String)

theorem total_trained :
    total (trained sentences settings).transitions =
      (sentences.map fun s => (Text.words s.toList).length).sum + sentences.length := by
  have hfold : ∀ table : Table (List String),
      total (sentences.foldl (fun table s => observe (opening settings.order) table (tokens s)) table) =
        total table +
          ((sentences.map fun s => (Text.words s.toList).length).sum + sentences.length) := by
    induction sentences with
    | nil => exact fun _ => rfl
    | cons s sentences ih =>
      intro table
      have htokens : (tokens s).length = (Text.words s.toList).length + 1 := by simp [tokens]
      rw [List.foldl_cons, ih, total_observe, htokens, List.map_cons, List.sum_cons, List.length_cons]
      omega
  exact (hfold []).trans (Nat.zero_add _)

include ho

theorem kept_trained : Kept settings.order (trained sentences settings).transitions := by
  have hfold : ∀ table : Table (List String), Kept settings.order table →
      Kept settings.order
        (sentences.foldl (fun table s => observe (opening settings.order) table (tokens s)) table) := by
    induction sentences with
    | nil => exact fun _ h => h
    | cons s sentences ih =>
      exact fun table h => ih _
        (h.observe ho (by simp [opening]) (unbroken_opening _) (unbroken_tokens s))
  exact hfold [] ⟨List.nodup_nil, fun e he => absurd he List.not_mem_nil⟩

theorem successors_eq_observed {context : List String} (hlength : context.length = settings.order)
    (hc : Unbroken context) :
    (trained sentences settings).successors context = observed sentences settings.order context := by
  have hne : context ≠ [] := List.ne_nil_of_length_pos (by omega)
  have hopening := opening_ne_nil ho
  rw [successors_trained ho hc.spaceless hne, List.filter_flatMap, List.map_flatMap]
  refine List.flatMap_congr fun s _ => filter_met (tokens s) hopening ?_
  rw [hlength, opening, List.length_replicate]

end Trained

/-- **Training counts exactly the windows of its sentences.** For every context of `order` tokens without
white space, which may be empty, a trained model keeps the tokens that follow the context in the padded
sentences, in order and as often as they do, and keeps nothing if there are none. Nothing else is kept,
no context twice, and different contexts under different texts. The sentences are counted, and there are
as many successors in all as there are words and sentences. -/
theorem trained_table (sentences : List String) (settings : Settings) (ho : 1 ≤ settings.order) :
    ∃ m, train sentences settings = .ok m ∧
      (∀ context, context.length = settings.order → Unbroken context →
        m.transitions.get? (key context) =
          if observed sentences settings.order context = [] then none
          else some (observed sentences settings.order context)) ∧
      (∀ text successors, (text, successors) ∈ m.transitions → successors ≠ [] ∧
        ∃ context, context.length = settings.order ∧ Unbroken context ∧ text = key context) ∧
      m.transitions.names.Nodup ∧
      (∀ context context', context.length = settings.order → context'.length = settings.order →
        Unbroken context → Unbroken context' → key context = key context' → context = context') ∧
      m.sentences = sentences.length ∧
      (m.transitions.map fun e => e.2.length).sum =
        (sentences.map fun s => (Text.words s.toList).length).sum + sentences.length := by
  have hkept := kept_trained ho sentences
  have hne : ∀ context : List String, context.length = settings.order → context ≠ [] :=
    fun context hlength => List.ne_nil_of_length_pos (by omega)
  refine ⟨trained sentences settings, train_eq ho sentences, fun context hlength hc => ?_,
    fun text successors hmem => hkept.entries _ hmem, hkept.names,
    fun context context' hlength hlength' hc hc' => ?_, rfl, total_trained sentences⟩
  · rw [← successors_eq_observed ho sentences hlength hc]
    unfold Model.successors successorsIn
    cases hget : (trained sentences settings).transitions.get? (key context) with
    | none => rfl
    | some successors =>
      have hfilled := (hkept.entries _ (Table.mem_of_get? hget)).1
      rw [Option.getD_some, if_neg hfilled]
  · exact key_injective hc.spaceless hc'.spaceless (hne context hlength) (hne context' hlength')

/-- What follows is kept as often as it does, also the end token where it stands in a sentence, and the
nine successors are those of six words and three sentences. -/
theorem sagas_table : 1 ≤ (2 : Nat) ∧
    ∃ m, train ["odin fares far", "odin </S> odin", ""] { order := 2 } = .ok m ∧
      m.transitions.get? (key ["", "odin"]) = some ["fares", "</S>"] ∧
      m.transitions.get? (key ["", ""]) = some ["odin", "odin", "</S>"] ∧
      m.transitions.get? (key ["far", "odin"]) = none ∧
      m.sentences = 3 ∧ (m.transitions.map fun e => e.2.length).sum = 9 := by
  obtain ⟨m, hm, hkept, -, -, -, hsentences, htotal⟩ :=
    trained_table ["odin fares far", "odin </S> odin", ""] { order := 2 } (by decide)
  refine ⟨by decide, m, hm, ?_, ?_, ?_, hsentences, htotal.trans (by decide +kernel)⟩
  · exact (hkept ["", "odin"] rfl (by decide)).trans (by decide +kernel)
  · exact (hkept ["", ""] rfl (by decide)).trans (by decide +kernel)
  · exact (hkept ["far", "odin"] rfl (by decide)).trans (by decide +kernel)

end Fabula.Markov
