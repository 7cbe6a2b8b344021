import Fabula.Proofs.DrawBound
import Fabula.Proofs.RonReading

/-!
# Fabula.Proofs.StoredModels

**A stored model is the model.** The text that a model is stored as is read back as its value
(`Ron.read?_pretty`), and from the value the model is got back with all its settings, its contexts and
their successors. The order in which the contexts stand in the text is left open: each stands once, so a
model that knows them in another order generates the same.
-/

namespace Fabula.Markov

open Ron (Value)

/-! ### Models that there are -/

/-- The numbers in settings are counts of the machine. -/
structure Settings.Fits (s : Settings) : Prop where
  /-- The number of tokens in a context. -/
  order : s.order ≤ Numeral.countMax
  /-- The least number of characters. -/
  minCharacters : s.minCharacters ≤ Numeral.countMax
  /-- The greatest number of characters. -/
  maxCharacters : s.maxCharacters ≤ Numeral.countMax
  /-- The number of tries. -/
  maxTries : s.maxTries ≤ Numeral.countMax

/-- Models are trained, or read from texts. -/
inductive Model.Obtained : Model → Prop
  /-- It has been trained on sentences that can be counted. -/
  | trained {sentences : List String} {settings : Settings} {m : Model} (hsettings : settings.Fits)
    (hsentences : sentences.length ≤ Numeral.countMax) (h : train sentences settings = .ok m) :
    Obtained m
  /-- It has been read from a text. -/
  | loaded {text : String} {m : Model} (h : Model.ofRon? text = some m) : Obtained m

/-- What all such models have in common. -/
structure Model.InOrder (m : Model) : Prop where
  /-- The settings are in their bounds. -/
  settings : m.settings.Fits
  /-- The sentences can be counted. -/
  sentences : m.sentences ≤ Numeral.countMax
  /-- Every context stands once. -/
  contexts : (Table.names m.transitions).Nodup

theorem nodup_observe {start : List String} {table : Table (List String)} (h : table.names.Nodup)
    (ts : List String) : (observe start table ts).names.Nodup := by
  induction ts generalizing start table with
  | nil => exact h
  | cons t ts ih => exact ih (Table.nodup_modify h _ _ _)

theorem inOrder_trained {sentences : List String} {settings : Settings} {m : Model}
    (hsettings : settings.Fits) (hsentences : sentences.length ≤ Numeral.countMax)
    (h : train sentences settings = .ok m) : m.InOrder := by
  unfold train at h
  split at h
  · cases h
  · cases h
    refine ⟨hsettings, hsentences, ?_⟩
    have hfoldl {table : Table (List String)} (htable : table.names.Nodup) :
        (sentences.foldl (fun table s => observe (opening settings.order) table (tokens s))
          table).names.Nodup := by
      clear hsentences
      induction sentences generalizing table with
      | nil => exact htable
      | cons s sentences ih => exact ih (nodup_observe htable _)
    exact hfoldl List.nodup_nil

theorem count?_le {v : Value} {n : Nat} (h : v.count? = some n) : n ≤ Numeral.countMax := by
  cases v with
  | number raw => simpa using (Option.filter_eq_some_iff.mp h).2
  | _ => cases h

theorem fieldOr_le {fields : List (String × Value)} {name : String} {default n : Nat}
    (h : fieldOr fields name Value.count? default = some n) (hdefault : default ≤ Numeral.countMax) :
    n ≤ Numeral.countMax := by
  unfold fieldOr at h
  split at h
  · cases h
    exact hdefault
  · exact count?_le h

theorem fits_ofValue? {v : Value} {s : Settings} (h : Settings.ofValue? v = some s) : s.Fits := by
  simp only [Settings.ofValue?, Option.bind_eq_bind, Option.bind_eq_some_iff, Option.pure_def,
    Option.some.injEq] at h
  obtain ⟨fields, -, order, horder, low, hlow, high, hhigh, tries, htries, unique, -, rfl⟩ := h
  exact ⟨fieldOr_le horder (by decide), fieldOr_le hlow (by decide), fieldOr_le hhigh (by decide),
    fieldOr_le htries (by decide)⟩

theorem inOrder_loaded {text : String} {m : Model} (h : Model.ofRon? text = some m) : m.InOrder := by
  obtain ⟨v, -, h⟩ := Option.bind_eq_some_iff.mp h
  simp only [Model.ofValue?, Option.bind_eq_bind, Option.bind_eq_some_iff, Option.pure_def,
    Option.some.injEq] at h
  obtain ⟨fields, -, sv, -, settings, hsettings, tv, -, entries, -, transitions, -, cv, -, sentences,
    hsentences, rfl⟩ := h
  have hnil : (Table.names ([] : Table (List String))).Nodup := List.nodup_nil
  exact ⟨fits_ofValue? hsettings, count?_le hsentences, Table.nodup_putAll hnil _⟩

theorem Model.Obtained.inOrder {m : Model} (h : m.Obtained) : m.InOrder := by
  cases h with
  | trained hsettings hsentences h => exact inOrder_trained hsettings hsentences h
  | loaded h => exact inOrder_loaded h

/-! ### Texts of models -/

/-- The value of a model with its contexts in a certain order. -/
def Model.valueWith (m : Model) (entries : Table (List String)) : Value :=
  .record none [
    ("settings", m.settings.toValue),
    ("transitions", .map (entries.map transitionValue)),
    ("sentence_count", Ron.countValue m.sentences)]

/-- The model may be stored as this text: its contexts stand in some order. -/
def Model.StoredAs (m : Model) (text : String) : Prop :=
  ∃ entries : Table (List String), entries.Perm m.transitions ∧ text = (m.valueWith entries).pretty

theorem Model.storedAs_toRon (m : Model) : m.StoredAs m.toRon :=
  ⟨sortedTransitions m.transitions, List.mergeSort_perm _ _, rfl⟩

section Storing

open Ron

theorem storable_count {n k : Nat} (h : k ≤ Numeral.countMax) : Storable n (countValue k) :=
  .number (numberReads_count h)

theorem storable_settings {n : Nat} {s : Settings} (h : s.Fits) : Storable (n + 2) s.toValue := by
  refine .record ?_ ?_
  · simp only [List.forall_mem_cons]
    decide
  · simp only [List.forall_mem_cons]
    exact ⟨storable_count h.order, storable_count h.minCharacters, storable_count h.maxCharacters,
      storable_count h.maxTries, .flag _, nofun⟩

theorem storable_transitions {n : Nat} (entries : Table (List String)) :
    Storable (n + 4) (.map (entries.map transitionValue)) := by
  refine .map ?_ ?_
  · simp only [List.forall_mem_map]
    exact fun e _ => .text e.1
  · simp only [List.forall_mem_map]
    refine fun e _ => .list ?_
    simp only [List.forall_mem_map]
    exact fun s _ => .text s

theorem Model.InOrder.storable {n : Nat} {m : Model} (h : m.InOrder) (entries : Table (List String)) :
    Storable (n + 6) (m.valueWith entries) := by
  refine .record ?_ ?_
  · simp only [List.forall_mem_cons]
    decide
  · simp only [List.forall_mem_cons]
    exact ⟨storable_settings h.settings, storable_transitions entries, storable_count h.sentences, nofun⟩

end Storing

/-! ### Reading what has been stored -/

theorem count?_countValue {n : Nat} (h : n ≤ Numeral.countMax) : (Ron.countValue n).count? = some n := by
  have hdigits : (toString n).toList = Nat.toDigits 10 n := by simp
  have hwhole := Ron.wholeNumber?_digits (fun _ => Numeral.isDigit_of_mem) (Nat.toDigits_ne_nil (n := n))
  rw [Ron.countValue, Value.count?, hdigits, hwhole, Numeral.digitsValue_toDigits]
  simp [h]

theorem ofValue?_settings {s : Settings} (h : s.Fits) : Settings.ofValue? s.toValue = some s := by
  have hcount {k : Nat} (hk : k ≤ Numeral.countMax) := count?_countValue hk
  simp [Settings.ofValue?, Settings.toValue, Value.fields?, fieldOr, Table.get?_cons,
    hcount h.order, hcount h.minCharacters, hcount h.maxCharacters, hcount h.maxTries, Value.flag?]

theorem transitionOf?_value (e : String × List String) : transitionOf? (transitionValue e) = some e := by
  have hitems : (e.2.map Value.text).mapM Value.text? = some e.2 :=
    Ron.mapM_map_eq fun _ _ => rfl
  simp [transitionOf?, transitionValue, Value.text?, Value.items?, hitems]

theorem putAll_nil {entries : Table (List String)} (h : entries.names.Nodup) :
    Table.putAll [] entries = entries := by
  have hnil : (Table.names ([] : Table (List String))).Nodup := List.nodup_nil
  rw [Table.putAll_eq hnil h]
  simp [Table.has]

theorem ofValue?_valueWith {m : Model} (h : m.InOrder) {entries : Table (List String)}
    (hentries : entries.names.Nodup) :
    Model.ofValue? (m.valueWith entries) = some { m with transitions := entries } := by
  have htransitions : (entries.map transitionValue).mapM transitionOf? = some entries :=
    Ron.mapM_map_eq fun e _ => transitionOf?_value e
  simp [Model.ofValue?, Model.valueWith, Value.fields?, Table.get?_cons, ofValue?_settings h.settings,
    Value.entries?, htransitions, count?_countValue h.sentences, putAll_nil hentries]

/-! ### Models that differ in the order of their contexts -/

/-- Two models are the same but for the order of their contexts. -/
structure Model.SameAs (n m : Model) : Prop where
  /-- The settings are the same. -/
  settings : n.settings = m.settings
  /-- They are trained on as many sentences. -/
  sentences : n.sentences = m.sentences
  /-- The contexts are the same, and so are the successors of each, in their order. -/
  transitions : ∀ context, Table.get? n.transitions context = Table.get? m.transitions context

namespace Model.SameAs

variable {n m : Model} (h : n.SameAs m)
include h

theorem symm : m.SameAs n :=
  ⟨h.settings.symm, h.sentences.symm, fun context => (h.transitions context).symm⟩

theorem ne_nil (hne : m.transitions ≠ []) : n.transitions ≠ [] := by
  intro hnil
  obtain ⟨⟨context, successors⟩, rest, hcons⟩ := List.exists_cons_of_ne_nil hne
  have hfound := h.transitions context
  rw [hnil, hcons, Table.get?_cons, if_pos rfl] at hfound
  cases hfound

theorem eq_nil_iff : n.transitions = [] ↔ m.transitions = [] :=
  ⟨fun hnil => by_contra fun hne => h.ne_nil hne hnil,
    fun hnil => by_contra fun hne => h.symm.ne_nil hne hnil⟩

theorem successors_eq (context : List String) : n.successors context = m.successors context := by
  unfold Model.successors successorsIn
  rw [h.transitions]

variable {σ : Type} [RandomSource σ]

theorem extend_eq (context words : List String) (characters draws : Nat) (s : σ) :
    n.extend context words characters draws s = m.extend context words characters draws s := by
  induction draws generalizing context words characters s with
  | zero => rfl
  | succ draws ih => simp only [Model.extend, h.transitions, h.settings, ih]

/-- They generate the same, and leave the source in the same state. -/
theorem generate_eq (s : σ) : n.generate s = m.generate s := by
  have hempty : n.transitions.isEmpty = m.transitions.isEmpty := by
    rw [Bool.eq_iff_iff, List.isEmpty_iff, List.isEmpty_iff, h.eq_nil_iff]
  rw [Model.generate, Model.generate, hempty, h.settings, h.extend_eq]

theorem walk {context words : List String} {characters draws : Nat} {s s' : σ}
    {result : Except MarkovError (Option String)}
    (hwalk : m.Walk context words characters s draws result s') :
    n.Walk context words characters s draws result s' := by
  have hsuccessors := h.successors_eq
  induction hwalk with
  | unknown hnil => exact .unknown ((hsuccessors _).trans hnil)
  | ends hdraw htoken =>
    exact .ends (by rw [hsuccessors]; exact hdraw) (by rw [hsuccessors]; exact htoken)
  | long hdraw htoken hend hlong =>
    exact .long (by rw [hsuccessors]; exact hdraw) (by rw [hsuccessors]; exact htoken) hend
      (by rw [h.settings]; exact hlong)
  | step hdraw htoken hend hshort _ ih =>
    exact .step (by rw [hsuccessors]; exact hdraw) (by rw [hsuccessors]; exact htoken) hend
      (by rw [h.settings]; exact hshort) ih

/-- They take as many draws. -/
theorem takes {draws : Nat} {s s' : σ} {result : Except MarkovError (Option String)}
    (htakes : m.Takes s draws result s') : n.Takes s draws result s' := by
  cases htakes with
  | noData hnil => exact .noData (h.eq_nil_iff.mpr hnil)
  | walk hne hwalk => exact .walk (h.ne_nil hne) (by rw [h.settings]; exact h.walk hwalk)

end Model.SameAs

/-- **A stored model is read back unchanged**, whether it has been trained or loaded, and whatever tokens
and contexts are in it. Its text is one of those that it may be stored as, with the contexts in some
order, and from each of these a model is read that has the same settings, the same number of sentences and
the same successors of every context. With every source it comes to the same results, and takes the same
draws for them. -/
theorem stored_model_unchanged {m : Model} (h : m.Obtained) :
    m.StoredAs m.toRon ∧ ∀ text, m.StoredAs text →
      ∃ n, Model.ofRon? text = some n ∧ n.transitions.Perm m.transitions ∧ n.SameAs m ∧
        ∀ (σ : Type) [RandomSource σ] (s : σ), n.generate s = m.generate s ∧
          ∀ draws result s', n.Takes s draws result s' ↔ m.Takes s draws result s' := by
  have horder := h.inOrder
  refine ⟨m.storedAs_toRon, ?_⟩
  rintro text ⟨entries, hperm, rfl⟩
  have hnames : entries.names.Nodup := ((hperm.map Prod.fst).nodup_iff).mpr horder.contexts
  have hread : Model.ofRon? (m.valueWith entries).pretty = some { m with transitions := entries } := by
    have hvalue : Ron.read? (m.valueWith entries).pretty = some (m.valueWith entries) :=
      Ron.read?_pretty (horder.storable (n := 122) entries)
    rw [Model.ofRon?, hvalue]
    exact ofValue?_valueWith horder hnames
  have hsame : Model.SameAs { m with transitions := entries } m :=
    ⟨rfl, rfl, fun context => Table.get?_perm hperm.symm horder.contexts context⟩
  exact ⟨_, hread, hperm, hsame, fun σ _ s => ⟨hsame.generate_eq s, fun draws result s' =>
    ⟨hsame.symm.takes, hsame.takes⟩⟩⟩

/-- Things that are said, with quotation marks, a backslash, an apostrophe and a tilde of its own. -/
def quips : List String := ["\"Oh\" \\ it's", "\"Oh\" na\u0303o"]

/-- They are said again after the model has been stored. -/
theorem quips_unchanged :
    (trained quips {}).Obtained ∧ (trained quips {}).successors ["", ""] = ["\"Oh\"", "\"Oh\""] ∧
      ∃ n, Model.ofRon? (trained quips {}).toRon = some n ∧
        n.successors ["", ""] = ["\"Oh\"", "\"Oh\""] ∧
        ∀ s : Scripted, n.generate s = (trained quips {}).generate s := by
  have hobtained : (trained quips {}).Obtained :=
    .trained ⟨by decide, by decide, by decide, by decide⟩ (by decide) (train_eq (by decide) quips)
  have hsuccessors : (trained quips {}).successors ["", ""] = ["\"Oh\"", "\"Oh\""] := by decide +kernel
  obtain ⟨hstored, hread⟩ := stored_model_unchanged hobtained
  obtain ⟨n, hn, -, hsame, hgenerate⟩ := hread _ hstored
  exact ⟨hobtained, hsuccessors, n, hn, (hsame.successors_eq _).trans hsuccessors,
    fun s => (hgenerate Scripted s).1⟩

end Fabula.Markov
