import Mathlib.Data.List.SplitBy
import Fabula.Inflect

/-!
# Fabula.Proofs.Capitals

**Capitals in front of every word are set word by word.** A text falls into its maximal runs of white
space and of other characters in just one way (`areRuns_iff`). `capitalizeAll` goes through the text once
and only knows whether the last character was white space; what it writes is the same as if every run
were taken by itself (`capitalizeAll_runs`), whatever a capital is and however many characters it has.

The induction is on the runs. What carries it is that no word is entered halfway: in front of a word
there is nothing or a run of white space, after which the flag is down.
-/

namespace Fabula.Inflect

/-! ### Runs -/

/-- A text cut into runs: none is empty, each is white space throughout or has none, and of two
neighbours one is of either kind, so that none could be longer. -/
structure AreRuns (text : List Char) (rs : List (List Char)) : Prop where
  /-- Together they are the text. -/
  whole : rs.flatten = text
  /-- None is empty. -/
  filled : [] ∉ rs
  /-- Each is of one kind. -/
  even : ∀ r ∈ rs, (∀ c ∈ r, Text.isBlank c = true) ∨ ∀ c ∈ r, Text.isBlank c = false
  /-- Neighbours are of different kinds. -/
  maximal : rs.IsChain fun r s => ∃ hr hs, Text.isBlank (r.getLast hr) ≠ Text.isBlank (s.head hs)

/-- The runs of a text. -/
def runs (text : List Char) : List (List Char) :=
  text.splitBy fun c d => Text.isBlank c == Text.isBlank d

/-- Neighbours of one kind make a list of one kind. -/
theorem isChain_kind_iff {r : List Char} :
    (r.IsChain fun c d => (Text.isBlank c == Text.isBlank d) = true) ↔
      (∀ c ∈ r, Text.isBlank c = true) ∨ ∀ c ∈ r, Text.isBlank c = false := by
  induction r with
  | nil => simp
  | cons c r ih =>
    cases r with
    | nil => cases h : Text.isBlank c <;> simp [h]
    | cons d r =>
      rw [List.isChain_cons_cons, ih]
      cases hc : Text.isBlank c <;> cases hd : Text.isBlank d <;> simp [hc, hd]

/-- The runs of a text are those into which it can be cut. -/
theorem areRuns_iff {text : List Char} {rs : List (List Char)} : AreRuns text rs ↔ rs = runs text := by
  have hmaximal (r s : List Char) :
      (∃ hr hs, (Text.isBlank (r.getLast hr) == Text.isBlank (s.head hs)) = false) ↔
        ∃ hr hs, Text.isBlank (r.getLast hr) ≠ Text.isBlank (s.head hs) := by
    simp only [beq_eq_false_iff_ne]
  rw [eq_comm (a := rs), runs, List.splitBy_eq_iff]
  simp only [isChain_kind_iff, hmaximal]
  exact ⟨fun h => ⟨h.whole.symm, h.filled, h.even, h.maximal⟩,
    fun ⟨hwhole, hfilled, heven, hmaximal⟩ => ⟨hwhole.symm, hfilled, heven, hmaximal⟩⟩

/-! ### One run -/

section Run

variable (upper : Char → List Char)

/-- A run with a capital in front, unless it is white space. -/
def capitalizeRun (run : List Char) : List Char :=
  if run.all Text.isBlank then run else capitalizeWith upper run

variable {upper} {run rest : List Char} {inWord : Bool}

/-- White space stays, and no word is under way after it. -/
theorem capitalizeAllWith_blank (hrun : ∀ c ∈ run, Text.isBlank c = true) (hne : run ≠ []) :
    capitalizeAllWith upper inWord (run ++ rest) = run ++ capitalizeAllWith upper false rest := by
  induction run generalizing inWord with
  | nil => exact absurd rfl hne
  | cons c run ih =>
    have ⟨hc, hrun⟩ := List.forall_mem_cons.mp hrun
    cases run with
    | nil => simp [capitalizeAllWith, hc]
    | cons d run =>
      rw [List.cons_append, capitalizeAllWith, hc, ih hrun (by simp)]
      simp

/-- The rest of a word stays. -/
theorem capitalizeAllWith_inside (hrun : ∀ c ∈ run, Text.isBlank c = false) :
    capitalizeAllWith upper true (run ++ rest) = run ++ capitalizeAllWith upper true rest := by
  induction run with
  | nil => rfl
  | cons c run ih =>
    have ⟨hc, hrun⟩ := List.forall_mem_cons.mp hrun
    rw [List.cons_append, capitalizeAllWith, hc]
    simp [ih hrun]

/-- A word that is entered from outside gets its capital. -/
theorem capitalizeAllWith_word (hrun : ∀ c ∈ run, Text.isBlank c = false) (hne : run ≠ []) :
    capitalizeAllWith upper false (run ++ rest) =
      capitalizeWith upper run ++ capitalizeAllWith upper true rest := by
  cases run with
  | nil => exact absurd rfl hne
  | cons c run =>
    have ⟨hc, hrun⟩ := List.forall_mem_cons.mp hrun
    rw [List.cons_append, capitalizeAllWith, hc]
    simp [capitalizeAllWith_inside hrun, capitalizeWith]

end Run

/-! ### All runs -/

/-- Runs are capitalized one by one, if the first of them is not the rest of a word. -/
theorem capitalizeAllWith_flatten {upper : Char → List Char} {rs : List (List Char)}
    {text : List Char} (h : AreRuns text rs) {inWord : Bool}
    (hstart : ∀ c ∈ text.head?, Text.isBlank c = false → inWord = false) :
    capitalizeAllWith upper inWord text = rs.flatMap (capitalizeRun upper) := by
  obtain ⟨rfl, hfilled, heven, hmaximal⟩ := h
  induction rs generalizing inWord with
  | nil => rfl
  | cons run rs ih =>
    have hne : run ≠ [] := fun h => hfilled (h ▸ List.mem_cons_self)
    have hrest : [] ∉ rs := fun h => hfilled (List.mem_cons_of_mem _ h)
    have ⟨hkind, hkinds⟩ := List.forall_mem_cons.mp heven
    rw [List.isChain_cons] at hmaximal
    -- what follows the run starts with a character of the other kind
    have hnext : ∀ c ∈ rs.flatten.head?, Text.isBlank c ≠ Text.isBlank (run.getLast hne) := by
      intro c hc
      cases rs with
      | nil => cases hc
      | cons next rs =>
        obtain ⟨_, hs, hdiffer⟩ := hmaximal.1 next rfl
        obtain ⟨d, tail, rfl⟩ := List.exists_cons_of_ne_nil hs
        cases hc
        exact hdiffer.symm
    have hlast := List.getLast_mem hne
    rw [List.flatten_cons, List.flatMap_cons, capitalizeRun]
    rcases hkind with hblank | hword
    · rw [capitalizeAllWith_blank hblank hne, if_pos (List.all_eq_true.mpr hblank),
        ih hrest hkinds hmaximal.2 fun _ _ _ => rfl]
    · have hdown : inWord = false := by
        obtain ⟨c, tail, rfl⟩ := List.exists_cons_of_ne_nil hne
        exact hstart c rfl (hword c List.mem_cons_self)
      have hsome : ¬ run.all Text.isBlank = true := fun hall =>
        absurd (List.all_eq_true.mp hall _ hlast) (by simp [hword _ hlast])
      rw [hdown, capitalizeAllWith_word hword hne, if_neg hsome, ih hrest hkinds hmaximal.2]
      intro c hc hcword
      exact absurd (hcword.trans (hword _ hlast).symm) (hnext c hc)

/-- **Every word gets its capital as if it stood alone.** A text is cut into maximal runs of white space
and of other characters, which can be done in one way. Whatever `upper` gives as the capital of a
character, the text with a capital in front of every word is made of these runs in order: white space as
it is, and every other run with a capital in front of it. -/
theorem capitalizeAll_runs (text : String) :
    (∀ rs, AreRuns text.toList rs ↔ rs = runs text.toList) ∧
      (∀ upper : Char → List Char, capitalizeAllWith upper false text.toList =
        (runs text.toList).flatMap fun run =>
          if run.all Text.isBlank then run else capitalizeWith upper run) ∧
      capitalizeAll text = String.join ((runs text.toList).map fun run =>
        if run.all Text.isBlank then String.ofList run else capitalize (String.ofList run)) := by
  have hruns : AreRuns text.toList (runs text.toList) := areRuns_iff.mpr rfl
  have hall (upper : Char → List Char) : capitalizeAllWith upper false text.toList =
      (runs text.toList).flatMap (capitalizeRun upper) :=
    capitalizeAllWith_flatten hruns fun _ _ _ => rfl
  refine ⟨fun rs => areRuns_iff, hall, ?_⟩
  have hrun (run : List Char) :
      (if run.all Text.isBlank then String.ofList run else capitalize (String.ofList run)).toList =
        capitalizeRun Text.upper run := by
    unfold capitalizeRun capitalize
    split <;> simp
  rw [capitalizeAll, hall Text.upper, ← String.toList_inj, String.toList_ofList, String.toList_join,
    List.flatMap_map]
  simp only [hrun]

/-- A tab and two spaces are runs, and the `ß` becomes two characters. -/
example : capitalizeAllWith (fun c => if c = 'ß' then ['S', 'S'] else [c.toUpper]) false
    "cat  ßo\tit's".toList = "Cat  SSo\tIt's".toList := by decide

end Fabula.Inflect
