import Mathlib.Data.List.Basic
import Fabula.Generator
import Fabula.Random.Mixed

/-!
# Fabula.Proofs.Replay

**A generator replays its texts, whatever fails in between.** Every attempt to generate a text, alone or
in a batch, starts a source of its own from the seed and the number of texts that have been generated
before, and only an attempt that succeeds changes that number. So a history of calls comes down to the
attempts that are made in it (`Generator.history`), and an attempt that fails might as well not have been
made.
-/

namespace Fabula.Generator

variable {σ : Type}

/-! ### Calls and attempts -/

/-- A call of a generator. -/
inductive Call
  /-- Generate a text. -/
  | generate (text : String)
  /-- Generate several texts from one template. -/
  | variants (text : String) (count : Nat)

/-- What a call answers. -/
inductive Answer
  /-- The text that was asked for. -/
  | text (answer : Except ExpandError String)
  /-- The texts that were asked for. -/
  | texts (answer : Except ExpandError (List String))

/-- An attempt to generate a text, and what came of it. -/
structure Attempt where
  /-- The template. -/
  text : String
  /-- The text that was generated, or why there is none. -/
  result : Except ExpandError String
  deriving DecidableEq

/-- A text was generated. -/
def Attempt.succeeded (a : Attempt) : Bool :=
  match a.result with
  | .ok _ => true
  | .error _ => false

section Histories

variable [RandomSource σ] [Seedable σ]

/-- Make a call. -/
def Call.run (g : Generator σ) : Call → Answer × Generator σ
  | .generate text => (.text (g.generate text).1, (g.generate text).2)
  | .variants text n => (.texts (g.variants text n).1, (g.variants text n).2)

/-- The answers to calls that are made one after the other. -/
def answers (g : Generator σ) : List Call → List Answer
  | [] => []
  | c :: cs => (c.run g).1 :: answers (c.run g).2 cs

/-- The generator after calls that are made one after the other. -/
def after (g : Generator σ) : List Call → Generator σ
  | [] => g
  | c :: cs => after (c.run g).2 cs

/-- The attempts that are made for several texts, up to the first that fails. -/
def batch (text : String) : Nat → Generator σ → List Attempt
  | 0, _ => []
  | n + 1, g =>
    match g.generate text with
    | (.ok value, g') => ⟨text, .ok value⟩ :: batch text n g'
    | (.error e, _) => [⟨text, .error e⟩]

/-- The attempts that are made in a call. -/
def Call.attempts (g : Generator σ) : Call → List Attempt
  | .generate text => [⟨text, (g.generate text).1⟩]
  | .variants text n => batch text n g

/-- The attempts that are made in calls one after the other. -/
def history (g : Generator σ) : List Call → List Attempt
  | [] => []
  | c :: cs => c.attempts g ++ history (c.run g).2 cs

/-- Attempts that are made one after the other: each comes from the generator that those before it have
left, and `g'` is left by the last. -/
inductive Attempts : Generator σ → List Attempt → Generator σ → Prop
  /-- None is made. -/
  | nil {g} : Attempts g [] g
  /-- One is made, then the others. -/
  | cons {g text rest g'} (hrest : Attempts (g.generate text).2 rest g') :
    Attempts g (⟨text, (g.generate text).1⟩ :: rest) g'

/-- A generator is given the calls `more`, which are `calls` and some failing calls for one text between
them. Those of `calls` are answered by `answers`, and `g'` is the generator after them all. -/
inductive Disturbed : Generator σ → List Call → List Call → List Answer → Generator σ → Prop
  /-- There are no more calls. -/
  | done {g} : Disturbed g [] [] [] g
  /-- A call is made on both sides. -/
  | common {g c a g₁ calls more answers g'} (hrun : c.run g = (a, g₁))
    (hrest : Disturbed g₁ calls more answers g') :
    Disturbed g (c :: calls) (c :: more) (a :: answers) g'
  /-- A text is asked for in between, and there is none. -/
  | failing {g text e g₁ calls more answers g'} (hfails : g.generate text = (.error e, g₁))
    (hrest : Disturbed g₁ calls more answers g') :
    Disturbed g calls (.generate text :: more) answers g'

end Histories

/-! ### One attempt -/

section Attempts

variable [RandomSource σ] [Seedable σ] {g g' : Generator σ} {text : String}

/-- What an attempt gives is what the grammar gives with a source of its own. -/
theorem generate_result (g : Generator σ) (text : String) :
    (g.generate text).1 =
      (g.grammar.expand text (Seedable.ofSeed (g.seed + g.count) : σ)).1 := by
  unfold generate
  split <;> next h => exact h.symm

theorem generate_of_ok {value : String}
    (h : (g.grammar.expand text (Seedable.ofSeed (g.seed + g.count) : σ)).1 = .ok value) :
    g.generate text = (.ok value, { g with count := g.count + 1 }) := by
  unfold generate
  rw [h]

theorem generate_of_error {e : ExpandError}
    (h : (g.grammar.expand text (Seedable.ofSeed (g.seed + g.count) : σ)).1 = .error e) :
    g.generate text = (.error e, g) := by
  unfold generate
  rw [h]

/-- An attempt succeeds and counts, or it fails and changes nothing. -/
theorem generate_cases (g : Generator σ) (text : String) :
    (∃ value, g.generate text = (.ok value, { g with count := g.count + 1 })) ∨
      ∃ e, g.generate text = (.error e, g) := by
  cases h : (g.grammar.expand text (Seedable.ofSeed (g.seed + g.count) : σ)).1 with
  | ok value => exact .inl ⟨value, generate_of_ok h⟩
  | error e => exact .inr ⟨e, generate_of_error h⟩

theorem generate_state_of_error {e : ExpandError} (h : (g.generate text).1 = .error e) :
    (g.generate text).2 = g := by
  obtain ⟨value, hok⟩ | ⟨e', herror⟩ := generate_cases g text
  · rw [hok] at h
    cases h
  · rw [herror]

/-! ### Attempts one after the other -/

theorem add_ofNat_succ (n : UInt64) (k : Nat) : n + UInt64.ofNat (k + 1) = n + 1 + UInt64.ofNat k := by
  rw [Nat.add_comm k 1, UInt64.ofNat_add, ← UInt64.add_assoc]
  rfl

theorem Attempts.append {first second : List Attempt} {g₁ : Generator σ} (h : Attempts g first g₁)
    (h' : Attempts g₁ second g') : Attempts g (first ++ second) g' := by
  induction h with
  | nil => exact h'
  | cons _ ih => exact .cons (ih h')

/-- Attempts leave the number of those that succeeded. -/
theorem Attempts.state_eq {attempts : List Attempt} (h : Attempts g attempts g') :
    g' = { g with count := g.count + UInt64.ofNat (attempts.countP Attempt.succeeded) } := by
  induction h with
  | nil => simp
  | @cons g text rest g' _ ih =>
    obtain ⟨value, hok⟩ | ⟨e, herror⟩ := generate_cases g text
    · rw [ih, hok, List.countP_cons_of_pos rfl, add_ofNat_succ]
    · rw [ih, herror, List.countP_cons_of_neg (by simp [Attempt.succeeded])]

/-- Every attempt gives what the grammar gives with a source started from the seed and the number of
attempts that succeeded before. -/
theorem Attempts.result_eq {attempts first later : List Attempt} {a : Attempt}
    (h : Attempts g attempts g') (hsplit : attempts = first ++ a :: later) :
    a.result = (g.grammar.expand a.text (Seedable.ofSeed
      (g.seed + (g.count + UInt64.ofNat (first.countP Attempt.succeeded))) : σ)).1 := by
  induction h generalizing first with
  | nil =>
    cases first <;> cases hsplit
  | @cons g text rest g' _ ih =>
    cases first with
    | nil =>
      cases hsplit
      simpa using generate_result g text
    | cons b first =>
      cases hsplit
      rw [ih rfl]
      obtain ⟨value, hok⟩ | ⟨e, herror⟩ := generate_cases g text
      · rw [hok, List.countP_cons_of_pos rfl, add_ofNat_succ]
      · rw [herror, List.countP_cons_of_neg (by simp [Attempt.succeeded])]

/-! ### Batches -/

/-- A batch answers with the texts of its attempts, or with what the last of them has failed for. -/
theorem variantsFrom_batch (text : String) (values : List String) (n : Nat) (g : Generator σ) :
    Attempts g (batch text n g) (variantsFrom text values n g).2 ∧
      (variantsFrom text values n g).1 =
        ((batch text n g).mapM Attempt.result).map (values.reverse ++ ·) := by
  induction n generalizing values g with
  | zero => exact ⟨.nil, by simp [variantsFrom, batch, Except.map, pure, Except.pure]⟩
  | succ n ih =>
    have hstep {rest g'} : Attempts (g.generate text).2 rest g' →
        Attempts g (⟨text, (g.generate text).1⟩ :: rest) g' := .cons
    unfold variantsFrom batch
    obtain ⟨value, hok⟩ | ⟨e, herror⟩ := generate_cases g text
    · obtain ⟨hattempts, hanswer⟩ := ih (value :: values) { g with count := g.count + 1 }
      rw [hok] at hstep ⊢
      refine ⟨hstep hattempts, ?_⟩
      rw [hanswer, List.mapM_cons]
      cases (batch text n { g with count := g.count + 1 }).mapM Attempt.result <;>
        simp [Except.map, bind, Except.bind, pure, Except.pure]
    · rw [herror] at hstep ⊢
      exact ⟨hstep .nil, by simp [Except.map, bind, Except.bind, List.mapM_cons]⟩

theorem variants_batch (g : Generator σ) (text : String) (n : Nat) :
    Attempts g (batch text n g) (g.variants text n).2 ∧
      (g.variants text n).1 = (batch text n g).mapM Attempt.result := by
  obtain ⟨hattempts, hanswer⟩ := variantsFrom_batch text [] n g
  refine ⟨hattempts, hanswer.trans ?_⟩
  cases (batch text n g).mapM Attempt.result <;> rfl

/-- What has failed once fails again, and changes nothing however often it is tried. -/
theorem after_replicate_of_error {e : ExpandError} (h : (g.generate text).1 = .error e) (n : Nat) :
    g.after (List.replicate n (.generate text)) = g := by
  induction n with
  | zero => rfl
  | succ n ih =>
    rw [List.replicate_succ, after, Call.run, generate_state_of_error h]
    exact ih

/-- A batch leaves what as many single calls leave. -/
theorem variantsFrom_after (text : String) (values : List String) (n : Nat) (g : Generator σ) :
    (variantsFrom text values n g).2 = g.after (List.replicate n (.generate text)) := by
  induction n generalizing values g with
  | zero => rfl
  | succ n ih =>
    unfold variantsFrom
    obtain ⟨value, hok⟩ | ⟨e, herror⟩ := generate_cases g text
    · rw [List.replicate_succ, after, Call.run, hok]
      exact ih (value :: values) _
    · rw [after_replicate_of_error (by rw [herror]), herror]

/-- The attempts of a batch all succeed if as many single calls do, and give the same texts. -/
theorem mapM_batch_iff (text : String) (n : Nat) (g : Generator σ) (values : List String) :
    (batch text n g).mapM Attempt.result = .ok values ↔
      g.answers (List.replicate n (.generate text)) = values.map fun value => .text (.ok value) := by
  induction n generalizing g values with
  | zero =>
    rw [List.replicate_zero, answers, eq_comm (a := []), List.map_eq_nil_iff, eq_comm (a := values)]
    exact ⟨fun h => by cases h; rfl, fun h => by rw [← h]; rfl⟩
  | succ n ih =>
    unfold batch
    rw [List.replicate_succ, answers, Call.run]
    obtain ⟨value, hok⟩ | ⟨e, herror⟩ := generate_cases g text
    · have ih := ih { g with count := g.count + 1 }
      rw [hok, List.mapM_cons]
      cases values with
      | nil =>
        cases h : (batch text n { g with count := g.count + 1 }).mapM Attempt.result <;>
          simp [bind, Except.bind, pure, Except.pure]
      | cons v values =>
        rw [List.map_cons, List.cons.injEq, ← ih]
        cases h : (batch text n { g with count := g.count + 1 }).mapM Attempt.result <;>
          simp [bind, Except.bind, pure, Except.pure]
    · rw [herror, List.mapM_cons]
      cases values <;> simp [bind, Except.bind]

/-! ### Histories -/

theorem Call.attempts_run (c : Call) (g : Generator σ) : Attempts g (c.attempts g) (c.run g).2 := by
  cases c with
  | generate text => exact .cons .nil
  | variants text n => exact (variants_batch g text n).1

theorem history_attempts (g : Generator σ) (calls : List Call) :
    Attempts g (g.history calls) (g.after calls) := by
  induction calls generalizing g with
  | nil => exact .nil
  | cons c calls ih => exact (c.attempts_run g).append (ih _)

/-- Calls are answered as they would be without those that fail in between. -/
theorem Disturbed.eq {calls more : List Call} {answers : List Answer}
    (h : Disturbed g calls more answers g') : answers = g.answers calls ∧ g' = g.after calls := by
  induction h with
  | done => exact ⟨rfl, rfl⟩
  | @common _ c a g₁ _ _ _ _ hrun _ ih =>
    rw [Generator.answers, after, hrun]
    exact ⟨congrArg (a :: ·) ih.1, ih.2⟩
  | @failing g _ _ g₁ _ _ _ _ hfails _ ih =>
    have hstate : g₁ = g := by
      simpa [hfails] using generate_state_of_error (congrArg Prod.fst hfails)
    rwa [hstate] at ih

omit [RandomSource σ] [Seedable σ] in
theorem build_eq {grammar : Grammar σ} {seed : UInt64} {path : PathContent}
    {models : Table Markov.Model} {settings : Option Grammar.Settings}
    (h : build grammar seed path models settings = .ok g) : g.seed = seed ∧ g.count = 0 := by
  unfold build at h
  split at h <;> cases h
  exact ⟨rfl, rfl⟩

end Attempts

/-- **A generator replays its texts, whatever fails in between.** From a generator that has just been
built, after any calls:

* Every attempt that was made, alone or in a batch, gave what the grammar gives with a source started
  from the seed and the number of attempts that had succeeded before; and that number is all that has
  changed.
* A text that fails leaves the generator as it is. A batch answers with the texts of its attempts, it
  succeeds exactly when as many single calls do, with the same texts, and leaves the same generator.
* A generator built alike that is given more calls, all of them failing calls for one text, answers the
  others just the same. -/
theorem generators_replay [RandomSource σ] [Seedable σ] {grammar : Grammar σ} {seed : UInt64}
    {path : PathContent} {models : Table Markov.Model} {settings : Option Grammar.Settings}
    {g : Generator σ} (hbuild : build grammar seed path models settings = .ok g)
    (calls : List Call) :
    (∀ first a later, g.history calls = first ++ a :: later →
      a.result = (g.grammar.expand a.text (Seedable.ofSeed
        (seed + UInt64.ofNat (first.countP Attempt.succeeded)) : σ)).1) ∧
    g.after calls =
      { g with count := UInt64.ofNat ((g.history calls).countP Attempt.succeeded) } ∧
    (∀ text e, ((g.after calls).generate text).1 = .error e →
      ((g.after calls).generate text).2 = g.after calls) ∧
    (∀ text n,
      ((g.after calls).variants text n).1 = (batch text n (g.after calls)).mapM Attempt.result ∧
      (∀ values, ((g.after calls).variants text n).1 = .ok values ↔
        (g.after calls).answers (List.replicate n (.generate text)) =
          values.map fun value => .text (.ok value)) ∧
      ((g.after calls).variants text n).2 =
        (g.after calls).after (List.replicate n (.generate text))) ∧
    ∀ more answers g', Disturbed g calls more answers g' →
      answers = g.answers calls ∧ g' = g.after calls := by
  obtain ⟨rfl, hcount⟩ := build_eq hbuild
  have hattempts := history_attempts g calls
  refine ⟨fun first a later hsplit => ?_, ?_, fun text e => generate_state_of_error,
    fun text n => ⟨(variants_batch _ text n).2, fun values => ?_, variantsFrom_after text [] n _⟩,
    fun more answers g' => Disturbed.eq⟩
  · have hresult := hattempts.result_eq hsplit
    rwa [hcount, UInt64.zero_add] at hresult
  · have hstate := hattempts.state_eq
    rwa [hcount, UInt64.zero_add] at hstate
  · rw [(variants_batch _ text n).2, mapM_batch_iff]

/-- A generator of pets with the highest seed, after so many texts. -/
def shelter (count : UInt64) : Generator Seeded where
  grammar := {
    rules := [("pet", Rule.ofAlternatives [⟨0, 1⟩, ⟨1, 1⟩])]
    store := #["cat", "dog"] }
  seed := 18446744073709551615
  count := count

/-- The second pet is drawn from seed zero, whether a bird has been asked for in between or not. -/
theorem shelter_replays :
    build (shelter 0).grammar 18446744073709551615 .missing [] none = .ok (shelter 0) ∧
    (shelter 0).history [.generate "{pet}", .generate "{bird}", .generate "{pet}"] =
      [⟨"{pet}", .ok "cat"⟩, ⟨"{bird}", .error (.unknownSymbol "bird")⟩, ⟨"{pet}", .ok "dog"⟩] ∧
    ((shelter 0).grammar.expand "{pet}" (Seeded.ofSeed 0)).1 = .ok "dog" ∧
    Disturbed (shelter 0) [.generate "{pet}", .generate "{pet}"]
      [.generate "{pet}", .generate "{bird}", .generate "{pet}"]
      [.text (.ok "cat"), .text (.ok "dog")] (shelter 2) ∧
    (shelter 0).answers [.generate "{pet}", .generate "{pet}"] =
      [.text (.ok "cat"), .text (.ok "dog")] := by
  have hbuild : build (shelter 0).grammar 18446744073709551615 .missing [] none = .ok (shelter 0) :=
    rfl
  have hcat : (shelter 0).generate "{pet}" = (.ok "cat", shelter 1) :=
    generate_of_ok (by decide +kernel)
  have hbird : (shelter 1).generate "{bird}" = (.error (.unknownSymbol "bird"), shelter 1) :=
    generate_of_error (by decide +kernel)
  have hdog : (shelter 1).generate "{pet}" = (.ok "dog", shelter 2) :=
    generate_of_ok (by decide +kernel)
  have hhistory : (shelter 0).history [.generate "{pet}", .generate "{bird}", .generate "{pet}"] =
      [⟨"{pet}", .ok "cat"⟩, ⟨"{bird}", .error (.unknownSymbol "bird")⟩, ⟨"{pet}", .ok "dog"⟩] := by
    simp [history, Call.run, Call.attempts, hcat, hbird, hdog]
  have hdisturbed : Disturbed (shelter 0) [.generate "{pet}", .generate "{pet}"]
      [.generate "{pet}", .generate "{bird}", .generate "{pet}"]
      [.text (.ok "cat"), .text (.ok "dog")] (shelter 2) :=
    .common (by rw [Call.run, hcat]) (.failing hbird (.common (by rw [Call.run, hdog]) .done))
  obtain ⟨hresult, -⟩ := generators_replay hbuild
    [.generate "{pet}", .generate "{bird}", .generate "{pet}"]
  obtain ⟨-, -, -, -, hundisturbed⟩ := generators_replay hbuild [.generate "{pet}", .generate "{pet}"]
  have hthird := hresult [⟨"{pet}", .ok "cat"⟩, ⟨"{bird}", .error (.unknownSymbol "bird")⟩]
    ⟨"{pet}", .ok "dog"⟩ [] hhistory
  exact ⟨hbuild, hhistory, hthird.symm, hdisturbed, (hundisturbed _ _ _ hdisturbed).1.symm⟩

end Fabula.Generator
