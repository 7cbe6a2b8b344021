import Fabula.Proofs.Simulation

/-!
# Fabula.Proofs.Routine

**Modifiers as routines.** A modifier that a program registers is code, and all that it can do in an
expansion is a sequence of requests: take a draw, look at the context, activate or deactivate a tracker,
ask for an expansion. A `Routine` is that sequence written down, each request with what is done for
every answer. An expansion that is asked for answers with its error if it fails, so a routine may go on
after a failure and need not pass it on.

Two conditions on routines are all that is ever asked of modifiers:

* `Routine.Passes` says that certain errors are passed on, whatever happens in between;
* `Routine.Alike` says that two routines do the same, whatever differences of a certain kind there are
  between the contexts that they look at.

Routines that meet them do the same in corresponding runs (`Correspondence.routine_runs`). The built-in
modifiers are routines as well (`Routine.builtin_run`), also the one that expands a rule again and again
(`Routine.uniques_run`).
-/

namespace Fabula

variable {σ τ α : Type}

/-! ### What a routine is -/

/-- The requests of a modifier and what it makes of the answers. -/
inductive Routine
  /-- It comes to a value. -/
  | give (value : String)
  /-- It fails. -/
  | fail (e : ExpandError)
  /-- It looks at the context. -/
  | look (go : View → Routine)
  /-- It draws a float. -/
  | next (go : Float → Routine)
  /-- It draws an integer between two bounds. -/
  | between (a b : Int) (go : Int → Routine)
  /-- It draws an index into a list of this length. -/
  | index (size : Nat) (go : Nat → Routine)
  /-- It activates a tracker. -/
  | push (rest : Routine)
  /-- It deactivates the latest tracker. -/
  | pop (rest : Routine)
  /-- It asks for a template to be expanded. -/
  | template (t : Template) (go : Except ExpandError (Option String) → Routine)
  /-- It asks for a rule to be expanded. -/
  | rule (name : String) (go : Except ExpandError (Option String) → Routine)

/-- Act and turn a failure into an answer. No program is answered that a text goes on for ever, so what is
said of all routines is said of more than can happen. -/
def Run.attempt (act : Run σ α) : Run σ (Except ExpandError α) := fun c =>
  match act c with
  | .ok a c => .ok (.ok a) c
  | .error e c => .ok (.error e) c

namespace Routine

/-- Do what a routine asks for, where trackers are activated by `pushing` and deactivated by
`popping`. -/
def runWith [RandomSource σ] (pushing popping : Run σ Unit) (engine : Engine σ) :
    Routine → Run σ String
  | give value => pure value
  | fail e => throw e
  | look go => do (go (← get).view).runWith pushing popping engine
  | next go => do (go (← Run.draw RandomSource.next)).runWith pushing popping engine
  | between a b go => do
    (go (← Run.draw (RandomSource.between a b))).runWith pushing popping engine
  | index size go => do
    (go (← Run.draw (RandomSource.index size))).runWith pushing popping engine
  | push rest => do
    pushing
    rest.runWith pushing popping engine
  | pop rest => do
    popping
    rest.runWith pushing popping engine
  | template t go => do
    (go (← Run.attempt (engine.expandTemplate t))).runWith pushing popping engine
  | rule name go => do
    (go (← Run.attempt (engine.expandRule name))).runWith pushing popping engine

/-- Do what a routine asks for. -/
def run [RandomSource σ] (engine : Engine σ) (r : Routine) : Run σ String :=
  r.runWith (modify Context.pushTracker) (modify Context.popTracker) engine

/-- The modifier that does what a routine asks for. -/
def override [RandomSource σ] (r : String → List Argument → Routine) : Override σ :=
  fun engine value args => (r value args).run engine

/-- Read and expand a text, and go on with the value. A failure is passed on. -/
def expand (text : String) (go : String → Routine) : Routine :=
  match Template.parse text with
  | .error e => fail (.template e)
  | .ok t => template t fun
    | .error e => fail e
    | .ok value => go (value.getD "")

/-! ### Conditions on routines -/

/-- Whatever the answers are, the routine fails with this error. -/
def Raises (e : ExpandError) : Routine → Prop
  | give _ => False
  | fail e' => e' = e
  | look go => ∀ view, (go view).Raises e
  | next go => ∀ u, (go u).Raises e
  | between _ _ go => ∀ n, (go n).Raises e
  | index _ go => ∀ i, (go i).Raises e
  | push rest => rest.Raises e
  | pop rest => rest.Raises e
  | template _ go => ∀ answer, (go answer).Raises e
  | rule _ go => ∀ answer, (go answer).Raises e

/-- If an expansion that the routine asks for fails with such an error, so does the routine. -/
def Passes (P : ExpandError → Prop) : Routine → Prop
  | give _ => True
  | fail _ => True
  | look go => ∀ view, (go view).Passes P
  | next go => ∀ u, (go u).Passes P
  | between _ _ go => ∀ n, (go n).Passes P
  | index _ go => ∀ i, (go i).Passes P
  | push rest => rest.Passes P
  | pop rest => rest.Passes P
  | template _ go => (∀ answer, (go answer).Passes P) ∧ ∀ e, P e → (go (.error e)).Raises e
  | rule _ go => (∀ answer, (go answer).Passes P) ∧ ∀ e, P e → (go (.error e)).Raises e

/-- The routines do the same, also when they look at contexts that differ in this way. -/
inductive Alike (R : View → View → Prop) : Routine → Routine → Prop
  /-- They come to the same value. -/
  | give (value : String) : Alike R (give value) (give value)
  /-- They fail with the same error. -/
  | fail (e : ExpandError) : Alike R (fail e) (fail e)
  /-- They make the same of contexts that differ in this way. -/
  | look {go go'} (h : ∀ view view', R view view' → Alike R (go view) (go' view')) :
    Alike R (look go) (look go')
  /-- They draw floats. -/
  | next {go go'} (h : ∀ u, Alike R (go u) (go' u)) : Alike R (next go) (next go')
  /-- They draw integers between the same bounds. -/
  | between (a b : Int) {go go'} (h : ∀ n, Alike R (go n) (go' n)) :
    Alike R (between a b go) (between a b go')
  /-- They draw indices into lists of the same length. -/
  | index (size : Nat) {go go'} (h : ∀ i, Alike R (go i) (go' i)) :
    Alike R (index size go) (index size go')
  /-- They activate trackers. -/
  | push {rest rest'} (h : Alike R rest rest') : Alike R (push rest) (push rest')
  /-- They deactivate trackers. -/
  | pop {rest rest'} (h : Alike R rest rest') : Alike R (pop rest) (pop rest')
  /-- They ask for the same template. -/
  | template (t : Template) {go go'} (h : ∀ answer, Alike R (go answer) (go' answer)) :
    Alike R (template t go) (template t go')
  /-- They ask for the same rule. -/
  | rule (name : String) {go go'} (h : ∀ answer, Alike R (go answer) (go' answer)) :
    Alike R (rule name go) (rule name go')

/-- A routine does the same as itself when it looks at the same. -/
theorem alike_eq (r : Routine) : r.Alike Eq r := by
  induction r with
  | give value => exact .give value
  | fail e => exact .fail e
  | look go ih => exact .look fun view view' h => h ▸ ih view
  | next go ih => exact .next ih
  | between a b go ih => exact .between a b ih
  | index size go ih => exact .index size ih
  | push rest ih => exact .push ih
  | pop rest ih => exact .pop ih
  | template t go ih => exact .template t ih
  | rule name go ih => exact .rule name ih

theorem passes_none (r : Routine) : r.Passes fun _ => False := by
  induction r with
  | give | fail => trivial
  | look _ ih | next _ ih | between _ _ _ ih | index _ _ ih | push _ ih | pop _ ih => exact ih
  | template _ _ ih | rule _ _ ih => exact ⟨ih, fun _ h => h.elim⟩

/-- A routine that expands a text passes every error of the expansion on. -/
theorem expand_passes {P : ExpandError → Prop} (text : String) {go : String → Routine}
    (h : ∀ value, (go value).Passes P) : (expand text go).Passes P := by
  unfold expand
  cases Template.parse text with
  | error e => trivial
  | ok t =>
    refine ⟨fun answer => ?_, fun e _ => rfl⟩
    cases answer with
    | error e => trivial
    | ok value => exact h _

end Routine

theorem Run.attempt_bind {β : Type} (act : Run σ α) (f : α → Run σ β) :
    (act >>= f).attempt = act.attempt >>= fun
      | .error e => pure (.error e)
      | .ok a => (f a).attempt := by
  funext c
  rw [Run.bind_apply]
  unfold Run.attempt
  rw [Run.bind_apply]
  cases act c <;> rfl

/-! ### Unique expansions are a routine -/

namespace Routine

/-- Expand a rule until there are enough different texts, and go on with them. -/
def collect (name : String) (r : Rule) (count : Nat) (texts : List String) :
    Nat → (Except ExpandError (List String) → Routine) → Routine
  | 0, go => go (.ok texts)
  | tries + 1, go =>
    if count ≤ texts.length then go (.ok texts)
    else rule name fun
      | .error e => go (.error e)
      | .ok (some text) =>
        collect name r count (if texts.contains text then texts else texts ++ [text]) tries go
      | .ok none => look fun view =>
        if Builtin.hasUnseen r view then collect name r count texts tries go else go (.ok texts)

/-- The built-in modifier that gives different expansions of a rule. -/
def uniques (g : Grammar τ) (args : List Argument) : Routine :=
  match Builtin.uniquesArgs args with
  | .error e => fail e
  | .ok (name, count, separator) =>
    match g.rule? name with
    | none => fail (.unknownRule Builtin.uniques.name name)
    | some r => push <| collect name r count [] Builtin.maxUniqueTries fun
      | .error e => pop (fail e)
      | .ok texts => pop (give (String.intercalate separator texts))

variable [RandomSource σ] (engine : Engine σ)

theorem collect_run (name : String) (r : Rule) (count : Nat) (texts : List String) (tries : Nat)
    (go : Except ExpandError (List String) → Routine) :
    (collect name r count texts tries go).run engine =
      (Builtin.collect (engine.expandRule name) (Builtin.hasUnseen r) count texts tries).attempt >>=
        fun answer => (go answer).run engine := by
  induction tries generalizing texts with
  | zero => rfl
  | succ tries ih =>
    unfold collect Builtin.collect
    by_cases henough : count ≤ texts.length
    · rw [if_pos henough, if_pos henough]
      rfl
    · rw [if_neg henough, if_neg henough, Run.attempt_bind, bind_assoc]
      refine congrArg ((engine.expandRule name).attempt >>= ·) (funext fun answer => ?_)
      cases answer with
      | error e => rfl
      | ok found =>
        cases found with
        | some text => exact ih _
        | none =>
          funext c
          by_cases hopen : Builtin.hasUnseen r c = true
          · have hview : Builtin.hasUnseen r c.view = true := hopen
            show run engine (if Builtin.hasUnseen r c.view then _ else _) c =
              ((if Builtin.hasUnseen r c then _ else _ : Run σ _).attempt >>= _) c
            rw [if_pos hopen, if_pos hview, ih]
          · have hview : ¬ Builtin.hasUnseen r c.view = true := hopen
            show run engine (if Builtin.hasUnseen r c.view then _ else _) c =
              ((if Builtin.hasUnseen r c then _ else _ : Run σ _).attempt >>= _) c
            rw [if_neg hopen, if_neg hview]
            rfl

/-- The built-in modifier does what its routine asks for. -/
theorem uniques_run (g : Grammar σ) (args : List Argument) :
    (uniques g args).run engine = Builtin.runUniques g engine args := by
  unfold uniques Builtin.runUniques
  cases Builtin.uniquesArgs args with
  | error e => rfl
  | ok parsed =>
    obtain ⟨name, count, separator⟩ := parsed
    unfold Run.ofExcept
    rw [pure_bind]
    dsimp only
    cases g.rule? name with
    | none => rfl
    | some r =>
      funext c
      show run engine (collect name r count [] Builtin.maxUniqueTries _) c.pushTracker = _
      rw [collect_run, Run.bind_apply]
      unfold Run.withTracker Run.within Run.attempt
      dsimp only
      rw [Run.bind_apply]
      cases Builtin.collect (engine.expandRule name) (Builtin.hasUnseen r) count []
        Builtin.maxUniqueTries c.pushTracker <;> rfl

end Routine

/-! ### All built-in modifiers are routines -/

namespace Routine

/-- Go on with a value. -/
def ofExcept (e : Except ExpandError α) (go : α → Routine) : Routine :=
  match e with
  | .ok a => go a
  | .error e => fail e

/-- Throw dice, starting from a total, and go on with what it comes to. -/
def throwFrom (sides : Nat) (total : Int) : Nat → (Int → Routine) → Routine
  | 0, go => go total
  | count + 1, go =>
    between 1 sides fun n => throwFrom sides (Dice.addWithin64 total n) count go

/-- Apply a built-in modifier to a value. -/
def builtin (g : Grammar τ) (value : String) (args : List Argument) : Builtin → Routine
  | .capitalize => give (Inflect.capitalize value)
  | .capitalizeAll => give (Inflect.capitalizeAll value)
  | .quotes => give ("\"" ++ value ++ "\"")
  | .times => ofExcept ((Builtin.timesArg args).bind (Builtin.repeated value)) give
  | .article => give (Inflect.withArticle value)
  | .plural => give (Inflect.pluralize value)
  | .singular => give (Inflect.singularize value)
  | .possessive => give (Inflect.possessive value)
  | .randomNumber => ofExcept (Builtin.randomBounds args) fun (low, high) =>
    between low high fun n => give (toString n)
  | .roll => ofExcept (Builtin.diceArg args) fun dice =>
    throwFrom dice.sides dice.bonus dice.count fun n => give (toString n)
  | .uniques => uniques g args

variable [RandomSource σ] (engine : Engine σ)

theorem ofExcept_run (e : Except ExpandError α) (go : α → Routine) :
    (ofExcept e go).run engine = Run.ofExcept e >>= fun a => (go a).run engine := by
  cases e <;> rfl

theorem throwFrom_run (sides : Nat) (total : Int) (count : Nat) (go : Int → Routine) :
    (throwFrom sides total count go).run engine =
      Run.draw (Dice.throwFrom sides total count) >>= fun n => (go n).run engine := by
  induction count generalizing total with
  | zero => rfl
  | succ count ih =>
    show (Run.draw (RandomSource.between 1 sides) >>= fun n =>
      (throwFrom sides (Dice.addWithin64 total n) count go).run engine) = _
    simp only [ih]
    rfl

/-- A built-in modifier does what its routine asks for. -/
theorem builtin_run (b : Builtin) (g : Grammar σ) (value : String) (args : List Argument) :
    (builtin g value args b).run engine = b.apply g engine value args := by
  cases b with
  | times => exact (ofExcept_run engine _ _).trans (bind_pure _)
  | randomNumber => exact ofExcept_run engine _ _
  | roll =>
    refine (ofExcept_run engine _ _).trans (congrArg (_ >>= ·) (funext fun dice => ?_))
    exact throwFrom_run engine _ _ _ _
  | uniques => exact uniques_run engine g args
  | _ => rfl

end Routine

/-! ### What routines do in corresponding runs -/

/-- A routine that raises an error does so in every context. -/
theorem Routine.Raises.run_eq [RandomSource σ] {e : ExpandError} {r : Routine} (h : r.Raises e)
    (engine : Engine σ) (c : Context σ) : ∃ c', r.run engine c = .error e c' := by
  unfold Routine.run
  induction r generalizing c with
  | give => exact h.elim
  | fail e' => exact ⟨c, congrArg (EStateM.Result.error · c) h⟩
  | look go ih => exact ih _ (h _) c
  | next go ih | between _ _ go ih | index _ go ih => exact ih _ (h _) _
  | push rest ih | pop rest ih => exact ih h _
  | template t go ih =>
    unfold Routine.runWith
    rw [Run.bind_apply]
    unfold Run.attempt
    cases engine.expandTemplate t c <;> exact ih _ (h _) _
  | rule name go ih =>
    unfold Routine.runWith
    rw [Run.bind_apply]
    unfold Run.attempt
    cases engine.expandRule name c <;> exact ih _ (h _) _

/-- An attempt ends in the same context as the action. -/
theorem Run.after_attempt (act : Run σ α) (c : Context σ) : act.attempt.after c = act.after c := by
  unfold Run.attempt Run.after
  dsimp only
  cases act c <;> rfl

/-- What a routine does respects a relation if the expansions that it asks for do, and if trackers may
be activated and deactivated. -/
theorem Invariant.routine_keeps [RandomSource σ] {R B : Context σ → Context σ → Prop}
    (inv : Invariant R B) (hpush : ∀ c, R c c.pushTracker) (hpop : ∀ c, R c c.popTracker)
    {engine : Engine σ} (he : engine.Keeps R) (r : Routine) : Run.Keeps R (r.run engine) := by
  have hattempt {act : Run σ (Option String)} (h : Run.Keeps R act) : Run.Keeps R act.attempt := by
    intro c
    rw [Run.after_attempt]
    exact h c
  unfold Routine.run
  induction r with
  | give value => exact inv.pure_keeps value
  | fail e => exact inv.throw_keeps e
  | look go ih => exact Run.Keeps.get_bind fun c => ih _ c
  | next go ih | between a b go ih | index size go ih =>
    exact inv.bind_keeps (inv.draw_keeps _) ih
  | push rest ih => exact inv.bind_keeps hpush fun _ => ih
  | pop rest ih => exact inv.bind_keeps hpop fun _ => ih
  | template t go ih => exact inv.bind_keeps (hattempt (he.template t)) ih
  | rule name go ih => exact inv.bind_keeps (hattempt (he.rule name)) ih

namespace Correspondence

variable {K : Correspondence σ τ} {depth : Nat}

/-- What follows an attempt is compared for every answer. After an error that is excused nothing is
compared, if that error is what the first run comes to. -/
theorem attempt_bind_runs {β : Type} {act : Run σ α} {act' : Run τ α}
    {f : Except ExpandError α → Run σ β} {f' : Except ExpandError α → Run τ β}
    (h : K.Runs depth act act') (hf : ∀ answer, K.Runs depth (f answer) (f' answer))
    (hexcused : ∀ e, K.excused e → ∀ c, ∃ c', f (.error e) c = .error e c') :
    K.Runs depth (act.attempt >>= f) (act'.attempt >>= f') := by
  intro c d hcd
  rw [Run.bind_apply, Run.bind_apply]
  unfold Run.attempt
  have hr := h c d hcd
  generalize act c = r, act' d = r' at hr
  cases hr with
  | ok a h => exact hf _ _ _ h
  | error e h => exact hf _ _ _ h
  | @excused e c' r' h =>
    obtain ⟨c'', hc''⟩ := hexcused e h c'
    dsimp only
    rw [hc'']
    exact .excused h

section Routines

variable [RandomSource σ] [RandomSource τ] (hK : K.Lawful) {R : View → View → Prop}
variable (hviews : ∀ c d, K.Contexts depth c d → R c.view d.view)
variable {engine : Engine σ} {engine' : Engine τ} (he : K.Engines depth engine engine')
include hK hviews he

/-- Routines that are alike do the same in corresponding runs, if the errors that are excused are passed
on. -/
theorem runWith_runs {pushing popping : Run σ Unit} {pushing' popping' : Run τ Unit}
    (hpush : K.Runs depth pushing pushing') (hpop : K.Runs depth popping popping')
    (hraises : ∀ e, K.excused e → ∀ r : Routine, r.Raises e →
      ∀ c, ∃ c', r.runWith pushing popping engine c = .error e c')
    {r r' : Routine} (hpasses : r.Passes K.excused) (halike : r.Alike R r') :
    K.Runs depth (r.runWith pushing popping engine) (r'.runWith pushing' popping' engine') := by
  induction halike with
  | give value => exact pure_runs value
  | fail e => exact throw_runs e
  | look _ ih =>
    exact get_runs fun c d hcd => ih c.view d.view (hviews c d hcd) (hpasses _) c d hcd
  | next _ ih => exact (Draws.runs hK.next).bind fun u => ih u (hpasses u)
  | between a b _ ih => exact (Draws.runs (hK.between a b)).bind fun n => ih n (hpasses n)
  | index size _ ih => exact (Draws.runs (hK.index size)).bind fun i => ih i (hpasses i)
  | push _ ih => exact hpush.bind fun _ => ih hpasses
  | pop _ ih => exact hpop.bind fun _ => ih hpasses
  | template t _ ih =>
    exact attempt_bind_runs (he.template t) (fun answer => ih answer (hpasses.1 _))
      fun e h => hraises e h _ (hpasses.2 e h)
  | rule name _ ih =>
    exact attempt_bind_runs (he.rule name) (fun answer => ih answer (hpasses.1 _))
      fun e h => hraises e h _ (hpasses.2 e h)

theorem routine_runs (htrackless : K.Trackless) {r r' : Routine} (hpasses : r.Passes K.excused)
    (halike : r.Alike R r') : K.Runs depth (r.run engine) (r'.run engine') :=
  runWith_runs hK hviews he (modify_runs fun _ _ hcd => hcd.pushTracker htrackless)
    (modify_runs fun _ _ hcd => hcd.popTracker htrackless)
    (fun _ _ _ h c => h.run_eq engine c) hpasses halike

end Routines

/-- Modifiers that do what routines ask for correspond if the routines are alike. -/
theorem override_overrides [RandomSource σ] [RandomSource τ] (hK : K.Lawful)
    (htrackless : K.Trackless) {R : View → View → Prop}
    (hviews : ∀ depth c d, K.Contexts depth c d → R c.view d.view)
    {r r' : String → List Argument → Routine} (hpasses : ∀ value args, (r value args).Passes K.excused)
    (halike : ∀ value args, (r value args).Alike R (r' value args)) :
    K.Overrides (Routine.override r) (Routine.override r') := fun depth _ _ he value args =>
  routine_runs hK (hviews depth) he htrackless (hpasses value args) (halike value args)

end Correspondence

/-! ### Registered routines -/

/-- Every modifier that has been registered does what a routine asks for which meets `ok`. -/
def Grammar.OverridesAre [RandomSource σ] (g : Grammar σ) (ok : Routine → Prop) : Prop :=
  ∀ name f, g.overrides.get? name = some f →
    ∃ r : String → List Argument → Routine, f = Routine.override r ∧ ∀ value args, ok (r value args)

theorem Grammar.OverridesAre.mono [RandomSource σ] {g : Grammar σ} {ok ok' : Routine → Prop}
    (h : g.OverridesAre ok) (hok : ∀ r, ok r → ok' r) : g.OverridesAre ok' := fun name f hf =>
  let ⟨r, hr, hall⟩ := h name f hf
  ⟨r, hr, fun value args => hok _ (hall value args)⟩

/-- The modifiers do what routines ask for that are alike. -/
def Override.Alike [RandomSource σ] (R : View → View → Prop) (f f' : Override σ) : Prop :=
  ∃ r r' : String → List Argument → Routine, f = Routine.override r ∧ f' = Routine.override r' ∧
    ∀ value args, (r value args).Alike R (r' value args)

end Fabula
