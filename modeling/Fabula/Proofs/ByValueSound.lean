import Fabula.Proofs.ByValue
import Fabula.Proofs.Confinement
import Fabula.Random.Scripted

/-!
# Fabula.Proofs.ByValueSound

The interpreter, which opens and closes scopes as it goes, does the same as **expansion by value**.

The simulation relates an action on contexts to one on worlds that is given the values of names
(`Agrees`): at a certain depth inside an expansion, the one does in a context what the other does in
its world, the values being those of all its scopes, and leaves the place of the context as it was.
Only declarations write to a scope, and only to the innermost one (`assignAll_declare`).
-/

namespace Fabula

variable {σ α β : Type}

/-! ### Effects in contexts -/

@[simp] theorem World.world_context (w : World σ) : w.context.world = w := rfl

namespace Effect

theorem bind_apply (act : Effect σ α) (f : α → Effect σ β) (w : World σ) :
    (act >>= f) w = match act w with
      | .ok a w' => f a w'
      | .error e w' => .error e w' := by
  show EStateM.bind act f w = _
  unfold EStateM.bind
  cases act w <;> rfl

theorem lift_of_ok {act : Effect σ α} {c : Context σ} {a : α} {w : World σ}
    (h : act c.world = .ok a w) : act.lift c = .ok a (c.withWorld w) := by
  unfold lift
  rw [h]

theorem lift_of_error {act : Effect σ α} {c : Context σ} {e : ExpandError} {w : World σ}
    (h : act c.world = .error e w) : act.lift c = .error e (c.withWorld w) := by
  unfold lift
  rw [h]

theorem lift_bind (act : Effect σ α) (f : α → Effect σ β) :
    (act >>= f).lift = act.lift >>= fun a => (f a).lift := by
  funext c
  rw [Run.bind_apply]
  unfold lift
  rw [bind_apply]
  cases act c.world <;> rfl

/-- What is made of the result does not matter for the context. -/
theorem lift_bind_pure {act : Run σ α} {e : Effect σ α} {c : Context σ} (h : act c = e.lift c)
    (f : α → β) : (act >>= fun a => pure (f a)) c = (e >>= fun a => pure (f a)).lift c := by
  rw [lift_bind, Run.bind_apply, Run.bind_apply, h]
  rfl

theorem atRest_lift (act : Effect σ α) : act.lift.atRest = act := by
  funext w
  unfold Run.atRest lift
  rw [World.world_context]
  cases act w <;> rfl

end Effect

/-! ### Actions that do not look at the place -/

/-- The action does not depend on the place of the context and leaves it as it is. -/
def Run.Placeless (act : Run σ α) : Prop := ∃ e : Effect σ α, act = e.lift

namespace Run.Placeless

theorem lift_atRest {act : Run σ α} (h : Placeless act) : act.atRest.lift = act := by
  obtain ⟨e, rfl⟩ := h
  rw [Effect.atRest_lift]

theorem pure (a : α) : Placeless (pure a : Run σ α) := ⟨Pure.pure a, rfl⟩

theorem throw (e : ExpandError) : Placeless (throw e : Run σ α) := ⟨MonadExcept.throw e, rfl⟩

theorem ofExcept (e : Except ExpandError α) : Placeless (Run.ofExcept e : Run σ α) := by
  cases e with
  | ok a => exact .pure a
  | error e => exact .throw e

theorem bind {act : Run σ α} {f : α → Run σ β} (h : Placeless act) (hf : ∀ a, Placeless (f a)) :
    Placeless (act >>= f) := by
  obtain ⟨e, rfl⟩ := h
  choose e' he' using hf
  exact ⟨e >>= e', by rw [Effect.lift_bind, funext he']⟩

theorem draw (f : σ → α × σ) : Placeless (Run.draw f) :=
  ⟨fun w => .ok (f w.source).1 { w with source := (f w.source).2 }, rfl⟩

/-- Reading a context is harmless if only its world matters for what follows. -/
theorem get_bind {f : Context σ → Run σ α} {F : World σ → Effect σ α}
    (h : ∀ c, f c = (F c.world).lift) : Placeless (get >>= f) :=
  ⟨fun w => F w w, by funext c; rw [Run.get_bind, h]; rfl⟩

theorem withTracker {act : Run σ α} (h : Placeless act) : Placeless (Run.withTracker act) := by
  obtain ⟨e, rfl⟩ := h
  refine ⟨fun w => match e { w with trackers := [] :: w.trackers } with
    | .ok a w => .ok a { w with trackers := w.trackers.tail }
    | .error err w => .error err { w with trackers := w.trackers.tail }, ?_⟩
  funext c
  unfold Run.withTracker Run.within Effect.lift
  dsimp only [Context.world, Context.pushTracker]
  cases e ⟨c.source, [] :: c.trackers, c.produced⟩ <;> rfl

end Run.Placeless

section Steps

open Run (Placeless)

theorem pick_placeless [RandomSource σ] (r : Rule) :
    Placeless (Run.pick r : Run σ (Option Slot)) :=
  ⟨fun w => .ok (r.pick w.context.excluded w.source).1
    { w with source := (r.pick w.context.excluded w.source).2 }, rfl⟩

theorem generate_placeless [RandomSource σ] (m : Markov.Model) :
    Placeless (Run.generate m : Run σ (Option String)) := by
  refine ⟨(Run.generate m).atRest, ?_⟩
  funext c
  unfold Run.generate Effect.lift Run.atRest
  dsimp only [World.context, Context.world]
  obtain ⟨_ | _, s⟩ := m.generate c.source <;> rfl

theorem resolveMarkov_placeless [RandomSource σ] (name : String) (m : Markov.Model) (tries : Nat) :
    Placeless (resolveMarkov name m tries : Run σ String) := by
  induction tries with
  | zero => exact .pure ""
  | succ tries ih =>
    refine (generate_placeless m).bind fun text => ?_
    cases text with
    | none => exact ih
    | some text =>
      obtain ⟨e, he⟩ := ih
      have hkeep : Placeless (do
          modify fun c => { c with produced := c.produced.insert (name, text) }
          return text : Run σ String) :=
        ⟨fun w => .ok text { w with produced := w.produced.insert (name, text) }, rfl⟩
      obtain ⟨keep, hkeep⟩ := hkeep
      refine Placeless.get_bind (F := fun w =>
        if accepts name m.settings w.produced text then keep else e) fun c => ?_
      have hp : c.world.produced = c.produced := rfl
      by_cases ha : accepts name m.settings c.produced text = true
      · rw [hp, if_pos ha, if_pos ha, hkeep]
      · rw [hp, if_neg ha, if_neg ha, he]

theorem collect_placeless {attempt : Run σ (Option String)} (h : Placeless attempt) (r : Rule)
    (count : Nat) (texts : List String) (tries : Nat) :
    Placeless (Builtin.collect attempt (Builtin.hasUnseen r) count texts tries) := by
  induction tries generalizing texts with
  | zero => exact .pure texts
  | succ tries ih =>
    unfold Builtin.collect
    split
    · exact .pure texts
    · refine h.bind fun found => ?_
      cases found with
      | some text => exact ih _
      | none =>
        obtain ⟨e, he⟩ := ih texts
        refine Placeless.get_bind (F := fun w =>
          if Builtin.hasUnseen r w.context then e else pure texts) fun c => ?_
        have hu : Builtin.hasUnseen r c.world.context = Builtin.hasUnseen r c := rfl
        by_cases ha : Builtin.hasUnseen r c = true
        · rw [hu, if_pos ha, if_pos ha, he]
        · rw [hu, if_neg ha, if_neg ha]
          rfl

/-- A built-in modifier does not look at its place if the rules that it asks for do not. -/
theorem builtin_placeless [RandomSource σ] (g : Grammar σ) (b : Builtin) {engine : Engine σ}
    (he : ∀ name, Placeless (engine.expandRule name)) (value : String) (args : List Argument) :
    Placeless (b.apply g engine value args) := by
  cases b with
  | times => exact .ofExcept _
  | randomNumber =>
    exact (Placeless.ofExcept _).bind fun _ => (Placeless.draw _).bind fun _ => .pure _
  | roll => exact (Placeless.ofExcept _).bind fun _ => (Placeless.draw _).bind fun _ => .pure _
  | uniques =>
    refine (Placeless.ofExcept _).bind fun (name, count, separator) => ?_
    dsimp only
    split
    · exact .throw _
    · exact ((collect_placeless (he name) _ _ _ _).bind fun _ => .pure _).withTracker
  | _ => exact .pure _

theorem applyModifiers_placeless [RandomSource σ] {g : Grammar σ} (hg : g.overrides = [])
    {engine : Engine σ} (he : ∀ name, Placeless (engine.expandRule name))
    (calls : List ModifierCall) (value : String) :
    Placeless (applyModifiers g engine calls value) := by
  induction calls generalizing value with
  | nil => exact .pure value
  | cons call calls ih =>
    refine Placeless.bind ?_ ih
    have ho : g.overrides.get? call.name = none := by rw [hg]; rfl
    cases hb : Builtin.ofName? call.name with
    | some b =>
      rw [applyModifier_of_builtin ho hb]
      exact builtin_placeless g b he value call.args
    | none =>
      rw [applyModifier_of_unknown ho hb]
      exact .throw _

end Steps

/-! ### The simulation -/

/-- Inside an expansion at this depth, the action does in a context what the effect does in its world,
given the values in all its scopes, and leaves its place as it was. -/
def Agrees (depth : Nat) (act : Run σ α) (effect : Bindings → Effect σ α) : Prop :=
  ∀ c : Context σ, c.globalsLoaded = true → c.depth = depth →
    act c = (effect c.scopes.flatten).lift c

namespace Agrees

variable {depth : Nat}

theorem pure (a : α) : Agrees depth (pure a : Run σ α) fun _ => pure a := fun _ _ _ => rfl

theorem of_placeless {act : Run σ α} (h : Run.Placeless act) :
    Agrees depth act fun _ => act.atRest := by
  intro c _ _
  rw [h.lift_atRest]

theorem bind {act : Run σ α} {effect : Bindings → Effect σ α} {f : α → Run σ β}
    {f' : α → Bindings → Effect σ β} (h : Agrees depth act effect)
    (hf : ∀ a, Agrees depth (f a) (f' a)) :
    Agrees depth (act >>= f) fun env => effect env >>= fun a => f' a env := by
  intro c hl hd
  rw [Effect.lift_bind, Run.bind_apply, Run.bind_apply, h c hl hd]
  unfold Effect.lift
  cases effect c.scopes.flatten c.world with
  | ok a w => exact hf a (c.withWorld w) hl hd
  | error e w => rfl

theorem congr {act : Run σ α} {effect effect' : Bindings → Effect σ α}
    (h : Agrees depth act effect) (he : ∀ env, effect' env = effect env) :
    Agrees depth act effect' := by
  intro c hl hd
  rw [h c hl hd, he]

/-- What is read from a context must be read from its world. -/
theorem get_pure {F : Context σ → α} {F' : World σ → α} (h : ∀ c, F c = F' c.world) :
    Agrees depth (get >>= fun c => Pure.pure (F c)) fun _ => get >>= fun w => Pure.pure (F' w) := by
  intro c _ _
  rw [Run.get_bind, h]
  rfl

theorem live_pure (r : Rule) (value : Option String) :
    Agrees depth (get >>= fun c => (Pure.pure (value.map (⟨·, Builtin.hasUnseen r c⟩)) :
        Run σ (Option Resolved)))
      fun _ => get >>= fun w => Pure.pure (value.map (⟨·, Builtin.hasUnseen r w.context⟩)) :=
  get_pure fun _ => rfl

end Agrees

theorem lookup_eq (c : Context σ) (name : String) :
    c.lookup name = c.scopes.flatten.lookup name := by
  unfold Context.lookup
  induction c.scopes with
  | nil => rfl
  | cons scope outer ih =>
    rw [List.findSome?_cons, List.flatten_cons, List.lookup_append, ih]
    cases List.lookup name scope <;> rfl

/-- The evaluators agree about templates one level below, inside an expansion at this depth. -/
def EvaluatorsAgree (depth : Nat) (enter : Evaluator σ) (enter' : ByValue.Evaluator σ) : Prop :=
  ∀ t slot, Agrees depth (enter t slot) fun env => enter' env t slot

/-! ### Declarations -/

/-- The context with other scopes. -/
def Context.withScopes (c : Context σ) (scopes : List Scope) : Context σ := { c with scopes }

/-- Declarations write their values into the innermost scope, where expansion by value puts them in
front. If one fails, the outer scopes are still as they were. -/
theorem assignAll_declare {enter : Evaluator σ} {enter' : ByValue.Evaluator σ} {depth : Nat}
    (h : EvaluatorsAgree depth enter enter') (declarations : List (String × Template))
    {c : Context σ} (scope : Scope) (outer : List Scope) (hl : c.globalsLoaded = true)
    (hd : c.depth = depth) :
    ∃ scope', match ByValue.declare enter' (scope ++ outer.flatten) declarations c.world with
      | .ok env w => env = scope' ++ outer.flatten ∧
        assignAll enter declarations (c.withScopes (scope :: outer)) =
          .ok () ((c.withWorld w).withScopes (scope' :: outer))
      | .error e w =>
        assignAll enter declarations (c.withScopes (scope :: outer)) =
          .error e ((c.withWorld w).withScopes (scope' :: outer)) := by
  induction declarations generalizing c scope with
  | nil => exact ⟨scope, rfl, rfl⟩
  | cons declaration rest ih =>
    obtain ⟨name, t⟩ := declaration
    have hv := h t none (c.withScopes (scope :: outer)) hl hd
    unfold ByValue.declare
    rw [Effect.bind_apply]
    cases hw : enter' (scope ++ outer.flatten) t none c.world with
    | error e w =>
      -- the scope keeps what was written before the fault, until it is closed
      have he : enter t none (c.withScopes (scope :: outer)) =
          .error e ((c.withWorld w).withScopes (scope :: outer)) :=
        hv.trans (Effect.lift_of_error hw)
      exact ⟨scope, assignAll_of_error he⟩
    | ok value w =>
      have he : enter t none (c.withScopes (scope :: outer)) =
          .ok value ((c.withWorld w).withScopes (scope :: outer)) :=
        hv.trans (Effect.lift_of_ok hw)
      rw [assignAll_of_value he]
      exact ih (c := c.withWorld w) ((name, value.getD "") :: scope) hl hd

/-- An action after declarations, in a scope of their own. -/
theorem assignAll_bind {enter : Evaluator σ} {enter' : ByValue.Evaluator σ} {depth : Nat}
    (h : EvaluatorsAgree depth enter enter') {act : Run σ α} {effect : Bindings → Effect σ α}
    (hact : Agrees depth act effect) (declarations : List (String × Template)) {c : Context σ}
    (outer : List Scope) (hl : c.globalsLoaded = true) (hd : c.depth = depth) :
    ∃ scope, (assignAll enter declarations >>= fun _ => act) (c.withScopes ([] :: outer)) =
      match (ByValue.declare enter' outer.flatten declarations >>= effect) c.world with
      | .ok a w => .ok a ((c.withWorld w).withScopes (scope :: outer))
      | .error e w => .error e ((c.withWorld w).withScopes (scope :: outer)) := by
  obtain ⟨scope, hs⟩ := assignAll_declare h declarations [] outer hl hd
  rw [List.nil_append] at hs
  refine ⟨scope, ?_⟩
  rw [Run.bind_apply, Effect.bind_apply]
  cases hw : ByValue.declare enter' outer.flatten declarations c.world with
  | error e w =>
    rw [hw] at hs
    rw [hs]
  | ok env w =>
    rw [hw] at hs
    obtain ⟨rfl, hs⟩ := hs
    rw [hs]
    have ha : act ((c.withWorld w).withScopes (scope :: outer)) =
        (effect (scope ++ outer.flatten)).lift ((c.withWorld w).withScopes (scope :: outer)) :=
      hact _ hl hd
    dsimp only
    cases hw' : effect (scope ++ outer.flatten) w with
    | ok a w' => exact ha.trans (Effect.lift_of_ok hw')
    | error e w' => exact ha.trans (Effect.lift_of_error hw')

section Scoped

variable {enter : Evaluator σ} {enter' : ByValue.Evaluator σ} {depth : Nat} {act : Run σ α}
variable {effect : Bindings → Effect σ α} {c : Context σ}

/-- When a template is closed, nothing is left of the scope that its declarations wrote to. -/
theorem template_lift (h : EvaluatorsAgree (depth + 1) enter enter')
    (hact : Agrees (depth + 1) act effect) (declarations : List (String × Template))
    (hl : c.globalsLoaded = true) (hd : c.depth = depth) :
    Run.within Context.enterTemplate Context.leaveTemplate
        (assignAll enter declarations >>= fun _ => act) c =
      (ByValue.declare enter' c.scopes.flatten declarations >>= effect).lift c := by
  obtain ⟨scope, hs⟩ := assignAll_bind h hact declarations (c := c.enterTemplate) c.scopes hl
    (congrArg (· + 1) hd)
  unfold Run.within Effect.lift
  rw [show c.enterTemplate.withScopes ([] :: c.scopes) = c.enterTemplate from rfl] at hs
  rw [hs, show c.enterTemplate.world = c.world from rfl]
  cases (ByValue.declare enter' c.scopes.flatten declarations >>= effect) c.world <;> rfl

/-- Nor is anything left of the globals. -/
theorem globals_lift (h : EvaluatorsAgree depth enter enter') (hact : Agrees depth act effect)
    (declarations : List (String × Template)) (hl : c.globalsLoaded = false)
    (hd : c.depth = depth) :
    Run.within Context.enterGlobals Context.leaveGlobals
        (assignAll enter declarations >>= fun _ => act) c =
      (ByValue.declare enter' c.scopes.flatten declarations >>= effect).lift c := by
  obtain ⟨scope, hs⟩ := assignAll_bind h hact declarations (c := c.enterGlobals) c.scopes rfl hd
  have hleave : ∀ w, ((c.enterGlobals.withWorld w).withScopes (scope :: c.scopes)).leaveGlobals =
      c.withWorld w := by
    intro w
    unfold Context.leaveGlobals Context.withScopes Context.withWorld Context.enterGlobals
    rw [hl]
    rfl
  unfold Run.within Effect.lift
  rw [show c.enterGlobals.withScopes ([] :: c.scopes) = c.enterGlobals from rfl] at hs
  rw [hs, show c.enterGlobals.world = c.world from rfl]
  cases (ByValue.declare enter' c.scopes.flatten declarations >>= effect) c.world with
  | ok a w => exact congrArg _ (hleave w)
  | error e w => exact congrArg _ (hleave w)

end Scoped

/-! ### Rules, symbols and references -/

/-- What is found in the references after some others, put behind what was found in those. -/
def consFound (values : List String) (live : Bool) (found : Option (List String × Bool)) :
    Option (List String × Bool) :=
  found.map fun p => (values.reverse ++ p.1, live || p.2)

theorem consFound_cons (values : List String) (live : Bool) (value : String) (more : Bool)
    (found : Option (List String × Bool)) :
    consFound (value :: values) (live || more) found =
      consFound values live (found.map fun p => (value :: p.1, more || p.2)) := by
  cases found with
  | none => rfl
  | some found =>
    unfold consFound
    rw [Option.map_some, Option.map_some, Option.map_some, List.reverse_cons, List.append_assoc,
      Bool.or_assoc]
    rfl

theorem markSeen_agrees {depth : Nat} (slot : Option Slot) :
    Agrees depth (markSeen slot : Run σ Unit) fun _ => ByValue.markSeen slot := by
  cases slot with
  | none => exact Agrees.pure ()
  | some slot => exact fun _ _ _ => rfl

namespace ByValue

/-- What a template gives by value when its references gave these values. -/
def conclude (t : Template) (slot : Option Slot) :
    Option (List String × Bool) → Effect σ (Option String)
  | none => do
    markSeen slot
    return none
  | some (values, true) => pure (some (t.fill values))
  | some (values, false) => do
    markSeen slot
    return some (t.fill values)

theorem expandBody_eq [RandomSource σ] (g : Grammar σ) (enter : Evaluator σ) (env : Bindings)
    (t : Template) (slot : Option Slot) :
    expandBody g enter env t slot =
      declare enter env t.declarations >>= fun env =>
        expandReferences g enter env t.references >>= conclude t slot := by
  unfold expandBody
  congr 1
  funext _
  congr 1
  funext found
  obtain _ | ⟨values, _ | _⟩ := found <;> rfl

end ByValue

theorem conclude_agrees {depth : Nat} (t : Template) (slot : Option Slot)
    (found : Option (List String × Bool)) :
    Agrees depth (conclude t slot found : Run σ (Option String)) fun _ =>
      ByValue.conclude t slot found := by
  obtain _ | ⟨values, _ | _⟩ := found
  · exact (markSeen_agrees slot).bind fun _ => Agrees.pure none
  · exact (markSeen_agrees slot).bind fun _ => Agrees.pure _
  · exact Agrees.pure _

section Parts

variable [RandomSource σ] {g : Grammar σ} {enter : Evaluator σ} {enter' : ByValue.Evaluator σ}
variable {depth : Nat} (h : EvaluatorsAgree depth enter enter')

include h

theorem expandRule_agrees (r : Rule) :
    Agrees depth (expandRuleWith g enter r) fun env => ByValue.expandRule g enter' env r := by
  refine (Agrees.of_placeless (pick_placeless r)).bind fun picked => ?_
  cases picked with
  | none =>
    refine Agrees.get_pure fun c => ?_
    show _ = if c.trackers.isEmpty then some "" else none
    unfold Context.tracking
    cases c.trackers.isEmpty <;> rfl
  | some slot =>
    dsimp only
    cases g.template slot with
    | ok t => exact h t (some slot)
    | error e => exact fun _ _ _ => rfl

theorem resolve_agrees (name : String) :
    Agrees depth (resolve g enter name) fun env => ByValue.resolve g enter' env name := by
  intro c hl hd
  unfold ByValue.resolve
  dsimp only
  rw [← lookup_eq c name]
  cases hv : c.lookup name with
  | some value => exact resolve_of_lookup hv
  | none =>
    dsimp only
    cases hm : g.models.get? name with
    | some m =>
      rw [resolve_of_model hv hm]
      exact (Agrees.of_placeless (resolveMarkov_placeless name m m.settings.maxTries)).bind
        (fun _ => Agrees.pure _) c hl hd
    | none =>
      dsimp only
      cases hr : g.rule? name with
      | some r =>
        rw [resolve_of_rule hv hm hr]
        exact (expandRule_agrees h r).bind (fun value => Agrees.live_pure r value) c hl hd
      | none =>
        rw [resolve_of_unknown hv hm hr]
        dsimp only
        split <;> rfl

/-- The engine of an expansion does at its place what the one by value does with the same values. -/
theorem engine_eqOn {c : Context σ} (hl : c.globalsLoaded = true) (hd : c.depth = depth) :
    (engineWith g enter).EqOn c.SamePlace (ByValue.engine g enter' c.scopes.flatten) where
  template t := by
    intro c' hc'
    have hl' : c'.globalsLoaded = true := hc'.globalsLoaded.trans hl
    dsimp only [engineWith, ByValue.engine]
    rw [withGlobals_of_loaded hl', h t none c' hl' (hc'.depth.trans hd), hc'.scopes]
  rule name := by
    intro c' hc'
    have hl' : c'.globalsLoaded = true := hc'.globalsLoaded.trans hl
    dsimp only [engineWith, ByValue.engine]
    cases g.rule? name with
    | none => rfl
    | some r =>
      dsimp only
      rw [withGlobals_of_loaded hl', expandRule_agrees h r c' hl' (hc'.depth.trans hd), hc'.scopes]

variable (hk : ∀ t slot, Run.Keeps Context.Frame (enter t slot)) (hg : g.overrides = [])
include hk hg

theorem applyModifiers_agrees (calls : List ModifierCall) (value : String) :
    Agrees depth (applyModifiers g (engineWith g enter) calls value) fun env =>
      (applyModifiers g (ByValue.engine g enter' env) calls value).atRest := by
  intro c hl hd
  have hrules : ∀ name, Run.Placeless ((ByValue.engine g enter' c.scopes.flatten).expandRule name) := by
    intro name
    dsimp only [ByValue.engine]
    split
    · exact ⟨_, rfl⟩
    · exact .throw _
  rw [(applyModifiers_placeless hg hrules calls value).lift_atRest]
  exact applyModifiers_confined (Grammar.overridesKeep_of_nil hg)
    (Grammar.overridesConfined_of_nil hg) (Context.Frame.invariant.engineWith_keeps hk)
    (engine_eqOn h hl hd) calls value c (.refl c)

theorem expandReference_agrees (r : Reference) :
    Agrees depth (expandReference g enter r) fun env =>
      ByValue.expandReference g enter' env r := by
  refine (resolve_agrees h r.symbol).bind fun resolved => ?_
  cases resolved with
  | none => exact Agrees.pure none
  | some resolved =>
    exact (applyModifiers_agrees h hk hg r.calls resolved.value).bind fun value => Agrees.pure _

/-- The loop over references carries what it has found; by value it is put together on the way
back. -/
theorem expandReferences_agrees (references : List Reference) (values : List String)
    (live : Bool) :
    Agrees depth (expandReferences g enter values live references) fun env =>
      ByValue.expandReferences g enter' env references >>= fun found =>
        pure (consFound values live found) := by
  induction references generalizing values live with
  | nil =>
    refine (Agrees.pure (some (values.reverse, live))).congr fun env => ?_
    show (pure (some (values.reverse ++ [], live || false)) : Effect σ _) = _
    rw [List.append_nil, Bool.or_false]
  | cons r rest ih =>
    refine Agrees.congr ((expandReference_agrees h hk hg r).bind
      (show ∀ found : Option Resolved, Agrees depth _ fun env =>
          found.elim (pure none) fun resolved =>
            ByValue.expandReferences g enter' env rest >>= fun found =>
              pure (consFound (resolved.value :: values)
                (live || (resolved.live && !r.decorator)) found) from
        fun found => ?_)) fun env => ?_
    · cases found with
      | none => exact Agrees.pure none
      | some resolved => exact ih _ _
    · rw [ByValue.expandReferences, bind_assoc]
      congr 1
      funext found
      cases found with
      | none => rfl
      | some resolved =>
        dsimp only
        rw [bind_assoc]
        congr 1
        funext found
        rw [consFound_cons]
        cases found <;> rfl

/-- What a template does once its declarations are made. -/
theorem afterDeclarations_agrees (t : Template) (slot : Option Slot) :
    Agrees depth (expandReferences g enter [] false t.references >>= conclude t slot) fun env =>
      ByValue.expandReferences g enter' env t.references >>= ByValue.conclude t slot := by
  refine ((expandReferences_agrees h hk hg t.references [] false).bind fun found =>
    conclude_agrees t slot found).congr fun env => ?_
  rw [bind_assoc]
  congr 1
  funext found
  rw [pure_bind]
  cases found <;> rfl

end Parts

/-! ### Whole expansions -/

section Whole

variable [RandomSource σ] {g : Grammar σ}

/-- Evaluators agree at every depth, by induction on the levels that are left. The depth of the contexts
does not matter for that: only how many levels are left does, which by value is told by the depth at
which one starts. -/
theorem evaluate_agrees (hg : g.overrides = []) {levels depth start : Nat}
    (hlevels : levels = g.settings.maxDepth - start) :
    EvaluatorsAgree depth (g.evaluate levels) (ByValue.evaluate g start) := by
  induction levels generalizing depth start with
  | zero =>
    -- no level is left exactly where the depth is found to be too great
    intro t slot c _ _
    have hdepth : ¬ start < g.settings.maxDepth := by omega
    dsimp only
    rw [ByValue.evaluate, if_neg hdepth]
    rfl
  | succ levels ih =>
    have hbelow : EvaluatorsAgree (depth + 1) (g.evaluate levels) (ByValue.evaluate g (start + 1)) :=
      ih (by omega)
    have hk := Context.Frame.invariant.evaluate_keeps (Grammar.overridesKeep_of_nil hg) levels
    intro t slot c hl hd
    have hdepth : start < g.settings.maxDepth := by omega
    dsimp only
    rw [ByValue.evaluate, if_pos hdepth, ByValue.expandBody_eq, Grammar.evaluate, expandBody_eq]
    exact template_lift hbelow (afterDeclarations_agrees hbelow hk hg t slot) t.declarations hl hd

/-- **The interpreter expands by value.** In a context where nothing is being expanded, a new one for
instance, it makes of a text what expansion by value makes of it: the same text or the same error, with
the same draws, trackers and produced texts left behind. -/
theorem expandIn_byValue (g : Grammar σ) (hg : g.overrides = []) (text : String) (w : World σ) :
    g.expandIn text w.context = World.inContext (ByValue.expand g text w) := by
  suffices h : g.expandIn text w.context = (ByValue.expand g text).lift w.context by
    rw [h]
    unfold Effect.lift
    rw [World.world_context]
    cases ByValue.expand g text w <;> rfl
  unfold Grammar.expandIn ByValue.expand Engine.expand
  rw [Run.get_bind]
  cases Template.parse text with
  | error e => rfl
  | ok t =>
    have hall : EvaluatorsAgree 0 (g.evaluate g.settings.maxDepth) (ByValue.evaluate g 0) :=
      evaluate_agrees hg rfl
    have hglobals : (g.engineAt 0).expandTemplate t w.context =
        (ByValue.declare (ByValue.evaluate g 0) [] g.globals >>= fun env =>
          ByValue.evaluate g 0 env t none).lift w.context := by
      show withGlobals g (g.evaluate g.settings.maxDepth) _ w.context = _
      rw [withGlobals_of_not_loaded rfl]
      exact globals_lift hall (hall t none) g.globals rfl rfl
    refine (Effect.lift_bind_pure hglobals (·.getD "")).trans ?_
    rw [bind_assoc]

end Whole

/-- A grammar in which a name has a value for all texts, and another one for some of them. -/
def greetings : Grammar Scripted where
  rules := [("greeting", Rule.ofAlternatives [⟨0, 1⟩, ⟨1, 2⟩])]
  store := #["Hello {who}", "{who= Bob}Hello {who} and {name}"]
  globals := [
    ("who", ⟨"Ann", "Ann", [], []⟩),
    ("name", ⟨"{who.capitalize}", "{0}", [⟨"who", [⟨"capitalize", []⟩], false⟩], []⟩)]

/-- Where a tracker has seen the first greeting, the second is given: it greets Bob, whom it declares, and
Ann, whom the global `name` has read before. Both ways take one draw for that and mark the alternative as
seen. -/
theorem greetings_expandIn :
    greetings.overrides = [] ∧ ∃ w,
      ByValue.expand greetings "{greeting}" ⟨Scripted.fixed 0, [[0]], ∅⟩ = .ok "Hello Bob and Ann" w ∧
      greetings.expandIn "{greeting}" (World.context ⟨Scripted.fixed 0, [[0]], ∅⟩) =
        .ok "Hello Bob and Ann" w.context ∧
      w.source.drawn = 1 ∧ w.trackers = [[1, 0]] ∧ w.produced.isEmpty = true := by
  have hequal := expandIn_byValue greetings rfl "{greeting}" ⟨Scripted.fixed 0, [[0]], ∅⟩
  -- the interpreter is structurally recursive and computes; expansion by value then gives the same
  have hrun : (match greetings.expandIn "{greeting}" (World.context ⟨Scripted.fixed 0, [[0]], ∅⟩) with
      | .ok text c => decide (text = "Hello Bob and Ann" ∧ c.source.drawn = 1 ∧ c.trackers = [[1, 0]] ∧
          c.produced.isEmpty = true)
      | .error _ _ => false) = true := by
    decide +kernel
  cases hvalue : ByValue.expand greetings "{greeting}" ⟨Scripted.fixed 0, [[0]], ∅⟩ with
  | error e w =>
    rw [hequal, hvalue] at hrun
    cases hrun
  | ok text w =>
    rw [hvalue] at hequal
    rw [hequal] at hrun
    obtain ⟨rfl, hdrawn, htrackers, hproduced⟩ := of_decide_eq_true hrun
    exact ⟨rfl, w, rfl, hequal, hdrawn, htrackers, hproduced⟩

end Fabula
