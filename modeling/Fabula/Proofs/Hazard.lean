import Fabula.Proofs.Avoidance
import Fabula.Proofs.Progress

/-!
# Fabula.Proofs.Hazard

**Errors that are seen from templates.** A reference may name a symbol or call a modifier that does not
exist, and an alternative may not be readable. When this is so for none of the templates that an
expansion can come to, errors of that kind do not occur (`Hazard.evaluate_avoids`), provided that neither
the registered modifiers nor the Markov models bring them about (`Hazard.Contained`).

The one error that depends on more than the templates is that about an unknown symbol, since the symbol
may be a variable in scope. So a `Hazard` may have a *shadow*, a variable that rules all its errors out
as long as it is in scope. A reference is harmless then, and so are references that are only resolved
after the shadow has been declared (`Template.exposed` are the others).

An expansion is free of these errors in a context if what it starts with is safe or the shadow is in
scope there (`Hazard.Ready`). This carries the induction over the interpreter.
-/

namespace Fabula

variable {σ α : Type}

/-! ### What templates ask for -/

/-- The references of a template and its nested templates that are resolved before the shadow has been
declared around them. -/
def Template.exposed (shadow : Option String) : Template → List Reference
  | ⟨_, _, references, declarations⟩ => exposedIn shadow declarations references
where
  /-- Those of a list of declarations, and what comes after them. -/
  exposedIn (shadow : Option String) :
      List (String × Template) → List Reference → List Reference
    | [], after => after
    | (name, t) :: rest, after =>
      t.exposed shadow ++ if shadow = some name then [] else exposedIn shadow rest after

/-- The modifier may expand this rule: one that is registered any rule, `uniques` the one that it is
passed. -/
def ModifierCall.AsksFor (g : Grammar σ) (call : ModifierCall) (name : String) : Prop :=
  g.overrides.has call.name = true ∨
    Builtin.ofName? call.name = some .uniques ∧ call.args.head?.bind Argument.text? = some name

/-- The reference may expand this rule. -/
def Reference.AsksFor (g : Grammar σ) (r : Reference) (name : String) : Prop :=
  r.symbol = name ∨ ∃ call ∈ r.calls, call.AsksFor g name

/-! ### Hazards -/

/-- Errors that are seen from templates, with a variable that rules them all out while it is in scope, if
there is one. -/
structure Hazard where
  /-- The errors. -/
  bad : ExpandError → Prop
  /-- The variable. -/
  shadow : Option String
  /-- No error is about the arguments of a modifier -/
  arguments : ∀ modifier reason, ¬ bad (.badArguments modifier reason)
  /-- or about the depth. -/
  depth : ∀ limit source, ¬ bad (.tooDeep limit source)
  /-- With a shadow, all are about that name. -/
  shadowed : ∀ name ∈ shadow, ∀ e, bad e → e = .unknownSymbol name

namespace Hazard

/-- A reference is safe when it leads to no such error where the shadow is not in scope, given that
expanding a rule which is `safe` does not. -/
structure SafeReference (H : Hazard) (g : Grammar σ) (safe : String → Prop) (r : Reference) :
    Prop where
  /-- If the symbol does not stand for anything, that is not among the errors. -/
  symbol : g.models.get? r.symbol = none → g.rule? r.symbol = none → r.symbol.isEmpty = false →
    ¬ H.bad (.unknownSymbol r.symbol)
  /-- Nor is it if a modifier does not exist, -/
  modifiers : ∀ call ∈ r.calls, g.overrides.get? call.name = none →
    Builtin.ofName? call.name = none → ¬ H.bad (.unknownModifier call.name)
  /-- or a rule that is passed to one. -/
  targets : ∀ call ∈ r.calls, g.overrides.get? call.name = none →
    Builtin.ofName? call.name = some .uniques → ∀ name,
    call.args.head?.bind Argument.text? = some name → g.rule? name = none →
      ¬ H.bad (.unknownRule Builtin.uniques.name name)
  /-- The rules that it may expand are safe. -/
  rules : ∀ name, r.AsksFor g name → g.rules.has name = true → safe name

/-- A template is safe when its references are, as far as the shadow is not declared around them. -/
def SafeTemplate (H : Hazard) (g : Grammar σ) (safe : String → Prop) (t : Template) : Prop :=
  ∀ r ∈ t.exposed H.shadow, H.SafeReference g safe r

/-- Declarations, with what comes after them, are safe up to the one that declares the shadow. -/
def SafeDeclarations (H : Hazard) (g : Grammar σ) (safe : String → Prop) (after : Prop) :
    List (String × Template) → Prop
  | [] => after
  | (name, t) :: rest =>
    H.SafeTemplate g safe t ∧ (H.shadow = some name ∨ H.SafeDeclarations g safe after rest)

/-- The alternatives of safe rules that have weight can be read and are safe. -/
structure SafeRules (H : Hazard) (g : Grammar σ) (safe : String → Prop) : Prop where
  /-- If one cannot be read, that is not among the errors. -/
  readable : ∀ name r, g.rule? name = some r → safe name → ∀ slot ∈ r.weightedSlots, ∀ e,
    g.template slot = .error e → ¬ H.bad (.template e)
  /-- The others are safe. -/
  templates : ∀ name r, g.rule? name = some r → safe name → ∀ slot ∈ r.weightedSlots, ∀ t,
    g.template slot = .ok t → H.SafeTemplate g safe t

/-- What is `safe` can be expanded in this context, as can anything where the shadow is in scope. -/
def Ready (H : Hazard) (safe : Prop) (c : Context σ) : Prop := safe ∨ c.Shadowed H.shadow

variable {H : Hazard} {g : Grammar σ} {safe : String → Prop} {p q : Prop} {c c' : Context σ}

theorem Ready.imp (h : H.Ready p c) (hpq : p → q) : H.Ready q c := Or.imp_left hpq h

/-- Errors that are not about symbols do not occur where the shadow is in scope. -/
theorem Ready.not_bad (h : H.Ready p c) {e : ExpandError} (hp : p → ¬ H.bad e)
    (he : ∀ name, e ≠ .unknownSymbol name) : ¬ H.bad e := by
  rcases h with h | ⟨name, hname, -⟩
  · exact hp h
  · exact fun hbad => he name (H.shadowed name hname e hbad)

theorem safeDeclarations_exposedIn {after : List Reference} {declarations : List (String × Template)}
    (h : ∀ r ∈ Template.exposed.exposedIn H.shadow declarations after, H.SafeReference g safe r) :
    H.SafeDeclarations g safe (∀ r ∈ after, H.SafeReference g safe r) declarations := by
  induction declarations with
  | nil => exact h
  | cons declaration rest ih =>
    obtain ⟨name, t⟩ := declaration
    rw [Template.exposed.exposedIn] at h
    refine ⟨fun r hr => h r (List.mem_append_left _ hr), ?_⟩
    by_cases hname : H.shadow = some name
    · exact .inl hname
    · rw [if_neg hname] at h
      exact .inr (ih fun r hr => h r (List.mem_append_right _ hr))

/-- Before its references, the declarations of a safe template are safe. -/
theorem SafeTemplate.declarations {t : Template} (h : H.SafeTemplate g safe t) :
    H.SafeDeclarations g safe (∀ r ∈ t.references, H.SafeReference g safe r) t.declarations := by
  obtain ⟨source, pattern, references, declarations⟩ := t
  unfold SafeTemplate at h
  rw [Template.exposed] at h
  exact safeDeclarations_exposedIn h

theorem SafeDeclarations.imp {declarations : List (String × Template)}
    (h : H.SafeDeclarations g safe p declarations) (hpq : p → q) :
    H.SafeDeclarations g safe q declarations := by
  induction declarations with
  | nil => exact hpq h
  | cons declaration rest ih => exact ⟨h.1, h.2.imp_right ih⟩

theorem safeDeclarations_of_all {declarations : List (String × Template)}
    (h : ∀ entry ∈ declarations, H.SafeTemplate g safe entry.2) :
    H.SafeDeclarations g safe True declarations := by
  induction declarations with
  | nil => trivial
  | cons entry rest ih =>
    have ⟨hentry, hrest⟩ := List.forall_mem_cons.mp h
    exact ⟨hentry, .inr (ih hrest)⟩

end Hazard

/-! ### Steps of an expansion -/

open Run (Avoids Keeps)

/-- What is picked has weight. -/
theorem Rule.pick_mem [RandomSource σ] {r : Rule} {excluded : Option (Slot → Bool)} {s : σ}
    {slot : Slot} (h : (r.pick excluded s).1 = some slot) : slot ∈ r.weightedSlots := by
  have hchoose : ∀ {total : Float} {allowed : Slot → Bool},
      (Weighted.choose RandomSource.next total (Weighted.eligible allowed r.alternatives) s).1 =
        some slot → slot ∈ r.weightedSlots := by
    intro total allowed h
    unfold Weighted.choose at h
    split at h
    · cases h
    · dsimp only at h
      rcases @Weighted.locate_cases _ (Weighted.eligible allowed r.alternatives)
        ((RandomSource.next s).1 * total) 0 none with ⟨w, hw, hlocate⟩ | ⟨-, hlocate⟩
      · rw [hlocate] at h
        cases h
        obtain ⟨hw, heligible⟩ := List.mem_filter.mp hw
        rw [Bool.and_eq_true] at heligible
        exact Rule.mem_weightedSlots hw (of_decide_eq_true heligible.1)
      · rw [hlocate] at h
        cases h
  cases excluded with
  | none => exact hchoose h
  | some isExcluded => exact hchoose h

namespace Hazard

variable {H : Hazard} {g : Grammar σ} {safe : String → Prop} {p : Prop} {Q : Context σ → Prop}
variable [RandomSource σ]

theorem resolveMarkov_avoids {m : Markov.Model}
    (hm : ∀ (s : σ) e, (m.generate s).1 = .error e → ¬ H.bad (.markov e)) (name : String)
    (tries : Nat) : (resolveMarkov name m tries : Run σ String).Avoids H.bad Q := by
  have hall : (resolveMarkov name m tries : Run σ String).Avoids H.bad fun _ => True := by
    induction tries with
    | zero => exact .pure ""
    | succ tries ih =>
      unfold resolveMarkov
      refine Avoids.bind (Q := fun _ => True) ?_ (fun _ _ _ _ _ => trivial) fun text => ?_
      · intro c _ e c' he
        unfold Run.generate at he
        split at he
        · cases he
        · rename_i hgenerate
          cases he
          exact hm c.source _ (congrArg Prod.fst hgenerate)
      · cases text with
        | none => exact ih
        | some text =>
          refine .get_bind fun c _ => ?_
          split
          · intro e c' he
            cases he
          · exact ih c trivial
  exact hall.mono fun _ _ => trivial

/-- What keeps the errors out of the expansions of a grammar, given the rules that are `safe` and those
that its modifiers have `asked` for. -/
structure Contained (H : Hazard) (R : Context σ → Context σ → Prop) (g : Grammar σ)
    (safe asked : String → Prop) : Prop where
  /-- The shadow stays in scope. -/
  scopes : ∀ name ∈ H.shadow, ∀ c c', R c c' → c'.scopes = c.scopes
  /-- Modifiers keep what expansions keep. -/
  keep : g.OverridesKeep R
  /-- They do not bring the errors about by themselves or with safe templates, -/
  spare : ∀ name f, g.overrides.get? name = some f →
    f.SparesGiven R H.bad asked (H.SafeTemplate g safe)
  /-- nor by asking for rules that do not exist. -/
  asked : ∀ name, asked name → g.rule? name = none → ¬ H.bad (.unknownSymbol name)
  /-- Safe rules are safe. -/
  rules : H.SafeRules g safe
  /-- So are the globals, up to the one that is the shadow. -/
  globals : H.SafeDeclarations g safe True g.globals
  /-- Texts from models do not fail so. -/
  models : ∀ name m, g.models.get? name = some m → ∀ (s : σ) e,
    (m.generate s).1 = .error e → ¬ H.bad (.markov e)

/-- A scope is open that the shadow can be declared in. -/
def Opened (H : Hazard) (p : Prop) (c : Context σ) : Prop :=
  (∀ name ∈ H.shadow, c.scopes ≠ []) ∧ H.Ready p c

section Steps

variable {R B : Context σ → Context σ → Prop} (inv : Invariant R B) {asked : String → Prop}
variable (h : H.Contained R g safe asked) {enter : Evaluator σ}
variable (hkeeps : ∀ t slot, Keeps R (enter t slot))
variable (henter : ∀ t slot, (enter t slot).Avoids H.bad (H.Ready (H.SafeTemplate g safe t)))

section Declarations

include h

theorem Contained.ready {c c' : Context σ} (hc : H.Ready p c) (hR : R c c') : H.Ready p c' :=
  hc.imp_right fun hc => hc.scopes_eq fun name hname => h.scopes name hname c c' hR

theorem Contained.ready_of_ok {act : Run σ α} (hact : Keeps R act) (c : Context σ) (a : α)
    (c' : Context σ) (hc : H.Ready p c) (ha : act c = .ok a c') : H.Ready p c' :=
  h.ready hc (hact.of_ok ha)

include hkeeps henter

/-- Declarations are evaluated one after the other. As soon as the shadow has been declared, nothing can
go wrong any more. -/
theorem assignAll_ready {declarations : List (String × Template)} {c : Context σ}
    (hc : H.Opened (H.SafeDeclarations g safe p declarations) c) :
    (∀ e c', assignAll enter declarations c = .error e c' → ¬ H.bad e) ∧
    ∀ u c', assignAll enter declarations c = .ok u c' → H.Ready p c' := by
  induction declarations generalizing c with
  | nil =>
    refine ⟨fun e c' he => (nomatch he), fun u c' hok => ?_⟩
    cases hok
    exact hc.2
  | cons declaration rest ih =>
    obtain ⟨name, t⟩ := declaration
    obtain ⟨hopen, hready⟩ := hc
    cases ht : enter t none c with
    | error e c₁ =>
      rw [assignAll_of_error ht]
      refine ⟨fun e' c' he => ?_, fun u c' hok => nomatch hok⟩
      cases he
      exact henter t none c (hready.imp And.left) e c₁ ht
    | ok value c₁ =>
      rw [assignAll_of_value ht]
      have hR := (hkeeps t none).of_ok ht
      have hopen₁ : ∀ n ∈ H.shadow, c₁.scopes ≠ [] := fun n hn => by
        rw [h.scopes n hn c c₁ hR]
        exact hopen n hn
      refine ih ⟨fun n hn => ?_, ?_⟩
      · have hne := hopen₁ n hn
        unfold Context.assign
        split
        · exact hne
        · exact List.cons_ne_nil _ _
      · -- the shadow has just been declared, it has not been yet, or it was in scope before
        rcases h.ready hready hR with ⟨-, hshadow | hrest⟩ | hshadowed
        · exact .inr (Context.shadowed_assign (hopen₁ name hshadow) hshadow _)
        · exact .inl hrest
        · exact .inr (hshadowed.assign name _)

/-- What is done with the globals in scope. They may declare the shadow themselves. -/
theorem withGlobals_avoids {act : Run σ α} (hact : act.Avoids H.bad (H.Ready p)) :
    (withGlobals g enter act).Avoids H.bad fun c =>
      H.Ready p c ∨ c.globalsLoaded = false ∧ H.SafeDeclarations g safe p g.globals := by
  intro c hc e c' he
  cases hloaded : c.globalsLoaded with
  | true =>
    rw [withGlobals_of_loaded hloaded] at he
    exact hact c (hc.resolve_right fun hc => by simp [hloaded] at hc) e c' he
  | false =>
    rw [withGlobals_of_not_loaded hloaded] at he
    have hopened : H.Opened (H.SafeDeclarations g safe p g.globals) c.enterGlobals := by
      refine ⟨fun _ _ => List.cons_ne_nil _ _, ?_⟩
      -- globals are evaluated in a scope of their own, inside of those that are open
      rcases hc with (hp | hshadowed) | ⟨-, hsafe⟩
      · exact .inl (h.globals.imp fun _ => hp)
      · exact .inr hshadowed
      · exact .inl hsafe
    have hafter : (assignAll enter g.globals >>= fun _ => act).Avoids H.bad (· = c.enterGlobals) := by
      refine Avoids.bind (Q := H.Ready p) ?_ ?_ fun _ => hact
      · rintro _ rfl
        exact (assignAll_ready h hkeeps henter hopened).1
      · rintro _ u c₁ rfl
        exact (assignAll_ready h hkeeps henter hopened).2 u c₁
    exact (hafter.within (Q := (· = c)) fun _ heq => congrArg Context.enterGlobals heq) c rfl e c' he

end Declarations

include inv h

section Rules

include henter

theorem expandRuleWith_avoids {name : String} {r : Rule} (hr : g.rule? name = some r) :
    (expandRuleWith g enter r).Avoids H.bad (H.Ready (safe name)) := by
  intro c hc e c' he
  have hready : H.Ready (safe name) (c.afterPick r) :=
    h.ready hc ((inv.pick_keeps r).of_ok (pick_apply r c))
  cases hpick : (r.pick c.excluded c.source).1 with
  | none =>
    rw [expandRuleWith_of_none (by rw [pick_apply, hpick])] at he
    cases he
  | some slot =>
    have hslot : slot ∈ r.weightedSlots := Rule.pick_mem hpick
    rw [expandRuleWith_of_some (by rw [pick_apply, hpick])] at he
    cases ht : g.template slot with
    | error err =>
      rw [ht] at he
      cases he
      exact hready.not_bad (fun hsafe => h.rules.readable name r hr hsafe slot hslot err ht)
        fun _ => nofun
    | ok t =>
      rw [ht] at he
      exact henter t (some slot) _
        (hready.imp fun hsafe => h.rules.templates name r hr hsafe slot hslot t ht) e c' he

theorem resolve_avoids (r : Reference) :
    (resolve g enter r.symbol).Avoids H.bad (H.Ready (H.SafeReference g safe r)) := by
  intro c hc e c' he
  cases hlookup : c.lookup r.symbol with
  | some value =>
    rw [resolve_of_lookup hlookup] at he
    cases he
  | none =>
    cases hm : g.models.get? r.symbol with
    | some m =>
      rw [resolve_of_model hlookup hm] at he
      have hmarkov := resolveMarkov_avoids (Q := fun _ => True) (h.models r.symbol m hm)
        r.symbol m.settings.maxTries
      exact (hmarkov.bind (fun _ _ _ _ _ => trivial) fun _ => .pure (Q := fun _ => True) _) c trivial
        e c' he
    | none =>
      cases hr : g.rule? r.symbol with
      | some rule =>
        rw [resolve_of_rule hlookup hm hr] at he
        have hready : H.Ready (safe r.symbol) c := hc.imp fun hsafe =>
          hsafe.rules r.symbol (.inl rfl) (congrArg Option.isSome hr)
        refine ((expandRuleWith_avoids inv h henter hr).bind (Q := fun _ => True)
          (fun _ _ _ _ _ => trivial) fun _ => ?_) c hready e c' he
        exact .get_bind fun _ _ _ _ h => nomatch h
      | none =>
        rw [resolve_of_unknown hlookup hm hr] at he
        split at he
        · cases he
        · rename_i hempty
          cases he
          rcases hc with hsafe | ⟨name, hname, hsome⟩
          · exact hsafe.symbol hm hr (Bool.eq_false_iff.mpr hempty)
          · -- the symbol would have to be the shadow, which is in scope
            intro hbad
            cases H.shadowed name hname _ hbad
            rw [hlookup] at hsome
            cases hsome

include hkeeps

/-- Rules that are asked for on the way, with the globals in scope. -/
theorem engineRule_avoids {name : String} {r : Rule} (hr : g.rule? name = some r) :
    ((engineWith g enter).expandRule name).Avoids H.bad fun c =>
      H.Ready (safe name) c ∨
        c.globalsLoaded = false ∧ H.SafeDeclarations g safe (safe name) g.globals := by
  rw [engineWith_rule hr]
  exact withGlobals_avoids h hkeeps henter (expandRuleWith_avoids inv h henter hr)

theorem applyModifier_avoids {r : Reference} {call : ModifierCall} (hcall : call ∈ r.calls)
    (value : String) : (applyModifier g (engineWith g enter) call value).Avoids H.bad
      (H.Ready (H.SafeReference g safe r)) := by
  have hengine := inv.engineWith_keeps (g := g) hkeeps
  cases ho : g.overrides.get? call.name with
  | some f =>
    rw [applyModifier_of_override ho]
    intro c hc
    -- a registered modifier may ask for any rule, from any context that it can come to
    refine h.spare _ f ho _ hengine c (fun name hname c₁ hR => ?_) (fun t ht => ?_) value call.args c
      (inv.refl c)
    · cases hr : g.rule? name with
      | none =>
        rw [engineWith_unknown hr]
        exact Avoids.throw (Q := fun _ => True) (h.asked name hname hr) c₁ trivial
      | some rule =>
        have hasks : r.AsksFor g name := .inr ⟨call, hcall, .inl (congrArg Option.isSome ho)⟩
        refine engineRule_avoids inv h hkeeps henter hr c₁ (.inl ?_)
        exact (h.ready hc hR).imp fun hsafe => hsafe.rules name hasks (congrArg Option.isSome hr)
    · exact (withGlobals_avoids h hkeeps henter (henter t none)).mono fun c₁ _ => .inl (.inl ht)
  | none =>
    cases hb : Builtin.ofName? call.name with
    | none =>
      rw [applyModifier_of_unknown ho hb]
      intro c hc
      have hbad : ¬ H.bad (.unknownModifier call.name) :=
        hc.not_bad (fun hsafe => hsafe.modifiers call hcall ho hb) fun _ => nofun
      exact Avoids.throw hbad c hc
    | some b =>
      rw [applyModifier_of_builtin ho hb]
      by_cases huniques : b = .uniques
      · subst huniques
        refine Builtin.runUniques_avoids H.arguments (fun name hname hr c hc => ?_)
          (fun name rule hname hr => ?_) (fun name c hc => h.ready hc (hengine.rule name c)) ?_
        · exact hc.not_bad (fun hsafe => hsafe.targets call hcall ho hb name hname hr)
            fun _ => nofun
        · have hasks : r.AsksFor g name := .inr ⟨call, hcall, .inr ⟨hb, hname⟩⟩
          refine (engineRule_avoids inv h hkeeps henter hr).mono fun c hc => .inl ?_
          exact hc.imp fun hsafe => hsafe.rules name hasks (congrArg Option.isSome hr)
        · exact fun c hc => hc.imp_right fun hc => hc.scopes_eq fun _ _ => rfl
      · exact Builtin.apply_avoids huniques g _ H.arguments value call.args

theorem applyModifiers_avoids {r : Reference} {calls : List ModifierCall}
    (hcalls : ∀ call ∈ calls, call ∈ r.calls) (value : String) :
    (applyModifiers g (engineWith g enter) calls value).Avoids H.bad
      (H.Ready (H.SafeReference g safe r)) := by
  induction calls generalizing value with
  | nil => exact .pure value
  | cons call calls ih =>
    have ⟨hcall, hcalls⟩ := List.forall_mem_cons.mp hcalls
    refine (applyModifier_avoids inv h hkeeps henter hcall value).bind ?_ (ih hcalls)
    exact h.ready_of_ok (inv.applyModifier_keeps h.keep (inv.engineWith_keeps hkeeps) call value)

theorem expandReference_avoids (r : Reference) :
    (expandReference g enter r).Avoids H.bad (H.Ready (H.SafeReference g safe r)) := by
  refine (resolve_avoids inv h henter r).bind
    (h.ready_of_ok (inv.resolve_keeps hkeeps r.symbol)) fun resolved => ?_
  cases resolved with
  | none => exact .pure none
  | some resolved =>
    exact (applyModifiers_avoids inv h hkeeps henter (fun _ => id) resolved.value).bind
      (Q := fun _ => True) (fun _ _ _ _ _ => trivial) fun _ => .pure _

theorem expandReferences_avoids {references : List Reference}
    (hp : p → ∀ r ∈ references, H.SafeReference g safe r) (values : List String) (live : Bool) :
    (expandReferences g enter values live references).Avoids H.bad (H.Ready p) := by
  induction references generalizing values live with
  | nil => exact .pure _
  | cons r rest ih =>
    have hreference := (expandReference_avoids inv h hkeeps henter r).mono
      fun c (hc : H.Ready p c) => hc.imp fun hsafe => hp hsafe r List.mem_cons_self
    refine hreference.bind (h.ready_of_ok (inv.expandReference_keeps hkeeps h.keep r))
      fun resolved => ?_
    cases resolved with
    | none => exact .pure none
    | some resolved => exact ih (fun hsafe s hs => hp hsafe s (List.mem_cons_of_mem r hs)) _ _

theorem expandBody_avoids (t : Template) (slot : Option Slot) :
    (expandBody g enter t slot).Avoids H.bad (H.Opened (H.SafeTemplate g safe t)) := by
  rw [expandBody_eq]
  have hdeclarations : ∀ c : Context σ, H.Opened (H.SafeTemplate g safe t) c →
      H.Opened (H.SafeDeclarations g safe (∀ r ∈ t.references, H.SafeReference g safe r)
        t.declarations) c := fun c hc => ⟨hc.1, hc.2.imp SafeTemplate.declarations⟩
  refine Avoids.bind (Q := H.Ready (∀ r ∈ t.references, H.SafeReference g safe r))
    (fun c hc => (assignAll_ready h hkeeps henter (hdeclarations c hc)).1)
    (fun c u c' hc => (assignAll_ready h hkeeps henter (hdeclarations c hc)).2 u c') fun _ => ?_
  refine (expandReferences_avoids inv h hkeeps henter id [] false).bind (Q := fun _ => True)
    (fun _ _ _ _ _ => trivial) fun found c _ e c' he => ?_
  obtain _ | ⟨values, _ | _⟩ := found <;> cases slot <;> cases he

end Rules

/-- Wherever it can be expanded safely, expanding a template does not fail with any of the errors, at any
level. -/
theorem evaluate_avoids (levels : Nat) (t : Template) (slot : Option Slot) :
    (g.evaluate levels t slot).Avoids H.bad (H.Ready (H.SafeTemplate g safe t)) := by
  induction levels generalizing t slot with
  | zero => exact .throw (H.depth _ _)
  | succ levels ih =>
    have hkeeps := inv.evaluate_keeps h.keep levels
    refine (expandBody_avoids inv h hkeeps ih t slot).within fun c hc => ?_
    exact ⟨fun _ _ => List.cons_ne_nil _ _, hc⟩

/-- A rule of the grammar can be expanded without any of the errors if it is safe or the globals declare
the shadow in time. -/
theorem expandRule_avoids {name : String} {r : Rule} (hr : g.rule? name = some r) :
    (g.expandRule name).Avoids H.bad fun c => H.Ready (safe name) c ∨
      c.globalsLoaded = false ∧ H.SafeDeclarations g safe (safe name) g.globals := by
  refine .get_bind fun c hc => ?_
  exact engineRule_avoids inv h (inv.evaluate_keeps h.keep _) (evaluate_avoids inv h _) hr c hc

end Steps

end Hazard

end Fabula
