import Fabula.Proofs.ArgumentReading
import Fabula.Proofs.CompactReading
import Fabula.Proofs.FloatTexts
import Fabula.Proofs.NestedTemplates
import Fabula.Template.Data

/-!
# Fabula.Proofs.StoredTemplates

**A stored template is the template.** Its value says all that is in it (`Template.ofValue?_toValue`): an
argument that is a number is told from a text by its form alone, and declarations are templates again, so
the proof goes down from a template to those that it declares (`Template.declares_induction`).

A template is not stored if that would go too deep, and what is stored can be read (`Ron.read?_of_write?`).
Every declaration takes six steps to what it declares, and a template without declarations three to twelve,
so from the nesting of the declarations it is known what becomes of a template, but for one depth: there it
depends on what is called with which arguments at the bottom.
-/

namespace Fabula

open Ron (Value Storable)

namespace Template

/-! ### Numbers and nesting -/

/-- The numbers among the arguments of a template, and of the templates inside it. -/
def numbers (t : Template) : List Float :=
  t.walk.flatMap fun u => u.references.flatMap fun r => r.calls.flatMap fun c =>
    c.args.filterMap Argument.number?

/-- How deep declarations nest. -/
def nesting : Template → Nat
  | ⟨_, _, _, declarations⟩ => nestingAll declarations
where
  /-- How deep they nest in one of some templates, each being declared. -/
  nestingAll : List (String × Template) → Nat
    | [] => 0
    | (_, t) :: rest => max (t.nesting + 1) (nestingAll rest)

theorem nestingAll_le {declarations : List (String × Template)} {n : Nat} :
    nesting.nestingAll declarations ≤ n ↔ ∀ e ∈ declarations, e.2.nesting + 1 ≤ n := by
  induction declarations with
  | nil => simp [nesting.nestingAll]
  | cons e declarations ih => rw [nesting.nestingAll, Nat.max_le, ih, List.forall_mem_cons]

theorem nesting_eq (t : Template) : t.nesting = nesting.nestingAll t.declarations := by
  cases t
  rfl

theorem nesting_lt {t : Template} {e : String × Template} (he : e ∈ t.declarations) :
    e.2.nesting + 1 ≤ t.nesting :=
  nestingAll_le.mp (Nat.le_of_eq t.nesting_eq.symm) e he

/-- What holds of a template if it holds of those that it declares holds of every template. -/
theorem declares_induction {motive : Template → Prop} (t : Template)
    (step : ∀ t, (∀ u, t.Declares u → motive u) → motive t) : motive t := by
  induction hsize : sizeOf t using Nat.strong_induction_on generalizing t with
  | _ size ih => exact step t fun u hu => ih (sizeOf u) (hsize ▸ hu.sizeOf_lt) u rfl

theorem mem_numbers_of_declares {t u : Template} (h : t.Declares u) {x : Float} (hx : x ∈ u.numbers) :
    x ∈ t.numbers := by
  obtain ⟨name, hmem⟩ := h
  obtain ⟨v, hv, hx⟩ := List.mem_flatMap.mp hx
  exact List.mem_flatMap.mpr ⟨v, mem_walk_of_value hmem hv, hx⟩

theorem mem_numbers {t : Template} {r : Reference} {c : ModifierCall} {x : Float} (hr : r ∈ t.references)
    (hc : c ∈ r.calls) (hx : .number x ∈ c.args) : x ∈ t.numbers :=
  List.mem_flatMap.mpr ⟨t, mem_walk_self t, List.mem_flatMap.mpr ⟨r, hr, List.mem_flatMap.mpr ⟨c, hc,
    List.mem_filterMap.mpr ⟨.number x, hx, rfl⟩⟩⟩⟩

end Template

/-! ### Numbers that are read are finite -/

theorem ArgumentList.Value.isFinite {w : List Char} {x : Float} (h : Value w (.number x)) :
    Numeral.isFinite x = true := by
  cases h with
  | number _ _ hfinite => exact hfinite

theorem ArgumentList.Others.isFinite {w : List Char} {values : List Argument} (h : Others w values)
    {x : Float} (hx : .number x ∈ values) : Numeral.isFinite x = true := by
  induction h with
  | none => cases hx
  | cons _ _ hv _ ih =>
    rcases List.mem_cons.mp hx with rfl | hx
    · exact hv.isFinite
    · exact ih hx

theorem ArgumentList.Derives.isFinite {cs : List Char} {values : List Argument} (h : Derives cs values)
    {x : Float} (hx : .number x ∈ values) : Numeral.isFinite x = true := by
  cases h with
  | empty => cases hx
  | filled _ hv hw =>
    rcases List.mem_cons.mp hx with rfl | hx
    · exact hv.isFinite
    · exact hw.isFinite hx

namespace Template

theorem Modifier.isFinite {m : List Char} {c : ModifierCall} (h : Modifier m c) {x : Float}
    (hx : .number x ∈ c.args) : Numeral.isFinite x = true := by
  cases h with
  | bare => cases hx
  | called _ ha =>
    obtain ⟨values, rfl, hvalues⟩ := ArgumentList.readValues_sound ha
    exact hvalues.isFinite (by simpa using hx)

theorem Modifiers.isFinite {m : List Char} {calls : List ModifierCall} (h : Modifiers m calls)
    {c : ModifierCall} (hc : c ∈ calls) {x : Float} (hx : .number x ∈ c.args) :
    Numeral.isFinite x = true := by
  induction h with
  | empty => cases hc
  | cons hm _ ih =>
    rcases List.mem_cons.mp hc with rfl | hc
    · exact hm.isFinite hx
    · exact ih hc

theorem Referring.isFinite {body : List Char} {symbol : String} {calls : List ModifierCall}
    (h : Referring body symbol calls) {c : ModifierCall} (hc : c ∈ calls) {x : Float}
    (hx : .number x ∈ c.args) : Numeral.isFinite x = true := by
  cases h with
  | intro _ hm => exact hm.isFinite hc hx

/-- A number in a reference of a template that has been derived. -/
theorem Derives.isFinite {s : List Char} {t : Template} (h : Derives s t) {r : Reference}
    (hr : r ∈ t.references) {c : ModifierCall} (hc : c ∈ r.calls) {x : Float} (hx : .number x ∈ c.args) :
    Numeral.isFinite x = true := by
  induction h with
  | empty => cases hr
  | text _ _ _ ih => exact ih hr
  | reference _ hreferring _ ih =>
    rcases List.mem_append.mp hr with hr | hr
    · exact ih hr
    · cases List.mem_singleton.mp hr
      exact hreferring.isFinite hc hx
  | decorator _ hreferring ih =>
    rcases List.mem_append.mp hr with hr | hr
    · exact ih hr
    · cases List.mem_singleton.mp hr
      exact hreferring.isFinite hc hx
  | declaration _ _ _ ih => exact ih hr

/-- All numbers of a template that has been read are finite. -/
theorem isFinite_of_parse {s : String} {t : Template} (h : parse s = .ok t) {x : Float}
    (hx : x ∈ t.numbers) : Numeral.isFinite x = true := by
  obtain ⟨u, hu, hx⟩ := List.mem_flatMap.mp hx
  obtain ⟨r, hr, hx⟩ := List.mem_flatMap.mp hx
  obtain ⟨c, hc, hx⟩ := List.mem_flatMap.mp hx
  obtain ⟨a, ha, hx⟩ := List.mem_filterMap.mp hx
  cases a with
  | number y =>
    cases hx
    exact ((derives_of_parse h).of_mem_walk hu).isFinite hr hc ha
  | text s => cases hx

end Template

/-! ### Values that are got back -/

/-- The float is got back from the number that it is stored as. -/
def ReadsAgain (x : Float) : Prop := (Ron.floatValue x).float? = some x

theorem Argument.ofValue?_toValue {a : Argument} (h : ∀ x, a = .number x → ReadsAgain x) :
    Argument.ofValue? a.toValue = some a := by
  cases a with
  | number x => rw [Argument.toValue, Argument.ofValue?, h x rfl]
  | text s => rfl

theorem ModifierCall.ofValue?_toValue {c : ModifierCall} (h : ∀ x, .number x ∈ c.args → ReadsAgain x) :
    ModifierCall.ofValue? c.toValue = some c := by
  have hargs : (c.args.map Argument.toValue).mapM Argument.ofValue? = some c.args :=
    Ron.mapM_map_eq fun a ha => Argument.ofValue?_toValue fun x hx => h x (hx ▸ ha)
  simp [ModifierCall.ofValue?, ModifierCall.toValue, Value.fields?, Table.get?_cons, Value.text?,
    Value.items?, hargs]

theorem Reference.ofValue?_toValue {r : Reference}
    (h : ∀ c ∈ r.calls, ∀ x, .number x ∈ c.args → ReadsAgain x) :
    Reference.ofValue? r.toValue = some r := by
  have hcalls : (r.calls.map ModifierCall.toValue).mapM ModifierCall.ofValue? = some r.calls :=
    Ron.mapM_map_eq fun c hc => ModifierCall.ofValue?_toValue (h c hc)
  simp [Reference.ofValue?, Reference.toValue, Value.fields?, Table.get?_cons, Value.text?, Value.items?,
    Value.flag?, hcalls]

namespace Template

/-- The value of a declaration. -/
def declarationValue (e : String × Template) : Value :=
  .record none [("name", .text e.1), ("lexeme", e.2.toValue)]

theorem declarationValues_eq (declarations : List (String × Template)) :
    toValue.declarationValues declarations = declarations.map declarationValue := by
  induction declarations with
  | nil => rfl
  | cons e declarations ih => rw [toValue.declarationValues, ih, List.map_cons, declarationValue]

theorem toValue_eq (t : Template) : t.toValue = .record none [
    ("original_string", .text t.source),
    ("format_string", .text t.pattern),
    ("expansions", .list (t.references.map Reference.toValue)),
    ("variables", .list (t.declarations.map declarationValue))] := by
  cases t
  rw [toValue, declarationValues_eq]

theorem declarationItems?_map {declarations : List (String × Template)}
    (h : ∀ e ∈ declarations, ofValue? e.2.toValue = some e.2) :
    declarationItems? (declarations.map declarationValue) = some declarations := by
  induction declarations with
  | nil => rfl
  | cons e declarations ih =>
    have ⟨he, hdeclarations⟩ := List.forall_mem_cons.mp h
    have hdeclared : declarationOf? (declarationValue e) = some e := by
      simp [declarationOf?, declarationValue, Value.fields?, Table.get?_cons, Value.text?, templateIn?, he]
    rw [List.map_cons, declarationItems?, hdeclared, ih hdeclarations]
    rfl

/-- A template is got back from its value. -/
theorem ofValue?_toValue {t : Template} (h : ∀ x ∈ t.numbers, ReadsAgain x) :
    ofValue? t.toValue = some t := by
  induction t using declares_induction with
  | step t ih =>
    have hreferences : (t.references.map Reference.toValue).mapM Reference.ofValue? = some t.references :=
      Ron.mapM_map_eq fun r hr => Reference.ofValue?_toValue fun c hc x hx => h x (mem_numbers hr hc hx)
    have hdeclarations : declarationItems? (t.declarations.map declarationValue) = some t.declarations :=
      declarationItems?_map fun e he => ih e.2 ⟨e.1, he⟩ fun x hx =>
        h x (mem_numbers_of_declares ⟨e.1, he⟩ hx)
    cases t
    rw [toValue_eq]
    simp [ofValue?, Value.fields?, Table.get?_cons, Value.text?, Value.items?, hreferences,
      declarationsIn?, declarationList?, hdeclarations]

end Template

/-! ### Values that are read back -/

section Storing

variable {n : Nat}

theorem Argument.storable {a : Argument} (h : ∀ x, a = .number x → Numeral.isFinite x = true) :
    Storable n a.toValue := by
  cases a with
  | number x =>
    obtain ⟨raw, hvalue, hraw⟩ := Ron.numberReads_floatValue (h x rfl)
    rw [Argument.toValue, hvalue]
    exact .number hraw
  | text s => exact .text s

theorem ModifierCall.storable {c : ModifierCall}
    (h : ∀ x, .number x ∈ c.args → Numeral.isFinite x = true) : Storable (n + 4) c.toValue := by
  have hargs : Storable (n + 2) (.list (c.args.map Argument.toValue)) := by
    refine .list ?_
    simp only [List.forall_mem_map]
    exact fun a ha => Argument.storable fun x hx => h x (hx ▸ ha)
  refine .record ?_ ?_ <;> simp only [List.forall_mem_cons]
  · decide
  · exact ⟨.text c.name, hargs, nofun⟩

theorem Reference.storable {r : Reference}
    (h : ∀ c ∈ r.calls, ∀ x, .number x ∈ c.args → Numeral.isFinite x = true) :
    Storable (n + 8) r.toValue := by
  have hcalls : Storable (n + 6) (.list (r.calls.map ModifierCall.toValue)) := by
    refine .list ?_
    simp only [List.forall_mem_map]
    exact fun c hc => ModifierCall.storable (h c hc)
  refine .record ?_ ?_ <;> simp only [List.forall_mem_cons]
  · decide
  · exact ⟨.text r.symbol, hcalls, .flag r.decorator, nofun⟩

namespace Template

theorem storable_declarationValue {e : String × Template} (h : Storable n e.2.toValue) :
    Storable (n + 2) (declarationValue e) := by
  refine .record ?_ ?_ <;> simp only [List.forall_mem_cons]
  · decide
  · exact ⟨.text e.1, h, nofun⟩

theorem storable {t : Template} (h : ∀ x ∈ t.numbers, Numeral.isFinite x = true) (n : Nat) :
    Storable (n + 6 * t.nesting + 12) t.toValue := by
  induction t using declares_induction generalizing n with
  | step t ih =>
    have hreferences : Storable (n + 6 * t.nesting + 10)
        (.list (t.references.map Reference.toValue)) := by
      refine .list ?_
      simp only [List.forall_mem_map]
      exact fun r hr => Reference.storable fun c hc x hx => h x (mem_numbers hr hc hx)
    have hdeclarations : Storable (n + 6 * t.nesting + 10)
        (.list (t.declarations.map declarationValue)) := by
      refine .list ?_
      simp only [List.forall_mem_map]
      intro e he
      -- what is declared nests less deep, so that there are six steps left for the way to it
      obtain ⟨d, hd⟩ := Nat.exists_eq_add_of_le (nesting_lt he)
      have hvalue := ih e.2 ⟨e.1, he⟩ (fun x hx => h x (mem_numbers_of_declares ⟨e.1, he⟩ hx)) (n + 6 * d)
      rw [show n + 6 * t.nesting + 8 = n + 6 * d + 6 * e.2.nesting + 12 + 2 by omega]
      exact storable_declarationValue hvalue
    rw [toValue_eq]
    refine .record ?_ ?_ <;> simp only [List.forall_mem_cons]
    · decide
    · exact ⟨.text t.source, .text t.pattern, hreferences, hdeclarations, nofun⟩

end Template

end Storing

/-! ### Steps -/

namespace Template

theorem steps_declarationValue (e : String × Template) :
    (declarationValue e).steps = e.2.toValue.steps + 2 := by
  simp [declarationValue, Value.steps, Value.steps.stepsFields]

theorem steps_toValue (t : Template) : t.toValue.steps =
    max (Value.steps.stepsAll (t.references.map Reference.toValue))
      (Value.steps.stepsAll (t.declarations.map declarationValue)) + 3 := by
  rw [toValue_eq, Value.steps_record]
  simp only [Value.steps.stepsFields, Value.steps]
  omega

theorem le_stepsAll {declarations : List (String × Template)}
    (h : ∀ e ∈ declarations, 6 * e.2.nesting + 3 ≤ e.2.toValue.steps) :
    6 * nesting.nestingAll declarations ≤ Value.steps.stepsAll (declarations.map declarationValue) := by
  induction declarations with
  | nil => exact Nat.zero_le _
  | cons e declarations ih =>
    have ⟨he, hdeclarations⟩ := List.forall_mem_cons.mp h
    have hrest := ih hdeclarations
    rw [nesting.nestingAll, List.map_cons, Value.steps.stepsAll, steps_declarationValue]
    omega

/-- A declaration takes six steps to what it declares, and there at least three are taken. -/
theorem le_steps (t : Template) : 6 * t.nesting + 3 ≤ t.toValue.steps := by
  induction t using declares_induction with
  | step t ih =>
    have hdeclarations := le_stepsAll fun e he => ih e.2 ⟨e.1, he⟩
    rw [nesting_eq, steps_toValue]
    omega

/-- It is not stored exactly if that would go too deep. -/
theorem toRon?_eq_none {t : Template} : t.toRon? = none ↔ Ron.depthLimit < t.toValue.steps :=
  Ron.write?_eq_none

/-- What is read from the text that a template is stored as. -/
theorem ofRon?_of_toRon? {s : String} {t : Template} (hparse : parse s = .ok t)
    (hnumbers : ∀ x ∈ t.numbers, ReadsAgain x) {text : String} (htext : t.toRon? = some text) :
    ofRon? text = some t := by
  have hstorable := storable (fun x hx => isFinite_of_parse hparse hx) 0
  rw [ofRon?, Ron.read?_of_write? hstorable htext]
  exact ofValue?_toValue hnumbers

/-- **A stored template is read back, and it is stored unless declarations nest too deep in it.** For every
template that is read from a text, what is read from the text that it is stored as is the same template. It
is not stored at all if that takes more steps than the depth limit allows. The steps are known from the
nesting of the declarations up to what is called at the bottom, so all is well with nineteen declarations in
one another, and nothing is stored with twenty-one. Of every number in it, it is assumed that it is got back
from its own text. -/
theorem stored_template_survives {s : String} {t : Template} (hparse : parse s = .ok t)
    (hnumbers : ∀ x ∈ t.numbers, ReadsAgain x) :
    (∀ text, t.toRon? = some text → ofRon? text = some t) ∧
      (t.toRon? = none ↔ Ron.depthLimit < t.toValue.steps) ∧
      6 * t.nesting + 3 ≤ t.toValue.steps ∧ t.toValue.steps ≤ 6 * t.nesting + 12 ∧
      (t.nesting ≤ 19 → ∃ text, t.toRon? = some text ∧ ofRon? text = some t) ∧
      (21 ≤ t.nesting → t.toRon? = none) := by
  have hread : ∀ text, t.toRon? = some text → ofRon? text = some t := fun _ =>
    ofRon?_of_toRon? hparse hnumbers
  have hlow := t.le_steps
  have hhigh : t.toValue.steps ≤ 6 * t.nesting + 12 := by
    have hstorable := storable (fun x hx => isFinite_of_parse hparse hx) 0
    simpa using hstorable.steps_le
  refine ⟨hread, toRon?_eq_none, hlow, hhigh, fun hshallow => ?_, fun hdeep => ?_⟩
  · have hstored : t.toRon? ≠ none := by
      rw [Ne, toRon?_eq_none, Ron.depthLimit]
      omega
    obtain ⟨text, htext⟩ := Option.ne_none_iff_exists'.mp hstored
    exact ⟨text, htext, hread text htext⟩
  · rw [toRon?_eq_none, Ron.depthLimit]
    omega

end Template

/-! ### A shelf -/

/-- A vase is declared that is dusted for so long, and by a person with marks in the name. -/
def shelf : String :=
  "\x7bvase= \x7brest.dust(-2.5, 'Mr \"O\\'')\x7d\x7dthe \x7b\x7bvase\x7d\x7d"

theorem readsAgain_shelf : ReadsAgain (-2.5) := by
  unfold ReadsAgain
  decide +kernel

/-- The shelf is stored and read back. -/
theorem shelf_survives : ∃ t text, Template.parse shelf = .ok t ∧ t.nesting = 1 ∧ t.numbers = [-2.5] ∧
    t.toRon? = some text ∧ Template.ofRon? text = some t := by
  have hparts : (Template.parse shelf).toOption.map (fun t => (t.nesting, t.numbers)) =
      some (1, [-2.5]) := by decide +kernel
  obtain ⟨t, ht, hparts⟩ := Option.map_eq_some_iff.mp hparts
  have hparse : Template.parse shelf = .ok t := by
    revert ht
    cases Template.parse shelf with
    | ok u =>
      rintro ⟨⟩
      rfl
    | error e => nofun
  obtain ⟨hnesting, hnumbers⟩ := Prod.mk.inj hparts
  have hreads : ∀ x ∈ t.numbers, ReadsAgain x := by
    rw [hnumbers]
    simpa using readsAgain_shelf
  have ⟨_, _, _, _, hshallow, _⟩ := Template.stored_template_survives hparse hreads
  obtain ⟨text, htext, hread⟩ := hshallow (by omega)
  exact ⟨t, text, hparse, hnesting, hnumbers, htext, hread⟩

/-! ### Dolls -/

/-- A doll that stands in so many others. -/
def doll : Nat → Template
  | 0 => ⟨"wood", "wood", [], []⟩
  | n + 1 => ⟨"\x7bdoll= " ++ (doll n).source ++ "\x7d", "", [], [("doll", doll n)]⟩

theorem doll_parse (n : Nat) : Template.parse (doll n).source = .ok (doll n) := by
  refine Template.Derives.parse_eq ?_
  induction n with
  | zero =>
    have hwood : Template.parse "wood" = .ok ⟨"wood", "wood", [], []⟩ := by with_unfolding_all rfl
    exact Template.derives_of_parse hwood
  | succ n ih =>
    have hname : Template.IsVariableName "doll".toList :=
      ⟨by decide, by simp [Template.isDelimiter, Text.isBlank]⟩
    have hderives := Template.Derives.declaration .empty hname ih
    have hsource : (doll (n + 1)).source.toList = [] ++ '{' :: "doll".toList ++
        '=' :: ' ' :: (doll n).source.toList ++ ['}'] := by simp [doll]
    have htemplate : doll (n + 1) = { (⟨"", "", [], []⟩ : Template) with
        source := String.ofList ([] ++ '{' :: "doll".toList ++ '=' :: ' ' :: (doll n).source.toList ++ ['}'])
        declarations := Table.put [] (String.ofList "doll".toList) (doll n) } := by
      rw [← hsource, String.ofList_toList]
      rfl
    rw [hsource, htemplate]
    exact hderives

theorem doll_nesting (n : Nat) : (doll n).nesting = n := by
  induction n with
  | zero => rfl
  | succ n ih => simp [doll, Template.nesting, Template.nesting.nestingAll, ih]

/-- A doll in twenty-one others can be read and is not stored. -/
theorem doll_lost : Template.parse (doll 21).source = .ok (doll 21) ∧ (doll 21).toRon? = none := by
  have hsteps := (doll 21).le_steps
  rw [doll_nesting] at hsteps
  refine ⟨doll_parse 21, ?_⟩
  rw [Template.toRon?_eq_none, Ron.depthLimit]
  omega

end Fabula
