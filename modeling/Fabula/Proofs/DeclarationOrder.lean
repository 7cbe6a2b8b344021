import Fabula.Proofs.Course
import Fabula.Proofs.NestedTemplates
import Fabula.Random.Scripted

/-!
# Fabula.Proofs.DeclarationOrder

**What a declaration sees.** The declarations of a template are evaluated in the order of its table, and
a name that is declared again keeps its place there. So the value that counts is the last one of its name
in the text, but it is evaluated where the first one stands, and it sees the names of which some
declaration stands to the left of *that* (`Template.visible`): of the names on its own left it misses
those that come between the two (`declaration_sees`). A value that reads such a name falls through to
what the name means outside, or fails (`changeling_blind`).

The order of the table is a matter of reading alone (`Table.mem_takeWhile_putAll`); that names in scope
stay in scope for all that a value sets off is one of the course of an expansion (`Site.Course.scopes`).
-/

namespace Fabula

/-! ### Tables filled one entry after the other -/

namespace Table

variable {α : Type}

/-- What stands before a name does not depend on what comes after it. -/
theorem takeWhile_stop (before after : List String) (name : String) :
    (before ++ name :: after).takeWhile (· ≠ name) = before.takeWhile (· ≠ name) := by
  induction before with
  | nil => simp
  | cons n before ih =>
    by_cases hn : n = name
    · simp [hn]
    · rw [List.cons_append, List.takeWhile_cons_of_pos (by simpa using hn), ih,
        List.takeWhile_cons_of_pos (by simpa using hn)]

/-- An element that stands before a name already may as well be said again. -/
theorem mem_takeWhile_insert {name other n : String} {before after : List String}
    (hn : n ∈ before) :
    other ∈ (before ++ n :: after).takeWhile (· ≠ name) ↔
      other ∈ (before ++ after).takeWhile (· ≠ name) := by
  by_cases hname : name ∈ before
  · obtain ⟨first, rest, rfl⟩ := List.append_of_mem hname
    rw [List.append_assoc, List.append_assoc, List.cons_append, List.cons_append, takeWhile_stop,
      takeWhile_stop]
  · have hpass : ∀ m ∈ before, decide (m ≠ name) = true := fun m hm =>
      decide_eq_true fun heq => hname (heq ▸ hm)
    rw [List.takeWhile_append_of_pos hpass, List.takeWhile_append_of_pos hpass,
      List.takeWhile_cons_of_pos (by simpa using hpass n hn)]
    simp only [List.mem_append, List.mem_cons]
    refine ⟨?_, Or.imp_right Or.inr⟩
    rintro (h | rfl | h)
    · exact .inl h
    · exact .inl hn
    · exact .inr h

/-- The names in a table that stand before a certain one are those that were put before it was first. -/
theorem mem_takeWhile_putAll {t u : Table α} {name other : String} :
    other ∈ (t.putAll u).names.takeWhile (· ≠ name) ↔
      other ∈ (t.names ++ u.names).takeWhile (· ≠ name) := by
  induction u generalizing t with
  | nil => rw [names, names, names, List.map_nil, List.append_nil]; rfl
  | cons e u ih =>
    obtain ⟨n, a⟩ := e
    rw [show t.putAll ((n, a) :: u) = (t.put n a).putAll u from rfl, ih, names_put]
    by_cases hn : n ∈ t.names
    · rw [if_pos hn]
      exact (mem_takeWhile_insert hn).symm
    · rw [if_neg hn, List.append_assoc]
      rfl

/-- What is found was put last under its name, or was there before and has not been replaced. -/
theorem putAll_cases {t u : Table α} {name : String} {a : α} (h : (t.putAll u).get? name = some a) :
    (∃ before after, u = before ++ (name, a) :: after ∧ name ∉ names after) ∨
      (name ∉ u.names ∧ t.get? name = some a) := by
  induction u generalizing t with
  | nil => exact .inr ⟨List.not_mem_nil, h⟩
  | cons e u ih =>
    obtain ⟨n, b⟩ := e
    rcases ih (t := t.put n b) h with ⟨before, after, rfl, hafter⟩ | ⟨hlast, hput⟩
    · exact .inl ⟨(n, b) :: before, after, rfl, hafter⟩
    · rw [get?_put] at hput
      by_cases hn : n = name
      · rw [if_pos hn] at hput
        cases hput
        exact .inl ⟨[], u, by rw [hn]; rfl, hlast⟩
      · rw [if_neg hn] at hput
        refine .inr ⟨fun hmem => ?_, hput⟩
        exact (List.mem_cons.mp hmem).elim (fun h => hn h.symm) hlast

end Table

/-! ### Declarations as they stand in a text -/

namespace Template

/-- The declarations among pieces, as they stand. -/
def writtenOf : List Piece → List (String × Template)
  | [] => []
  | .declaration name value :: ps => (name, value) :: writtenOf ps
  | .text _ :: ps => writtenOf ps
  | .reference _ :: ps => writtenOf ps

/-- The declarations that stand in a text, in order and with all repetitions. Those inside of values do
not count. -/
def written (text : String) : List (String × Template) :=
  match readPieces text.toList.length false [] text.toList (Nat.le_refl _) with
  | .ok (pieces, _) => writtenOf pieces
  | .error _ => []

theorem declarationsOf_eq (table : Table Template) (pieces : List Piece) :
    declarationsOf table pieces = table.putAll (writtenOf pieces) := by
  induction pieces generalizing table with
  | nil => rfl
  | cons piece pieces ih =>
    cases piece with
    | declaration name value => exact ih (table.put name value)
    | _ => exact ih table

/-- The table of a template holds what is written in its text. -/
theorem Derives.declarations_eq {text : String} {t : Template} (h : Derives text.toList t) :
    t.declarations = Table.putAll [] (written text) := by
  obtain ⟨pieces, rfl, hread⟩ := h.readPieces_eq
  obtain ⟨hrest, hread⟩ := hread text.toList.length false [] text.toList (Nat.le_refl _)
    (List.append_nil _).symm
  rw [readPieces_end] at hread
  unfold written
  rw [hread]
  exact declarationsOf_eq [] pieces.reverse

/-- The names that a value sees under the name `name`, the declarations on its left being given: those
that are declared before that name is for the first time. -/
def visible (left : List (String × Template)) (name : String) : List String :=
  (Table.names left).takeWhile (· ≠ name)

theorem visible_eq (left right : List (String × Template)) (name : String) (value : Template) :
    (Table.names (left ++ (name, value) :: right)).takeWhile (· ≠ name) = visible left name := by
  rw [Table.names, List.map_append, List.map_cons, Table.takeWhile_stop]
  rfl

/-- If the name has not been declared before, these are all. -/
theorem visible_of_not_mem {left : List (String × Template)} {name : String}
    (h : name ∉ Table.names left) : visible left name = Table.names left :=
  List.takeWhile_eq_self_iff.mpr fun _ hn => decide_eq_true fun heq => h (heq ▸ hn)

/-- A declaration that is evaluated is the last one of its name in the text, and those before it in the
table are of the names that its value sees. -/
theorem Derives.declaration_split {u : Template} (hu : Derives u.source.toList u) {name : String}
    {value : Template} {before after : List (String × Template)}
    (hsplit : u.declarations = before ++ (name, value) :: after) :
    ∃ left right, written u.source = left ++ (name, value) :: right ∧ name ∉ Table.names right ∧
      ∀ other, other ∈ Table.names before ↔ other ∈ visible left name := by
  have htable := hu.declarations_eq
  have hnodup : (Table.names u.declarations).Nodup := by
    rw [htable]
    exact Table.nodup_putAll (t := []) List.nodup_nil _
  have hget : Table.get? u.declarations name = some value :=
    Table.get?_of_mem hnodup (by rw [hsplit]; simp)
  have hbefore : (Table.names u.declarations).takeWhile (· ≠ name) = Table.names before := by
    rw [hsplit, Table.names, List.map_append, List.map_cons] at hnodup
    rw [hsplit, visible_eq]
    refine visible_of_not_mem fun hmem => ?_
    exact (List.nodup_append.mp hnodup).2.2 name hmem name List.mem_cons_self rfl
  rw [htable] at hget
  rcases Table.putAll_cases hget with ⟨left, right, hwritten, hlast⟩ | ⟨-, hnone⟩
  · refine ⟨left, right, hwritten, hlast, fun other => ?_⟩
    rw [← hbefore, htable, Table.mem_takeWhile_putAll, hwritten]
    exact iff_of_eq (congrArg (other ∈ ·) (visible_eq left right name value))
  · cases hnone

end Template

/-! ### What a value sees -/

theorem mem_map_fst_iff {scope : Scope} {name : String} :
    name ∈ scope.map Prod.fst ↔ ∃ text, scope.lookup name = some text := by
  rw [← Option.isSome_iff_exists, ← Bool.not_eq_false, Option.isSome_eq_false_iff,
    Option.isNone_iff_eq_none, List.lookup_eq_none_iff]
  simp

/-- A name is looked up in the scopes that were opened last, then in the one before them, then outside. -/
theorem Context.lookup_split {σ : Type} {c d : Context σ} {inner : List Scope} {scope : Scope}
    (h : d.scopes = inner ++ scope :: c.scopes) (name : String) :
    d.lookup name =
      (inner.findSome? (List.lookup name)).or ((scope.lookup name).or (c.lookup name)) := by
  unfold Context.lookup
  rw [h, List.findSome?_append]
  congr 1
  rw [List.findSome?_cons]
  cases scope.lookup name <;> rfl

/-- **A declaration sees what is declared before its name is for the first time.** Where the value of a
declaration is expanded, in any template inside one that has been read, a scope stands open that has
exactly the names declared to the left of the first declaration of the same name; these are all the names
on its left if there is no earlier one. In all that the value sets off, modifiers apart, a reference to
such a name gives the value in that scope, or in one that was opened inside of it, and takes no draw. A
reference to any other name means what it means outside. -/
theorem declaration_sees {σ : Type} [RandomSource σ] {g : Grammar σ}
    (hg : g.OverridesKeep Context.SamePlace) {text : String} {t u : Template}
    (ht : Template.parse text = .ok t) (hu : u ∈ t.walk) {levels : Nat} {slot : Option Slot}
    {c : Context σ} {name : String} {v : Site σ}
    (hv : Site.Declares g ⟨levels, u, slot, c⟩ name v) :
    ∃ left right scope, Template.written u.source = left ++ (name, v.template) :: right ∧
      name ∉ Table.names right ∧ v.context.scopes = scope :: c.scopes ∧
      (∀ other, other ∈ scope.map Prod.fst ↔ other ∈ Template.visible left name) ∧
      (name ∉ Table.names left → Template.visible left name = Table.names left) ∧
      ∀ s r below d, v.Course g s → s.Refers g r below d →
        ∃ inner, d.scopes = inner ++ scope :: c.scopes ∧
          (r.symbol ∈ Template.visible left name → ∃ value,
            (inner ++ [scope]).findSome? (List.lookup r.symbol) = some value ∧
            resolve g (g.evaluate below) r.symbol d = .ok (some ⟨value, false⟩) d) ∧
          (r.symbol ∉ Template.visible left name →
            d.lookup r.symbol = (inner.findSome? (List.lookup r.symbol)).or (c.lookup r.symbol)) := by
  obtain ⟨before, after, scope, hsplit, hnames, hscopes⟩ := hv.scopes hg
  obtain ⟨left, right, hwritten, hlast, hvisible⟩ :=
    ((Template.derives_of_parse ht).of_mem_walk hu).declaration_split hsplit
  have hscope (other : String) : other ∈ scope.map Prod.fst ↔ other ∈ Template.visible left name := by
    rw [hnames, List.mem_reverse]
    exact hvisible other
  refine ⟨left, right, scope, hwritten, hlast, hscopes, hscope, Template.visible_of_not_mem, ?_⟩
  intro s r below d hcourse hrefers
  -- what is opened inside of the value stands in front of the scope
  obtain ⟨opened, hopened⟩ := hcourse.scopes hg
  obtain ⟨innermost, -, hinnermost⟩ := hrefers.scopes hg
  have hd : d.scopes = (innermost :: opened) ++ scope :: c.scopes := by
    rw [hinnermost, hopened, hscopes]
    rfl
  have hlookup := Context.lookup_split hd r.symbol
  refine ⟨innermost :: opened, hd, fun hsees => ?_, fun hblind => ?_⟩
  · obtain ⟨value, hvalue⟩ := mem_map_fst_iff.mp ((hscope r.symbol).mpr hsees)
    rw [List.findSome?_append, List.findSome?_singleton, hvalue]
    rw [hvalue, Option.some_or] at hlookup
    cases hinner : (innermost :: opened).findSome? (List.lookup r.symbol) with
    | none =>
      rw [hinner] at hlookup
      exact ⟨value, rfl, resolve_of_lookup hlookup⟩
    | some value' =>
      rw [hinner] at hlookup
      exact ⟨value', rfl, resolve_of_lookup hlookup⟩
  · have hnone : scope.lookup r.symbol = none :=
      Option.eq_none_iff_forall_ne_some.mpr fun value hvalue =>
        hblind ((hscope r.symbol).mp (mem_map_fst_iff.mpr ⟨value, hvalue⟩))
    rw [hlookup, hnone, Option.none_or]

/-! ### Some templates -/

/-- A grammar without tables, for texts that bring their own names. -/
def bare : Grammar Scripted := {}

/-- The template expanded on its own, with nothing in scope. -/
def Template.alone (t : Template) : Site Scripted := ⟨20, t, none, { source := .fixed 0 }⟩

/-- An owner who is declared after her pet. -/
def owner : Template where
  source := "{pet= cat}{owner= lady with the {pet}}{owner}"
  pattern := "{0}"
  references := [⟨"owner", [], false⟩]
  declarations := [("pet", ⟨"cat", "cat", [], []⟩),
    ("owner", ⟨"lady with the {pet}", "lady with the {0}", [⟨"pet", [], false⟩], []⟩)]

theorem owner_parse : Template.parse owner.source = .ok owner := by
  with_unfolding_all rfl

theorem owner_written : Template.written owner.source = owner.declarations := by
  with_unfolding_all rfl

/-- Her own value is evaluated, and comes to the reference to her pet. -/
theorem owner_refers : ∃ v below d, Site.Declares bare owner.alone "owner" v ∧
    v.Refers bare ⟨"pet", [], false⟩ below d :=
  ⟨_, _, _, .intro (show owner.declarations = [("pet", _)] ++ ("owner", _) :: [] from rfl) rfl,
    .intro rfl (show _ = [] ++ _ :: [] from rfl) rfl⟩

/-- She sees her pet there, as it is in the scope of the template. -/
theorem owner_sees : Template.parse owner.source = .ok owner ∧ owner ∈ owner.walk ∧
    bare.OverridesKeep Context.SamePlace ∧ ∃ v below d,
      Site.Declares bare owner.alone "owner" v ∧ v.Course bare v ∧
      v.Refers bare ⟨"pet", [], false⟩ below d ∧
      ∃ value, resolve bare (bare.evaluate below) "pet" d = .ok (some ⟨value, false⟩) d := by
  have hbare : bare.OverridesKeep Context.SamePlace := Grammar.overridesKeep_of_nil rfl
  have hwalk : owner ∈ owner.walk := Template.mem_walk.mpr (.inl rfl)
  obtain ⟨v, below, d, hv, hrefers⟩ := owner_refers
  obtain ⟨left, right, scope, hwritten, -, -, -, -, hsees⟩ :=
    declaration_sees hbare owner_parse hwalk hv
  have hleft : "pet" ∈ Template.visible left "owner" := by
    rw [← Template.visible_eq left right "owner" v.template, ← hwritten, owner_written]
    decide
  have hcourse : v.Course bare v := .refl
  obtain ⟨_, -, hvisible, -⟩ := hsees v _ below d hcourse hrefers
  obtain ⟨value, -, hvalue⟩ := hvisible hleft
  exact ⟨owner_parse, hwalk, hbare, v, below, d, hv, hcourse, hrefers, value, hvalue⟩

/-- A pet that is declared again, with a coat that is declared in between. -/
def changeling : Template where
  source := "{pet= cat}{coat= black}{pet= {coat} cat}{pet}"
  pattern := "{0}"
  references := [⟨"pet", [], false⟩]
  declarations := [("pet", ⟨"{coat} cat", "{0} cat", [⟨"coat", [], false⟩], []⟩),
    ("coat", ⟨"black", "black", [], []⟩)]

/-- Its value does not see the coat, though that stands on its left: the name is unknown there. -/
theorem changeling_blind : Template.parse changeling.source = .ok changeling ∧
    ∃ v left right r below d, Site.Declares bare changeling.alone "pet" v ∧
      Template.written changeling.source = left ++ ("pet", v.template) :: right ∧
      "coat" ∈ Table.names left ∧ v.Refers bare r below d ∧ r.symbol = "coat" ∧
      resolve bare (bare.evaluate below) r.symbol d = .error (.unknownSymbol "coat") d := by
  refine ⟨by with_unfolding_all rfl, _,
    [("pet", ⟨"cat", "cat", [], []⟩), ("coat", ⟨"black", "black", [], []⟩)], [], _, _, _,
    .intro (show changeling.declarations = [] ++ ("pet", _) :: [("coat", _)] from rfl) rfl,
    by with_unfolding_all rfl, by decide, .intro rfl (show _ = [] ++ _ :: [] from rfl) rfl, rfl, rfl⟩

end Fabula
