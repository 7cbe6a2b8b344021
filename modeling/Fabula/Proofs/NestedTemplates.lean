import Fabula.Proofs.TemplateReading
import Mathlib.Logic.Relation

/-!
# Fabula.Proofs.NestedTemplates

**A template that is declared inside another stands on its own.** Its source is a piece of the text that
was read, and read by itself that piece gives the same template again (`Template.nested_parse`). The
reader sees the characters after the value of a declaration while it reads the value, but nothing that it
reads there depends on them.

The grammar of templates has no such characters at all: a value derives its template as a whole text does.
So what is left to show is that every template inside is one that the grammar has derived
(`Template.Derives.inside`).
-/

namespace Fabula

namespace Template

/-! ### The templates inside a template -/

theorem mem_walkAll {declarations : List (String × Template)} {u : Template} :
    u ∈ walk.walkAll declarations ↔ ∃ e ∈ declarations, u ∈ e.2.walk := by
  induction declarations with
  | nil => simp [walk.walkAll]
  | cons e declarations ih => simp [walk.walkAll, ih]

theorem mem_walk {t u : Template} : u ∈ t.walk ↔ u = t ∨ ∃ e ∈ t.declarations, u ∈ e.2.walk := by
  cases t
  rw [walk, List.mem_cons, mem_walkAll]

@[simp]
theorem mem_walk_self (t : Template) : t ∈ t.walk :=
  mem_walk.mpr (.inl rfl)

theorem mem_walk_of_value {t u : Template} {e : String × Template} (he : e ∈ t.declarations)
    (hu : u ∈ e.2.walk) : u ∈ t.walk :=
  mem_walk.mpr (.inr ⟨e, he, hu⟩)

/-- The template declares a name, here and not in a nested template, with the value `u`. -/
def Declares (t u : Template) : Prop := ∃ name, (name, u) ∈ t.declarations

/-- A value is smaller than what declares it. -/
theorem Declares.sizeOf_lt {t u : Template} (h : t.Declares u) : sizeOf u < sizeOf t := by
  obtain ⟨name, hmem⟩ := h
  have hentry := List.sizeOf_lt_of_mem hmem
  cases t
  simp only [Prod.mk.sizeOf_spec, mk.sizeOf_spec] at hentry ⊢
  omega

/-- A walk visits the template, the values of its declarations, those of theirs, and so on. -/
theorem mem_walk_iff_declares {t u : Template} :
    u ∈ t.walk ↔ Relation.ReflTransGen Declares t u := by
  constructor
  · induction hsize : sizeOf t using Nat.strong_induction_on generalizing t with
    | _ size ih =>
      intro hu
      rcases mem_walk.mp hu with rfl | ⟨⟨name, value⟩, hmem, hu⟩
      · exact .refl
      · have hvalue : t.Declares value := ⟨name, hmem⟩
        exact .head hvalue (ih (sizeOf value) (hsize ▸ hvalue.sizeOf_lt) rfl hu)
  · intro h
    induction h using Relation.ReflTransGen.head_induction_on with
    | refl => exact mem_walk_self u
    | head hdeclares _ ih =>
      obtain ⟨name, hmem⟩ := hdeclares
      exact mem_walk_of_value hmem ih

/-! ### Their texts -/

theorem Derives.source_eq {s : List Char} {t : Template} (h : Derives s t) :
    t.source = String.ofList s := by
  cases h <;> rfl

theorem derives_of_parse {text : String} {t : Template} (h : parse text = .ok t) :
    Derives text.toList t := by
  unfold parse parseChars at h
  split at h
  · rename_i pieces left hread
    cases h
    obtain ⟨s, hsplit, hs, hend⟩ := readPieces_sound hread .empty
    rw [List.head?_eq_none_iff.mp hend, List.append_nil] at hsplit
    rw [hsplit]
    exact hs
  · cases h

theorem Derives.parse_eq {text : String} {t : Template} (h : Derives text.toList t) :
    parse text = .ok t := by
  obtain ⟨pieces, rfl, hread⟩ := h.readPieces_eq
  obtain ⟨hrest, hread⟩ := hread text.toList.length false [] text.toList (Nat.le_refl _)
    (List.append_nil _).symm
  rw [readPieces_end] at hread
  simp only [parse, parseChars, hread]

/-- A value that is declared is derived, from a piece of the text. -/
theorem Derives.declares {s : List Char} {t u : Template} (h : Derives s t) (hu : t.Declares u) :
    ∃ v, v <:+: s ∧ Derives v u := by
  induction h with
  | empty =>
    obtain ⟨name, hmem⟩ := hu
    cases hmem
  | text _ _ _ ih =>
    obtain ⟨v, hv, hderives⟩ := ih hu
    exact ⟨v, hv.trans (List.IsPrefix.isInfix (by simp)), hderives⟩
  | reference _ _ _ ih =>
    obtain ⟨v, hv, hderives⟩ := ih hu
    exact ⟨v, hv.trans (List.IsPrefix.isInfix (by simp)), hderives⟩
  | decorator _ _ ih =>
    obtain ⟨v, hv, hderives⟩ := ih hu
    exact ⟨v, hv.trans (List.IsPrefix.isInfix (by simp)), hderives⟩
  | @declaration s name v _ _ _ _ hvalue ih =>
    obtain ⟨other, hmem⟩ := hu
    rcases Table.mem_put hmem with hmem | hmem
    · obtain ⟨v, hv, hderives⟩ := ih ⟨other, hmem⟩
      exact ⟨v, hv.trans (List.IsPrefix.isInfix (by simp)), hderives⟩
    · cases hmem
      exact ⟨v, ⟨s ++ '{' :: name ++ ['=', ' '], ['}'], by simp⟩, hvalue⟩

/-- So is every template inside one that is derived. -/
theorem Derives.inside {s : List Char} {t u : Template} (h : Derives s t) (hu : u ∈ t.walk) :
    ∃ v, v <:+: s ∧ Derives v u := by
  rw [mem_walk_iff_declares] at hu
  induction hu with
  | refl => exact ⟨s, List.infix_rfl, h⟩
  | tail _ hdeclares ih =>
    obtain ⟨v, hv, hderives⟩ := ih
    obtain ⟨w, hw, hderives⟩ := hderives.declares hdeclares
    exact ⟨w, hw.trans hv, hderives⟩

/-- The piece is its source. -/
theorem Derives.of_mem_walk {s : List Char} {t u : Template} (h : Derives s t) (hu : u ∈ t.walk) :
    Derives u.source.toList u := by
  obtain ⟨v, -, hderives⟩ := h.inside hu
  rwa [hderives.source_eq, String.toList_ofList]

/-- **A template inside another stands on its own.** What a walk through a template that has been read
visits, the template itself and the values of its declarations at any depth, has for its source a piece
of the text, and this piece is read as the same template. -/
theorem nested_parse {text : String} {t : Template} (h : parse text = .ok t) (u : Template) :
    (u ∈ t.walk ↔ Relation.ReflTransGen Declares t u) ∧
      (u ∈ t.walk → (∃ before after, text = before ++ u.source ++ after) ∧
        parse u.source = .ok u) := by
  refine ⟨mem_walk_iff_declares, fun hu => ?_⟩
  have htext := derives_of_parse h
  refine ⟨?_, (htext.of_mem_walk hu).parse_eq⟩
  obtain ⟨v, ⟨before, after, hsplit⟩, hderives⟩ := htext.inside hu
  refine ⟨String.ofList before, String.ofList after, ?_⟩
  rw [hderives.source_eq, ← String.toList_inj, ← hsplit]
  simp only [String.toList_append, String.toList_ofList]

end Template

/-! ### A tale -/

/-- A king of uncertain mood. -/
def king : Template := ⟨"a {{mood}} king", "a {0} king", [⟨"mood", [], true⟩], []⟩

/-- A tale that is declared, and in which he is declared. -/
def tale : Template where
  source := "{tale= once {who= a {{mood}} king}{who} ruled}{tale}."
  pattern := "{0}."
  references := [⟨"tale", [], false⟩]
  declarations := [("tale", ⟨"once {who= a {{mood}} king}{who} ruled", "once {0} ruled",
    [⟨"who", [], false⟩], [("who", king)]⟩)]

/-- He is read in the same way outside of the tale. -/
theorem king_parse : Template.parse tale.source = .ok tale ∧ king ∈ tale.walk ∧
    (∃ before after, tale.source = before ++ king.source ++ after) ∧
    Template.parse king.source = .ok king := by
  have htale : Template.parse tale.source = .ok tale := by with_unfolding_all rfl
  have hking : king ∈ tale.walk := by simp [tale, Template.walk, Template.walk.walkAll]
  exact ⟨htale, hking, (Template.nested_parse htale king).2 hking⟩

end Fabula
