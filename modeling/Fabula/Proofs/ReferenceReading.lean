import Fabula.Proofs.ArgumentScan
import Fabula.Proofs.TemplateGrammar

/-!
# Fabula.Proofs.ReferenceReading

**References are read as the grammar has it.** For every reader there are two lemmas: what it takes
belongs to the grammar and stands for what it returns (`…_sound`), and it takes what belongs to the
grammar, whatever follows (`…_complete`). A reader stops by looking at the next character, so the
latter say what that may be.
-/

namespace Fabula.Template

/-- What can follow a symbol or a modifier: another modifier, or the end of the reference. -/
def AtEnd (rest : List Char) : Prop := rest.head? = some '.' ∨ rest.head? = some '}'

theorem AtEnd.cases {rest : List Char} (h : AtEnd rest) :
    ∃ c tail, rest = c :: tail ∧ (c = '.' ∨ c = '}') := by
  cases rest with
  | nil => exact absurd h (by simp [AtEnd])
  | cons c tail => exact ⟨c, tail, rfl, by simpa [AtEnd] using h⟩

/-- Take a reader apart that puts something in front of what another one reads. -/
theorem map_inv {α β : Type} {x : Reading α} {f : α × List Char → β × List Char}
    {q : β × List Char} (h : x.map f = .ok q) : ∃ p, x = .ok p ∧ f p = q := by
  cases x with
  | error e => cases h
  | ok p => exact ⟨p, rfl, Except.ok.inj h⟩

/-! ### Symbols -/

theorem readSymbol_sound {brace cs name rest : List Char}
    (h : readSymbol brace cs = .ok (name, rest)) : ∃ s, cs = s ++ rest ∧ Symbol s name := by
  fun_induction readSymbol brace cs generalizing name rest with
  | case1 => cases h
  | case2 => cases h
  | case3 c cs ih =>
    -- a backslash and the character that it stands before
    obtain ⟨⟨name', rest'⟩, hr, hp⟩ := map_inv h
    cases hp
    obtain ⟨s, rfl, hs⟩ := ih hr
    exact ⟨'\\' :: c :: s, rfl, .escaped hs⟩
  | case4 c cs =>
    cases h
    exact ⟨[], rfl, .empty⟩
  | case5 => cases h
  | case6 => cases h
  | case7 => cases h
  | case8 => cases h
  | case9 c cs hlast hslash hend hbrace hequals hopen hclose ih =>
    -- a plain character: it has come through all tests, that for a backslash as a pattern
    have hplain : c ≠ '\\' := by
      rintro rfl
      cases cs with
      | nil => exact hlast rfl rfl
      | cons d cs => exact hslash d cs rfl rfl
    obtain ⟨⟨name', rest'⟩, hr, hp⟩ := map_inv h
    cases hp
    obtain ⟨s, rfl, hs⟩ := ih hr
    refine ⟨c :: s, rfl, .plain ?_ hs⟩
    rw [Bool.or_eq_true, decide_eq_true_iff, decide_eq_true_iff, not_or] at hend
    simp only [symbolEnds, List.mem_cons, List.not_mem_nil, or_false, not_or]
    exact ⟨hend.1, hend.2, hbrace, hequals, hopen, hclose, hplain⟩

theorem readSymbol_plain {c : Char} (hc : c ∉ symbolEnds) (brace cs : List Char) :
    readSymbol brace (c :: cs) = (readSymbol brace cs).map fun p => (c :: p.1, p.2) := by
  simp only [symbolEnds, List.mem_cons, List.not_mem_nil, or_false, not_or] at hc
  obtain ⟨hpoint, hbrace, hopen, hequals, hparen, hclose, hslash⟩ := hc
  rw [readSymbol.eq_4 _ _ _ (fun h => absurd h hslash) (fun _ _ h => absurd h hslash)]
  simp only [hpoint, hbrace, hopen, hequals, hparen, hclose, decide_false, Bool.or_false,
    Bool.false_eq_true, if_false]

theorem readSymbol_complete {s name rest : List Char} (hs : Symbol s name) (hrest : AtEnd rest)
    (brace : List Char) : readSymbol brace (s ++ rest) = .ok (name, rest) := by
  induction hs with
  | empty =>
    obtain ⟨c, tail, rfl, hc⟩ := hrest.cases
    rcases hc with rfl | rfl <;> rfl
  | @plain c s name hc _ ih =>
    show readSymbol brace (c :: (s ++ rest)) = _
    rw [readSymbol_plain hc, ih]
    rfl
  | @escaped c s name _ ih =>
    show (readSymbol brace (s ++ rest)).map _ = _
    rw [ih]
    rfl

/-! ### Modifiers -/

theorem readModifierName_sound {brace cs name rest : List Char}
    (h : readModifierName brace cs = .ok (name, rest)) :
    cs = name ++ rest ∧ ∀ c ∈ name, c ∉ modifierEnds := by
  induction cs generalizing name rest with
  | nil => cases h
  | cons c cs ih =>
    unfold readModifierName at h
    split at h
    · cases h
      exact ⟨rfl, fun c hc => absurd hc List.not_mem_nil⟩
    rename_i hend
    split at h
    · cases h
    rename_i hopen
    split at h
    · cases h
    rename_i hequals
    split at h
    · cases h
    rename_i hclose
    obtain ⟨⟨name', rest'⟩, hr, hp⟩ := map_inv h
    cases hp
    obtain ⟨rfl, hname⟩ := ih hr
    refine ⟨rfl, fun d hd => ?_⟩
    rcases List.mem_cons.mp hd with rfl | hd
    · simp only [Bool.or_eq_true, decide_eq_true_iff, not_or] at hend
      simp only [modifierEnds, List.mem_cons, List.not_mem_nil, or_false, not_or]
      exact ⟨hend.1.1, hend.1.2, hend.2, hopen, hequals, hclose⟩
    · exact hname d hd

theorem readModifierName_plain {c : Char} (hc : c ∉ modifierEnds) (brace cs : List Char) :
    readModifierName brace (c :: cs) = (readModifierName brace cs).map fun p => (c :: p.1, p.2) := by
  simp only [modifierEnds, List.mem_cons, List.not_mem_nil, or_false, not_or] at hc
  obtain ⟨hpoint, hbrace, hparen, hopen, hequals, hclose⟩ := hc
  rw [readModifierName]
  simp only [hpoint, hbrace, hopen, hequals, hparen, hclose, decide_false, Bool.or_false,
    Bool.false_eq_true, if_false]

theorem readModifierName_complete {m rest : List Char} (hm : ∀ c ∈ m, c ∉ modifierEnds)
    (hrest : AtEnd rest ∨ rest.head? = some '(') (brace : List Char) :
    readModifierName brace (m ++ rest) = .ok (m, rest) := by
  induction m with
  | nil =>
    obtain ⟨c, tail, rfl, hc⟩ : ∃ c tail, rest = c :: tail ∧ (c = '.' ∨ c = '}' ∨ c = '(') := by
      cases rest with
      | nil => simp [AtEnd] at hrest
      | cons c tail => exact ⟨c, tail, rfl, by simpa [AtEnd, or_assoc] using hrest⟩
    rcases hc with rfl | rfl | rfl <;> rfl
  | cons c m ih =>
    show readModifierName brace (c :: (m ++ rest)) = _
    rw [readModifierName_plain (hm c List.mem_cons_self), ih fun d hd => hm d (List.mem_cons_of_mem c hd)]
    rfl

/-! ### Arguments -/

/-- The scan has split the text in front of a closing parenthesis. -/
def SplitsAtClose (cs : List Char) (p : List Char × List Char) : Prop :=
  cs = p.1 ++ p.2 ∧ p.2.head? = some ')'

theorem SplitsAtClose.map (w : List Char) {cs : List Char} {scan : Reading (List Char)}
    {p : List Char × List Char} (h : scan.map (fun p => (w ++ p.1, p.2)) = .ok p)
    (hscan : ∀ {p}, scan = .ok p → SplitsAtClose cs p) : SplitsAtClose (w ++ cs) p := by
  obtain ⟨⟨inner, rest⟩, hp, rfl⟩ := map_inv h
  obtain ⟨rfl, hclose⟩ := hscan hp
  exact ⟨(List.append_assoc w inner rest).symm, hclose⟩

theorem spanArguments_sound {paren cs : List Char} {within : Option (Char × List Char)}
    {p : List Char × List Char} (h : spanArguments paren within cs = .ok p) :
    SplitsAtClose cs p := by
  fun_induction spanArguments paren within cs generalizing p with
  | case1 | case2 | case4 | case8 => cases h
  | case3 =>
    cases h
    exact ⟨rfl, rfl⟩
  | case5 c cs _ _ _ ih => exact .map [c] h ih
  | case6 c cs _ _ _ ih => exact .map [c] h ih
  | case7 c cs _ ih => exact .map [c] h ih
  | case9 quote start c cs _ ih => exact .map ['\\', c] h ih
  | case10 c cs quote start _ _ ih => exact .map [c] h ih

theorem readArguments_sound {paren cs rest : List Char} {args : List Argument}
    (h : readArguments paren cs = .ok (args, rest)) :
    ∃ a, cs = a ++ ')' :: rest ∧ ArgumentList.read a = .ok args := by
  unfold readArguments at h
  cases hs : spanArguments paren none cs with
  | error e =>
    rw [hs] at h
    cases h
  | ok p =>
    obtain ⟨a, rest'⟩ := p
    rw [hs] at h
    dsimp only at h
    cases ha : ArgumentList.read a with
    | error e =>
      rw [ha] at h
      cases h
    | ok args' =>
      rw [ha] at h
      cases h
      -- what is left begins with the parenthesis, which the reader drops
      obtain ⟨rfl, hclose⟩ := spanArguments_sound hs
      cases rest' with
      | nil => cases hclose
      | cons c tail =>
        cases hclose
        exact ⟨a, rfl, ha⟩

theorem readArguments_complete {a : List Char} {args : List Argument}
    (h : ArgumentList.read a = .ok args) (paren rest : List Char) :
    readArguments paren (a ++ ')' :: rest) = .ok (args, rest) := by
  unfold readArguments
  rw [spanArguments_of_read h]
  dsimp only
  rw [h]
  rfl

/-! ### Calls of modifiers -/

theorem readModifier_sound {brace cs rest : List Char} {call : ModifierCall}
    (h : readModifier brace cs = .ok (call, rest)) : ∃ m, cs = m ++ rest ∧ Modifier m call := by
  unfold readModifier at h
  cases hn : readModifierName brace cs with
  | error e =>
    rw [hn] at h
    cases h
  | ok p =>
    obtain ⟨name, rest'⟩ := p
    obtain ⟨rfl, hplain⟩ := readModifierName_sound hn
    rw [hn] at h
    dsimp only at h
    split at h
    · cases h
    rename_i hempty
    have hname : IsModifierName name := ⟨fun hnil => hempty (by rw [hnil]; rfl), hplain⟩
    split at h
    · rename_i inner
      cases ha : readArguments ('(' :: inner) inner with
      | error e =>
        rw [ha] at h
        cases h
      | ok p =>
        obtain ⟨args, rest''⟩ := p
        rw [ha] at h
        dsimp only at h
        split at h
        · cases h
        · cases h
          obtain ⟨a, rfl, hread⟩ := readArguments_sound ha
          exact ⟨name ++ '(' :: a ++ [')'], by simp, .called hname hread⟩
    · cases h
      exact ⟨name, rfl, .bare hname⟩

theorem readModifier_complete {m rest : List Char} {call : ModifierCall} (hm : Modifier m call)
    (hrest : AtEnd rest) (brace : List Char) :
    readModifier brace (m ++ rest) = .ok (call, rest) := by
  obtain ⟨c, tail, rfl, hc⟩ := hrest.cases
  unfold readModifier
  cases hm with
  | bare hm =>
    rw [readModifierName_complete hm.plain (Or.inl hrest)]
    dsimp only
    rw [if_neg (by rw [List.isEmpty_iff]; exact hm.nonempty)]
    rcases hc with rfl | rfl <;> rfl
  | @called m a args hm ha =>
    have hsplit : m ++ '(' :: a ++ [')'] ++ c :: tail = m ++ '(' :: (a ++ ')' :: c :: tail) := by simp
    rw [hsplit, readModifierName_complete hm.plain (Or.inr rfl)]
    dsimp only
    rw [if_neg (by rw [List.isEmpty_iff]; exact hm.nonempty)]
    simp only [readArguments_complete ha]
    rcases hc with rfl | rfl <;> rfl

theorem readModifiers_sound {brace cs rest : List Char} {calls : List ModifierCall}
    (h : readModifiers brace cs = .ok (calls, rest)) : ∃ m, cs = m ++ rest ∧ Modifiers m calls := by
  fun_induction readModifiers brace cs generalizing calls rest with
  | case1 => cases h
  | case2 tail call rest' hcall _ ih =>
    obtain ⟨⟨calls', rest''⟩, hr, hp⟩ := map_inv h
    cases hp
    obtain ⟨m, rfl, hm⟩ := readModifier_sound hcall
    obtain ⟨s, rfl, hs⟩ := ih hr
    exact ⟨'.' :: m ++ s, by simp, .cons hm hs⟩
  | case3 =>
    cases h
    exact ⟨[], rfl, .empty⟩

theorem Modifiers.atEnd {s : List Char} {calls : List ModifierCall} (h : Modifiers s calls)
    (rest : List Char) : AtEnd (s ++ '}' :: rest) := by
  cases h with
  | empty => exact Or.inr rfl
  | cons => exact Or.inl rfl

theorem readModifiers_point {brace tail rest : List Char} {call : ModifierCall}
    (h : readModifier brace tail = .ok (call, rest)) :
    readModifiers brace ('.' :: tail) =
      (readModifiers brace rest).map fun p => (call :: p.1, p.2) := by
  rw [readModifiers]
  split
  · rename_i he
    rw [h] at he
    cases he
  · rename_i he
    rw [h] at he
    cases he
    rfl

theorem readModifiers_brace (brace rest : List Char) :
    readModifiers brace ('}' :: rest) = .ok ([], '}' :: rest) := by
  rw [readModifiers]
  intro cs h
  cases h

theorem readModifiers_complete {s : List Char} {calls : List ModifierCall} (h : Modifiers s calls)
    (brace rest : List Char) :
    readModifiers brace (s ++ '}' :: rest) = .ok (calls, '}' :: rest) := by
  induction h with
  | empty => exact readModifiers_brace brace rest
  | @cons m s call calls hm hs ih =>
    rw [List.append_assoc, List.cons_append,
      readModifiers_point (readModifier_complete hm (hs.atEnd rest) brace), ih]
    rfl

/-! ### References -/

/-- The braces that close a reference. -/
def closing (decorator : Bool) : List Char := if decorator then ['}', '}'] else ['}']

theorem readReference_sound {brace cs rest : List Char} {decorator : Bool} {r : Reference}
    (h : readReference brace decorator cs = .ok (r, rest)) :
    ∃ body symbol calls, cs = body ++ closing decorator ++ rest ∧ Referring body symbol calls ∧
      r = ⟨symbol, calls, decorator⟩ := by
  unfold readReference at h
  cases hs : readSymbol brace cs with
  | error e =>
    rw [hs] at h
    cases h
  | ok p =>
    obtain ⟨name, cs'⟩ := p
    rw [hs] at h
    dsimp only at h
    cases hm : readModifiers brace cs' with
    | error e =>
      rw [hm] at h
      cases h
    | ok p =>
      obtain ⟨calls, rest'⟩ := p
      obtain ⟨m, rfl, hm'⟩ := readModifiers_sound hm
      obtain ⟨s, rfl, hs'⟩ := readSymbol_sound hs
      rw [hm] at h
      dsimp only at h
      have hbody : Referring (s ++ m) (String.ofList name) calls := .intro hs' hm'
      split at h
      · split at h
        · rename_i hdecorator
          subst hdecorator
          split at h
          · cases h
            exact ⟨s ++ m, _, _, by simp [closing], hbody, rfl⟩
          · cases h
        · rename_i hdecorator
          rw [Bool.not_eq_true] at hdecorator
          subst hdecorator
          cases h
          exact ⟨s ++ m, _, _, by simp [closing], hbody, rfl⟩
      · cases h

theorem readReference_complete {body : List Char} {symbol : String} {calls : List ModifierCall}
    (h : Referring body symbol calls) (brace : List Char) (decorator : Bool) (rest : List Char) :
    readReference brace decorator (body ++ closing decorator ++ rest) =
      .ok (⟨symbol, calls, decorator⟩, rest) := by
  obtain ⟨hs, hm⟩ := h
  rename_i s name m
  have htail : closing decorator ++ rest = '}' :: ((closing decorator).tail ++ rest) := by
    cases decorator <;> rfl
  unfold readReference
  rw [List.append_assoc, List.append_assoc, htail, readSymbol_complete hs (hm.atEnd _)]
  dsimp only
  rw [readModifiers_complete hm]
  cases decorator <;> rfl

end Fabula.Template
