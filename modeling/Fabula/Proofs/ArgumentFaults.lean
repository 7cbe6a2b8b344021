import Fabula.Proofs.TemplateReading
import Fabula.Proofs.UnclosedTexts

/-!
# Fabula.Proofs.ArgumentFaults

**Faults of argument lists in templates.** The reader of templates comes to an argument list behind
the name of a modifier, in a reference of the template itself or in one of a declared value
(`Template.Calling`). If the list cannot be read, its fault is that of the template, and faults of
this kind have no other origin (`Template.parse_argument_fault_iff`).

So what is known of argument lists holds of templates: a text that is not closed is reported as
such and at its quotation mark, whatever else is wrong with the list
(`Template.scan_agrees_with_reader`).
-/

namespace Fabula.Template

/-! ### The way to an argument list -/

/-- What stands between the brace of a reference and the parenthesis of an argument list. -/
inductive Approach : List Char → Prop
  /-- A symbol, the modifiers before, and the name of the modifier. -/
  | intro {s name ms m : List Char} {calls : List ModifierCall} (hs : Symbol s name)
    (hms : Modifiers ms calls) (hm : IsModifierName m) : Approach (s ++ (ms ++ '.' :: m))

/-- The texts that the parenthesis of an argument list may follow. -/
inductive Calling : List Char → Prop
  /-- The list belongs to a reference. -/
  | reference {s body : List Char} {t : Template} (h : Derives s t) (hbody : Approach body)
    (hplain : IsPlain body) : Calling (s ++ '{' :: body)
  /-- The list belongs to a decorator. -/
  | decorator {s body : List Char} {t : Template} (h : Derives s t) (hbody : Approach body) :
    Calling (s ++ '{' :: '{' :: body)
  /-- The list belongs to something in the value of a declaration. -/
  | declaration {s v o : List Char} {t : Template} (h : Derives s t) (hv : IsVariableName v)
    (ho : Calling o) : Calling (s ++ '{' :: v ++ '=' :: ' ' :: o)

/-! ### A fault of the list is a fault of the template -/

section Reported

variable {rest : List Char} {e : Fault}

theorem Modifiers.atEnd_append {s rest : List Char} {calls : List ModifierCall}
    (h : Modifiers s calls) (hrest : AtEnd rest) : AtEnd (s ++ rest) := by
  cases h with
  | empty => exact hrest
  | cons => exact Or.inl rfl

theorem readModifier_of_fault {m : List Char} (hm : IsModifierName m)
    (he : readArguments ('(' :: rest) rest = .error e) (brace : List Char) :
    readModifier brace (m ++ '(' :: rest) = .error e := by
  unfold readModifier
  rw [readModifierName_complete hm.plain (Or.inr rfl)]
  dsimp only
  rw [if_neg (by rw [List.isEmpty_iff]; exact hm.nonempty)]
  simp only [he]

theorem readModifiers_of_fault {ms m : List Char} {calls : List ModifierCall}
    (hms : Modifiers ms calls) (hm : IsModifierName m)
    (he : readArguments ('(' :: rest) rest = .error e) (brace : List Char) :
    readModifiers brace (ms ++ '.' :: (m ++ '(' :: rest)) = .error e := by
  induction hms with
  | empty =>
    have hmodifier := readModifier_of_fault hm he brace
    rw [List.nil_append, readModifiers]
    split
    · rename_i h
      rw [hmodifier] at h
      cases h
      rfl
    · rename_i h
      rw [hmodifier] at h
      cases h
  | cons hm' hms ih =>
    rw [List.append_assoc, List.cons_append,
      readModifiers_point (readModifier_complete hm' (hms.atEnd_append (Or.inl rfl)) brace), ih]
    rfl

theorem Approach.readReference_eq {body : List Char} (h : Approach body)
    (he : readArguments ('(' :: rest) rest = .error e) (brace : List Char) (decorator : Bool) :
    readReference brace decorator (body ++ '(' :: rest) = .error e := by
  obtain @⟨s, name, ms, m, calls, hs, hms, hm⟩ := h
  have hsplit : s ++ (ms ++ '.' :: m) ++ '(' :: rest = s ++ (ms ++ '.' :: (m ++ '(' :: rest)) := by
    simp
  unfold readReference
  rw [hsplit, readSymbol_complete hs (hms.atEnd_append (Or.inl rfl))]
  dsimp only
  rw [readModifiers_of_fault hms hm he]

/-- The parenthesis ends the look ahead for a declaration. -/
theorem isPlain_iff_call (body rest : List Char) :
    IsPlain body ↔
      (body ++ '(' :: rest).head? ≠ some '{' ∧ startsDeclaration (body ++ '(' :: rest) = false := by
  have hhead : (body ++ '(' :: rest).head? = some '{' ↔ body.head? = some '{' := by
    cases body <;> simp
  have hfind : (body ++ '(' :: rest).find? isDelimiter = some '=' ↔
      body.find? isDelimiter = some '=' := by
    rw [List.find?_append]
    cases body.find? isDelimiter with
    | none =>
      show some '(' = some '=' ↔ none = some '='
      decide
    | some c => rfl
  rw [← Bool.not_eq_true, startsDeclaration_iff, hfind, ne_eq, hhead]
  exact ⟨fun h => ⟨h.single, h.undeclared⟩, fun h => ⟨h.1, h.2⟩⟩

section Steps

variable {bound : Nat} {nested : Bool} {pieces : List Piece} {tail : List Char}

theorem readPieces_reference_fault (hplain : startsDeclaration tail = false)
    (hr : readOpened tail = .error e) (h : ('{' :: tail).length ≤ bound) :
    readPieces bound nested pieces ('{' :: tail) h = .error e := by
  rw [readPieces, if_neg (by rw [hplain]; exact Bool.false_ne_true)]
  split
  · rename_i he
    rw [hr] at he
    cases he
    rfl
  · rename_i he
    rw [hr] at he
    cases he

theorem readPieces_declaration_fault {name value : List Char}
    (hstarts : startsDeclaration tail = true)
    (hd : readDeclared ('{' :: tail) tail = .ok (name, value))
    (hvalue : readPieces value.length true [] value (Nat.le_refl _) = .error e)
    (h : ('{' :: tail).length ≤ bound) :
    readPieces bound nested pieces ('{' :: tail) h = .error e := by
  rw [readPieces, if_pos hstarts]
  split
  · rename_i he
    rw [hd] at he
    cases he
  · rename_i he
    rw [hd] at he
    cases he
    dsimp only
    rw [hvalue]

end Steps

theorem Calling.readPieces_eq {o : List Char} (h : Calling o)
    (he : readArguments ('(' :: rest) rest = .error e) (bound : Nat) (nested : Bool)
    {cs : List Char} (hcs : cs.length ≤ bound) (heq : cs = o ++ '(' :: rest) :
    readPieces bound nested [] cs hcs = .error e := by
  induction h generalizing bound nested cs with
  | @reference s body t hs hbody hplain =>
    obtain ⟨hsingle, hundeclared⟩ := (isPlain_iff_call body rest).mp hplain
    obtain ⟨pieces, -, hread⟩ := hs.readPieces_eq
    obtain ⟨hrest, hread⟩ := hread bound nested ('{' :: (body ++ '(' :: rest)) cs hcs
      (by simp [heq])
    have hopened := (readOpened_single hsingle).trans (hbody.readReference_eq he _ false)
    exact hread.trans (readPieces_reference_fault hundeclared hopened hrest)
  | @decorator s body t hs hbody =>
    obtain ⟨pieces, -, hread⟩ := hs.readPieces_eq
    obtain ⟨hrest, hread⟩ := hread bound nested ('{' :: '{' :: (body ++ '(' :: rest)) cs hcs
      (by simp [heq])
    have hopened := (readOpened_double _).trans (hbody.readReference_eq he _ true)
    exact hread.trans (readPieces_reference_fault rfl hopened hrest)
  | @declaration s v o t hs hv ho ih =>
    obtain ⟨pieces, -, hread⟩ := hs.readPieces_eq
    obtain ⟨hrest, hread⟩ := hread bound nested ('{' :: (v ++ '=' :: ' ' :: (o ++ '(' :: rest))) cs
      hcs (by simp [heq])
    -- the value is read from its own beginning, and fails there
    have hvalue := ih (o ++ '(' :: rest).length true (Nat.le_refl _) rfl
    exact hread.trans (readPieces_declaration_fault (startsDeclaration_of_name hv.plain _)
      (readDeclared_complete hv _ _) hvalue hrest)

end Reported

/-! ### Faults of this kind have no other origin -/

/-- The kinds of faults that only argument lists have. -/
def ofArguments : SyntaxError.Kind → Bool
  | .unterminatedArguments | .unterminatedString | .invalidArguments _ => true
  | _ => false

/-- A reader that puts something in front of what another one reads fails as that one does. -/
theorem map_fault {α β : Type} {x : Reading α} {f : α × List Char → β × List Char} {e : Fault}
    (h : x.map f = .error e) : x = .error e := by
  cases x with
  | error e' =>
    cases h
    rfl
  | ok p => cases h

section Origin

variable {brace cs : List Char} {e : Fault}

theorem readSymbol_fault (h : readSymbol brace cs = .error e) : ¬ ofArguments e.kind = true := by
  fun_induction readSymbol brace cs with
  | case1 | case2 | case5 | case6 | case7 | case8 =>
    cases h
    exact Bool.false_ne_true
  | case3 c cs ih => exact ih (map_fault h)
  | case4 => cases h
  | case9 c cs _ _ _ _ _ _ _ ih => exact ih (map_fault h)

theorem readModifierName_fault (h : readModifierName brace cs = .error e) :
    ¬ ofArguments e.kind = true := by
  induction cs with
  | nil =>
    cases h
    exact Bool.false_ne_true
  | cons c cs ih =>
    unfold readModifierName at h
    repeat' split at h
    all_goals first
      | exact ih (map_fault h)
      | cases h <;> exact Bool.false_ne_true

theorem readDeclared_fault (h : readDeclared brace cs = .error e) :
    ¬ ofArguments e.kind = true := by
  unfold readDeclared at h
  dsimp only at h
  repeat' split at h
  all_goals cases h <;> exact Bool.false_ne_true

theorem checkAfterArguments_fault (h : checkAfterArguments cs = .error e) :
    ¬ ofArguments e.kind = true := by
  cases cs with
  | nil => cases h
  | cons c cs =>
    unfold checkAfterArguments at h
    repeat' split at h
    all_goals cases h <;> exact Bool.false_ne_true

theorem readModifier_fault (h : readModifier brace cs = .error e)
    (he : ofArguments e.kind = true) :
    ∃ m rest, cs = m ++ '(' :: rest ∧ IsModifierName m ∧
      readArguments ('(' :: rest) rest = .error e := by
  unfold readModifier at h
  cases hn : readModifierName brace cs with
  | error e' =>
    rw [hn] at h
    cases h
    exact absurd he (readModifierName_fault hn)
  | ok p =>
    obtain ⟨m, after⟩ := p
    obtain ⟨rfl, hplain⟩ := readModifierName_sound hn
    rw [hn] at h
    dsimp only at h
    split at h
    · cases h
      exact absurd he Bool.false_ne_true
    rename_i hempty
    have hm : IsModifierName m := ⟨fun hnil => hempty (by rw [hnil]; rfl), hplain⟩
    split at h
    · rename_i rest
      cases hargs : readArguments ('(' :: rest) rest with
      | error e' =>
        rw [hargs] at h
        cases h
        exact ⟨m, rest, rfl, hm, hargs⟩
      | ok p =>
        -- the list could be read, so the fault lies behind it
        rw [hargs] at h
        dsimp only at h
        split at h
        · rename_i hcheck
          cases h
          exact absurd he (checkAfterArguments_fault hcheck)
        · cases h
    · cases h

theorem readModifiers_fault (h : readModifiers brace cs = .error e)
    (he : ofArguments e.kind = true) :
    ∃ ms calls m rest, cs = ms ++ '.' :: (m ++ '(' :: rest) ∧ Modifiers ms calls ∧
      IsModifierName m ∧ readArguments ('(' :: rest) rest = .error e := by
  fun_induction readModifiers brace cs with
  | case1 tail e' hcall =>
    cases h
    obtain ⟨m, rest, rfl, hm, hargs⟩ := readModifier_fault hcall he
    exact ⟨[], [], m, rest, rfl, .empty, hm, hargs⟩
  | case2 tail call rest' hcall _ ih =>
    obtain ⟨m', rfl, hm'⟩ := readModifier_sound hcall
    obtain ⟨ms, calls, m, rest, rfl, hms, hm, hargs⟩ := ih (map_fault h)
    exact ⟨'.' :: m' ++ ms, call :: calls, m, rest, by simp, .cons hm' hms, hm, hargs⟩
  | case3 => cases h

theorem readReference_fault {decorator : Bool} (h : readReference brace decorator cs = .error e)
    (he : ofArguments e.kind = true) :
    ∃ body rest, cs = body ++ '(' :: rest ∧ Approach body ∧
      readArguments ('(' :: rest) rest = .error e := by
  unfold readReference at h
  cases hs : readSymbol brace cs with
  | error e' =>
    rw [hs] at h
    cases h
    exact absurd he (readSymbol_fault hs)
  | ok p =>
    obtain ⟨name, after⟩ := p
    obtain ⟨s, rfl, hs'⟩ := readSymbol_sound hs
    rw [hs] at h
    dsimp only at h
    cases hms : readModifiers brace after with
    | error e' =>
      rw [hms] at h
      cases h
      obtain ⟨ms, calls, m, rest, rfl, hms', hm, hargs⟩ := readModifiers_fault hms he
      exact ⟨s ++ (ms ++ '.' :: m), rest, by simp, .intro hs' hms' hm, hargs⟩
    | ok p =>
      rw [hms] at h
      dsimp only at h
      repeat' split at h
      all_goals cases h <;> exact absurd he Bool.false_ne_true

theorem readOpened_fault {s tail : List Char} {t : Template} (hs : Derives s t)
    (hplain : startsDeclaration tail = false) (h : readOpened tail = .error e)
    (he : ofArguments e.kind = true) :
    ∃ o rest, '{' :: tail = o ++ '(' :: rest ∧ Calling (s ++ o) ∧
      readArguments ('(' :: rest) rest = .error e := by
  by_cases hhead : tail.head? = some '{'
  · obtain ⟨after, rfl⟩ := List.head?_eq_some_iff.mp hhead
    rw [readOpened_double] at h
    obtain ⟨body, rest, rfl, hbody, hargs⟩ := readReference_fault h he
    exact ⟨'{' :: '{' :: body, rest, rfl, .decorator hs hbody, hargs⟩
  · rw [readOpened_single hhead] at h
    obtain ⟨body, rest, rfl, hbody, hargs⟩ := readReference_fault h he
    exact ⟨'{' :: body, rest, rfl,
      .reference hs hbody ((isPlain_iff_call body rest).mpr ⟨hhead, hplain⟩), hargs⟩

theorem readPieces_fault {bound : Nat} {nested : Bool} {pieces : List Piece}
    {hcs : cs.length ≤ bound} (h : readPieces bound nested pieces cs hcs = .error e)
    (he : ofArguments e.kind = true) {s : List Char} (hs : Derives s (ofPieces s pieces.reverse)) :
    ∃ o rest, cs = o ++ '(' :: rest ∧ Calling (s ++ o) ∧
      readArguments ('(' :: rest) rest = .error e := by
  fun_induction readPieces bound nested pieces cs hcs generalizing s with
  | case1 | case4 =>
    cases h
    exact absurd he Bool.false_ne_true
  | case2 | case3 => cases h
  | case5 _ _ _ _ _ _ _ hd =>
    cases h
    exact absurd he (readDeclared_fault hd)
  | case6 bound nested pieces tail hcs hstarts name value hd _ e' hvalue _ ih =>
    -- the value has the list in it
    cases h
    obtain ⟨rfl, hname⟩ := readDeclared_sound hstarts hd
    obtain ⟨o, rest, rfl, ho, hargs⟩ := ih hvalue .empty
    rw [List.nil_append] at ho
    have hcalling := Calling.declaration hs hname ho
    exact ⟨'{' :: name ++ '=' :: ' ' :: o, rest, by simp, by simpa using hcalling, hargs⟩
  | case7 =>
    rename_i bound nested pieces tail hcs hstarts name value hd _ inner left hleft hvalue
      source piece _ _ ih
    -- the value could be read, so the fault lies behind it
    obtain ⟨u, hsplit, hu, hbrace⟩ := readPieces_sound hvalue .empty
    obtain ⟨w, htail, hw⟩ := hs.declared hstarts hd hsplit hbrace hu
    obtain ⟨o, rest, hrest, ho, hargs⟩ := ih h hw
    exact ⟨w ++ o, rest, by rw [htail, hrest, List.append_assoc],
      by rwa [← List.append_assoc], hargs⟩
  | case8 bound nested pieces tail hcs hplain e' hr =>
    cases h
    exact readOpened_fault hs (Bool.eq_false_iff.mpr hplain) hr he
  | case9 bound nested pieces tail hcs hplain r rest hr _ _ ih =>
    obtain ⟨w, htail, hw⟩ := hs.opened (Bool.eq_false_iff.mpr hplain) hr
    obtain ⟨o, rest', rfl, ho, hargs⟩ := ih h hw
    exact ⟨w ++ o, rest', by rw [htail, List.append_assoc], by rwa [← List.append_assoc], hargs⟩
  | case10 bound nested pieces c tail hcs hclose hopen _ ih =>
    have hstep := hs.text (c := c) hopen hclose
    rw [← ofPieces_text s, ← List.reverse_cons] at hstep
    obtain ⟨o, rest, rfl, ho, hargs⟩ := ih h hstep
    exact ⟨c :: o, rest, rfl, by simpa using ho, hargs⟩

end Origin

/-! ### Whole templates -/

/-- The place of a fault is counted up to what is left there. -/
theorem locate_eq (kind : SyntaxError.Kind) {text : String} {o before start : List Char}
    (htext : text.toList = o ++ '(' :: (before ++ start)) :
    Fault.locate ⟨kind, start⟩ text.toList = ⟨kind, byteSize (o ++ '(' :: before), text⟩ := by
  have hplace : text.toList = (o ++ '(' :: before) ++ start := by simp [htext]
  have hsize : byteSize text.toList - byteSize start = byteSize (o ++ '(' :: before) := by
    rw [hplace, byteSize_append, Nat.add_sub_cancel]
  unfold Fault.locate
  dsimp only
  rw [hsize, String.ofList_toList]

/-- A template has a fault of an argument list exactly if a list that the reader comes to has it. -/
theorem parse_argument_fault_iff (text : String) {e : SyntaxError}
    (he : ofArguments e.kind = true) :
    parse text = .error e ↔
      ∃ o rest fault, text.toList = o ++ '(' :: rest ∧ Calling o ∧
        readArguments ('(' :: rest) rest = .error fault ∧ e = fault.locate text.toList := by
  unfold parse parseChars
  constructor
  · intro h
    split at h
    · cases h
    · rename_i fault hread
      cases h
      obtain ⟨o, rest, hsplit, ho, hargs⟩ := readPieces_fault hread he .empty
      exact ⟨o, rest, fault, hsplit, by simpa using ho, hargs, rfl⟩
  · rintro ⟨o, rest, fault, hsplit, ho, hargs, rfl⟩
    rw [ho.readPieces_eq hargs text.toList.length false (Nat.le_refl _) hsplit]

/-- No template is reported to have a list that ends inside a text. -/
theorem not_endsInside_of_parse {text : String} {e : SyntaxError} {cause : ArgumentList.Cause}
    (h : parse text = .error e) (hkind : e.kind = .invalidArguments cause) :
    ¬ EndsInside cause := by
  have hkinds : ofArguments e.kind = true := by rw [hkind]; rfl
  obtain ⟨o, rest, fault, -, -, hargs, rfl⟩ := (parse_argument_fault_iff text hkinds).mp h
  have hkind : fault.kind = .invalidArguments cause := hkind
  obtain hspan | ⟨cause', hkind', hcause⟩ := readArguments_fault hargs
  · -- the scan has other things to say
    obtain rfl | ⟨before, rest, -, -, ⟨rfl, -⟩ | ⟨rfl, -⟩⟩ := spanArguments_fault hspan <;>
      cases hkind
  · rw [hkind] at hkind'
    cases hkind'
    exact hcause

/-- Templates are reported to have a text that is not closed exactly if they have one. -/
theorem parse_unclosed_iff (text : String) (e : SyntaxError) :
    parse text = .error e ∧ e.kind = .unterminatedString ↔
      ∃ o before start, text.toList = o ++ '(' :: (before ++ start) ∧ Calling o ∧ Closed before ∧
        Unclosed start ∧ e = ⟨.unterminatedString, byteSize (o ++ '(' :: before), text⟩ := by
  constructor
  · rintro ⟨h, hkind⟩
    have hkinds : ofArguments e.kind = true := by rw [hkind]; rfl
    obtain ⟨o, rest, fault, hsplit, ho, hargs, rfl⟩ := (parse_argument_fault_iff text hkinds).mp h
    obtain ⟨kind, start⟩ := fault
    cases (hkind : kind = .unterminatedString)
    obtain ⟨before, rfl, hbefore, hstart⟩ := (readArguments_unclosed_iff _ _ start).mp hargs
    exact ⟨o, before, start, hsplit, ho, hbefore, hstart, locate_eq _ hsplit⟩
  · rintro ⟨o, before, start, hsplit, ho, hbefore, hstart, rfl⟩
    have hargs := readArguments_of_unclosed hbefore hstart ('(' :: (before ++ start))
    exact ⟨(parse_argument_fault_iff text rfl).mpr
      ⟨o, before ++ start, _, hsplit, ho, hargs, (locate_eq _ hsplit).symm⟩, rfl⟩

/-- **The scan for the end of an argument list and the reader of the list agree on texts.**

What can be read as a list is passed as a whole, whatever follows, and is what is read. Whatever
else the scan hands to the reader, the reader does not come to its end inside a text, so no template
is ever reported to have a list that does. That a text is not closed is reported by the scan, for
just those templates that have one in a list to which the reader comes, and at its quotation
mark. -/
theorem scan_agrees_with_reader :
    (∀ t values paren w, ArgumentList.read t = .ok values →
      spanArguments paren none (t ++ ')' :: w) = .ok (t, ')' :: w) ∧
        readArguments paren (t ++ ')' :: w) = .ok (values, w)) ∧
    (∀ paren cs inner rest e, spanArguments paren none cs = .ok (inner, rest) →
      ArgumentList.read inner = .error e → ¬ EndsInside e.cause) ∧
    (∀ text e cause, parse text = .error e → e.kind = .invalidArguments cause →
      ¬ EndsInside cause) ∧
    ∀ text e, parse text = .error e ∧ e.kind = .unterminatedString ↔
      ∃ o before start, text.toList = o ++ '(' :: (before ++ start) ∧ Calling o ∧ Closed before ∧
        Unclosed start ∧ e = ⟨.unterminatedString, byteSize (o ++ '(' :: before), text⟩ := by
  refine ⟨fun t values paren w h => ?_, fun paren cs inner rest e hspan hread => ?_,
    fun text e cause => not_endsInside_of_parse, parse_unclosed_iff⟩
  · exact ⟨spanArguments_of_read h paren w, readArguments_complete h paren w⟩
  · exact (spanArguments_closed hspan).read_fault hread

end Fabula.Template
