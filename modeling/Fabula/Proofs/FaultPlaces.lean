import Fabula.Proofs.ArgumentFaults

/-!
# Fabula.Proofs.FaultPlaces

**Faults point at their causes.** A template that cannot be read is reported with a place between two
characters of its text, and the kind of the fault says what is written there (`Template.Marks`).

A fault carries the characters that are left at its place (`Template.Fault.rest`). So that it lies in
the text at all means that these are an end of it, and there is one lemma for each reader, which says
so of its faults (`…_marked`). Most kinds show in the first of these characters, and three in the last
one before them. That an argument list cannot be read is reported somewhere between its parentheses:
what the reader of the list has left over is an end of what stands there (`ArgumentList.read_suffix`).
-/

namespace Fabula

/-! ### Argument lists -/

namespace ArgumentList

open Template (readEscape_split readValue_passes)

variable {cs : List Char} {e : Fault}

theorem readCodePoint_suffix {n count : Nat} (h : readCodePoint n count cs = .error e) :
    e.rest <:+ cs := by
  induction count generalizing n cs with
  | zero =>
    unfold readCodePoint at h
    split at h <;> cases h
    exact List.suffix_rfl
  | succ count ih =>
    cases cs with
    | nil =>
      cases h
      exact List.suffix_rfl
    | cons c cs =>
      unfold readCodePoint at h
      split at h
      · exact (ih h).trans (List.suffix_cons c cs)
      · cases h
        exact List.suffix_cons c cs

theorem readEscape_suffix (h : readEscape cs = .error e) : e.rest <:+ cs := by
  cases cs with
  | nil =>
    cases h
    exact List.suffix_rfl
  | cons c cs =>
    rw [readEscape] at h
    split at h
    · exact (readCodePoint_suffix h).trans (List.suffix_cons c cs)
    · cases h

theorem readText_suffix {quote : Char} {text : List Char} (h : readText quote text cs = .error e) :
    e.rest <:+ cs := by
  fun_induction readText quote text cs with
  | case1 =>
    cases h
    exact List.suffix_rfl
  | case2 => cases h
  | case3 _ cs e' hescape =>
    cases h
    exact (readEscape_suffix hescape).trans (List.suffix_cons _ cs)
  | case4 _ cs _ rest hescape _ _ ih =>
    obtain ⟨c, digits, rfl, -⟩ := readEscape_split hescape
    have hrest : rest <:+ c :: digits ++ rest := List.suffix_append _ rest
    exact (ih h).trans (hrest.trans (List.suffix_cons _ _))
  | case5 _ c cs _ _ ih => exact (ih h).trans (List.suffix_cons c cs)

theorem readValue_suffix {first : Char} (h : readValue first cs = .error e) :
    e.rest <:+ first :: cs := by
  unfold readValue at h
  split at h
  · cases htext : readText first [] cs with
    | error e' =>
      rw [htext] at h
      cases h
      exact (readText_suffix htext).trans (List.suffix_cons first cs)
    | ok p =>
      rw [htext] at h
      cases h
  · -- a value of another kind is reported at its first character
    split at h
    · unfold readNumber at h
      dsimp only at h
      split at h <;> cases h
      exact List.suffix_rfl
    · split at h <;> cases h <;> exact List.suffix_rfl

theorem readValues_suffix {values : List Argument} (h : readValues values cs = .error e) :
    e.rest <:+ cs := by
  fun_induction readValues values cs with
  | case1 => cases h
  | case2 values cs first tail hfirst e' hvalue =>
    cases h
    exact (readValue_suffix hvalue).trans (hfirst ▸ List.dropWhile_suffix _)
  | case3 => cases h
  | case4 values cs first tail hfirst value rest hvalue after hafter _ ih =>
    obtain ⟨w, hsplit, -⟩ := readValue_passes hvalue
    have hcomma : after <:+ rest := (List.suffix_cons ',' after).trans (hafter ▸ List.dropWhile_suffix _)
    have hrest : rest <:+ first :: tail := hsplit ▸ List.suffix_append w rest
    exact ((ih h).trans hcomma).trans (hrest.trans (hfirst ▸ List.dropWhile_suffix _))
  | case5 values cs first tail hfirst value rest hvalue c after hafter =>
    cases h
    obtain ⟨w, hsplit, -⟩ := readValue_passes hvalue
    have hcomma : c :: after <:+ rest := hafter ▸ List.dropWhile_suffix _
    have hrest : rest <:+ first :: tail := hsplit ▸ List.suffix_append w rest
    exact hcomma.trans (hrest.trans (hfirst ▸ List.dropWhile_suffix _))

/-- The reader of a list stops inside of it or at its end. -/
theorem read_suffix (h : read cs = .error e) : e.rest <:+ cs := readValues_suffix h

end ArgumentList

namespace Template

open ArgumentList (IsQuote)

/-! ### Marks -/

/-- The place lies between the parentheses of an argument list, of which the closing one is that of
the opening one: all other parentheses between them stand in texts. -/
def InsideArguments (before after : List Char) : Prop :=
  ∃ o u v w, before = o ++ '(' :: u ∧ after = v ++ ')' :: w ∧ Closed (u ++ v)

/-- What is written around the place of a fault, `before` it and `after` it. -/
def Marks : SyntaxError.Kind → List Char → List Char → Prop
  | .unmatchedCloseBrace, _, after => after.head? = some '}'
  | .unexpectedOpenBrace, _, after => after.head? = some '{'
  | .unterminatedExpansion, _, after => after.head? = some '{'
  | .emptyVariableName, _, after => after.head? = some '{'
  | .unexpectedEquals, _, after => after.head? = some '='
  | .unexpectedOpenParen, _, after => after.head? = some '('
  | .unterminatedArguments, _, after => after.head? = some '('
  | .unmatchedCloseParen, _, after => after.head? = some ')'
  | .unterminatedString, _, after => ∃ quote, IsQuote quote ∧ after.head? = some quote
  | .unexpectedCharacter c, _, after => after.head? = some c
  | .missingSpaceAfterEquals, before, _ => before.getLast? = some '='
  | .unterminatedDecorator, before, _ => before.getLast? = some '}'
  | .emptyModifierName, before, _ => before.getLast? = some '.'
  | .unterminatedVariable, _, after => after = []
  | .invalidArguments _, before, after => InsideArguments before after

/-- The fault lies in the text `s`, at a place that its kind marks. -/
def Marked (s : List Char) (e : Fault) : Prop :=
  ∃ before, s = before ++ e.rest ∧ Marks e.kind before e.rest

/-! ### Readers of references -/

section Readers

variable {s brace cs : List Char} {e : Fault}

/-- Faults of many kinds are marked by the characters left. -/
theorem Marked.of_rest {kind : SyntaxError.Kind} {rest : List Char} (h : rest <:+ s)
    (hmarks : ∀ before, Marks kind before rest) : Marked s ⟨kind, rest⟩ := by
  obtain ⟨before, rfl⟩ := h
  exact ⟨before, rfl, hmarks before⟩

/-- Others are marked by the character before them. -/
theorem Marked.of_last {kind : SyntaxError.Kind} {c : Char} {rest : List Char} (h : c :: rest <:+ s)
    (hmarks : ∀ before, before.getLast? = some c → Marks kind before rest) :
    Marked s ⟨kind, rest⟩ := by
  obtain ⟨before, rfl⟩ := h
  exact ⟨before ++ [c], by simp, hmarks _ List.getLast?_concat⟩

theorem suffix_of_cons {c : Char} (h : c :: cs <:+ s) : cs <:+ s := (List.suffix_cons c cs).trans h

theorem suffix_of_append {before : List Char} (h : before ++ cs <:+ s) : cs <:+ s :=
  (List.suffix_append before cs).trans h

theorem checkAfterArguments_marked (hcs : cs <:+ s) (h : checkAfterArguments cs = .error e) :
    Marked s e := by
  cases cs with
  | nil => cases h
  | cons c cs =>
    rw [checkAfterArguments] at h
    repeat' split at h
    all_goals cases h
    · exact .of_rest hcs fun _ => congrArg some ‹c = ')'›
    · exact .of_rest hcs fun _ => congrArg some ‹c = '('›
    · exact .of_rest hcs fun _ => congrArg some ‹c = '{'›
    · exact .of_rest hcs fun _ => rfl

theorem readArguments_marked (hparen : '(' :: cs <:+ s)
    (h : readArguments ('(' :: cs) cs = .error e) : Marked s e := by
  unfold readArguments at h
  cases hspan : spanArguments ('(' :: cs) none cs with
  | error e' =>
    rw [hspan] at h
    cases h
    obtain rfl | ⟨before, rest, rfl, -, he⟩ := spanArguments_fault hspan
    · exact .of_rest hparen fun _ => rfl
    · have hrest : rest <:+ s := suffix_of_append (suffix_of_cons hparen)
      rcases he with ⟨rfl, hopen⟩ | ⟨rfl, @⟨quote, w, hquote, -⟩⟩
      · exact .of_rest hrest fun _ => hopen
      · exact .of_rest hrest fun _ => ⟨quote, hquote, rfl⟩
  | ok p =>
    obtain ⟨inner, rest⟩ := p
    rw [hspan] at h
    dsimp only at h
    cases hread : ArgumentList.read inner with
    | ok args =>
      rw [hread] at h
      cases h
    | error e' =>
      rw [hread] at h
      cases h
      obtain ⟨before, hparen⟩ := hparen
      obtain ⟨rfl, hclose⟩ := spanArguments_sound hspan
      obtain ⟨after, rfl⟩ := List.head?_eq_some_iff.mp hclose
      obtain ⟨u, rfl⟩ := ArgumentList.read_suffix hread
      exact ⟨before ++ '(' :: u, by simp [← hparen],
        before, u, e'.rest, after, rfl, rfl, spanArguments_closed hspan⟩

section Opened

variable (hbrace : brace <:+ s) (hopen : brace.head? = some '{')
include hbrace hopen

theorem readSymbol_marked (hcs : cs <:+ s) (h : readSymbol brace cs = .error e) : Marked s e := by
  fun_induction readSymbol brace cs with
  | case1 | case2 =>
    cases h
    exact .of_rest hbrace fun _ => hopen
  | case3 c cs ih => exact ih (suffix_of_cons (suffix_of_cons hcs)) (map_fault h)
  | case4 => cases h
  | case5 | case6 | case7 | case8 =>
    cases h
    exact .of_rest hcs fun _ => rfl
  | case9 c cs _ _ _ _ _ _ _ ih => exact ih (suffix_of_cons hcs) (map_fault h)

theorem readModifierName_marked (hcs : cs <:+ s) (h : readModifierName brace cs = .error e) :
    Marked s e := by
  fun_induction readModifierName brace cs with
  | case1 =>
    cases h
    exact .of_rest hbrace fun _ => hopen
  | case2 => cases h
  | case3 | case4 | case5 =>
    cases h
    exact .of_rest hcs fun _ => rfl
  | case6 c cs _ _ _ _ ih => exact ih (suffix_of_cons hcs) (map_fault h)

theorem readModifier_marked (hpoint : '.' :: cs <:+ s) (h : readModifier brace cs = .error e) :
    Marked s e := by
  have hcs := suffix_of_cons hpoint
  unfold readModifier at h
  cases hn : readModifierName brace cs with
  | error e' =>
    rw [hn] at h
    cases h
    exact readModifierName_marked hbrace hopen hcs hn
  | ok p =>
    obtain ⟨name, after⟩ := p
    obtain ⟨rfl, -⟩ := readModifierName_sound hn
    rw [hn] at h
    dsimp only at h
    split at h
    · -- there is no name between the point and what ends it
      rename_i hempty
      cases h
      rw [List.isEmpty_iff] at hempty
      subst hempty
      exact .of_last hpoint fun _ => id
    split at h
    · rename_i rest
      have hparen : '(' :: rest <:+ s := suffix_of_append hcs
      cases hargs : readArguments ('(' :: rest) rest with
      | error e' =>
        rw [hargs] at h
        cases h
        exact readArguments_marked hparen hargs
      | ok p =>
        obtain ⟨args, after⟩ := p
        obtain ⟨a, rfl, -⟩ := readArguments_sound hargs
        rw [hargs] at h
        dsimp only at h
        split at h
        · rename_i hcheck
          cases h
          have hafter : after <:+ s := suffix_of_cons (suffix_of_append (suffix_of_cons hparen))
          exact checkAfterArguments_marked hafter hcheck
        · cases h
    · cases h

theorem readModifiers_marked (hcs : cs <:+ s) (h : readModifiers brace cs = .error e) :
    Marked s e := by
  fun_induction readModifiers brace cs with
  | case1 tail e' hcall =>
    cases h
    exact readModifier_marked hbrace hopen hcs hcall
  | case2 tail call rest hcall _ ih =>
    obtain ⟨m, rfl, -⟩ := readModifier_sound hcall
    exact ih (suffix_of_append (suffix_of_cons hcs)) (map_fault h)
  | case3 => cases h

theorem readReference_marked {decorator : Bool} (hcs : cs <:+ s)
    (h : readReference brace decorator cs = .error e) : Marked s e := by
  unfold readReference at h
  cases hs : readSymbol brace cs with
  | error e' =>
    rw [hs] at h
    cases h
    exact readSymbol_marked hbrace hopen hcs hs
  | ok p =>
    obtain ⟨name, after⟩ := p
    obtain ⟨w, rfl, -⟩ := readSymbol_sound hs
    have hafter : after <:+ s := suffix_of_append hcs
    rw [hs] at h
    dsimp only at h
    cases hms : readModifiers brace after with
    | error e' =>
      rw [hms] at h
      cases h
      exact readModifiers_marked hbrace hopen hafter hms
    | ok p =>
      obtain ⟨calls, rest⟩ := p
      obtain ⟨m, rfl, -⟩ := readModifiers_sound hms
      have hrest : rest <:+ s := suffix_of_append hafter
      rw [hms] at h
      dsimp only at h
      split at h
      · split at h
        · split at h
          · cases h
          · -- a single brace closes the decorator
            cases h
            exact .of_last hrest fun _ => id
        · cases h
      · cases h
        exact .of_rest hbrace fun _ => hopen

end Opened

theorem readOpened_marked {tail : List Char} (hbrace : '{' :: tail <:+ s)
    (h : readOpened tail = .error e) : Marked s e := by
  have htail := suffix_of_cons hbrace
  unfold readOpened at h
  split at h
  · exact readReference_marked hbrace rfl (suffix_of_cons htail) h
  · exact readReference_marked hbrace rfl htail h

theorem readOpened_suffix {tail rest : List Char} {r : Reference} (htail : tail <:+ s)
    (h : readOpened tail = .ok (r, rest)) : rest <:+ s := by
  unfold readOpened at h
  split at h
  · obtain ⟨body, symbol, calls, rfl, -⟩ := readReference_sound h
    exact suffix_of_append (suffix_of_cons htail)
  · obtain ⟨body, symbol, calls, rfl, -⟩ := readReference_sound h
    exact suffix_of_append htail

/-! ### Readers of templates -/

theorem readDeclared_marked {tail : List Char} (hstarts : startsDeclaration tail = true)
    (hbrace : '{' :: tail <:+ s) (h : readDeclared ('{' :: tail) tail = .error e) : Marked s e := by
  obtain ⟨v, after, rfl, hv⟩ := startsDeclaration_split hstarts
  obtain ⟨htake, hdrop⟩ := takeWhile_name hv after
  unfold readDeclared at h
  dsimp only at h
  rw [htake, hdrop, List.tail_cons] at h
  split at h
  · cases h
    exact .of_rest hbrace fun _ => rfl
  · split at h
    · cases h
    · cases h
      exact .of_last (suffix_of_append (suffix_of_cons hbrace)) fun _ => id

theorem readPieces_marked {bound : Nat} {nested : Bool} {pieces : List Piece}
    {hcs : cs.length ≤ bound} (h : readPieces bound nested pieces cs hcs = .error e)
    (hs : cs <:+ s) : Marked s e := by
  fun_induction readPieces bound nested pieces cs hcs with
  | case1 =>
    cases h
    exact .of_rest hs fun _ => rfl
  | case2 | case3 => cases h
  | case4 =>
    cases h
    exact .of_rest hs fun _ => rfl
  | case5 bound nested pieces tail hcs hstarts e' hd =>
    cases h
    exact readDeclared_marked hstarts hs hd
  | case6 bound nested pieces tail hcs hstarts name value hd _ e' hvalue _ ih =>
    cases h
    obtain ⟨rfl, -⟩ := readDeclared_sound hstarts hd
    exact ih hvalue (suffix_of_cons (suffix_of_cons (suffix_of_append (suffix_of_cons hs))))
  | case7 =>
    rename_i bound nested pieces tail hcs hstarts name value hd _ inner left hleft hvalue
      source piece _ _ ih
    obtain ⟨rfl, -⟩ := readDeclared_sound hstarts hd
    obtain ⟨u, hsplit, -, -⟩ := readPieces_sound hvalue .empty
    have hleft : left <:+ value := hsplit ▸ List.suffix_append u left
    have hvalue := suffix_of_cons (suffix_of_cons (suffix_of_append (suffix_of_cons hs)))
    exact ih h ((List.tail_suffix left).trans (hleft.trans hvalue))
  | case8 bound nested pieces tail hcs hplain e' hr =>
    cases h
    exact readOpened_marked hs hr
  | case9 bound nested pieces tail hcs hplain r rest hr _ _ ih =>
    exact ih h (readOpened_suffix (suffix_of_cons hs) hr)
  | case10 bound nested pieces c tail hcs hclose hopen _ ih => exact ih h (suffix_of_cons hs)

end Readers

/-! ### Whole templates -/

theorem byteSize_eq (cs : List Char) : byteSize cs = (String.ofList cs).utf8ByteSize := by
  rw [String.utf8ByteSize_ofList]
  induction cs with
  | nil => rfl
  | cons c cs ih =>
    calc byteSize (c :: cs) = byteSize [c] + byteSize cs := byteSize_append [c] cs
      _ = c.utf8Size + byteSize cs := by rw [show byteSize [c] = c.utf8Size from Nat.zero_add _]
      _ = String.utf8Len (c :: cs) := by rw [ih, String.utf8Len_cons, Nat.add_comm]

/-- **Every fault points at its cause.** When a template cannot be read, the fault names the text that
was to be read and a place between two of its characters, counted in bytes, and what is written there
is what its kind says. -/
theorem fault_at_cause {text : String} {e : SyntaxError} (h : parse text = .error e) :
    e.text = text ∧ e.offset ≤ text.utf8ByteSize ∧ String.Pos.Raw.IsValid text ⟨e.offset⟩ ∧
      ∃ before after : String, text = before ++ after ∧ e.offset = before.utf8ByteSize ∧
        Marks e.kind before.toList after.toList := by
  unfold parse parseChars at h
  split at h
  · cases h
  · rename_i fault hread
    cases h
    obtain ⟨before, hsplit, hmarks⟩ := readPieces_marked hread List.suffix_rfl
    have htext : text = String.ofList before ++ String.ofList fault.rest := by
      rw [← String.ofList_append, ← hsplit, String.ofList_toList]
    have hoffset : (fault.locate text.toList).offset = (String.ofList before).utf8ByteSize := by
      show byteSize text.toList - byteSize fault.rest = _
      rw [hsplit, byteSize_append, Nat.add_sub_cancel, byteSize_eq]
    refine ⟨String.ofList_toList, ?_, ?_, _, _, htext, hoffset, ?_⟩
    · rw [hoffset, htext, String.utf8ByteSize_append]
      exact Nat.le_add_right _ _
    · exact String.Pos.Raw.isValid_iff_exists_append.mpr
        ⟨_, _, htext, congrArg String.Pos.Raw.mk hoffset⟩
    · rw [String.toList_ofList, String.toList_ofList]
      exact hmarks

/-- A declaration with a list of arguments in its value that lacks a comma. -/
def hoot : String := "\x7bkäuzchen= hu \x7bruf.times(2 3)\x7d\x7d"

/-- The fault lies in front of the second argument, behind 28 bytes. -/
theorem hoot_fault :
    parse hoot = .error ⟨.invalidArguments (.expectedComma '3'), 28, hoot⟩ ∧
      28 ≤ hoot.utf8ByteSize ∧ String.Pos.Raw.IsValid hoot ⟨28⟩ ∧
      ∃ before after : String, hoot = before ++ after ∧ 28 = before.utf8ByteSize ∧
        InsideArguments before.toList after.toList := by
  have h : parse hoot = .error ⟨.invalidArguments (.expectedComma '3'), 28, hoot⟩ := by
    with_unfolding_all rfl
  exact ⟨h, (fault_at_cause h).2⟩

end Template

end Fabula
