import Fabula.Proofs.ReferenceReading

/-!
# Fabula.Proofs.TemplateReading

**Templates are read as the grammar has it**: a text can be read exactly if it derives a template, and
that is the one that is read (`Template.parse_iff_derives`).

The reader gathers pieces. What it has gathered at any point makes up a template of what it has taken
so far, and the grammar adds to such a template what the reader adds to the pieces (`ofPieces_text` and
the lemmas after it).
-/

namespace Fabula.Template

/-! ### Pieces -/

theorem referencesOf_append (ps qs : List Piece) :
    referencesOf (ps ++ qs) = referencesOf ps ++ referencesOf qs := by
  induction ps with
  | nil => rfl
  | cons p ps ih =>
    cases p with
    | text c => exact ih
    | reference r => exact congrArg (r :: ·) ih
    | declaration name value => exact ih

theorem declarationsOf_append (table : Table Template) (ps qs : List Piece) :
    declarationsOf table (ps ++ qs) = declarationsOf (declarationsOf table ps) qs := by
  induction ps generalizing table with
  | nil => rfl
  | cons p ps ih =>
    cases p with
    | text c => exact ih table
    | reference r => exact ih table
    | declaration name value => exact ih (table.put name value)

theorem patternOf_append (next : Nat) (ps qs : List Piece) :
    patternOf next (ps ++ qs) = patternOf next ps ++ patternOf (next + (referencesOf ps).length) qs := by
  induction ps generalizing next with
  | nil => rfl
  | cons p ps ih =>
    cases p with
    | text c => exact congrArg (c :: ·) (ih next)
    | reference r =>
      have hnext : next + (referencesOf (.reference r :: ps)).length =
          next + 1 + (referencesOf ps).length := by
        show next + ((referencesOf ps).length + 1) = _
        omega
      rw [List.cons_append, patternOf, patternOf, ih (next + 1), hnext]
      simp
    | declaration name value => exact ih next

theorem toList_mark (i : Nat) : (mark i).toList = '{' :: (Nat.toDigits 10 i ++ ['}']) := by
  unfold mark
  rw [String.toList_append, String.toList_append, Nat.toString_eq_repr, Nat.toList_repr]
  rfl

theorem ofPieces_text (s s' : List Char) (ps : List Piece) (c : Char) :
    ofPieces s' (ps ++ [.text c]) =
      { ofPieces s ps with
        source := String.ofList s'
        pattern := (ofPieces s ps).pattern.push c } := by
  have hpattern : String.ofList (patternOf 0 ps ++ [c]) = (String.ofList (patternOf 0 ps)).push c := by
    rw [← String.toList_inj, String.toList_push, String.toList_ofList, String.toList_ofList]
  unfold ofPieces
  rw [referencesOf_append, declarationsOf_append, patternOf_append]
  dsimp only [patternOf, referencesOf, declarationsOf]
  rw [hpattern, List.append_nil]

theorem ofPieces_reference (s s' : List Char) (ps : List Piece) (r : Reference) :
    ofPieces s' (ps ++ [.reference r]) = (ofPieces s ps).withReference s' r := by
  have hpattern : String.ofList (patternOf 0 ps ++
        '{' :: (Nat.toDigits 10 (0 + (referencesOf ps).length) ++ ['}'])) =
      String.ofList (patternOf 0 ps) ++ mark (referencesOf ps).length := by
    rw [← String.toList_inj, String.toList_append, toList_mark, String.toList_ofList,
      String.toList_ofList, Nat.zero_add]
  unfold ofPieces withReference
  rw [referencesOf_append, declarationsOf_append, patternOf_append]
  dsimp only [patternOf, referencesOf, declarationsOf]
  rw [hpattern]

theorem ofPieces_declaration (s s' : List Char) (ps : List Piece) (name : String) (value : Template) :
    ofPieces s' (ps ++ [.declaration name value]) =
      { ofPieces s ps with
        source := String.ofList s'
        declarations := Table.put (ofPieces s ps).declarations name value } := by
  unfold ofPieces
  rw [referencesOf_append, declarationsOf_append, patternOf_append]
  dsimp only [patternOf, referencesOf, declarationsOf]
  rw [List.append_nil, List.append_nil]

/-! ### Declarations and references are told apart -/

theorem startsDeclaration_iff (cs : List Char) :
    startsDeclaration cs = true ↔ cs.find? isDelimiter = some '=' := by
  induction cs with
  | nil => constructor <;> intro h <;> cases h
  | cons c cs ih =>
    unfold startsDeclaration
    rw [List.find?_cons]
    split
    · rename_i hc
      subst hc
      exact ⟨fun _ => rfl, fun _ => rfl⟩
    · rename_i hequals
      split
      · rename_i hc
        have hc : isDelimiter c = true := by
          unfold isDelimiter
          simp only [hequals, decide_false, Bool.false_or]
          exact hc
        rw [hc]
        constructor
        · intro h
          cases h
        · intro h
          exact absurd (Option.some.inj h) hequals
      · rename_i hc
        have hc : isDelimiter c = false := by
          unfold isDelimiter
          simp only [hequals, decide_false, Bool.false_or]
          exact Bool.eq_false_iff.mpr hc
        rw [hc]
        exact ih

/-- Only what stands in the reference matters for what follows its brace. -/
theorem isPlain_iff (body rest : List Char) :
    IsPlain (body ++ ['}']) ↔
      (body ++ '}' :: rest).head? ≠ some '{' ∧ startsDeclaration (body ++ '}' :: rest) = false := by
  have hhead : (body ++ '}' :: rest).head? = (body ++ ['}']).head? := by
    cases body <;> rfl
  have hfind : (body ++ '}' :: rest).find? isDelimiter = (body ++ ['}']).find? isDelimiter := by
    rw [List.find?_append, List.find?_append]
    rfl
  rw [hhead, ← Bool.not_eq_true, startsDeclaration_iff, hfind]
  exact ⟨fun h => ⟨h.single, h.undeclared⟩, fun h => ⟨h.1, h.2⟩⟩

section Declared

variable {v : List Char} (hv : ∀ c ∈ v, isDelimiter c = false)
include hv

theorem startsDeclaration_of_name (after : List Char) :
    startsDeclaration (v ++ '=' :: after) = true := by
  have hnone : v.find? isDelimiter = none :=
    List.find?_eq_none.mpr fun c hc => Bool.eq_false_iff.mp (hv c hc)
  rw [startsDeclaration_iff, List.find?_append, hnone]
  rfl

theorem takeWhile_name (after : List Char) :
    (v ++ '=' :: after).takeWhile (fun c => decide (c ≠ '=')) = v ∧
      (v ++ '=' :: after).dropWhile (fun c => decide (c ≠ '=')) = '=' :: after := by
  have hequals : ∀ c ∈ v, decide (c ≠ '=') = true := by
    intro c hc
    refine decide_eq_true ?_
    rintro rfl
    exact absurd (hv _ hc) (by decide)
  rw [List.takeWhile_append_of_pos hequals, List.dropWhile_append_of_pos hequals]
  exact ⟨List.append_nil v, rfl⟩

end Declared

theorem startsDeclaration_split {cs : List Char} (h : startsDeclaration cs = true) :
    ∃ v after, cs = v ++ '=' :: after ∧ ∀ c ∈ v, isDelimiter c = false := by
  obtain ⟨-, v, after, rfl, hv⟩ := List.find?_eq_some_iff_append.mp ((startsDeclaration_iff cs).mp h)
  exact ⟨v, after, rfl, fun c hc => by simpa using hv c hc⟩

theorem readDeclared_sound {brace cs name rest : List Char} (hd : startsDeclaration cs = true)
    (h : readDeclared brace cs = .ok (name, rest)) :
    cs = name ++ '=' :: ' ' :: rest ∧ IsVariableName name := by
  obtain ⟨v, after, rfl, hv⟩ := startsDeclaration_split hd
  obtain ⟨htake, hdrop⟩ := takeWhile_name hv after
  unfold readDeclared at h
  dsimp only at h
  rw [htake, hdrop, List.tail_cons] at h
  split at h
  · cases h
  · rename_i hempty
    split at h
    · cases h
      exact ⟨rfl, fun hnil => hempty (by rw [hnil]; rfl), hv⟩
    · cases h

theorem readDeclared_complete {v : List Char} (hv : IsVariableName v) (brace rest : List Char) :
    readDeclared brace (v ++ '=' :: ' ' :: rest) = .ok (v, rest) := by
  obtain ⟨htake, hdrop⟩ := takeWhile_name hv.plain (' ' :: rest)
  have hname : ¬ v.isEmpty = true := by
    rw [List.isEmpty_iff]
    exact hv.nonempty
  unfold readDeclared
  dsimp only
  rw [htake, hdrop, List.tail_cons]
  exact if_neg hname

/-! ### References from their first brace on -/

theorem readOpened_double (after : List Char) :
    readOpened ('{' :: after) = readReference ('{' :: '{' :: after) true after := rfl

theorem readOpened_single {tail : List Char} (h : tail.head? ≠ some '{') :
    readOpened tail = readReference ('{' :: tail) false tail := by
  unfold readOpened
  split
  · exact absurd rfl h
  · rfl

/-- A reference that was read adds to what is derived. -/
theorem Derives.opened {s tail rest : List Char} {pieces : List Piece} {r : Reference}
    (hs : Derives s (ofPieces s pieces.reverse)) (hplain : startsDeclaration tail = false)
    (h : readOpened tail = .ok (r, rest)) :
    ∃ u, '{' :: tail = u ++ rest ∧
      Derives (s ++ u) (ofPieces (s ++ u) (Piece.reference r :: pieces).reverse) := by
  rw [List.reverse_cons]
  by_cases hhead : tail.head? = some '{'
  · obtain ⟨after, rfl⟩ := List.head?_eq_some_iff.mp hhead
    rw [readOpened_double] at h
    obtain ⟨body, symbol, calls, rfl, hbody, rfl⟩ := readReference_sound h
    have hstep := hs.decorator hbody
    rw [← ofPieces_reference] at hstep
    refine ⟨'{' :: '{' :: body ++ ['}', '}'], by simp [closing], ?_⟩
    simpa using hstep
  · rw [readOpened_single hhead] at h
    obtain ⟨body, symbol, calls, htail, hbody, rfl⟩ := readReference_sound h
    have htail : tail = body ++ '}' :: rest := by simpa [closing] using htail
    subst htail
    have hstep := hs.reference hbody ((isPlain_iff body rest).mpr ⟨hhead, hplain⟩)
    rw [← ofPieces_reference] at hstep
    refine ⟨'{' :: body ++ ['}'], by simp, ?_⟩
    simpa using hstep

/-- So does a declaration, of which the value ends in front of a brace. -/
theorem Derives.declared {s tail name value u rest : List Char} {pieces inner : List Piece}
    (hs : Derives s (ofPieces s pieces.reverse)) (hstarts : startsDeclaration tail = true)
    (hd : readDeclared ('{' :: tail) tail = .ok (name, value)) (hvalue : value = u ++ rest)
    (hend : rest.head? = some '}') (hu : Derives u (ofPieces u inner)) :
    ∃ w, '{' :: tail = w ++ rest.tail ∧
      Derives (s ++ w) (ofPieces (s ++ w)
        (Piece.declaration (String.ofList name)
          (ofPieces (value.take (value.length - rest.length)) inner) :: pieces).reverse) := by
  obtain ⟨rfl, hname⟩ := readDeclared_sound hstarts hd
  obtain ⟨after, rfl⟩ := List.head?_eq_some_iff.mp hend
  have htake : value.take (value.length - ('}' :: after).length) = u := by
    rw [hvalue, List.length_append, Nat.add_sub_cancel, List.take_left]
  have hstep := hs.declaration hname hu
  rw [← ofPieces_declaration] at hstep
  rw [htake, List.reverse_cons]
  refine ⟨'{' :: name ++ '=' :: ' ' :: u ++ ['}'], by simp [hvalue], ?_⟩
  simpa using hstep

/-! ### Steps of the reader -/

section Steps

variable {bound : Nat} {nested : Bool} {pieces : List Piece} {tail rest : List Char}

theorem readPieces_end (h : ([] : List Char).length ≤ bound) :
    readPieces bound false pieces [] h = .ok (pieces.reverse, ⟨[], h⟩) := by
  rw [readPieces]
  rfl

theorem readPieces_close (h : ('}' :: tail).length ≤ bound) :
    readPieces bound true pieces ('}' :: tail) h = .ok (pieces.reverse, ⟨'}' :: tail, h⟩) := by
  rw [readPieces]
  rfl

theorem readPieces_text {c : Char} (hopen : c ≠ '{') (hclose : c ≠ '}')
    (h : (c :: tail).length ≤ bound) :
    ∃ h', readPieces bound nested pieces (c :: tail) h =
      readPieces bound nested (.text c :: pieces) tail h' := by
  refine ⟨Nat.le_of_succ_le h, ?_⟩
  rw [readPieces]
  · exact hclose
  · exact hopen

theorem readPieces_reference {r : Reference} (hplain : startsDeclaration tail = false)
    (hr : readOpened tail = .ok (r, rest)) (h : ('{' :: tail).length ≤ bound) :
    ∃ h', readPieces bound nested pieces ('{' :: tail) h =
      readPieces bound nested (.reference r :: pieces) rest h' := by
  have hlength := readOpened_length hr
  refine ⟨by simp only [List.length_cons] at h; omega, ?_⟩
  rw [readPieces, if_neg (by rw [hplain]; exact Bool.false_ne_true)]
  split
  · rename_i he
    rw [hr] at he
    cases he
  · rename_i he
    rw [hr] at he
    cases he
    rfl

theorem readPieces_declaration {name value : List Char} {inner : List Piece}
    {left : { rest : List Char // rest.length ≤ value.length }}
    (hstarts : startsDeclaration tail = true)
    (hd : readDeclared ('{' :: tail) tail = .ok (name, value))
    (hvalue : readPieces value.length true [] value (Nat.le_refl _) = .ok (inner, left))
    (h : ('{' :: tail).length ≤ bound) :
    ∃ h', readPieces bound nested pieces ('{' :: tail) h =
      readPieces bound nested
        (.declaration (String.ofList name)
          (ofPieces (value.take (value.length - left.val.length)) inner) :: pieces)
        left.val.tail h' := by
  have hlength := readDeclared_length hd
  have hleft := left.property
  refine ⟨by simp only [List.length_cons, List.length_tail] at *; omega, ?_⟩
  rw [readPieces, if_pos hstarts]
  split
  · rename_i he
    rw [hd] at he
    cases he
  · rename_i he
    rw [hd] at he
    cases he
    dsimp only
    rw [hvalue]

end Steps

/-! ### Whole texts -/

/-- What the reader returns is a template of what it has taken. -/
theorem readPieces_sound {bound : Nat} {nested : Bool} {pieces ps : List Piece} {cs : List Char}
    {hcs : cs.length ≤ bound} {left : { rest : List Char // rest.length ≤ bound }}
    (h : readPieces bound nested pieces cs hcs = .ok (ps, left)) {s : List Char}
    (hs : Derives s (ofPieces s pieces.reverse)) :
    ∃ u, cs = u ++ left.val ∧ Derives (s ++ u) (ofPieces (s ++ u) ps) ∧
      left.val.head? = if nested then some '}' else none := by
  fun_induction readPieces bound nested pieces cs hcs generalizing s ps with
  | case1 => cases h
  | case2 bound nested pieces hcs hnested =>
    -- the text ends
    cases h
    rw [Bool.not_eq_true] at hnested
    subst hnested
    exact ⟨[], rfl, by rwa [List.append_nil], rfl⟩
  | case3 bound pieces tail hcs =>
    -- the value of a declaration ends
    cases h
    exact ⟨[], rfl, by rwa [List.append_nil], rfl⟩
  | case4 => cases h
  | case5 => cases h
  | case6 => cases h
  | case7 =>
    rename_i bound nested pieces tail hcs hstarts name value hd _ inner rest hrest hvalue
      source piece _ ihvalue ih
    -- the value is read from its own beginning, and the brace behind it is dropped
    obtain ⟨v, hsplit, hv, hbrace⟩ := ihvalue hvalue .empty
    obtain ⟨w, htail, hw⟩ := hs.declared hstarts hd hsplit hbrace hv
    obtain ⟨u, hrest', hu, hend⟩ := ih h hw
    refine ⟨w ++ u, by rw [htail, hrest', List.append_assoc], ?_, hend⟩
    rwa [← List.append_assoc]
  | case8 => cases h
  | case9 bound nested pieces tail hcs hplain r rest hr _ _ ih =>
    obtain ⟨w, htail, hw⟩ := hs.opened (Bool.eq_false_iff.mpr hplain) hr
    obtain ⟨u, rfl, hu, hend⟩ := ih h hw
    refine ⟨w ++ u, by rw [htail, List.append_assoc], ?_, hend⟩
    rwa [← List.append_assoc]
  | case10 bound nested pieces c tail hcs hclose hopen _ ih =>
    have hstep := hs.text (c := c) hopen hclose
    rw [← ofPieces_text s, ← List.reverse_cons] at hstep
    obtain ⟨u, rfl, hu, hend⟩ := ih h hstep
    refine ⟨c :: u, rfl, ?_, hend⟩
    simpa using hu

/-- What belongs to the grammar is taken, whatever follows. -/
theorem Derives.readPieces_eq {s : List Char} {t : Template} (h : Derives s t) :
    ∃ pieces, t = ofPieces s pieces.reverse ∧
      ∀ bound nested rest cs (hcs : cs.length ≤ bound), cs = s ++ rest → ∃ hrest,
        readPieces bound nested [] cs hcs = readPieces bound nested pieces rest hrest := by
  induction h with
  | empty =>
    refine ⟨[], rfl, fun _ _ _ _ hcs heq => ?_⟩
    subst heq
    exact ⟨hcs, rfl⟩
  | @text s t c _ hopen hclose ih =>
    obtain ⟨pieces, rfl, hread⟩ := ih
    refine ⟨.text c :: pieces, ?_, fun bound nested rest cs hcs heq => ?_⟩
    · rw [List.reverse_cons, ofPieces_text s]
    · obtain ⟨h₁, hbefore⟩ := hread bound nested (c :: rest) cs hcs (by simp [heq])
      obtain ⟨h₂, hstep⟩ := readPieces_text hopen hclose h₁
      exact ⟨h₂, hbefore.trans hstep⟩
  | @reference s body t symbol calls _ hr hplain ih =>
    obtain ⟨pieces, rfl, hread⟩ := ih
    refine ⟨.reference ⟨symbol, calls, false⟩ :: pieces, ?_, fun bound nested rest cs hcs heq => ?_⟩
    · rw [List.reverse_cons, ofPieces_reference s]
    · obtain ⟨hsingle, hundeclared⟩ := (isPlain_iff body rest).mp hplain
      have hbody : body ++ closing false ++ rest = body ++ '}' :: rest := by simp [closing]
      obtain ⟨h₁, hbefore⟩ := hread bound nested ('{' :: (body ++ '}' :: rest)) cs hcs
        (by simp [heq])
      obtain ⟨h₂, hstep⟩ := readPieces_reference hundeclared
        ((readOpened_single hsingle).trans (hbody ▸ readReference_complete hr _ false rest)) h₁
      exact ⟨h₂, hbefore.trans hstep⟩
  | @decorator s body t symbol calls _ hr ih =>
    obtain ⟨pieces, rfl, hread⟩ := ih
    refine ⟨.reference ⟨symbol, calls, true⟩ :: pieces, ?_, fun bound nested rest cs hcs heq => ?_⟩
    · rw [List.reverse_cons, ofPieces_reference s]
    · obtain ⟨h₁, hbefore⟩ := hread bound nested
        ('{' :: '{' :: (body ++ closing true ++ rest)) cs hcs (by simp [heq, closing])
      obtain ⟨h₂, hstep⟩ := readPieces_reference rfl
        ((readOpened_double _).trans (readReference_complete hr _ true rest)) h₁
      exact ⟨h₂, hbefore.trans hstep⟩
  | @declaration s v u t value _ hv _ ih ihvalue =>
    obtain ⟨pieces, rfl, hread⟩ := ih
    obtain ⟨inner, rfl, hreadvalue⟩ := ihvalue
    refine ⟨.declaration (String.ofList v) (ofPieces u inner.reverse) :: pieces, ?_,
      fun bound nested rest cs hcs heq => ?_⟩
    · rw [List.reverse_cons, ofPieces_declaration s]
    · obtain ⟨h₁, hbefore⟩ := hread bound nested
        ('{' :: (v ++ '=' :: ' ' :: (u ++ '}' :: rest))) cs hcs (by simp [heq])
      -- the value is read with all that follows it still behind it
      obtain ⟨h₂, hvalue⟩ := hreadvalue _ true ('}' :: rest) _
        (Nat.le_refl (u ++ '}' :: rest).length) rfl
      rw [readPieces_close] at hvalue
      obtain ⟨h₃, hstep⟩ := readPieces_declaration (startsDeclaration_of_name hv.plain _)
        (readDeclared_complete hv _ _) hvalue h₁
      have htake : (u ++ '}' :: rest).take ((u ++ '}' :: rest).length - ('}' :: rest).length) = u := by
        rw [List.length_append, Nat.add_sub_cancel, List.take_left]
      rw [htake] at hstep
      exact ⟨h₃, hbefore.trans hstep⟩

/-- **The reader accepts exactly the grammar.** A text is read, and as a certain template, if and only
if it derives that template. -/
theorem parse_iff_derives (text : String) (t : Template) :
    parse text = .ok t ↔ Derives text.toList t := by
  unfold parse parseChars
  constructor
  · intro h
    split at h
    · rename_i pieces left hread
      cases h
      obtain ⟨u, hsplit, hu, hend⟩ := readPieces_sound hread .empty
      have hleft : left.val = [] := List.head?_eq_none_iff.mp hend
      rw [hleft, List.append_nil] at hsplit
      rw [hsplit]
      exact hu
    · cases h
  · intro h
    obtain ⟨pieces, rfl, hread⟩ := h.readPieces_eq
    obtain ⟨hrest, hread⟩ := hread text.toList.length false [] text.toList (Nat.le_refl _)
      (List.append_nil _).symm
    rw [readPieces_end] at hread
    rw [hread]

end Fabula.Template
