import Fabula.Proofs.RonReading

/-!
# Fabula.Proofs.CompactReading

**What is written on one line is read back** (`read?_of_write?`). A reader goes one step deeper at every
bracket and one more at every item in it, just as the writer does, and it has no more steps than the writer.
How many a value takes is told from the value alone (`Value.steps`): nothing has to be known of its text, or
of what stands around it.

A reader with any number of steps is considered on the way. So there is one statement for what that
number allows and for what it forbids (`ReadsIf`): the value is read from its text if the steps suffice,
and nothing is read if they do not. There is no third case, in which something else were read. It goes
through the items of a bracket (`readItems_joined`), of which a single one that is too deep is enough for
nothing to be read, and then through values (`Storable.readsCompact`).
-/

namespace Fabula.Ron

/-! ### How deep values are -/

namespace Value

theorem stepsAll_le {vs : List Value} {n : Nat} :
    steps.stepsAll vs ≤ n ↔ ∀ v ∈ vs, v.steps + 1 ≤ n := by
  induction vs with
  | nil => simp [steps.stepsAll]
  | cons v vs ih => rw [steps.stepsAll, Nat.max_le, ih, List.forall_mem_cons]

theorem stepsEntries_le {es : List (Value × Value)} {n : Nat} :
    steps.stepsEntries es ≤ n ↔ ∀ e ∈ es, e.1.steps + 1 ≤ n ∧ e.2.steps + 1 ≤ n := by
  induction es with
  | nil => simp [steps.stepsEntries]
  | cons e es ih => rw [steps.stepsEntries, Nat.max_le, Nat.max_le, ih, List.forall_mem_cons]

theorem stepsFields_le {fs : List (String × Value)} {n : Nat} :
    steps.stepsFields fs ≤ n ↔ ∀ f ∈ fs, f.2.steps + 1 ≤ n := by
  induction fs with
  | nil => simp [steps.stepsFields]
  | cons f fs ih => rw [steps.stepsFields, Nat.max_le, ih, List.forall_mem_cons]

theorem compactAll_eq (vs : List Value) : compact.compactAll vs = vs.map compact := by
  induction vs with
  | nil => rfl
  | cons v vs ih => rw [compact.compactAll, ih, List.map_cons]

theorem compactEntries_eq (es : List (Value × Value)) :
    compact.compactEntries es = es.map fun e => e.1.compact ++ ":" ++ e.2.compact := by
  induction es with
  | nil => rfl
  | cons e es ih => rw [compact.compactEntries, ih, List.map_cons]

theorem compactFields_eq (fs : List (String × Value)) :
    compact.compactFields fs = fs.map fun f => f.1 ++ ":" ++ f.2.compact := by
  induction fs with
  | nil => rfl
  | cons f fs ih => rw [compact.compactFields, ih, List.map_cons]

theorem steps_record (name : Option String) (f : String × Value) (fields : List (String × Value)) :
    (record name (f :: fields)).steps = steps.stepsFields (f :: fields) + 1 := by
  rw [steps]
  simp

end Value

/-! ### Items behind one another -/

section Items

variable {α : Type} {item : List Char → Option (α × List Char)} {close c : Char}
variable {items : List α} {a : α} {more : Nat} {cs tail rest after : List Char}

/-- An item with the closing bracket after it is the last one. -/
theorem readItems_last (hskip : skip cs = some (c :: tail)) (hc : c ≠ close)
    (hitem : item (c :: tail) = some (a, rest)) (hend : skip rest = some (close :: after)) :
    readItems item close items (more + 1) cs = some ((a :: items).reverse, after) := by
  simp only [readItems, hskip, if_neg hc, hitem, hend, if_true]

/-- If an item cannot be read, none are. -/
theorem readItems_stuck (hskip : skip cs = some (c :: tail)) (hc : c ≠ close)
    (hitem : item (c :: tail) = none) : readItems item close items (more + 1) cs = none := by
  simp only [readItems, hskip, if_neg hc, hitem]

end Items

/-- Texts with commas between them, up to a closing bracket. -/
def joined (texts : List (List Char)) (close : Char) (rest : List Char) : List Char :=
  [','].intercalate texts ++ close :: rest

/-- What stands behind the first text: a comma and the others, or the closing bracket. -/
theorem joined_cons (text : List Char) (texts : List (List Char)) (close : Char) (rest : List Char) :
    joined (text :: texts) close rest =
      text ++ if texts.isEmpty then close :: rest else ',' :: joined texts close rest := by
  cases texts with
  | nil => simp [joined]
  | cons other texts => simp [joined, List.intercalate_cons_cons]

/-- Items with commas between them are read, if each of them can be. -/
theorem readItems_joined {α : Type} {p : α → Prop} [DecidablePred p] {size : Nat}
    {item : List Char → Option (α × List Char)} {text : α → List Char} {close : Char}
    (hclose : close ∈ enders) (hsolid : Solid close) (hcomma : ',' ≠ close) {as : List α}
    (hitems : ∀ a ∈ as, ReadsIf (p a) size item (text a) a) {rest : List Char} {items : List α}
    {more : Nat} (hmore : (joined (as.map text) close rest).length ≤ more) (hsize : more ≤ size) :
    readItems item close items more (joined (as.map text) close rest) =
      if ∀ a ∈ as, p a then some (items.reverse ++ as, rest) else none := by
  induction as generalizing items more with
  | nil =>
    cases more with
    | zero => simp [joined] at hmore
    | succ more => simpa [joined] using readItems_close (skip_solid hsolid rest)
  | cons a as ih =>
    have ⟨⟨⟨c, tail, htext, hopening⟩, ha⟩, has⟩ := List.forall_mem_cons.mp hitems
    rw [List.map_cons, joined_cons, List.isEmpty_map] at hmore ⊢
    -- what stands behind the item ends it
    have hends : Ends (if as.isEmpty then close :: rest else ',' :: joined (as.map text) close rest) := by
      split
      · exact .cons hclose _
      · exact .cons (by decide) _
    have hread := ha _ hends (Nat.le_trans hmore hsize)
    have hne : c ≠ close := by
      rintro rfl
      exact hopening.2.1 hclose
    rw [htext, List.cons_append] at hmore hread ⊢
    have hskip := skip_solid hopening.1
    cases more with
    | zero => cases hmore
    | succ more =>
      by_cases hp : p a
      · rw [if_pos hp] at hread
        cases as with
        | nil =>
          rw [List.isEmpty_nil, if_pos rfl] at hread ⊢
          rw [readItems_last (hskip _) hne hread (skip_solid hsolid _)]
          simp [hp]
        | cons b as =>
          rw [List.isEmpty_cons, if_neg Bool.false_ne_true] at hread hmore ⊢
          have hless : (joined ((b :: as).map text) close rest).length ≤ more := by
            simp only [List.length_cons, List.length_append] at hmore
            omega
          rw [readItems_comma (hskip _) hne hread (skip_solid (by decide) _) hcomma,
            ih has hless (Nat.le_of_succ_le hsize)]
          simp [hp]
      · rw [if_neg hp] at hread
        rw [readItems_stuck (hskip _) hne hread,
          if_neg fun hall => hp (hall a List.mem_cons_self)]

/-! ### Values -/

/-- The text of a value on one line is read back up to the depth limit, whatever the limit is. -/
def ReadsCompact (scope : Scope) (v : Value) : Prop :=
  ∀ n, ReadsIf (v.steps ≤ n) scope.size (readValue scope n) v.compact.toList v

/-- A reader of items is one step behind the reader that has opened their bracket with so many steps
left. -/
def StepBehind (scope : Scope) (n : Nat) (item : List Char → Option (Value × List Char)) : Prop :=
  ∀ {v : Value}, ReadsCompact scope v → ReadsIf (v.steps + 1 ≤ n) scope.size item v.compact.toList v

theorem readValue_succ (scope : Scope) (n : Nat) :
    ∃ item payload, readValue scope (n + 1) = readForm scope (some item) payload ∧
      StepBehind scope n item := by
  cases n with
  | zero => exact ⟨_, _, rfl, fun h => ⟨(h 0).1, fun rest _ _ => by simp⟩⟩
  | succ n => exact ⟨_, _, rfl, fun h => (h n).congr Nat.succ_le_succ_iff.symm⟩

section Leaves

variable {scope : Scope}

theorem readsCompact_leaf {v : Value} (hsteps : v.steps = 0)
    (hopening : ∃ c tail, v.compact.toList = c :: tail ∧ Opening c)
    (hread : ∀ item payload rest, Ends rest →
      readForm scope item payload (v.compact.toList ++ rest) = some (v, rest)) :
    ReadsCompact scope v := by
  intro n
  obtain ⟨item, payload, hform⟩ := readValue_eq scope n
  refine ⟨hopening, fun rest hrest _ => ?_⟩
  rw [hform, hread item payload rest hrest, if_pos (hsteps ▸ Nat.zero_le n)]

theorem readsCompact_flag (b : Bool) : ReadsCompact scope (.flag b) := by
  refine readsCompact_leaf rfl ?_ fun _ _ rest hrest => readForm_flag b hrest
  cases b with
  | false => exact ⟨'f', ['a', 'l', 's', 'e'], by simp [Value.compact, Value.leafText], by decide⟩
  | true => exact ⟨'t', ['r', 'u', 'e'], by simp [Value.compact, Value.leafText], by decide⟩

theorem readsCompact_number {raw : String} (h : NumberReads raw) : ReadsCompact scope (.number raw) :=
  readsCompact_leaf rfl h.1 fun item payload rest hrest => h.2 scope item payload rest hrest

theorem readsCompact_text (s : String) : ReadsCompact scope (.text s) :=
  readsCompact_leaf rfl (opening_textLiteral s) fun _ _ rest _ => readForm_text s rest

theorem readsCompact_emptyRecord : ReadsCompact scope (.record none []) :=
  readsCompact_leaf rfl ⟨'(', [')'], by simp [Value.compact, Value.compact.compactFields], by decide⟩
    fun item _ rest _ => by
      simpa [Value.compact, Value.compact.compactFields] using readForm_emptyRecord item

end Leaves

section Brackets

variable {scope : Scope}

/-- The text of a value between brackets, in front of what follows it. -/
theorem toList_enclosed (opening close : Char) (texts : List String) (rest : List Char) :
    (String.singleton opening ++ ",".intercalate texts ++ String.singleton close).toList ++ rest =
      opening :: joined (texts.map String.toList) close rest := by
  simp [joined, String.toList_intercalate]

/-- What is read as parts between brackets is read up to the depth limit, if each part is: `text` is how a
part is written, `part` how it is read, and `cost` the steps that it takes from the bracket on. -/
theorem readsCompact_enclosed {α : Type} {as : List α} (opening close : Char) (text : α → List Char)
    (part : (List Char → Option (Value × List Char)) → List Char → Option (α × List Char))
    (cost : α → Nat) (build : List α → Value)
    (hmarks : Opening opening ∧ close ∈ enders ∧ Solid close ∧ ',' ≠ close)
    (htext : ∀ rest, (build as).compact.toList ++ rest = opening :: joined (as.map text) close rest)
    (hform : ∀ item payload rest,
      readForm scope item payload (opening :: joined (as.map text) close rest) = item.bind fun item =>
        (readItems (part item) close [] scope.size (joined (as.map text) close rest)).map
          fun (as, rest) => (build as, rest))
    (hpart : ∀ n item, StepBehind scope n item →
      ∀ a ∈ as, ReadsIf (cost a ≤ n) scope.size (part item) (text a) a)
    (hsteps : ∀ n, (build as).steps ≤ n ↔ n ≠ 0 ∧ ∀ a ∈ as, cost a ≤ n - 1) :
    ReadsCompact scope (build as) := by
  obtain ⟨hopening, hclose, hsolid, hcomma⟩ := hmarks
  intro n
  refine ⟨⟨opening, _, by simpa using htext [], hopening⟩, fun rest hrest hsize => ?_⟩
  rw [htext] at hsize ⊢
  cases n with
  | zero =>
    have hnone : readValue scope 0 (opening :: joined (as.map text) close rest) = none :=
      hform none _ rest
    rw [hnone, if_neg fun h => ((hsteps 0).mp h).1 rfl]
  | succ n =>
    obtain ⟨item, payload, hvalue, hitem⟩ := readValue_succ scope n
    have hitems : readItems (part item) close [] scope.size (joined (as.map text) close rest) =
        if ∀ a ∈ as, cost a ≤ n then some (as, rest) else none :=
      readItems_joined hclose hsolid hcomma (hpart n item hitem) (Nat.le_of_succ_le hsize)
        (Nat.le_refl _)
    have henough : (build as).steps ≤ n + 1 ↔ ∀ a ∈ as, cost a ≤ n := by simp [hsteps]
    simp only [hvalue, hform, Option.bind_some, hitems, henough]
    split <;> rfl

theorem succ_le_iff {m n : Nat} : m + 1 ≤ n ↔ n ≠ 0 ∧ m ≤ n - 1 := by
  omega

theorem readsCompact_list {items : List Value} (h : ∀ v ∈ items, ReadsCompact scope v) :
    ReadsCompact scope (.list items) := by
  refine readsCompact_enclosed '[' ']' (·.compact.toList) id (·.steps + 1) Value.list (by decide)
    (fun rest => ?_) (fun item payload rest => readForm_bracket item)
    (fun n item hitem v hv => hitem (h v hv)) fun n => ?_
  · rw [Value.compact, Value.compactAll_eq]
    refine (toList_enclosed '[' ']' _ rest).trans ?_
    rw [List.map_map]
    rfl
  · rw [Value.steps, succ_le_iff, Value.stepsAll_le]

/-- Nothing stands between a colon and the value behind it. -/
theorem no_gap : ∀ c ∈ ([] : List Char), isSpace c = true := nofun

theorem readsCompact_map {entries : List (Value × Value)}
    (hkeys : ∀ e ∈ entries, ReadsCompact scope e.1)
    (hvalues : ∀ e ∈ entries, ReadsCompact scope e.2) : ReadsCompact scope (.map entries) := by
  refine readsCompact_enclosed '{' '}' (fun e => e.1.compact.toList ++ ':' :: e.2.compact.toList)
    readEntry (fun e => max (e.1.steps + 1) (e.2.steps + 1)) Value.map (by decide)
    (fun rest => ?_) (fun item payload rest => readForm_brace item) (fun n item hitem e he => ?_)
    fun n => ?_
  · rw [Value.compact, Value.compactEntries_eq]
    refine (toList_enclosed '{' '}' _ rest).trans ?_
    simp [Function.comp_def]
  · exact ((hitem (hkeys e he)).entry no_gap (hitem (hvalues e he))).congr Nat.max_le.symm
  · rw [Value.steps, succ_le_iff, Value.stepsEntries_le]
    simp only [Nat.max_le]

theorem readsCompact_record {fields : List (String × Value)} (hnames : ∀ f ∈ fields, IsName f.1)
    (hvalues : ∀ f ∈ fields, ReadsCompact scope f.2) : ReadsCompact scope (.record none fields) := by
  cases hfields : fields with
  | nil => exact readsCompact_emptyRecord
  | cons f others =>
    rw [← hfields]
    refine readsCompact_enclosed '(' ')' (fun f => f.1.toList ++ ':' :: f.2.compact.toList) readField
      (·.2.steps + 1) (Value.record none) (by decide) (fun rest => ?_) (fun item payload rest => ?_)
      (fun n item hitem f hf => (hitem (hvalues f hf)).field (hnames f hf) no_gap) fun n => ?_
    · rw [Value.compact, Value.compactFields_eq]
      refine (toList_enclosed '(' ')' _ rest).trans ?_
      simp [Function.comp_def]
    · -- the first field tells that this is a record
      have hname : IsName f.1 := hnames f (hfields ▸ List.mem_cons_self)
      obtain ⟨c, tail, hcons, hopening⟩ := hname.opening
      have hskip (after : List Char) : skip (f.1.toList ++ after) = some (f.1.toList ++ after) := by
        rw [hcons]
        exact skip_solid hopening.1 _
      have hfilled (after closed : List Char) : f.1.toList ++ after ≠ ')' :: closed := by
        rw [hcons]
        rintro heq
        cases heq
        exact hopening.2.1 (by decide)
      rw [hfields, List.map_cons, joined_cons, List.append_assoc, List.cons_append,
        readForm_parenthesis item fun _ => hfilled _ _]
      congr 1
      funext item
      exact readParenthesized_named hname (hskip _)
    · rw [hfields, Value.steps_record, succ_le_iff, Value.stepsFields_le]

/-- **Values that are written on one line are read back** if there are as many steps left as they take, and
nothing is read if there are fewer. -/
theorem Storable.readsCompact {bound : Nat} {v : Value} (h : Storable bound v) (scope : Scope) :
    ReadsCompact scope v := by
  induction h with
  | flag b => exact readsCompact_flag b
  | number h => exact readsCompact_number h
  | text s => exact readsCompact_text s
  | list _ ih => exact readsCompact_list ih
  | map _ _ ihkeys ihvalues => exact readsCompact_map ihkeys ihvalues
  | record hnames _ ih => exact readsCompact_record hnames ih

end Brackets

/-- The steps that a value may take are enough for it. -/
theorem Storable.steps_le {n : Nat} {v : Value} (h : Storable n v) : v.steps ≤ n := by
  induction h with
  | flag b => exact Nat.zero_le _
  | number h => exact Nat.zero_le _
  | text s => exact Nat.zero_le _
  | list _ ih =>
    rw [Value.steps, Nat.succ_le_succ_iff, Value.stepsAll_le]
    exact fun v hv => Nat.succ_le_succ (ih v hv)
  | map _ _ ihkeys ihvalues =>
    rw [Value.steps, Nat.succ_le_succ_iff, Value.stepsEntries_le]
    exact fun e he => ⟨Nat.succ_le_succ (ihkeys e he), Nat.succ_le_succ (ihvalues e he)⟩
  | @record n fields _ _ ih =>
    cases fields with
    | nil => exact Nat.zero_le _
    | cons f fields =>
      rw [Value.steps_record, Nat.succ_le_succ_iff, Value.stepsFields_le]
      exact fun g hg => Nat.succ_le_succ (ih g hg)

/-- Nothing is written exactly if that would go too deep. -/
theorem write?_eq_none {v : Value} : v.write? = none ↔ depthLimit < v.steps := by
  unfold Value.write?
  split <;> simp_all

/-- **A text that is written on one line is read back.** The limit is the same for both. -/
theorem read?_of_write? {bound : Nat} {v : Value} (h : Storable bound v) {text : String}
    (hwrite : v.write? = some text) : read? text = some v := by
  unfold Value.write? at hwrite
  split at hwrite
  · rename_i hsteps
    cases hwrite
    obtain ⟨hopening, hvalue⟩ := h.readsCompact ⟨v.compact.toList.length, false⟩ depthLimit
    have hread := hvalue [] .nil (by simp)
    rw [List.append_nil, if_pos hsteps] at hread
    rw [read?_of_opening hopening, hread]
    rfl
  · cases hwrite

end Fabula.Ron
