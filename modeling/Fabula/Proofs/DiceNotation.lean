import Fabula.Expand.Interpreter
import Fabula.Proofs.ArgumentReading
import Fabula.Random.Scripted

/-!
# Fabula.Proofs.DiceNotation

**Dice are read and summed exactly.** A throw of dice is written as two numbers with the letter `d`
between them, and perhaps a bonus with its sign; white space may stand anywhere but inside the numbers
(`Dice.Written`). These texts are read, and no others (`Dice.read?_iff`).

The sum is kept within 64 bits after every die. No die shows less than one, so once the sum has come to
the highest integer it stays there, and it comes to the same as if the exact sum were cut off once, at
the end (`Dice.throwFrom_eq`).
-/

namespace Fabula.Dice

open ArgumentList (Blank blank_takeWhile)
open Numeral (Digits NoDigit int64Min int64Max)

/-! ### The notation -/

/-- The texts of whole numbers, each with its number. -/
structure Number (w : List Char) (n : Nat) : Prop where
  /-- A number is written in decimal digits. -/
  digits : Digits w
  /-- There is at least one of them. -/
  nonempty : w ≠ []
  /-- They have this value. -/
  value : Numeral.digitsValue 0 w = n

/-- The texts of bonuses, each with the bonus. -/
inductive Bonus : List Char → Int → Prop
  /-- There is no bonus. -/
  | none : Bonus [] 0
  /-- A number is added. -/
  | plus {a w b : List Char} {n : Nat} (ha : Blank a) (hw : Number w n) (hb : Blank b)
    (hn : n ≤ maxNumber) : Bonus ('+' :: (a ++ (w ++ b))) n
  /-- A number is taken away. -/
  | minus {a w b : List Char} {n : Nat} (ha : Blank a) (hw : Number w n) (hb : Blank b)
    (hn : n ≤ maxNumber) : Bonus ('-' :: (a ++ (w ++ b))) (-n)

/-- The texts of throws, each with the throw that it stands for. -/
inductive Written : List Char → Dice → Prop
  /-- How many dice there are, a letter, how many sides they have, and a bonus. -/
  | intro {a v b e w f k : List Char} {letter : Char} {count sides : Nat} {bonus : Int}
    (ha : Blank a) (hv : Number v count) (hb : Blank b) (hletter : letter = 'd' ∨ letter = 'D')
    (he : Blank e) (hw : Number w sides) (hf : Blank f) (hk : Bonus k bonus)
    (hcount : count ≤ maxCount) (hpos : 1 ≤ sides) (hsides : sides ≤ maxNumber) :
    Written (a ++ (v ++ (b ++ letter :: (e ++ (w ++ (f ++ k)))))) ⟨count, sides, bonus⟩

/-! ### Reading numbers -/

theorem isBlank_of_isDigit {c : Char} (hc : c.isDigit = true) : Text.isBlank c = false := by
  by_contra hblank
  have hstop := ArgumentList.continuesNumber_of_isBlank (Bool.not_eq_false _ ▸ hblank) c
  simp [ArgumentList.continuesNumber, Char.isAlphanum, hc] at hstop

theorem isDigit_of_isBlank {c : Char} (hc : Text.isBlank c = true) : c.isDigit = false := by
  by_contra hdigit
  rw [isBlank_of_isDigit (Bool.not_eq_false _ ▸ hdigit)] at hc
  cases hc

/-- White space, with something behind it that is no digit, does not begin with a digit. -/
theorem noDigit_append {b rest : List Char} (hb : Blank b) (hrest : NoDigit rest) :
    NoDigit (b ++ rest) := by
  cases b with
  | nil => exact hrest
  | cons c b =>
    intro d hd
    cases hd
    exact isDigit_of_isBlank (hb c List.mem_cons_self)

theorem Bonus.noDigit {k : List Char} {bonus : Int} (h : Bonus k bonus) : NoDigit k := by
  intro c hc
  cases h with
  | none => cases hc
  | plus =>
    cases hc
    rfl
  | minus =>
    cases hc
    rfl

theorem readDigits?_iff {w : List Char} {n : Nat} :
    Numeral.readDigits? w = some n ↔ Number w n := by
  constructor
  · intro h
    obtain ⟨hdigits, hne⟩ := (Numeral.readDigits?_isSome_iff w).mp (Option.isSome_of_eq_some h)
    unfold Numeral.readDigits? at h
    split at h
    · exact ⟨hdigits, hne, Option.some.inj h⟩
    · cases h
  · intro h
    have hall : w.all Char.isDigit = true := List.all_eq_true.mpr h.digits
    simp [Numeral.readDigits?, hall, h.nonempty, h.value]

theorem readNumber?_iff {cs rest : List Char} {n : Nat} :
    readNumber? cs = some (n, rest) ↔
      ∃ a w, cs = a ++ (w ++ rest) ∧ Blank a ∧ Number w n ∧ NoDigit rest := by
  constructor
  · intro h
    obtain ⟨m, hm, heq⟩ := Option.map_eq_some_iff.mp h
    obtain ⟨rfl, rfl⟩ := Prod.mk.inj heq
    refine ⟨cs.takeWhile Text.isBlank, _, ?_, blank_takeWhile cs, readDigits?_iff.mp hm,
      Numeral.noDigit_dropWhile _⟩
    rw [List.takeWhile_append_dropWhile, List.takeWhile_append_dropWhile]
  · rintro ⟨a, w, rfl, ha, hw, hrest⟩
    obtain ⟨c, tail, rfl⟩ := List.exists_cons_of_ne_nil hw.nonempty
    have hc := isBlank_of_isDigit (hw.digits c List.mem_cons_self)
    have hskip : (a ++ (c :: tail ++ rest)).dropWhile Text.isBlank = c :: tail ++ rest :=
      ha.dropWhile hc _
    obtain ⟨htake, hdrop⟩ := hw.digits.takeWhile hrest
    rw [readNumber?, hskip]
    simp only [htake, hdrop, readDigits?_iff.mpr hw, Option.map_some]

theorem readBonus?_sound {cs : List Char} {bonus : Int} (h : readBonus? cs = some bonus) :
    ∃ f k, cs = f ++ k ∧ Blank f ∧ Bonus k bonus := by
  refine ⟨cs.takeWhile Text.isBlank, cs.dropWhile Text.isBlank,
    List.takeWhile_append_dropWhile.symm, blank_takeWhile cs, ?_⟩
  unfold readBonus? at h
  generalize cs.dropWhile Text.isBlank = k at h ⊢
  split at h
  · cases h
    exact .none
  · rename_i sign after
    split at h
    · rename_i hsign
      split at h
      · rename_i n rest hnumber
        obtain ⟨a, w, rfl, ha, hw, -⟩ := readNumber?_iff.mp hnumber
        split at h
        · rename_i hend
          rw [Bool.and_eq_true, List.all_eq_true, decide_eq_true_iff] at hend
          simp only [Bool.or_eq_true, decide_eq_true_iff] at hsign
          rcases hsign with rfl | rfl
          · cases h
            exact .plus ha hw hend.1 hend.2
          · cases h
            exact .minus ha hw hend.1 hend.2
        · cases h
      · cases h
    · cases h

theorem readNumber?_last {a w b : List Char} {n : Nat} (ha : Blank a) (hw : Number w n)
    (hb : Blank b) : readNumber? (a ++ (w ++ b)) = some (n, b) := by
  have hend : NoDigit (b ++ []) := noDigit_append hb (by simp [NoDigit])
  rw [List.append_nil] at hend
  exact readNumber?_iff.mpr ⟨a, w, rfl, ha, hw, hend⟩

theorem Bonus.read? {f k : List Char} {bonus : Int} (hf : Blank f) (h : Bonus k bonus) :
    readBonus? (f ++ k) = some bonus := by
  cases h with
  | none =>
    have hall : f.dropWhile Text.isBlank = [] := List.dropWhile_eq_nil_iff.mpr hf
    rw [readBonus?, List.append_nil, hall]
  | plus ha hw hb hn =>
    have hskip := hf.dropWhile (c := '+') (by decide)
    unfold readBonus?
    simp [hskip, readNumber?_last ha hw hb, hn, List.all_eq_true.mpr hb]
  | minus ha hw hb hn =>
    have hskip := hf.dropWhile (c := '-') (by decide)
    unfold readBonus?
    simp [hskip, readNumber?_last ha hw hb, hn, List.all_eq_true.mpr hb]

theorem read?_sound {cs : List Char} {d : Dice} (h : read? cs = some d) : Written cs d := by
  unfold read? at h
  split at h
  · cases h
  · rename_i count rest hcount
    obtain ⟨a, v, rfl, ha, hv, -⟩ := readNumber?_iff.mp hcount
    have hrest := List.takeWhile_append_dropWhile (p := Text.isBlank) (l := rest)
    have hb := blank_takeWhile rest
    generalize rest.takeWhile Text.isBlank = b at hrest hb
    split at h
    · cases h
    · rename_i letter after hletter
      rw [hletter] at hrest
      subst hrest
      split at h
      · rename_i hd
        split at h
        · cases h
        · rename_i sides tail hsides
          obtain ⟨e, w, rfl, he, hw, -⟩ := readNumber?_iff.mp hsides
          split at h
          · cases h
          · rename_i bonus hbonus
            obtain ⟨f, k, rfl, hf, hk⟩ := readBonus?_sound hbonus
            split at h
            · rename_i hbounds
              obtain ⟨hmost, hpos, hsides⟩ := hbounds
              cases h
              exact .intro ha hv hb (by simpa using hd) he hw hf hk hmost hpos hsides
            · cases h
      · cases h

theorem Written.read? {cs : List Char} {d : Dice} (h : Written cs d) : Dice.read? cs = some d := by
  cases h with
  | @intro a v b e w f k letter count sides bonus ha hv hb hletter he hw hf hk hcount hpos hsides =>
    have hsign : NoDigit (letter :: (e ++ (w ++ (f ++ k)))) := by
      intro c hc
      cases hc
      rcases hletter with rfl | rfl <;> rfl
    have hblank : Text.isBlank letter = false := by
      rcases hletter with rfl | rfl <;> decide
    -- a number ends where no more digits follow it, so what comes next must begin with none
    have hfirst := readNumber?_iff.mpr ⟨a, v, rfl, ha, hv, noDigit_append hb hsign⟩
    have hsecond := readNumber?_iff.mpr ⟨e, w, rfl, he, hw, noDigit_append hf hk.noDigit⟩
    unfold Dice.read?
    simp only [hfirst, hb.dropWhile hblank, hsecond, hk.read? hf]
    rw [if_pos (by simpa using hletter), if_pos ⟨hcount, hpos, hsides⟩]

/-- A text is read as a throw of dice exactly if the throw is written so. -/
theorem read?_iff {cs : List Char} {d : Dice} : read? cs = some d ↔ Written cs d :=
  ⟨read?_sound, Written.read?⟩

/-- A bonus fits 64 bits, and so does its negative. -/
theorem Bonus.bounds {k : List Char} {bonus : Int} (h : Bonus k bonus) :
    -(maxNumber : Int) ≤ bonus ∧ bonus ≤ maxNumber := by
  cases h with
  | none => decide
  | plus _ _ _ hn => omega
  | minus _ _ _ hn => omega

theorem Written.bonus_bounds {cs : List Char} {d : Dice} (h : Written cs d) :
    int64Min ≤ d.bonus ∧ d.bonus ≤ int64Max := by
  cases h with
  | intro _ _ _ _ _ _ _ hk =>
    have hbonus := hk.bounds
    exact ⟨le_trans (by decide) hbonus.1, le_trans hbonus.2 (by decide)⟩

/-! ### Throwing -/

variable {σ : Type} [RandomSource σ]

/-- What `count` dice show, thrown one after the other, and the source that is left. -/
def throws (sides : Nat) : Nat → σ → List Int × σ
  | 0, s => ([], s)
  | count + 1, s =>
    let (n, s) := RandomSource.between 1 sides s
    let (ns, s) := throws sides count s
    (n :: ns, s)

/-- A die with so many sides never shows a number that is not on it. -/
def Fair (σ : Type) [RandomSource σ] (sides : Nat) : Prop :=
  ∀ s : σ, 1 ≤ (RandomSource.between 1 sides s).1 ∧ (RandomSource.between 1 sides s).1 ≤ sides

theorem throws_length (sides count : Nat) (s : σ) : (throws sides count s).1.length = count := by
  induction count generalizing s with
  | zero => rfl
  | succ count ih => simp [throws, ih]

theorem Fair.sum_bounds {sides : Nat} (h : Fair σ sides) (count : Nat) (s : σ) :
    count ≤ (throws sides count s).1.sum ∧
      (throws sides count s).1.sum ≤ (count : Int) * sides := by
  induction count generalizing s with
  | zero => simp [throws]
  | succ count ih =>
    have hfirst := h s
    have hrest := ih (RandomSource.between 1 sides s).2
    simp only [throws, List.sum_cons]
    push_cast
    rw [Int.add_mul, Int.one_mul]
    omega

/-- To keep the sum within bounds after every die comes to the same as cutting it off at the end. -/
theorem throwFrom_eq {sides : Nat} (h : Fair σ sides) (count : Nat) {total : Int}
    (hlow : int64Min ≤ total) (hhigh : total ≤ int64Max) (s : σ) :
    throwFrom sides total count s =
      (min int64Max (total + (throws sides count s).1.sum), (throws sides count s).2) := by
  induction count generalizing total s with
  | zero => simp [throwFrom, throws, hhigh]
  | succ count ih =>
    have hfirst := h s
    have hrest := (h.sum_bounds count (RandomSource.between 1 sides s).2).1
    have hstep : addWithin64 total (RandomSource.between 1 sides s).1 =
        min int64Max (total + (RandomSource.between 1 sides s).1) := by
      unfold addWithin64 Numeral.clamp
      omega
    unfold throwFrom
    dsimp only
    rw [hstep, ih (by omega) (by omega)]
    simp only [throws, List.sum_cons]
    congr 1
    omega

/-- What a throw is read from. -/
theorem diceArg_text (text : String) (args : List Argument) :
    Builtin.diceArg (.text text :: args) =
      match read? text.toList with
      | some d => .ok d
      | none => .error
        (.badArguments "roll" ("invalid dice notation " ++ Text.quoted text)) := by
  show (match read? text.toList with | some d => _ | none => _) = _
  cases read? text.toList <;> rfl

section Roll

variable (g : Grammar σ) (engine : Engine σ) (value : String) (args : List Argument) (c : Context σ)

theorem roll_written {text : String} {d : Dice} (h : Written text.toList d) :
    Builtin.roll.apply g engine value (.text text :: args) c =
      .ok (toString (d.roll c.source).1) { c with source := (d.roll c.source).2 } := by
  have harg := diceArg_text text args
  rw [read?_iff.mpr h] at harg
  unfold Builtin.apply
  rw [harg]
  rfl

theorem roll_unwritten {text : String} (h : ¬ ∃ d, Written text.toList d) :
    Builtin.roll.apply g engine value (.text text :: args) c =
      .error (.badArguments "roll" ("invalid dice notation " ++ Text.quoted text)) c := by
  have hread : read? text.toList = none :=
    Option.eq_none_iff_forall_not_mem.mpr fun d hd => h ⟨d, read?_iff.mp hd⟩
  have harg := diceArg_text text args
  rw [hread] at harg
  unfold Builtin.apply
  rw [harg]
  rfl

/-- **Dice notation is read and summed exactly.** A text is accepted exactly if it is written like a
throw of dice. Then as many numbers are drawn as there are dice, and unless a die shows a number that is
not on it, the result is their exact sum with the bonus, cut off at the highest integer. Any other text
is refused before anything has been drawn. -/
theorem roll_exact (text : String) :
    let answer := Builtin.roll.apply g engine value (.text text :: args) c
    ((∃ result c', answer = .ok result c') ↔ ∃ d, Written text.toList d) ∧
      (∀ d, Written text.toList d → Fair σ d.sides →
        let draws := throws d.sides d.count c.source
        let total := min int64Max (draws.1.sum + d.bonus)
        answer = .ok (toString total) { c with source := draws.2 } ∧
          draws.1.length = d.count ∧
          min int64Max (d.count + d.bonus) ≤ total ∧
          total ≤ min int64Max (d.count * d.sides + d.bonus) ∧ int64Min ≤ total) ∧
      ((¬ ∃ d, Written text.toList d) →
        answer = .error
          (.badArguments "roll" ("invalid dice notation " ++ Text.quoted text)) c) := by
  dsimp only
  refine ⟨⟨?_, ?_⟩, ?_, roll_unwritten g engine value args c⟩
  · rintro ⟨result, c', hok⟩
    by_contra hnone
    rw [roll_unwritten g engine value args c hnone] at hok
    cases hok
  · rintro ⟨d, hd⟩
    exact ⟨_, _, roll_written g engine value args c hd⟩
  · intro d hd hfair
    have hanswer := roll_written g engine value args c hd
    obtain ⟨hlow, hhigh⟩ := hd.bonus_bounds
    have hsum := hfair.sum_bounds d.count c.source
    rw [roll, throwFrom_eq hfair d.count hlow hhigh, Int.add_comm d.bonus] at hanswer
    have hmax : int64Min ≤ int64Max := by decide
    refine ⟨hanswer, throws_length d.sides d.count c.source, ?_, ?_, ?_⟩ <;> omega

end Roll

/-- Dice are fair if they are thrown by a script. -/
theorem scripted_fair {sides : Nat} (h : 1 ≤ sides) : Fair Scripted sides := by
  intro s
  have hbounds := Draw.between_bounds s.next.1 1 sides
  have hdraw : (RandomSource.between 1 (sides : Int) s).1 = Draw.between s.next.1 1 sides := rfl
  rw [hdraw]
  omega

/-- Two dice with white space around everything. -/
theorem roll_exact_spaced :
    let draws := throws 6 2 ({} : Scripted)
    let total := min int64Max (draws.1.sum + -1)
    Builtin.roll.apply {} (Grammar.engineAt {} 0) "" [.text " 2D6 - 1 "] { source := {} } =
      .ok (toString total) { source := draws.2 } ∧ 1 ≤ total ∧ total ≤ 11 := by
  have hread : Written " 2D6 - 1 ".toList ⟨2, 6, -1⟩ := read?_iff.mp (by decide)
  have hexact := (roll_exact {} (Grammar.engineAt {} 0) "" [] { source := ({} : Scripted) }
    " 2D6 - 1 ").2.1 _ hread (scripted_fair (by decide))
  exact ⟨hexact.1, hexact.2.2.1, hexact.2.2.2.1⟩

end Fabula.Dice
