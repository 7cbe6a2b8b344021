import Mathlib.Tactic.SplitIfs
import Fabula.Inflect
import Fabula.Template.Parser

/-!
# Fabula.Proofs.Inflection

**Only the last word of a phrase is inflected.** The head and the tail of the phrase stay, and what
stands between them is made from the last word alone (`only_last_word_inflected`).

* The cut of a phrase is the one that places in bytes make: the place of the last white space, counted in
  the trimmed phrase, is a place between two characters of the phrase as well (`slicedLastWord?_eq`).
* No rule for endings takes a whole word away (`pluralWord_ne_nil`, `singularWord_ne_nil`): what is cut
  off follows a stem that is not empty, or something else takes its place.
* Neither does a change of case, for no character is without a capital and a small form.
-/

namespace Fabula.Text

/-! ### Nothing vanishes when letters change their case -/

theorem upper_ne_nil (c : Char) : upper c ≠ [] := by
  unfold upper
  cases h : upperSequences.lookup c with
  | none => simp
  | some cs =>
    have hall : ∀ p ∈ upperSequences, p.2 ≠ [] := by decide
    obtain ⟨before, after, heq, -⟩ := List.lookup_eq_some_iff.mp h
    exact hall (c, cs) (by simp [heq])

theorem uppercase_ne_nil {cs : List Char} (h : cs ≠ []) : uppercase cs ≠ [] := by
  cases cs with
  | nil => exact absurd rfl h
  | cons c cs => simp [uppercase, upper_ne_nil]

theorem lowercase_ne_nil {cs : List Char} (h : cs ≠ []) : lowercase cs ≠ [] := by
  cases cs with
  | nil => exact absurd rfl h
  | cons c cs =>
    unfold lowercase lowerFrom lower
    dsimp only
    split_ifs <;> simp

end Fabula.Text

namespace Fabula.Inflect

open Template (byteSize byteSize_append)

/-! ### Slices -/

/-- What is left of a text after so many bytes; nothing if it is shorter, or if a character stands across
the place. -/
def dropBytes? : Nat → List Char → Option (List Char)
  | 0, cs => some cs
  | _ + 1, [] => none
  | n + 1, c :: cs => if c.utf8Size ≤ n + 1 then dropBytes? (n + 1 - c.utf8Size) cs else none

/-- The first so many bytes of a text; nothing if it is shorter, or if a character stands across the
place. -/
def takeBytes? : Nat → List Char → Option (List Char)
  | 0, _ => some []
  | _ + 1, [] => none
  | n + 1, c :: cs =>
    if c.utf8Size ≤ n + 1 then (takeBytes? (n + 1 - c.utf8Size) cs).map (c :: ·) else none

/-- The slice of a text between two places counted in bytes. There is none if they are in the wrong
order, or one of them is outside of the text or inside a character. -/
def slice? (cs : List Char) (start stop : Nat) : Option (List Char) :=
  if start ≤ stop then (dropBytes? start cs).bind (takeBytes? (stop - start)) else none

theorem byteSize_cons (c : Char) (cs : List Char) : byteSize (c :: cs) = c.utf8Size + byteSize cs := by
  have h := byteSize_append [c] cs
  rwa [show byteSize [c] = c.utf8Size from Nat.zero_add _] at h

theorem dropBytes?_cons {c : Char} {n : Nat} (cs : List Char) (h : c.utf8Size ≤ n) :
    dropBytes? n (c :: cs) = dropBytes? (n - c.utf8Size) cs := by
  have hpos := c.utf8Size_pos
  cases n with
  | zero => omega
  | succ n => rw [dropBytes?, if_pos h]

theorem takeBytes?_cons {c : Char} {n : Nat} (cs : List Char) (h : c.utf8Size ≤ n) :
    takeBytes? n (c :: cs) = (takeBytes? (n - c.utf8Size) cs).map (c :: ·) := by
  have hpos := c.utf8Size_pos
  cases n with
  | zero => omega
  | succ n => rw [takeBytes?, if_pos h]

theorem dropBytes?_append (a b : List Char) : dropBytes? (byteSize a) (a ++ b) = some b := by
  induction a with
  | nil => simp [byteSize, dropBytes?]
  | cons c a ih =>
    rw [byteSize_cons, List.cons_append, dropBytes?_cons _ (Nat.le_add_right _ _), Nat.add_sub_cancel_left,
      ih]

theorem takeBytes?_append (a b : List Char) : takeBytes? (byteSize a) (a ++ b) = some a := by
  induction a with
  | nil => simp [byteSize, takeBytes?]
  | cons c a ih =>
    rw [byteSize_cons, List.cons_append, takeBytes?_cons _ (Nat.le_add_right _ _), Nat.add_sub_cancel_left,
      ih]
    rfl

/-- Places between the parts of a text are places between characters. -/
theorem slice?_append (a b c : List Char) :
    slice? (a ++ b ++ c) (byteSize a) (byteSize a + byteSize b) = some b := by
  rw [slice?, if_pos (Nat.le_add_right _ _), List.append_assoc, dropBytes?_append, Option.bind_some,
    Nat.add_sub_cancel_left, takeBytes?_append]

theorem slice?_prefix (a b : List Char) : slice? (a ++ b) 0 (byteSize a) = some a := by
  have h := slice?_append [] a b
  rwa [List.nil_append, show byteSize [] = 0 from rfl, Nat.zero_add] at h

theorem slice?_suffix (a b : List Char) :
    slice? (a ++ b) (byteSize a) (byteSize (a ++ b)) = some b := by
  have h := slice?_append a b []
  rwa [List.append_nil, ← byteSize_append] at h

/-! ### The last word by its places -/

/-- The characters of a text with the places where they start. -/
def places (start : Nat) : List Char → List (Nat × Char)
  | [] => []
  | c :: cs => (start, c) :: places (start + c.utf8Size) cs

/-- The place after the last white space of a text. -/
def lastWordStart (cs : List Char) : Nat :=
  match (places 0 cs).reverse.find? fun p => Text.isBlank p.2 with
  | some (i, c) => i + c.utf8Size
  | none => 0

/-- The last word of a phrase, and what is around it, cut out by places that are counted in the trimmed
phrase. -/
def slicedLastWord? (phrase : List Char) : Option LastWord := do
  let trimmed := Text.trimEnd phrase
  let start := lastWordStart trimmed
  let head ← slice? phrase 0 start
  let word ← slice? trimmed start (byteSize trimmed)
  let tail ← slice? phrase (byteSize head + byteSize word) (byteSize phrase)
  return ⟨head, word, tail⟩

theorem places_append (start : Nat) (a b : List Char) :
    places start (a ++ b) = places start a ++ places (start + byteSize a) b := by
  induction a generalizing start with
  | nil => rfl
  | cons c a ih => rw [List.cons_append, places, ih, places, byteSize_cons, Nat.add_assoc, List.cons_append]

theorem mem_of_mem_places {start i : Nat} {c : Char} {cs : List Char} (h : (i, c) ∈ places start cs) :
    c ∈ cs := by
  induction cs generalizing start with
  | nil => cases h
  | cons d cs ih =>
    rw [places] at h
    rcases List.mem_cons.mp h with h | h
    · cases h
      exact List.mem_cons_self
    · exact List.mem_cons_of_mem _ (ih h)

/-- The word after the last white space starts where it is found. -/
theorem lastWordStart_append {head word : List Char} (hword : ∀ c ∈ word, Text.isBlank c = false)
    (hhead : ∀ c ∈ head.getLast?, Text.isBlank c = true) :
    lastWordStart (head ++ word) = byteSize head := by
  have hnone (start : Nat) :
      (places start word).reverse.find? (fun p => Text.isBlank p.2) = none := by
    rw [List.find?_eq_none]
    intro p hp
    rw [hword p.2 (mem_of_mem_places (List.mem_reverse.mp hp))]
    simp
  rw [lastWordStart, places_append, List.reverse_append, List.find?_append, hnone, Option.none_or]
  rcases List.eq_nil_or_concat head with rfl | ⟨before, c, rfl⟩
  · rfl
  · rw [List.concat_eq_append] at hhead ⊢
    have hc : Text.isBlank c = true := hhead c (by simp)
    rw [places_append]
    simp [places, hc, byteSize]

/-! ### The last word of a phrase -/

section LastWord

variable (phrase : List Char)

/-- The parts make up the phrase. -/
theorem splitLastWord_append :
    (splitLastWord phrase).head ++ (splitLastWord phrase).word ++ (splitLastWord phrase).tail =
      phrase := by
  simp only [splitLastWord]
  rw [← List.reverse_append, ← List.reverse_append, List.takeWhile_append_dropWhile,
    List.takeWhile_append_dropWhile, List.reverse_reverse]

theorem trimEnd_eq : Text.trimEnd phrase = (splitLastWord phrase).head ++ (splitLastWord phrase).word := by
  simp only [splitLastWord, Text.trimEnd]
  rw [← List.reverse_append, List.takeWhile_append_dropWhile]

theorem tail_blank : ∀ c ∈ (splitLastWord phrase).tail, Text.isBlank c = true := by
  intro c hc
  exact List.all_eq_true.mp List.all_takeWhile c (List.mem_reverse.mp hc)

theorem word_solid : ∀ c ∈ (splitLastWord phrase).word, Text.isBlank c = false := by
  intro c hc
  have h := List.all_eq_true.mp List.all_takeWhile c (List.mem_reverse.mp hc)
  simpa using h

theorem head_ends_blank : ∀ c ∈ (splitLastWord phrase).head.getLast?, Text.isBlank c = true := by
  intro c hc
  simp only [splitLastWord, List.getLast?_reverse] at hc
  have h := List.head?_dropWhile_not (fun c => !Text.isBlank c)
    (phrase.reverse.dropWhile Text.isBlank)
  rw [hc] at h
  simpa using h

/-- Places in the trimmed phrase are places between characters of the phrase, so the slices are there,
and they are the parts. -/
theorem slicedLastWord?_eq : slicedLastWord? phrase = some (splitLastWord phrase) := by
  have hstart := lastWordStart_append (word_solid phrase) (head_ends_blank phrase)
  have hhead : slice? phrase 0 (byteSize (splitLastWord phrase).head) =
      some (splitLastWord phrase).head := by
    have h := slice?_prefix (splitLastWord phrase).head
      ((splitLastWord phrase).word ++ (splitLastWord phrase).tail)
    rwa [← List.append_assoc, splitLastWord_append] at h
  have htail : slice? phrase
      (byteSize (splitLastWord phrase).head + byteSize (splitLastWord phrase).word) (byteSize phrase) =
      some (splitLastWord phrase).tail := by
    have h := slice?_suffix ((splitLastWord phrase).head ++ (splitLastWord phrase).word)
      (splitLastWord phrase).tail
    rwa [byteSize_append (splitLastWord phrase).head, splitLastWord_append] at h
  simp only [slicedLastWord?, trimEnd_eq, hstart, hhead, slice?_suffix, htail, Option.bind_eq_bind,
    Option.bind_some, Option.pure_def]

end LastWord

/-! ### Endings -/

/-- The endings after which "es" is taken off a plural. -/
def sibilants : List String := ["sses", "xes", "zzes", "ches", "shes"]

/-- More than "es" goes before in each of them. -/
theorem sibilant_split {word : List Char} (h : endsWithAny sibilants word = true) :
    ∃ stem, stem ≠ [] ∧ word = stem ++ ['e', 's'] := by
  have hall : ∀ e ∈ sibilants, ∃ stem, stem ≠ [] ∧ e.toList = stem ++ ['e', 's'] := by
    simp only [sibilants, List.forall_mem_cons]
    exact ⟨⟨['s', 's'], nofun, rfl⟩, ⟨['x'], nofun, rfl⟩, ⟨['z', 'z'], nofun, rfl⟩,
      ⟨['c', 'h'], nofun, rfl⟩, ⟨['s', 'h'], nofun, rfl⟩, nofun⟩
  obtain ⟨e, he, hsuffix⟩ := List.any_eq_true.mp h
  obtain ⟨before, rfl⟩ := List.isSuffixOf_iff_suffix.mp hsuffix
  obtain ⟨stem, hne, heq⟩ := hall e he
  exact ⟨before ++ stem, by simp [hne], by rw [heq, List.append_assoc]⟩

/-- The singular by ending, where the ending "es" is cut off by its two bytes. -/
def slicedSingular? (word : List Char) : Option (List Char) :=
  if endsWithAny sibilants word then
    if 2 ≤ byteSize word then slice? word 0 (byteSize word - 2) else none
  else some (regularSingular word)

/-- The two bytes are there and are two characters. -/
theorem slicedSingular?_eq (word : List Char) : slicedSingular? word = some (regularSingular word) := by
  unfold slicedSingular?
  split
  · rename_i hends
    obtain ⟨stem, -, rfl⟩ := sibilant_split hends
    have hsize : byteSize (stem ++ ['e', 's']) = byteSize stem + 2 := byteSize_append _ _
    have hcut : regularSingular (stem ++ ['e', 's']) = stem := (if_pos hends).trans (by simp)
    rw [hsize, if_pos (Nat.le_add_left _ _), Nat.add_sub_cancel, slice?_prefix, hcut]
  · rfl

/-! ### No word is lost -/

theorem regularPlural_ne_nil (word : List Char) : regularPlural word ≠ [] := by
  unfold regularPlural
  split
  · simp
  · split
    · split <;> simp
    · simp

theorem pluralWord_ne_nil {word : List Char} (h : word ≠ []) : pluralWord word ≠ [] := by
  have hirregular : ∀ p ∈ irregularPlurals, p.2.toList ≠ [] := by decide
  unfold pluralWord
  dsimp only
  split
  · exact h
  · split
    · rename_i plural hplural
      obtain ⟨before, after, heq, -⟩ := List.lookup_eq_some_iff.mp hplural
      exact hirregular (String.ofList word, plural) (by simp [heq])
    · split
      · split
        · exact regularPlural_ne_nil word
        · simp
      · exact regularPlural_ne_nil word

theorem regularSingular_ne_nil {word : List Char} (h : word ≠ []) : regularSingular word ≠ [] := by
  unfold regularSingular
  split
  · rename_i hends
    obtain ⟨stem, hne, rfl⟩ := sibilant_split hends
    simpa using hne
  · split
    · exact h
    · split
      · split
        · exact h
        · rename_i hstem
          exact fun hnil => hstem (List.isEmpty_iff.mpr hnil)
      · exact h

theorem singularOfIes_ne_nil {word : List Char} (h : word ≠ []) : singularOfIes word ≠ [] := by
  unfold singularOfIes
  split
  · split
    · simp
    · split
      · exact regularSingular_ne_nil h
      · simp
  · exact regularSingular_ne_nil h

theorem singularWord_ne_nil {word : List Char} (h : word ≠ []) : singularWord word ≠ [] := by
  have hirregular : ∀ p ∈ irregularPlurals, p.1.toList ≠ [] := by decide
  unfold singularWord
  dsimp only
  split
  · exact h
  · split
    · rename_i hfound
      exact hirregular _ (List.mem_of_find?_eq_some hfound)
    · split
      · split
        · exact singularOfIes_ne_nil h
        · simp
      · exact singularOfIes_ne_nil h

/-! ### Capitals -/

/-- A word with several letters, all of them capitals. -/
def Shouted (word : List Char) : Prop :=
  2 ≤ (word.filter Text.isAlphabetic).length ∧
    ∀ c ∈ word, Text.isAlphabetic c = true → Text.isUppercase c = true

/-- A word that starts with a capital. -/
def Capitalized (word : List Char) : Prop := ∃ c ∈ word.head?, Text.isUppercase c = true

/-- `shown` is what `small` looks like with the capitals of `word`. -/
structure InCapitalsOf (word small shown : List Char) : Prop where
  /-- A word in capitals makes all of it capitals. -/
  shouted : Shouted word → shown = Text.uppercase small
  /-- Otherwise a capital in front stays in front. -/
  capitalized : ¬ Shouted word → Capitalized word → shown = capitalizeWith Text.upper small
  /-- Without it there are none. -/
  plain : ¬ Shouted word → ¬ Capitalized word → shown = small

theorem shouted_iff {word : List Char} :
    (decide (1 < (word.filter Text.isAlphabetic).length) &&
      (word.filter Text.isAlphabetic).all Text.isUppercase) = true ↔ Shouted word := by
  simp only [Bool.and_eq_true, decide_eq_true_eq, List.all_eq_true, List.mem_filter, and_imp, Shouted,
    Nat.succ_le_iff]

theorem capitalized_iff {word : List Char} :
    (word.head?.map Text.isUppercase).getD false = true ↔ Capitalized word := by
  cases word <;> simp [Capitalized]

theorem matchCase_inCapitals (word small : List Char) :
    InCapitalsOf word small (matchCase word small) := by
  unfold matchCase
  dsimp only
  constructor
  · intro h
    rw [if_pos (shouted_iff.mpr h)]
  · intro h hfirst
    rw [if_neg (mt shouted_iff.mp h), if_pos (capitalized_iff.mpr hfirst)]
  · intro h hfirst
    rw [if_neg (mt shouted_iff.mp h), if_neg (mt capitalized_iff.mp hfirst)]

theorem matchCase_ne_nil (word : List Char) {small : List Char} (h : small ≠ []) :
    matchCase word small ≠ [] := by
  unfold matchCase
  dsimp only
  split
  · exact Text.uppercase_ne_nil h
  · split
    · obtain ⟨c, cs, rfl⟩ := List.exists_cons_of_ne_nil h
      simp [capitalizeWith, Text.upper_ne_nil]
    · exact h

/-! ### Phrases -/

/-- What a word becomes: it is inflected in small letters, and gets its capitals back. -/
def inflectedWord (inflect : List Char → List Char) (word : List Char) : List Char :=
  if word.isEmpty then [] else matchCase word (inflect (Text.lowercase word))

theorem inflectLast_eq (inflect : List Char → List Char) (phrase : List Char) :
    inflectLast inflect phrase = (splitLastWord phrase).head ++
      inflectedWord inflect (splitLastWord phrase).word ++ (splitLastWord phrase).tail := by
  unfold inflectLast inflectedWord
  dsimp only
  split
  · rename_i hempty
    have hparts := splitLastWord_append phrase
    rw [List.isEmpty_iff.mp hempty] at hparts
    exact hparts.symm
  · rfl

theorem inflectedWord_of_ne_nil {inflect : List Char → List Char} {word : List Char} (h : word ≠ []) :
    inflectedWord inflect word = matchCase word (inflect (Text.lowercase word)) := by
  rw [inflectedWord, if_neg (by simpa using h)]

/-- **Only the last word of a phrase is inflected.** Every phrase falls into a head that is empty or ends
in white space, a word without white space, and a tail of nothing but white space, and the places that
cut it, counted in bytes, are places between its characters. The plural and the singular keep the head
and the tail. What stands between them is made from the word alone and is not empty unless the word is,
when the phrase stays as it is; it is the inflected word in small letters with the capitals of the word.
Taking two bytes off an ending takes two characters off it. -/
theorem only_last_word_inflected (phrase : String) :
    ∃ head word tail : List Char,
      phrase.toList = head ++ word ++ tail ∧ (∀ c ∈ tail, Text.isBlank c = true) ∧
        (∀ c ∈ word, Text.isBlank c = false) ∧ (∀ c ∈ head.getLast?, Text.isBlank c = true) ∧
        slicedLastWord? phrase.toList = some ⟨head, word, tail⟩ ∧
        (∀ small, slicedSingular? small = some (regularSingular small)) ∧
        pluralize phrase = String.ofList (head ++ inflectedWord pluralWord word ++ tail) ∧
        singularize phrase = String.ofList (head ++ inflectedWord singularWord word ++ tail) ∧
        (word = [] → pluralize phrase = phrase ∧ singularize phrase = phrase) ∧
        (word ≠ [] → inflectedWord pluralWord word ≠ [] ∧ inflectedWord singularWord word ≠ [] ∧
          InCapitalsOf word (pluralWord (Text.lowercase word)) (inflectedWord pluralWord word) ∧
          InCapitalsOf word (singularWord (Text.lowercase word)) (inflectedWord singularWord word)) := by
  have hparts := splitLastWord_append phrase.toList
  have hall (inflect : List Char → List Char) :
      String.ofList (inflectLast inflect phrase.toList) =
        String.ofList ((splitLastWord phrase.toList).head ++
          inflectedWord inflect (splitLastWord phrase.toList).word ++
          (splitLastWord phrase.toList).tail) := by
    rw [inflectLast_eq]
  refine ⟨_, _, _, hparts.symm, tail_blank _, word_solid _, head_ends_blank _, slicedLastWord?_eq _,
    slicedSingular?_eq, hall pluralWord, hall singularWord, fun hempty => ?_, fun hne => ?_⟩
  · have hsame (inflect : List Char → List Char) :
        String.ofList (inflectLast inflect phrase.toList) = phrase := by
      rw [inflectLast, if_pos (List.isEmpty_iff.mpr hempty), String.ofList_toList]
    exact ⟨hsame pluralWord, hsame singularWord⟩
  · have hsmall := Text.lowercase_ne_nil hne
    rw [inflectedWord_of_ne_nil hne, inflectedWord_of_ne_nil hne]
    exact ⟨matchCase_ne_nil _ (pluralWord_ne_nil hsmall), matchCase_ne_nil _ (singularWord_ne_nil hsmall),
      matchCase_inCapitals _ _, matchCase_inCapitals _ _⟩

/-- White space of three bytes stays behind the word, and the word is cut by its bytes. -/
example : singularize "zwei ÖL-BOXES\u3000" = "zwei ÖL-BOX\u3000" := by decide +kernel

end Fabula.Inflect
