import Fabula.Numeral.Reading
import Fabula.Template.Basic

/-!
# Fabula.Template.Format

**Filling in a pattern.** Every placeholder `{i}` gives way to value `i`; a placeholder without a
value, and every other brace, stays as it is. What is filled in is not looked at again, so a value may
hold braces of its own.
-/

namespace Fabula.Template

/-- The number of a placeholder, from the characters after its opening brace, with the characters
after its closing brace. -/
def placeholder? (cs : List Char) : Option (Nat × List Char) :=
  match cs.dropWhile (· ≠ '}') with
  | [] => none
  | _ :: rest =>
    (Numeral.readNat? Numeral.countMax (cs.takeWhile (· ≠ '}'))).map fun i => (i, rest)

/-- The value for a placeholder that starts here, with the characters after it. -/
def placeholderValue? (values : Array String) (cs : List Char) : Option (String × List Char) :=
  (placeholder? cs).bind fun (i, rest) => values[i]?.map fun value => (value, rest)

theorem placeholderValue?_length {values : Array String} {cs rest : List Char} {value : String}
    (h : placeholderValue? values cs = some (value, rest)) : rest.length < cs.length := by
  unfold placeholderValue? placeholder? at h
  split at h
  · simp at h
  · rename_i c tail heq
    have hd : (cs.dropWhile (· ≠ '}')).length ≤ cs.length :=
      (List.dropWhile_suffix _).length_le
    rw [heq] at hd
    simp only [Option.bind_eq_some_iff, Option.map_eq_some_iff] at h
    obtain ⟨p, ⟨i, _, rfl⟩, v, _, hv⟩ := h
    simp only [Prod.mk.injEq] at hv
    obtain ⟨_, rfl⟩ := hv
    simp only [List.length_cons] at hd
    omega

/-- The rest of a pattern filled in, after `out`. -/
def fillFrom (values : Array String) (out : String) (cs : List Char) : String :=
  match cs with
  | [] => out
  | c :: cs =>
    if c = '{' then
      match h : placeholderValue? values cs with
      | some (value, rest) =>
        have := placeholderValue?_length h
        fillFrom values (out ++ value) rest
      | none => fillFrom values (out.push c) cs
    else fillFrom values (out.push c) cs
termination_by cs.length

/-- The pattern of a template with `values` filled in. -/
def fill (t : Template) (values : List String) : String :=
  fillFrom values.toArray "" t.pattern.toList

end Fabula.Template
