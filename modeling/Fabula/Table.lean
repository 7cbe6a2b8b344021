/-!
# Fabula.Table

**Tables**: finite maps from names to values that remember the order in which the names came. Putting
a value under a name that is taken replaces the value where it stands, so the order of the names never
changes and every name stands once. Rules, variables, models and overrides of a grammar are tables,
and so are the declarations of a template.
-/

namespace Fabula

/-- A map from names to values in the order of first insertion. -/
abbrev Table (α : Type) := List (String × α)

namespace Table

variable {α : Type}

/-- The names, in order. -/
def names (t : Table α) : List String := t.map Prod.fst

/-- The value under `name`. -/
def get? (t : Table α) (name : String) : Option α :=
  match t with
  | [] => none
  | (n, a) :: rest => if n = name then some a else get? rest name

/-- `name` is taken. -/
def has (t : Table α) (name : String) : Bool := (t.get? name).isSome

/-- Put `value` under `name`: where the name stands, else at the end. -/
def put (t : Table α) (name : String) (value : α) : Table α :=
  match t with
  | [] => [(name, value)]
  | (n, a) :: rest => if n = name then (n, value) :: rest else (n, a) :: put rest name value

/-- Put every entry of `u` into `t`. -/
def putAll (t u : Table α) : Table α := u.foldl (fun t e => t.put e.1 e.2) t

/-- Change the value under `name`, starting from `initial` when there is none. -/
def modify (t : Table α) (name : String) (initial : α) (f : α → α) : Table α :=
  match t with
  | [] => [(name, f initial)]
  | (n, a) :: rest => if n = name then (n, f a) :: rest else (n, a) :: modify rest name initial f

/-- The names, lowest first. -/
def sortedNames (t : Table α) : List String := t.names.mergeSort

@[simp] theorem get?_nil (name : String) : get? ([] : Table α) name = none := rfl

theorem get?_cons (n : String) (a : α) (t : Table α) (name : String) :
    get? ((n, a) :: t) name = if n = name then some a else t.get? name := rfl

/-- A value just changed is found changed, and every other name keeps what it had. -/
theorem get?_modify (t : Table α) (name : String) (initial : α) (f : α → α) (other : String) :
    (t.modify name initial f).get? other =
      if name = other then some (f ((t.get? name).getD initial)) else t.get? other := by
  induction t with
  | nil => simp [modify, get?_cons]
  | cons e t ih =>
    obtain ⟨n, a⟩ := e
    by_cases h : n = name
    · subst h
      by_cases ho : n = other <;> simp [modify, get?_cons, ho]
    · by_cases ho : n = other
      · subst ho
        simp [modify, get?_cons, h, Ne.symm h]
      · simp [modify, get?_cons, h, ho, ih]

/-- Putting a value is changing what is there into that value. -/
theorem put_eq_modify (t : Table α) (name : String) (value : α) :
    t.put name value = t.modify name value fun _ => value := by
  induction t with
  | nil => rfl
  | cons e t ih => simp [put, modify, ih]

/-- A value just put is found again, and every other name keeps what it had. -/
theorem get?_put (t : Table α) (name : String) (value : α) (other : String) :
    (t.put name value).get? other = if name = other then some value else t.get? other := by
  rw [put_eq_modify, get?_modify]

theorem get?_append (t u : Table α) (name : String) :
    get? (t ++ u) name = (t.get? name).or (u.get? name) := by
  induction t with
  | nil => rfl
  | cons e t ih =>
    obtain ⟨n, a⟩ := e
    by_cases h : n = name <;> simp [get?_cons, h, ih]

theorem get?_map {β : Type} (f : α → β) (t : Table α) (name : String) :
    get? (t.map fun e => (e.1, f e.2)) name = (t.get? name).map f := by
  induction t with
  | nil => rfl
  | cons e t ih =>
    obtain ⟨n, a⟩ := e
    by_cases h : n = name <;> simp [get?_cons, h, ih]

theorem mem_of_get? {t : Table α} {name : String} {a : α} (h : t.get? name = some a) :
    (name, a) ∈ t := by
  induction t with
  | nil => cases h
  | cons e t ih =>
    obtain ⟨n, b⟩ := e
    rw [get?_cons] at h
    by_cases hn : n = name
    · rw [if_pos hn] at h
      cases h
      exact hn ▸ List.mem_cons_self
    · rw [if_neg hn] at h
      exact List.mem_cons_of_mem _ (ih h)

theorem mem_names {t : Table α} {name : String} : name ∈ t.names ↔ t.has name = true := by
  unfold has
  induction t with
  | nil => simp [names]
  | cons e t ih =>
    obtain ⟨n, a⟩ := e
    unfold names at ih
    by_cases hn : n = name
    · simp [names, get?_cons, hn]
    · simp [names, get?_cons, hn, Ne.symm hn, ih]

/-- When every name stands once, every entry is found. -/
theorem get?_of_mem {t : Table α} (ht : t.names.Nodup) {name : String} {a : α}
    (h : (name, a) ∈ t) : t.get? name = some a := by
  induction t with
  | nil => cases h
  | cons e t ih =>
    obtain ⟨n, b⟩ := e
    have ⟨hn, ht⟩ := List.nodup_cons.mp ht
    rw [get?_cons]
    rcases List.mem_cons.mp h with heq | h
    · cases heq
      rw [if_pos rfl]
    · have hmem : name ∈ names t := List.mem_map_of_mem (f := Prod.fst) h
      rw [if_neg (by rintro rfl; exact hn hmem), ih ht h]

/-- The order of the entries does not matter then. -/
theorem get?_perm {t u : Table α} (h : t.Perm u) (ht : t.names.Nodup) (name : String) :
    u.get? name = t.get? name := by
  have hu : u.names.Nodup := (h.map Prod.fst).nodup_iff.mp ht
  apply Option.ext
  intro a
  exact ⟨fun ha => get?_of_mem ht (h.mem_iff.mpr (mem_of_get? ha)),
    fun ha => get?_of_mem hu (h.mem_iff.mp (mem_of_get? ha))⟩

/-- An entry after a change was there before, or is what has been changed. -/
theorem mem_modify {t : Table α} {name : String} {initial : α} {f : α → α} {e : String × α}
    (h : e ∈ t.modify name initial f) : e ∈ t ∨ e = (name, f ((t.get? name).getD initial)) := by
  induction t with
  | nil => exact .inr (List.mem_singleton.mp h)
  | cons e' t ih =>
    obtain ⟨n, a⟩ := e'
    rw [modify] at h
    rw [get?_cons]
    by_cases hn : n = name
    · rw [if_pos hn] at h ⊢
      rcases List.mem_cons.mp h with rfl | h
      · exact .inr (by rw [hn]; rfl)
      · exact .inl (List.mem_cons_of_mem _ h)
    · rw [if_neg hn] at h ⊢
      rcases List.mem_cons.mp h with rfl | h
      · exact .inl List.mem_cons_self
      · exact (ih h).imp_left (List.mem_cons_of_mem _)

/-- An entry after something has been put was there before, or is what has been put. -/
theorem mem_put {t : Table α} {name : String} {a : α} {e : String × α}
    (h : e ∈ t.put name a) : e ∈ t ∨ e = (name, a) := by
  rw [put_eq_modify] at h
  exact mem_modify h

theorem names_modify (t : Table α) (name : String) (initial : α) (f : α → α) :
    (t.modify name initial f).names = if name ∈ t.names then t.names else t.names ++ [name] := by
  induction t with
  | nil => simp [modify, names]
  | cons e t ih =>
    obtain ⟨n, a⟩ := e
    unfold names at ih
    by_cases h : n = name
    · simp [modify, names, h]
    · by_cases hmem : name ∈ t.map Prod.fst <;> simp_all [modify, names, Ne.symm h]

theorem nodup_modify {t : Table α} (ht : t.names.Nodup) (name : String) (initial : α) (f : α → α) :
    (t.modify name initial f).names.Nodup := by
  rw [names_modify]
  by_cases h : name ∈ t.names
  · rwa [if_pos h]
  · rw [if_neg h]
    exact List.nodup_append.mpr ⟨ht, by simp, fun a ha b hb heq => h (by simp_all)⟩

theorem names_put (t : Table α) (name : String) (value : α) :
    (t.put name value).names = if name ∈ t.names then t.names else t.names ++ [name] := by
  rw [put_eq_modify, names_modify]

theorem nodup_put {t : Table α} (ht : t.names.Nodup) (name : String) (value : α) :
    (t.put name value).names.Nodup := by
  rw [put_eq_modify]
  exact nodup_modify ht name value _

theorem nodup_putAll {t : Table α} (ht : t.names.Nodup) (u : Table α) :
    (t.putAll u).names.Nodup := by
  unfold putAll
  induction u generalizing t with
  | nil => exact ht
  | cons e u ih => exact ih (nodup_put ht e.1 e.2)

/-- Putting what is there changes nothing. -/
theorem put_self {t : Table α} {name : String} {a : α} (h : t.get? name = some a) :
    t.put name a = t := by
  induction t with
  | nil => cases h
  | cons e t ih =>
    obtain ⟨n, b⟩ := e
    rw [get?_cons] at h
    by_cases hn : n = name
    · rw [if_pos hn] at h
      cases h
      simp [put, hn]
    · rw [if_neg hn] at h
      simp [put, hn, ih h]

theorem putAll_self {t u : Table α} (h : ∀ e ∈ u, t.get? e.1 = some e.2) : t.putAll u = t := by
  unfold putAll
  induction u with
  | nil => rfl
  | cons e u ih =>
    have ⟨he, hu⟩ := List.forall_mem_cons.mp h
    rw [List.foldl_cons, put_self he, ih hu]

theorem get?_eq_none {t : Table α} {name : String} (h : name ∉ t.names) : t.get? name = none := by
  rw [mem_names, has] at h
  simpa using h

theorem mem_names_of_mem {t : Table α} {name : String} {a : α} (h : (name, a) ∈ t) :
    name ∈ t.names :=
  List.mem_map_of_mem h

theorem has_put (t : Table α) (name : String) (value : α) (other : String) :
    (t.put name value).has other = (decide (name = other) || t.has other) := by
  unfold has
  rw [get?_put]
  by_cases h : name = other <;> simp [h]

theorem has_eq_false {t : Table α} {name : String} (h : t.get? name = none) :
    t.has name = false := by
  rw [has, h]
  rfl

/-- A name that is taken keeps its position. -/
theorem put_of_mem {t : Table α} (ht : t.names.Nodup) {name : String} (h : name ∈ t.names)
    (value : α) : t.put name value = t.map fun e => if e.1 = name then (e.1, value) else e := by
  induction t with
  | nil => cases h
  | cons e t ih =>
    obtain ⟨n, a⟩ := e
    have ⟨hn, ht⟩ := List.nodup_cons.mp ht
    by_cases heq : n = name
    · subst heq
      have hrest : ∀ e ∈ t, (if e.1 = n then (e.1, value) else e) = e := fun e he =>
        if_neg fun heq => hn (by rw [← heq]; exact mem_names_of_mem he)
      rw [put, if_pos rfl, List.map_cons, if_pos rfl, List.map_congr_left hrest, List.map_id']
    · have hmem : name ∈ names t := (List.mem_cons.mp h).resolve_left (Ne.symm heq)
      rw [put, if_neg heq, ih ht hmem, List.map_cons, if_neg heq]

/-- A new name comes last. -/
theorem put_of_not_mem {t : Table α} {name : String} (h : name ∉ t.names) (value : α) :
    t.put name value = t ++ [(name, value)] := by
  induction t with
  | nil => rfl
  | cons e t ih =>
    obtain ⟨n, a⟩ := e
    have hn : n ≠ name := fun heq => h (heq ▸ List.mem_cons_self)
    have hrest : name ∉ names t := fun hmem => h (List.mem_cons_of_mem _ hmem)
    rw [put, if_neg hn, ih hrest, List.cons_append]

/-- The entries of `u` are put where their names stand, and those with new names come after the rest in
their own order. -/
theorem putAll_eq {t u : Table α} (ht : t.names.Nodup) (hu : u.names.Nodup) :
    t.putAll u = t.map (fun e => (e.1, (u.get? e.1).getD e.2)) ++ u.filter (!t.has ·.1) := by
  induction u generalizing t with
  | nil => simp [putAll]
  | cons e u ih =>
    obtain ⟨n, a⟩ := e
    have ⟨hn, hu⟩ := List.nodup_cons.mp hu
    have hnone : get? u n = none := get?_eq_none hn
    have hnew : ∀ e ∈ u, n ≠ e.1 := fun e he heq =>
      hn (by rw [heq]; exact mem_names_of_mem he)
    have hfilter : u.filter (!(t.put n a).has ·.1) = u.filter (!t.has ·.1) :=
      List.filter_congr fun e he => by simp [has_put, hnew e he]
    rw [show t.putAll ((n, a) :: u) = (t.put n a).putAll u from rfl, ih (nodup_put ht n a) hu, hfilter]
    by_cases hmem : n ∈ t.names
    · -- the first entry of `u` is put where its name stands
      have htaken : t.has n = true := mem_names.mp hmem
      rw [put_of_mem ht hmem, List.map_map, List.filter_cons_of_neg (by simp [htaken])]
      congr 1
      refine List.map_congr_left fun e _ => ?_
      by_cases he : e.1 = n
      · simp [get?_cons, he, hnone]
      · simp [get?_cons, he, Ne.symm he]
    · -- its name is new, so it is the first of those that come after the rest
      have hfree : t.has n = false := by simpa [mem_names] using hmem
      have hold : ∀ e ∈ t, n ≠ e.1 := fun e he heq =>
        hmem (by rw [heq]; exact mem_names_of_mem he)
      have hmap : ∀ e ∈ t, (e.1, (get? u e.1).getD e.2) = (e.1, (get? ((n, a) :: u) e.1).getD e.2) :=
        fun e he => by rw [get?_cons, if_neg (hold e he)]
      rw [put_of_not_mem hmem, List.map_append, List.map_congr_left hmap,
        List.filter_cons_of_pos (by simp [hfree])]
      simp [hnone]

/-- What is found after all entries have been put: those that were put count first. -/
theorem get?_putAll (t : Table α) {u : Table α} (hu : u.names.Nodup) (name : String) :
    (t.putAll u).get? name = (u.get? name).or (t.get? name) := by
  induction u generalizing t with
  | nil => rfl
  | cons e u ih =>
    obtain ⟨n, a⟩ := e
    have ⟨hn, hu⟩ := List.nodup_cons.mp hu
    rw [show t.putAll ((n, a) :: u) = (t.put n a).putAll u from rfl, ih _ hu, get?_put, get?_cons]
    by_cases h : n = name
    · subst h
      rw [if_pos rfl, if_pos rfl, get?_eq_none hn]
      rfl
    · rw [if_neg h, if_neg h]

/-- It does not matter which of three tables are put together first. -/
theorem putAll_assoc {t u v : Table α} (ht : t.names.Nodup) (hu : u.names.Nodup)
    (hv : v.names.Nodup) : (t.putAll u).putAll v = t.putAll (u.putAll v) := by
  have hhas : ∀ name, (t.putAll u).has name = (u.has name || t.has name) := fun name => by
    unfold has
    rw [get?_putAll t hu, Option.isSome_or]
  rw [putAll_eq (nodup_putAll ht u) hv, putAll_eq ht (nodup_putAll hu v)]
  simp only [hhas, get?_putAll u hv]
  rw [putAll_eq ht hu, putAll_eq hu hv, List.map_append, List.filter_append, List.append_assoc,
    List.map_map, List.filter_map, List.filter_filter]
  congr 1
  · refine List.map_congr_left fun e _ => ?_
    cases h : get? v e.1 <;> simp [h]
  · congr 1
    refine List.filter_congr fun e _ => ?_
    cases u.has e.1 <;> simp

end Table

end Fabula
