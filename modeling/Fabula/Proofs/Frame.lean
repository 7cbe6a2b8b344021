import Mathlib
import Fabula.Proofs.Invariant

/-!
# Fabula.Proofs.Frame

**The frame of an expansion**: what a context keeps while something is expanded in it. The depth, the
scopes with all their names, and the flag of the globals are as they were; there are as many trackers
as before, and each of them, like the record of produced texts, has only gained entries
(`Context.Frame`).

The relation is an `Invariant`, so it holds between the ends of every expansion. Inside a template the
innermost scope is open to change (`Context.InnerFrame`); it goes when the template is closed.
-/

namespace Fabula

variable {σ : Type}

namespace Context

/-! ### Trackers -/

/-- The same trackers are active, and each has seen what it had seen before. -/
def TrackersGrow (c c' : Context σ) : Prop := List.Forall₂ (· ⊆ ·) c.trackers c'.trackers

theorem TrackersGrow.refl (c : Context σ) : c.TrackersGrow c :=
  List.forall₂_same.mpr fun tracker _ => List.Subset.refl tracker

theorem TrackersGrow.trans {a b c : Context σ} (hab : a.TrackersGrow b) (hbc : b.TrackersGrow c) :
    a.TrackersGrow c := by
  unfold TrackersGrow at *
  generalize a.trackers = first, b.trackers = second, c.trackers = third at hab hbc
  induction hab generalizing third with
  | nil =>
    cases hbc
    exact .nil
  | cons h _ ih =>
    cases hbc with
    | cons h' hrest => exact .cons (List.Subset.trans h h') (ih _ hrest)

theorem TrackersGrow.mark (c : Context σ) (slot : Slot) : c.TrackersGrow (c.markSeen slot) :=
  List.forall₂_map_right_iff.mpr
    (List.forall₂_same.mpr fun _ _ _ h => List.mem_insert_of_mem h)

theorem TrackersGrow.pop {c c' : Context σ} (h : c.pushTracker.TrackersGrow c') :
    c.TrackersGrow c'.popTracker := by
  unfold TrackersGrow pushTracker popTracker at *
  dsimp only at *
  generalize c'.trackers = trackers at h
  cases h with
  | cons _ hrest => exact hrest

theorem TrackersGrow.tracking {c c' : Context σ} (h : c.TrackersGrow c') :
    c'.tracking = c.tracking := by
  unfold TrackersGrow at h
  unfold Context.tracking
  generalize c.trackers = before, c'.trackers = after at h
  cases h <;> rfl

/-- What some tracker has seen stays seen. -/
theorem TrackersGrow.isSeen {c c' : Context σ} (h : c.TrackersGrow c') {slot : Slot}
    (hs : c.isSeen slot = true) : c'.isSeen slot = true := by
  unfold TrackersGrow at h
  unfold Context.isSeen at *
  generalize c.trackers = before, c'.trackers = after at h hs
  induction h with
  | nil => cases hs
  | cons hsub _ ih =>
    simp only [List.any_cons, Bool.or_eq_true, List.contains_iff_mem] at hs ⊢
    rcases hs with hs | hs
    · exact Or.inl (hsub hs)
    · exact Or.inr (ih hs)

theorem TrackersGrow.invariant : Invariant (TrackersGrow (σ := σ)) TrackersGrow where
  refl := .refl
  trans := .trans
  inner := id
  innerTrans := .trans
  draw c _ := .refl c
  produce c _ := .refl c
  mark := .mark
  assign c name value := by
    unfold Context.assign
    split
    · exact .refl c
    · exact .refl c
  template := id
  globals _ := id
  tracker := .pop

/-! ### Frames -/

/-- What a context keeps while something is expanded in it. -/
structure Frame (c c' : Context σ) : Prop where
  /-- The depth is the same. -/
  depth : c'.depth = c.depth
  /-- The scopes are the same, with all their names. -/
  scopes : c'.scopes = c.scopes
  /-- The globals are loaded if they were. -/
  globalsLoaded : c'.globalsLoaded = c.globalsLoaded
  /-- The trackers have only gained entries. -/
  trackers : c.TrackersGrow c'
  /-- No produced text is forgotten. -/
  produced : ∀ e ∈ c.produced, e ∈ c'.produced

/-- What a context keeps while a template is open in it: a frame but for the innermost scope. -/
structure InnerFrame (c c' : Context σ) : Prop where
  /-- The depth is the same. -/
  depth : c'.depth = c.depth
  /-- The outer scopes are the same. -/
  outer : c'.scopes.tail = c.scopes.tail
  /-- The globals are loaded if they were. -/
  globalsLoaded : c'.globalsLoaded = c.globalsLoaded
  /-- The trackers have only gained entries. -/
  trackers : c.TrackersGrow c'
  /-- No produced text is forgotten. -/
  produced : ∀ e ∈ c.produced, e ∈ c'.produced

theorem Frame.refl (c : Context σ) : c.Frame c :=
  ⟨rfl, rfl, rfl, .refl c, fun _ h => h⟩

theorem Frame.trans {a b c : Context σ} (h : a.Frame b) (h' : b.Frame c) : a.Frame c :=
  ⟨h'.depth.trans h.depth, h'.scopes.trans h.scopes, h'.globalsLoaded.trans h.globalsLoaded,
    h.trackers.trans h'.trackers, fun e he => h'.produced e (h.produced e he)⟩

theorem Frame.inner {a b : Context σ} (h : a.Frame b) : a.InnerFrame b :=
  ⟨h.depth, congrArg List.tail h.scopes, h.globalsLoaded, h.trackers, h.produced⟩

theorem InnerFrame.trans {a b c : Context σ} (h : a.InnerFrame b) (h' : b.InnerFrame c) :
    a.InnerFrame c :=
  ⟨h'.depth.trans h.depth, h'.outer.trans h.outer, h'.globalsLoaded.trans h.globalsLoaded,
    h.trackers.trans h'.trackers, fun e he => h'.produced e (h.produced e he)⟩

theorem InnerFrame.assign (c : Context σ) (name value : String) :
    c.InnerFrame (c.assign name value) := by
  unfold Context.assign
  split
  · exact (Frame.refl c).inner
  · rename_i scope outer hscopes
    exact ⟨rfl, by rw [hscopes]; rfl, rfl, .refl c, fun _ h => h⟩

/-- Closing a template takes away the scope that was open to change. -/
theorem InnerFrame.leaveTemplate {c c' : Context σ} (h : c.enterTemplate.InnerFrame c') :
    c.Frame c'.leaveTemplate where
  depth := by
    show c'.depth - 1 = c.depth
    rw [h.depth]
    rfl
  scopes := h.outer
  globalsLoaded := h.globalsLoaded
  trackers := h.trackers
  produced := h.produced

theorem InnerFrame.leaveGlobals {c c' : Context σ} (hc : c.globalsLoaded = false)
    (h : c.enterGlobals.InnerFrame c') : c.Frame c'.leaveGlobals where
  depth := h.depth
  scopes := h.outer
  globalsLoaded := hc.symm
  trackers := h.trackers
  produced := h.produced

theorem Frame.invariant : Invariant (Frame (σ := σ)) InnerFrame where
  refl := .refl
  trans := .trans
  inner := Frame.inner
  innerTrans := .trans
  draw c _ := ⟨rfl, rfl, rfl, .refl c, fun _ h => h⟩
  produce c _ := ⟨rfl, rfl, rfl, .refl c, fun _ h => Std.HashSet.mem_insert.mpr (Or.inr h)⟩
  mark c slot := ⟨rfl, rfl, rfl, .mark c slot, fun _ h => h⟩
  assign := .assign
  template := InnerFrame.leaveTemplate
  globals := InnerFrame.leaveGlobals
  tracker h := ⟨h.depth, h.scopes, h.globalsLoaded, h.trackers.pop, h.produced⟩

end Context

end Fabula
