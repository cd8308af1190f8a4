import Mathlib.Logic.Relation
/-!
# Nodes that lead to a bad one

A node of a graph is doomed if it is bad or a path leads from it to a bad one.
The rules say when a node that is not doomed stays so while edges and bad nodes
are added.
-/

universe u

open Relation

section Doomed

variable {κ : Type u} {r r' : κ → κ → Prop} {bad bad' : κ → Prop} {x y : κ}

/-- `x`, or some node that `x` leads to, is bad. -/
def Doomed (r : κ → κ → Prop) (bad : κ → Prop) (x : κ) : Prop :=
  ∃ y, ReflTransGen r x y ∧ bad y

theorem doomed_of_bad (h : bad x) : Doomed r bad x :=
  ⟨x, .refl, h⟩

theorem Doomed.head (hxy : r x y) (h : Doomed r bad y) : Doomed r bad x := by
  obtain ⟨z, hyz, hz⟩ := h
  exact ⟨z, hyz.head hxy, hz⟩

/-- The nodes one step away decide whether a proper path leads to a bad node. -/
theorem forall_transGen_iff :
    (∀ z, TransGen r x z → ¬bad z) ↔ ∀ y, r x y → ¬Doomed r bad y := by
  constructor
  · rintro h y hxy ⟨z, hyz, hz⟩
    exact h z (.head' hxy hyz) hz
  · intro h z hxz hz
    obtain ⟨y, hxy, hyz⟩ := TransGen.head'_iff.mp hxz
    exact h y hxy ⟨z, hyz, hz⟩

/-- New edges lead to nodes that were not doomed, and no new bad node is reached. -/
theorem not_doomed_of_step {new : κ → Prop} (hedge : ∀ x y, r' x y → r x y ∨ ¬Doomed r bad y)
    (hbad : ∀ y, bad' y → bad y ∨ new y) (hfree : ∀ y, ReflTransGen r' x y → ¬new y)
    (h : ¬Doomed r bad x) : ¬Doomed r' bad' x := by
  rintro ⟨z, hxz, hz⟩
  rcases hbad z hz with hold | hnew
  · clear hfree
    induction hxz using ReflTransGen.head_induction_on with
    | refl => exact h (doomed_of_bad hold)
    | head hxy _ ih =>
        rcases hedge _ _ hxy with hsame | hsound
        · exact ih (fun hdoomed => h (hdoomed.head hsame))
        · exact ih hsound
  · exact hfree z hxz hnew

end Doomed
