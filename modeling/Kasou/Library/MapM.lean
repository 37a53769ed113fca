import Mathlib.Data.List.Forall2

/-!
# Reading all elements of a list

A list is read with a reader that may fail on an element, and the whole fails
when one element does.  What is read stands to the list element by element,
and everything else follows from that.
-/

namespace MapM

variable {α β : Type*} {f : α → Option β} {xs : List α} {ys : List β}

theorem eq_some_iff : xs.mapM f = some ys ↔
    List.Forall₂ (fun x y => f x = some y) xs ys := by
  induction xs generalizing ys with
  | nil =>
      rw [List.mapM_nil, List.forall₂_nil_left_iff, Option.pure_def,
        Option.some.injEq, eq_comm]
  | cons x xs ih =>
      rw [List.mapM_cons, List.forall₂_cons_left_iff]
      simp only [Option.bind_eq_bind, Option.bind_eq_some_iff,
        Option.pure_def, Option.some.injEq, ih]
      constructor
      · rintro ⟨y, hy, zs, hzs, rfl⟩
        exact ⟨y, zs, hy, hzs, rfl⟩
      · rintro ⟨y, zs, hy, hzs, rfl⟩
        exact ⟨y, hy, zs, hzs, rfl⟩

theorem length_eq (h : xs.mapM f = some ys) : ys.length = xs.length :=
  (eq_some_iff.mp h).length_eq.symm

/-- Every element has been read. -/
theorem exists_of_mem (h : xs.mapM f = some ys) :
    ∀ x ∈ xs, ∃ y, f x = some y := by
  have hread := eq_some_iff.mp h
  clear h
  induction hread with
  | nil => exact List.forall_mem_nil _
  | cons hx hxs ih => exact List.forall_mem_cons.mpr ⟨⟨_, hx⟩, ih⟩

/-- What is read when the reader takes the elements with `P` and computes
`v`. -/
theorem eq_some_iff_map {P : α → Prop} {v : α → β}
    (h : ∀ x y, f x = some y ↔ P x ∧ y = v x) :
    xs.mapM f = some ys ↔ (∀ x ∈ xs, P x) ∧ ys = xs.map v := by
  simp only [eq_some_iff, h, List.forall₂_and_left]
  refine and_congr_right fun _ => ?_
  rw [eq_comm, ← List.forall₂_eq_eq_eq, List.forall₂_map_left_iff]
  simp only [eq_comm]

end MapM
