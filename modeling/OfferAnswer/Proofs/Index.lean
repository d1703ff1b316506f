/-
OfferAnswer/Proofs/Index.lean

What lists hold after an operation at an index.
-/
import OfferAnswer.Index
import Mathlib.Data.List.Basic

namespace OfferAnswer.Index

variable {α : Type} {xs ys : List α} {i : Int} {x y : α} {f : α → α}

theorem mem_of_get? (h : get? xs i = some x) : x ∈ xs := by
  obtain ⟨n, -, hn⟩ := Option.bind_eq_some_iff.mp h
  exact List.mem_of_getElem? hn

/-- The elements at some indexes. -/
theorem mem_of_mapM_get? {is : List Int} (h : is.mapM (get? xs) = some ys) :
    ys ⊆ xs ∧ ys.length = is.length := by
  induction is generalizing ys with
  | nil =>
    obtain rfl := Option.some.inj h
    simp
  | cons i is ih =>
    rw [List.mapM_cons] at h
    obtain ⟨y, hy, h⟩ := Option.bind_eq_some_iff.mp h
    obtain ⟨ys', hys', h⟩ := Option.bind_eq_some_iff.mp h
    obtain rfl := Option.some.inj h
    obtain ⟨hsub, hlength⟩ := ih hys'
    exact ⟨List.cons_subset.mpr ⟨mem_of_get? hy, hsub⟩, by simp [hlength]⟩

/-- An element that is there can be changed. -/
theorem exists_modify?_of_get? (h : get? xs i = some x) (f : α → α) :
    ∃ ys, modify? xs i f = some ys := by
  obtain ⟨n, hn, -⟩ := Option.bind_eq_some_iff.mp h
  exact ⟨_, Option.map_eq_some_iff.mpr ⟨n, hn, rfl⟩⟩

/-- What a changed list holds was there before, or is what an element was
changed to. -/
theorem mem_of_modify? (h : modify? xs i f = some ys) (hy : y ∈ ys) :
    y ∈ xs ∨ ∃ x ∈ xs, y = f x := by
  obtain ⟨n, -, rfl⟩ := Option.map_eq_some_iff.mp h
  obtain ⟨j, hj, rfl⟩ := List.mem_iff_getElem.mp hy
  rw [List.getElem_modify]
  rw [List.length_modify] at hj
  split
  · exact .inr ⟨xs[j], List.getElem_mem hj, rfl⟩
  · exact .inl (List.getElem_mem hj)

/-- A change at an index changes what stands there, and nothing else. -/
theorem mem_modify? (hx : get? xs i = some x) (h : modify? xs i f = some ys) :
    f x ∈ ys ∧ ∀ y ∈ xs, y = x ∨ y ∈ ys := by
  obtain ⟨n, hn, hx⟩ := Option.bind_eq_some_iff.mp hx
  obtain ⟨n', hn', rfl⟩ := Option.map_eq_some_iff.mp h
  obtain rfl := Option.some.inj (hn.symm.trans hn')
  refine ⟨List.mem_of_getElem? (i := n) (by simp [hx]), fun y hy => ?_⟩
  obtain ⟨j, hj⟩ := List.mem_iff_getElem?.mp hy
  rcases eq_or_ne n j with rfl | hne
  · exact .inl (Option.some.inj (hj.symm.trans hx))
  · exact .inr (List.mem_of_getElem? (i := j) (by simp [hj, hne]))

theorem ne_nil_of_modify? (h : modify? xs i f = some ys) (hne : xs ≠ []) : ys ≠ [] := by
  obtain ⟨n, -, rfl⟩ := Option.map_eq_some_iff.mp h
  exact fun he => hne (List.modify_eq_nil_iff.mp he)

theorem mem_of_take? (h : take? xs i = some (x, ys)) : x ∈ xs ∧ ys ⊆ xs := by
  obtain ⟨n, -, h⟩ := Option.bind_eq_some_iff.mp h
  obtain ⟨x', hx', h⟩ := Option.bind_eq_some_iff.mp h
  obtain ⟨rfl, rfl⟩ := Prod.mk.inj (Option.some.inj h)
  exact ⟨List.mem_of_getElem? hx', List.eraseIdx_subset⟩

theorem mem_of_mem_insert (h : y ∈ insert xs i x) : y = x ∨ y ∈ xs :=
  (List.mem_insertIdx (Nat.min_le_right _ _)).mp h

end OfferAnswer.Index
