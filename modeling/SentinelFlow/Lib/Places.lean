/-
Items known by their place in a list that grows at its end. A place stays
that of its item, and the places of what is appended come after all there were.
-/
import Mathlib.Data.List.Nodup

namespace Places

variable {α β γ : Type*} {xs ys zs : List α} {ps : List ℕ}

/-- Places that have items are places of the list. -/
theorem lt_of_map_eq (h : ps.map (xs[·]?) = ys.map some) {p : ℕ} (hp : p ∈ ps) : p < xs.length := by
  have hmem : xs[p]? ∈ ys.map some := h ▸ List.mem_map_of_mem hp
  obtain ⟨y, -, hy⟩ := List.mem_map.1 hmem
  exact (List.getElem?_eq_some_iff.1 hy.symm).1

theorem map_append_left (h : ps.map (xs[·]?) = ys.map some) (zs : List α) :
    ps.map ((xs ++ zs)[·]?) = ys.map some := by
  rw [← h]
  exact List.map_congr_left fun p hp => List.getElem?_append_left (lt_of_map_eq h hp)

/-- The places of what is appended. -/
theorem map_range'_append (xs ys : List α) :
    (List.range' xs.length ys.length).map ((xs ++ ys)[·]?) = ys.map some := by
  refine List.ext_getElem (by simp) fun i hi hi' => ?_
  simp only [List.length_map] at hi'
  simp [hi']

/-- Two things told of each place are told of it together. -/
theorem map_prod (f : α → Option β) (g : α → Option γ) {bs : List β} {cs : List γ} (hf : zs.map f = bs.map some)
    (hg : zs.map g = cs.map some) :
    (zs.map fun a => (f a, g a)) = (bs.zip cs).map fun p => (some p.1, some p.2) := by
  rw [← List.zip_map', hf, hg, List.zip_map]
  rfl

end Places
