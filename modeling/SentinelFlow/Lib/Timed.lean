/-
Timed histories: the inputs and outputs of a run, the times of those that a
test picks (its hits), and windows that look back from a later time.

With a clock that never goes back, looking for any hit inside a window is
looking at the latest one (`within_iff_latest`): a component that remembers
one time per key decides what a component with the whole history decides.
-/
import Mathlib.Data.List.Basic
import Mathlib.Algebra.Order.Group.Defs
import Mathlib.Algebra.Order.Sub.Defs

namespace Timed

variable {ι ο T : Type*}

/-- The times of the inputs that `p` picks, told with their outputs. -/
def hits (p : ι → ο → Bool) : List (T × ι) → List ο → List T
  | (t, i) :: is, o :: os => if p i o then t :: hits p is os else hits p is os
  | _, _ => []

@[simp] theorem hits_nil (p : ι → ο → Bool) (os : List ο) : hits (T := T) p [] os = [] := by
  cases os <;> rfl

theorem hits_concat (p : ι → ο → Bool) (t : T) (i : ι) (o : ο) :
    ∀ {is : List (T × ι)} {os : List ο}, os.length = is.length →
      hits p (is ++ [(t, i)]) (os ++ [o]) = if p i o then hits p is os ++ [t] else hits p is os
  | [], [], _ => by simp only [List.nil_append, hits]
  | (t', i') :: is, o' :: os, h => by
    have ih : hits p (is ++ [(t, i)]) (os ++ [o]) = _ := hits_concat p t i o (by simpa using h)
    simp only [List.cons_append, hits, ih]
    split <;> split <;> rfl

theorem mem_hits {p : ι → ο → Bool} {t : T} :
    ∀ {is : List (T × ι)} {os : List ο}, t ∈ hits p is os ↔
      ∃ (j : Nat) (i : ι) (o : ο), is[j]? = some (t, i) ∧ os[j]? = some o ∧ p i o = true
  | [], os => by simp
  | _ :: _, [] => by simp [hits]
  | (t', i') :: is, o' :: os => by
    have ih : t ∈ hits p is os ↔ _ := mem_hits
    have tail : (∃ (j : Nat) (i : ι) (o : ο), is[j]? = some (t, i) ∧ os[j]? = some o ∧ p i o = true) →
        ∃ (j : Nat) (i : ι) (o : ο), ((t', i') :: is)[j]? = some (t, i) ∧ (o' :: os)[j]? = some o ∧
          p i o = true := by
      rintro ⟨j, i, o, h⟩
      exact ⟨j + 1, i, o, by simpa using h⟩
    constructor
    · intro h
      by_cases hp : p i' o' = true
      · simp only [hits, hp, if_true, List.mem_cons] at h
        rcases h with rfl | h
        · exact ⟨0, i', o', by simp [hp]⟩
        · exact tail (ih.1 h)
      · simp only [hits, hp] at h
        exact tail (ih.1 h)
    · rintro ⟨j, i, o, hi, ho, hp⟩
      cases j with
      | zero =>
        simp only [List.getElem?_cons_zero, Option.some.injEq, Prod.mk.injEq] at hi ho
        obtain ⟨rfl, rfl⟩ := hi
        subst ho
        simp [hits, hp]
      | succ j =>
        have hm := ih.2 ⟨j, i, o, by simpa using hi, by simpa using ho, hp⟩
        simp only [hits]
        split
        · exact List.mem_cons_of_mem _ hm
        · exact hm

theorem hits_sublist (p : ι → ο → Bool) :
    ∀ (is : List (T × ι)) (os : List ο), (hits p is os).Sublist (is.map Prod.fst)
  | [], _ => by simp
  | _ :: _, [] => by simp [hits]
  | (t, i) :: is, o :: os => by
    simp only [hits, List.map_cons]
    split
    · exact (hits_sublist p is os).cons_cons t
    · exact (hits_sublist p is os).cons t

section Window

variable [LinearOrder T]

/-- The clock of a history never goes back. -/
def Nondecreasing (is : List (T × ι)) : Prop := (is.map Prod.fst).Pairwise (· ≤ ·)

theorem Nondecreasing.hits {p : ι → ο → Bool} {is : List (T × ι)} (h : Nondecreasing is) (os : List ο) :
    (hits p is os).Pairwise (· ≤ ·) :=
  List.Pairwise.sublist (hits_sublist p is os) h

theorem Nondecreasing.sublist {is js : List (T × ι)} (h : Nondecreasing is) (hs : js.Sublist is) :
    Nondecreasing js := by
  unfold Nondecreasing at h ⊢
  exact List.Pairwise.sublist (hs.map Prod.fst) h

theorem Nondecreasing.take {is : List (T × ι)} (h : Nondecreasing is) (n : Nat) :
    Nondecreasing (is.take n) :=
  h.sublist (List.take_sublist n is)

theorem Nondecreasing.le_last {is : List (T × ι)} {e : T × ι} (h : Nondecreasing (is ++ [e])) :
    ∀ e' ∈ is, e'.1 ≤ e.1 := by
  unfold Nondecreasing at h
  rw [List.map_append, List.pairwise_append] at h
  exact fun e' he' => h.2.2 e'.1 (List.mem_map_of_mem he') e.1 (by simp)

/-- Up to a position, the clock has not passed the time there. -/
theorem Nondecreasing.le_getElem {is : List (T × ι)} {i : Nat} {e : T × ι} (h : Nondecreasing is)
    (hi : is[i]? = some e) : ∀ e' ∈ is.take i, e'.1 ≤ e.1 := by
  have htake : is.take (i + 1) = is.take i ++ [e] := by rw [List.take_add_one, hi]; rfl
  have hn := h.take (i + 1)
  rw [htake] at hn
  exact hn.le_last

theorem Nondecreasing.getElem?_le {is : List (T × ι)} {i j : Nat} {e e' : T × ι} (h : Nondecreasing is) (hij : i ≤ j)
    (hi : is[i]? = some e) (hj : is[j]? = some e') : e.1 ≤ e'.1 := by
  rcases hij.eq_or_lt with rfl | hlt
  · rw [hi, Option.some.injEq] at hj
    rw [hj]
  · exact h.le_getElem hj e (List.mem_of_getElem? (i := i) (by rw [List.getElem?_take_of_lt hlt, hi]))

/-- In a list that never goes back, the last time is the latest. -/
theorem le_getLast {ts : List T} (h : ts.Pairwise (· ≤ ·)) {t last : T} (ht : t ∈ ts)
    (hl : ts.getLast? = some last) : t ≤ last := by
  obtain ⟨ys, rfl⟩ := List.getLast?_eq_some_iff.1 hl
  rw [List.pairwise_append] at h
  rcases List.mem_append.1 ht with hy | hy
  · exact h.2.2 t hy last (by simp)
  · exact le_of_eq (List.mem_singleton.1 hy)

variable [AddCommGroup T] [IsOrderedAddMonoid T]

/-- **Latest is enough.** Some time lies inside the window exactly when the
latest one does. -/
theorem within_iff_latest {ts : List T} (h : ts.Pairwise (· ≤ ·)) (now w : T) :
    (∃ t ∈ ts, now - t < w) ↔ ∃ t, ts.getLast? = some t ∧ now - t < w := by
  constructor
  · rintro ⟨t, ht, hw⟩
    have hl := List.getLast?_eq_some_getLast (List.ne_nil_of_mem ht)
    exact ⟨_, hl, lt_of_le_of_lt (sub_le_sub_left (le_getLast h ht hl) now) hw⟩
  · rintro ⟨t, hl, hw⟩
    exact ⟨t, List.mem_of_getLast? hl, hw⟩

end Window

end Timed
