/-
Finitely many numbers, their mean and their sample variance, over any
ordered field.

What one number deviates from the mean, the others deviate together the
other way. So one deviation squared is at most `(n - 1) ^ 2 / n` times the
variance (`sq_sub_mean_le`), and it is no less when all the others are equal
(`mean_outlier`, `variance_outlier`): an outlier widens its own yardstick.
-/
import Mathlib.Algebra.BigOperators.Fin
import Mathlib.Algebra.Order.Chebyshev
import Mathlib.Tactic.FieldSimp
import Mathlib.Tactic.Linarith
import Mathlib.Tactic.Ring

namespace Deviation

variable {K : Type*} [Field K]

def mean (xs : List K) : K := xs.sum / xs.length

/-- The sample variance. -/
def variance (xs : List K) : K := (xs.map fun x => (x - mean xs) ^ 2).sum / (xs.length - 1)

/-- So many zeros, and a one. -/
def outlier (k : ℕ) : List K := List.replicate k 0 ++ [1]

theorem outlier_length (k : ℕ) : (outlier k : List K).length = k + 1 := by simp [outlier]

theorem mean_outlier (k : ℕ) : mean (outlier k : List K) = 1 / (k + 1) := by
  simp [mean, outlier]

variable [LinearOrder K] [IsStrictOrderedRing K]

/-- The deviations add up to nothing. -/
theorem sum_sub_mean {xs : List K} (h : xs ≠ []) : (xs.map (· - mean xs)).sum = 0 := by
  have hlen : (xs.length : K) ≠ 0 := Nat.cast_ne_zero.2 (List.length_pos_of_ne_nil h).ne'
  simp only [sub_eq_add_neg, List.sum_map_add, List.map_id', List.map_const', List.sum_replicate, nsmul_eq_mul]
  rw [mean]
  field_simp
  ring

theorem sq_sum_le (xs : List K) : xs.sum ^ 2 ≤ xs.length * (xs.map (· ^ 2)).sum := by
  have h := @sq_sum_le_card_mul_sum_sq _ _ _ _ _ _ Finset.univ fun i : Fin xs.length => xs[i.1]
  rw [Fin.sum_univ_getElem, Finset.card_univ, Fintype.card_fin] at h
  rwa [← Fin.sum_univ_fun_getElem]

theorem sum_sq_nonneg (xs : List K) (c : K) : 0 ≤ (xs.map fun x => (x - c) ^ 2).sum := by
  refine List.sum_nonneg fun y hy => ?_
  obtain ⟨x, -, rfl⟩ := List.mem_map.1 hy
  exact sq_nonneg _

/-- **One deviation against all.** The last of at least two numbers. -/
theorem sq_sub_mean_le (xs : List K) (x : K) (h : xs ≠ []) :
    (x - mean (xs ++ [x])) ^ 2 * (xs ++ [x]).length ≤ ((xs ++ [x]).length - 1) ^ 2 * variance (xs ++ [x]) := by
  set m := mean (xs ++ [x]) with hm
  have hpos : (0 : K) < xs.length := Nat.cast_pos.2 (List.length_pos_of_ne_nil h)
  have hsum : (xs.map (· - m)).sum = -(x - m) := by
    have hzero := @sum_sub_mean K _ _ _ (xs ++ [x]) (by simp)
    rw [← hm, List.map_append, List.sum_append, List.map_singleton, List.sum_singleton] at hzero
    exact eq_neg_of_add_eq_zero_left hzero
  -- The others' deviations, by Cauchy and Schwarz.
  have hothers := sq_sum_le (xs.map (· - m))
  rw [hsum, neg_sq, List.length_map, List.map_map] at hothers
  have hvar : ((xs ++ [x]).length - 1) ^ 2 * variance (xs ++ [x]) =
      xs.length * ((xs.map fun y => (y - m) ^ 2).sum + (x - m) ^ 2) := by
    rw [variance, ← hm, List.map_append, List.sum_append, List.length_append]
    push_cast
    simp only [List.map_singleton, List.sum_singleton, List.length_singleton, Nat.cast_one, add_sub_cancel_right]
    field_simp
  have hcomp : ((fun y => y ^ 2) ∘ fun y => y - m) = fun y => (y - m) ^ 2 := rfl
  rw [hvar, List.length_append, List.length_singleton, Nat.cast_add_one]
  rw [hcomp] at hothers
  linarith

theorem variance_outlier {k : ℕ} (h : 0 < k) : variance (outlier k : List K) = 1 / (k + 1) := by
  have hk : (k : K) ≠ 0 := Nat.cast_ne_zero.2 h.ne'
  rw [variance, mean_outlier, outlier_length, Nat.cast_add_one, add_sub_cancel_right]
  simp only [outlier, List.map_append, List.map_replicate, List.sum_append, List.sum_replicate, List.map_singleton,
    List.sum_singleton, nsmul_eq_mul]
  field_simp
  ring

end Deviation
