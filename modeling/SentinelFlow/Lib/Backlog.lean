/-
Backlog: what is left over when amounts of work come one after another and
what falls below nothing is lost (Lindley's recursion). After each of them
the backlog is the largest sum of the latest ones (`backlog_eq_sup'`), so
it is a matter of the worst stretch that has just ended.
-/
import Mathlib.Algebra.BigOperators.Intervals
import Mathlib.Algebra.Order.BigOperators.Group.Finset
import Mathlib.Data.Finset.Lattice.Fold

namespace Backlog

variable {G : Type*} [AddCommGroup G]

/-- The amounts from `k` on, before `n`. -/
def since (x : ℕ → G) (k n : ℕ) : G := ∑ j ∈ Finset.Ico k n, x j

variable {x : ℕ → G} {k n : ℕ}

@[simp] theorem since_self : since x n n = 0 := by simp [since]

theorem since_succ (h : k ≤ n) : since x k (n + 1) = since x k n + x n := Finset.sum_Ico_succ_top h x

variable [LinearOrder G]

/-- The backlog after the first `n` amounts. -/
def backlog (x : ℕ → G) : ℕ → G
  | 0 => 0
  | n + 1 => max 0 (backlog x n + x n)

@[simp] theorem backlog_zero : backlog x 0 = 0 := rfl

theorem backlog_succ : backlog x (n + 1) = max 0 (backlog x n + x n) := rfl

theorem backlog_nonneg : 0 ≤ backlog x n := by
  cases n with
  | zero => exact le_rfl
  | succ n => exact le_max_left _ _

/-- Some stretch of latest amounts is left over whole. -/
theorem exists_since_eq : ∃ k ≤ n, backlog x n = since x k n := by
  induction n with
  | zero => exact ⟨0, le_rfl, since_self.symm⟩
  | succ n ih =>
    obtain ⟨k, hk, heq⟩ := ih
    rcases le_total (backlog x n + x n) 0 with h | h
    · exact ⟨n + 1, le_rfl, by rw [backlog_succ, max_eq_left h, since_self]⟩
    · exact ⟨k, hk.trans n.le_succ, by rw [backlog_succ, max_eq_right h, heq, since_succ hk]⟩

/-- Amounts that are nothing or less leave none. -/
theorem backlog_eq_zero (h : ∀ j < n, x j ≤ 0) : backlog x n = 0 := by
  induction n with
  | zero => rfl
  | succ n ih =>
    have hn : backlog x n = 0 := ih fun j hj => h j (hj.trans n.lt_succ_self)
    rw [backlog_succ, hn, zero_add, max_eq_left (h n n.lt_succ_self)]

variable [IsOrderedAddMonoid G]

/-- No stretch of latest amounts is more than the backlog. -/
theorem since_le_backlog (h : k ≤ n) : since x k n ≤ backlog x n := by
  induction n with
  | zero =>
    obtain rfl : k = 0 := by omega
    exact since_self.le
  | succ n ih =>
    rcases Nat.le_succ_iff.1 h with hk | rfl
    · rw [since_succ hk, backlog_succ]
      exact le_max_of_le_right (add_le_add_left (ih hk) _)
    · rw [since_self]
      exact backlog_nonneg

/-- **The backlog is the largest sum of latest amounts.** -/
theorem backlog_eq_sup' (x : ℕ → G) (n : ℕ) :
    backlog x n = (Finset.range (n + 1)).sup' Finset.nonempty_range_add_one fun k => since x k n := by
  refine le_antisymm ?_ (Finset.sup'_le _ _ fun k hk => since_le_backlog (Finset.mem_range_succ_iff.1 hk))
  obtain ⟨k, hk, heq⟩ := exists_since_eq (x := x) (n := n)
  rw [heq]
  exact Finset.le_sup' (fun k => since x k n) (Finset.mem_range_succ_iff.2 hk)

end Backlog
