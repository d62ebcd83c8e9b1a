/-
Rings: what `deque(maxlen=n)` holds of the items appended to it, the last
`n` of them. Appending to what a ring holds of a list gives what it holds of
the longer list, so after any appends it is the end of the whole list.
-/
import Mathlib.Data.List.DropRight

namespace Ring

variable {α : Type*}

theorem rtake_append_rtake (xs : List α) (x : α) (n : ℕ) : (xs.rtake n ++ [x]).rtake n = (xs ++ [x]).rtake n := by
  cases n with
  | zero => simp
  | succ n =>
    rw [List.rtake_concat_succ, List.rtake_concat_succ]
    simp only [List.rtake_eq_reverse_take_reverse, List.reverse_reverse, List.take_take]
    rw [Nat.min_eq_left n.le_succ]

theorem length_rtake_le (xs : List α) (n : ℕ) : (xs.rtake n).length ≤ n := by
  rw [List.rtake, List.length_drop]
  omega

end Ring
