/-
Strings put together with a separator character: what can be read back.

The part after the last separator, and the part before it, are determined
by the whole when the part after it is free of the separator.
-/
import Mathlib.Data.List.Basic

namespace Separator

/-- The last separator splits a list in one way. -/
theorem append_cons_inj {α} {s : α} {xs xs' ys ys' : List α} (hy : s ∉ ys) (hy' : s ∉ ys') :
    xs ++ s :: ys = xs' ++ s :: ys' ↔ xs = xs' ∧ ys = ys' := by
  constructor
  · intro h
    rw [List.append_eq_append_iff] at h
    rcases h with ⟨zs, rfl, hz⟩ | ⟨zs, rfl, hz⟩
    · cases zs with
      | nil => simpa using hz
      | cons z zs =>
        simp only [List.cons_append, List.cons.injEq] at hz
        exact absurd (by simp [hz.2]) hy
    · cases zs with
      | nil => simpa [eq_comm] using hz
      | cons z zs =>
        simp only [List.cons_append, List.cons.injEq] at hz
        exact absurd (by simp [hz.2]) hy'
  · rintro ⟨rfl, rfl⟩
    rfl

/-- `a`, the separator, `b`. -/
def join (sep : Char) (a b : String) : String := a ++ String.singleton sep ++ b

theorem toList_join (sep : Char) (a b : String) : (join sep a b).toList = a.toList ++ sep :: b.toList := by
  simp [join]

/-- Joining is injective on strings whose second part is free of the separator. -/
theorem join_inj {sep : Char} {a a' b b' : String} (hb : sep ∉ b.toList) (hb' : sep ∉ b'.toList) :
    join sep a b = join sep a' b' ↔ a = a' ∧ b = b' := by
  rw [← String.toList_inj, toList_join, toList_join, append_cons_inj hb hb', String.toList_inj,
    String.toList_inj]

end Separator
