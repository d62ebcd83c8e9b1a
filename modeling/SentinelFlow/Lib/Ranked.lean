/-
Runs that come to an end. A rank that every step lowers bounds the length of
every run; where a step is enabled as long as the state is not done, some
run ends in a state that is.
-/
import SentinelFlow.Lib.Machine

namespace Machine

section Ranked

variable {σ ι ο : Type*} {step : σ → ι → Option (σ × ο)} (rank : σ → ℕ) (P : ι → Prop)

/-- On inputs that meet `P`, a run is no longer than the rank it uses up. -/
theorem run_rank (Inv : σ → Prop)
    (next : ∀ s i s' o, Inv s → P i → step s i = some (s', o) → Inv s' ∧ rank s' < rank s)
    {s s' : σ} {is : List ι} {os : List ο} (hs : Inv s) (hP : ∀ i ∈ is, P i) (h : run step s is = some (s', os)) :
    is.length + rank s' ≤ rank s := by
  induction is generalizing s os with
  | nil =>
    simp only [run_nil, Option.some.injEq, Prod.mk.injEq] at h
    obtain ⟨rfl, -⟩ := h
    exact Nat.le_of_eq (Nat.zero_add _)
  | cons i is ih =>
    obtain ⟨t, o, os', hst, hr, -⟩ := run_cons.1 h
    obtain ⟨ht, hlt⟩ := next s i t o hs (hP i (by simp)) hst
    have hle := ih ht (fun j hj => hP j (by simp [hj])) hr
    rw [List.length_cons]
    omega

/-- **Runs to the end.** As long as the state is not done some input is
answered, and every answer keeps the invariant and lowers the rank. -/
theorem exists_run_done (Inv Done : σ → Prop)
    (next : ∀ s, Inv s → ¬Done s → ∃ i s' o, P i ∧ step s i = some (s', o) ∧ Inv s' ∧ rank s' < rank s) :
    ∀ s, Inv s → ∃ is s' os, run step s is = some (s', os) ∧ (∀ i ∈ is, P i) ∧ Inv s' ∧ Done s' := by
  intro s
  induction hn : rank s using Nat.strongRecOn generalizing s with
  | _ n ih =>
    intro hs
    by_cases hd : Done s
    · exact ⟨[], s, [], rfl, by simp, hs, hd⟩
    · obtain ⟨i, t, o, hi, hst, ht, hlt⟩ := next s hs hd
      obtain ⟨is, s', os, hr, hP, hs', hd'⟩ := ih (rank t) (hn ▸ hlt) t rfl ht
      exact ⟨i :: is, s', o :: os, run_cons.2 ⟨t, o, os, hst, hr, rfl⟩, by simpa [hi] using hP, hs', hd'⟩

end Ranked

end Machine
