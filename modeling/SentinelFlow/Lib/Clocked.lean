/-
A machine beside a clock that shows the time of its latest input. The clock
takes no part in the steps; what a condition along a run asks of the time
that passes between two inputs can be told from it.
-/
import SentinelFlow.Lib.Machine

namespace Machine

variable {σ ι ο T : Type*} (time : ι → Option T) (step : σ → ι → Option (σ × ο))

/-- An input that names no time leaves the clock alone. -/
def clocked (s : σ × T) (i : ι) : Option ((σ × T) × ο) :=
  (step s.1 i).map fun p => ((p.1, (time i).getD s.2), p.2)

section Clocked

variable {time step}

theorem clocked_eq_some {s s' : σ × T} {i : ι} {o : ο} :
    clocked time step s i = some (s', o) ↔ step s.1 i = some (s'.1, o) ∧ s'.2 = (time i).getD s.2 := by
  simp only [clocked, Option.map_eq_some_iff, Prod.mk.injEq]
  constructor
  · rintro ⟨⟨t, o⟩, hs, rfl, rfl⟩
    exact ⟨hs, rfl⟩
  · intro h
    exact ⟨(s'.1, o), h.1, Prod.ext rfl h.2.symm, rfl⟩

/-- The clock stands in the way of no run. -/
theorem run_of_clocked {s s' : σ × T} {is : List ι} {os : List ο}
    (h : run (clocked time step) s is = some (s', os)) : run step s.1 is = some (s'.1, os) := by
  induction is generalizing s os with
  | nil =>
    simp only [run_nil, Option.some.injEq, Prod.mk.injEq] at h
    obtain ⟨rfl, rfl⟩ := h
    rfl
  | cons i is ih =>
    obtain ⟨t, o, os', hs, hr, rfl⟩ := run_cons.1 h
    exact run_cons.2 ⟨t.1, o, os', (clocked_eq_some.1 hs).1, ih hr, rfl⟩

/-- **The run rule, by the clock.** What holds at the start and is kept by
every step that meets `P`, told from the time before it and the time of it. -/
theorem run_induction_clocked {s₀ : σ × T} {P : σ × T → ι → Prop} (I : σ → T → Prop) (init : I s₀.1 s₀.2)
    (next : ∀ is os s τ i o s', run step s₀.1 is = some (s, os) → I s τ → P (s, τ) i → step s i = some (s', o) →
      I s' ((time i).getD τ))
    {is : List ι} {os : List ο} {s : σ × T} (hP : Along (clocked time step) P s₀ is)
    (h : run (clocked time step) s₀ is = some (s, os)) : I s.1 s.2 := by
  refine run_induction_along (fun _ _ s => I s.1 s.2) init (fun is os s i o s' hr hI hi hs => ?_) hP h
  obtain ⟨hst, hτ⟩ := clocked_eq_some.1 hs
  rw [hτ]
  exact next is os s.1 s.2 i o s'.1 (run_of_clocked hr) hI hi hst

end Clocked

end Machine
