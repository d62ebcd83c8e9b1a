/-
A machine made of parts. A part's own inputs are those `f` reads in the
machine's; where its steps are the part's own and every other input leaves
the part alone, a run of the machine is a run of the part on them.
-/
import SentinelFlow.Lib.Machine

namespace Machine

section Parts

variable {σ τ ι κ ο ω : Type*} {step : σ → ι → Option (σ × ο)} {stepT : τ → κ → Option (τ × ω)}
  (part : σ → τ) (f : ι → Option κ) (g : ο → Option ω)

/-- The part sees its own inputs, and makes the step its own machine makes. -/
structure IsPart (step : σ → ι → Option (σ × ο)) (stepT : τ → κ → Option (τ × ω)) : Prop where
  others : ∀ s i s' o, step s i = some (s', o) → f i = none → part s' = part s ∧ g o = none
  own : ∀ s i s' o j, step s i = some (s', o) → f i = some j →
    ∃ w, stepT (part s) j = some (part s', w) ∧ g o = some w

variable {part f g}

/-- **A run of the whole is a run of each part.** -/
theorem IsPart.run (h : IsPart part f g step stepT) {s s' : σ} {is : List ι} {os : List ο}
    (hr : Machine.run step s is = some (s', os)) :
    Machine.run stepT (part s) (is.filterMap f) = some (part s', os.filterMap g) := by
  induction is generalizing s os with
  | nil =>
    simp only [run_nil, Option.some.injEq, Prod.mk.injEq] at hr
    obtain ⟨rfl, rfl⟩ := hr
    rfl
  | cons i is ih =>
    obtain ⟨t, o, os', hs, htail, rfl⟩ := run_cons.1 hr
    cases hf : f i with
    | none =>
      obtain ⟨hpart, hg⟩ := h.others s i t o hs hf
      rw [List.filterMap_cons_none hf, List.filterMap_cons_none hg, ← hpart]
      exact ih htail
    | some j =>
      obtain ⟨w, hw, hg⟩ := h.own s i t o j hs hf
      rw [List.filterMap_cons_some hf, List.filterMap_cons_some hg]
      exact run_cons.2 ⟨part t, w, _, hw, ih htail, rfl⟩

/-- What an invariant of the whole says of a part's inputs holds along the part's run. -/
theorem IsPart.along (h : IsPart part f g step stepT) {Inv : σ → Prop} {P : τ → κ → Prop}
    (keep : ∀ s i s' o, Inv s → step s i = some (s', o) → Inv s')
    (own : ∀ s i s' o j, Inv s → step s i = some (s', o) → f i = some j → P (part s) j)
    {s s' : σ} {is : List ι} {os : List ο} (hs : Inv s) (hr : Machine.run step s is = some (s', os)) :
    Along stepT P (part s) (is.filterMap f) := by
  induction is generalizing s os with
  | nil => trivial
  | cons i is ih =>
    obtain ⟨t, o, os', hst, htail, rfl⟩ := run_cons.1 hr
    have hrest := ih (keep s i t o hs hst) htail
    cases hf : f i with
    | none =>
      rw [List.filterMap_cons_none hf, ← (h.others s i t o hst hf).1]
      exact hrest
    | some j =>
      obtain ⟨w, hw, -⟩ := h.own s i t o j hst hf
      rw [List.filterMap_cons_some hf]
      exact (along_cons hw).2 ⟨own s i t o j hs hst hf, hrest⟩

end Parts

end Machine
