/-
Deterministic machines with partial steps: runs over a list of inputs, the
rule for what a run preserves, and the projection of a run onto the inputs
of one party.

A step answers a new state and an output, or nothing when its input is not
enabled. A machine whose steps are total is one whose step never answers
nothing (`ofTotal`), and then a run always exists.
-/
import Mathlib.Data.List.Forall2
import Mathlib.Data.List.Induction
import Mathlib.Data.Option.Basic

namespace Machine

variable {σ τ ι ο : Type*}

/-- The run of `step` over a list of inputs, with the outputs in order. -/
def run (step : σ → ι → Option (σ × ο)) : σ → List ι → Option (σ × List ο)
  | s, [] => some (s, [])
  | s, i :: is => (step s i).bind fun p => (run step p.1 is).map fun q => (q.1, p.2 :: q.2)

section Run

variable {step : σ → ι → Option (σ × ο)}

@[simp] theorem run_nil (s : σ) : run step s [] = some (s, []) := rfl

theorem run_cons {s s' : σ} {i : ι} {is : List ι} {os : List ο} :
    run step s (i :: is) = some (s', os) ↔
      ∃ t o os', step s i = some (t, o) ∧ run step t is = some (s', os') ∧ os = o :: os' := by
  simp only [run, Option.bind_eq_some_iff, Option.map_eq_some_iff, Prod.mk.injEq]
  constructor
  · rintro ⟨⟨t, o⟩, h, ⟨s'', os'⟩, hr, rfl, rfl⟩
    exact ⟨t, o, os', h, hr, rfl⟩
  · rintro ⟨t, o, os', h, hr, rfl⟩
    exact ⟨(t, o), h, (s', os'), hr, rfl, rfl⟩

theorem run_append {s s' : σ} {is js : List ι} {os : List ο} :
    run step s (is ++ js) = some (s', os) ↔
      ∃ t os₁ os₂, run step s is = some (t, os₁) ∧ run step t js = some (s', os₂) ∧ os = os₁ ++ os₂ := by
  induction is generalizing s os with
  | nil => simp
  | cons i is ih =>
    simp only [List.cons_append, run_cons, ih]
    constructor
    · rintro ⟨t, o, _, h, ⟨u, os₁, os₂, h₁, h₂, rfl⟩, rfl⟩
      exact ⟨u, o :: os₁, os₂, ⟨t, o, os₁, h, h₁, rfl⟩, h₂, rfl⟩
    · rintro ⟨u, _, os₂, ⟨t, o, os₁, h, h₁, rfl⟩, h₂, rfl⟩
      exact ⟨t, o, os₁ ++ os₂, h, ⟨u, os₁, os₂, h₁, h₂, rfl⟩, rfl⟩

theorem run_concat {s s' : σ} {is : List ι} {i : ι} {os : List ο} :
    run step s (is ++ [i]) = some (s', os) ↔
      ∃ t os' o, run step s is = some (t, os') ∧ step t i = some (s', o) ∧ os = os' ++ [o] := by
  rw [run_append]
  constructor
  · rintro ⟨t, os₁, os₂, h₁, h₂, rfl⟩
    obtain ⟨u, o, _, h, hn, rfl⟩ := run_cons.1 h₂
    simp only [run_nil, Option.some.injEq, Prod.mk.injEq] at hn
    obtain ⟨rfl, rfl⟩ := hn
    exact ⟨t, os₁, o, h₁, h, rfl⟩
  · rintro ⟨t, os', o, h₁, h, rfl⟩
    exact ⟨t, os', [o], h₁, run_cons.2 ⟨s', o, [], h, rfl, rfl⟩, rfl⟩

theorem run_length {s s' : σ} {is : List ι} {os : List ο} (h : run step s is = some (s', os)) :
    os.length = is.length := by
  induction is generalizing s os with
  | nil => simp at h; simp [← h.2]
  | cons i is ih =>
    obtain ⟨t, o, os', -, hr, rfl⟩ := run_cons.1 h
    simp [ih hr]

/-- A run up to one of its inputs, and its step there. -/
theorem run_getElem? {s s' : σ} {is : List ι} {os : List ο} (h : run step s is = some (s', os)) {n : Nat}
    {i : ι} (hi : is[n]? = some i) :
    ∃ t t' o, run step s (is.take n) = some (t, os.take n) ∧ step t i = some (t', o) ∧ os[n]? = some o := by
  obtain ⟨hn, rfl⟩ := List.getElem?_eq_some_iff.1 hi
  have hsplit : is = is.take n ++ is[n] :: is.drop (n + 1) := by simp
  rw [hsplit] at h
  obtain ⟨t, os₁, os₂, h₁, h₂, rfl⟩ := run_append.1 h
  obtain ⟨t', o, os₃, hs, -, rfl⟩ := run_cons.1 h₂
  have hlen : os₁.length = n := by rw [run_length h₁, List.length_take]; omega
  exact ⟨t, t', o, by rw [← hlen, List.take_left, hlen, h₁], hs, by simp [← hlen]⟩

/-- **The run rule.** What holds at the start and is kept by every step,
told from the inputs and outputs so far, holds after every run. -/
theorem run_induction {s₀ : σ} (I : List ι → List ο → σ → Prop) (init : I [] [] s₀)
    (next : ∀ is os s i o s', run step s₀ is = some (s, os) → I is os s →
      step s i = some (s', o) → I (is ++ [i]) (os ++ [o]) s') :
    ∀ {is os s}, run step s₀ is = some (s, os) → I is os s := by
  intro is
  induction is using List.reverseRecOn with
  | nil =>
    intro os s h
    simp only [run_nil, Option.some.injEq, Prod.mk.injEq] at h
    obtain ⟨rfl, rfl⟩ := h
    exact init
  | append_singleton is i ih =>
    intro os s h
    obtain ⟨t, os', o, h₁, h₂, rfl⟩ := run_concat.1 h
    exact next is os' t i o s h₁ (ih h₁) h₂

/-- An invariant of the state alone. -/
theorem run_invariant {Inv : σ → Prop} (next : ∀ s i o s', Inv s → step s i = some (s', o) → Inv s')
    {s s' : σ} {is : List ι} {os : List ο} (hs : Inv s) (h : run step s is = some (s', os)) : Inv s' :=
  run_induction (fun _ _ t => Inv t) hs (fun _ _ t i o t' _ ht hn => next t i o t' ht hn) h

end Run

/-! ## Conditions along a run -/

/-- `P` holds of every input of the run in the state it meets. -/
def Along (step : σ → ι → Option (σ × ο)) (P : σ → ι → Prop) : σ → List ι → Prop
  | _, [] => True
  | s, i :: is => P s i ∧ match step s i with
    | some p => Along step P p.1 is
    | none => True

instance (step : σ → ι → Option (σ × ο)) (P : σ → ι → Prop) [∀ s i, Decidable (P s i)] :
    ∀ s is, Decidable (Along step P s is)
  | _, [] => isTrue trivial
  | s, i :: is => by
    unfold Along
    have : Decidable (match step s i with | some p => Along step P p.1 is | none => True) := by
      cases step s i with
      | some p => exact instDecidableAlong step P p.1 is
      | none => exact isTrue trivial
    exact instDecidableAnd

section Along

variable {step : σ → ι → Option (σ × ο)} {P : σ → ι → Prop}

theorem along_cons {s t : σ} {i : ι} {o : ο} {is : List ι} (hs : step s i = some (t, o)) :
    Along step P s (i :: is) ↔ P s i ∧ Along step P t is := by
  rw [Along, hs]

theorem along_append {s t : σ} {is js : List ι} {os : List ο} (h : run step s is = some (t, os)) :
    Along step P s (is ++ js) ↔ Along step P s is ∧ Along step P t js := by
  induction is generalizing s os with
  | nil =>
    simp only [run_nil, Option.some.injEq, Prod.mk.injEq] at h
    obtain ⟨rfl, rfl⟩ := h
    simp [Along]
  | cons i is ih =>
    obtain ⟨u, o, os', hs, hr, rfl⟩ := run_cons.1 h
    rw [List.cons_append, along_cons hs, along_cons hs, ih hr, and_assoc]

/-- The run rule, for runs along which `P` holds. -/
theorem run_induction_along {s₀ : σ} (I : List ι → List ο → σ → Prop) (init : I [] [] s₀)
    (next : ∀ is os s i o s', run step s₀ is = some (s, os) → I is os s → P s i →
      step s i = some (s', o) → I (is ++ [i]) (os ++ [o]) s')
    {is : List ι} {os : List ο} {s : σ} (hP : Along step P s₀ is)
    (h : run step s₀ is = some (s, os)) : I is os s := by
  revert hP
  refine run_induction (fun is os s => Along step P s₀ is → I is os s) (fun _ => init) ?_ h
  intro is os s i o s' hr hI hs hP
  rw [along_append hr, along_cons hs] at hP
  exact next is os s i o s' hr (hI hP.1) hP.2.1 hs

end Along

/-! ## Simulation -/

/-- **Simulation.** When a step on an input is matched by one on every
related input, with a related output, a run is matched on every list of
inputs related to its own. -/
theorem run_simulates {κ ω : Type*} {stepS : σ → ι → Option (σ × ο)} {stepT : τ → κ → Option (τ × ω)}
    (Q : ι → κ → Prop) (O : ο → ω → Prop) (R : σ → τ → Prop)
    (next : ∀ s t i j s' o, Q i j → R s t → stepS s i = some (s', o) →
      ∃ t' o', stepT t j = some (t', o') ∧ O o o' ∧ R s' t')
    {is : List ι} {js : List κ} {s s' : σ} {t : τ} {os : List ο} (hQ : List.Forall₂ Q is js) (hR : R s t)
    (h : run stepS s is = some (s', os)) :
    ∃ t' os', run stepT t js = some (t', os') ∧ List.Forall₂ O os os' ∧ R s' t' := by
  induction hQ generalizing s t os with
  | nil =>
    simp only [run_nil, Option.some.injEq, Prod.mk.injEq] at h
    obtain ⟨rfl, rfl⟩ := h
    exact ⟨t, [], rfl, .nil, hR⟩
  | @cons i j is js hij _ ih =>
    obtain ⟨u, o, os', h₁, h₂, rfl⟩ := run_cons.1 h
    obtain ⟨v, o', hv, ho, hRv⟩ := next s t i j u o hij hR h₁
    obtain ⟨t', os'', hr, hos, hR'⟩ := ih hRv h₂
    exact ⟨t', o' :: os'', run_cons.2 ⟨v, o', os'', hv, hr, rfl⟩, .cons ho hos, hR'⟩

/-! ## Projection onto one party -/

/-- The outputs at the inputs `mine` picks. -/
def outputsOf (mine : ι → Bool) : List ι → List ο → List ο
  | i :: is, o :: os => if mine i then o :: outputsOf mine is os else outputsOf mine is os
  | _, _ => []

/-- **Projection.** Let `R s t` say that `t` looks to one party like `s`. If
the others' steps keep `R` with `t` at rest, and the party's own step at `s`
is matched at `t` with the same output, then a run of everybody is matched
by the run of the party's own inputs alone. `P` is what the inputs of the
run are known to meet. -/
theorem run_project {stepS : σ → ι → Option (σ × ο)} {stepT : τ → ι → Option (τ × ο)} (mine : ι → Bool)
    (P : ι → Prop) (R : σ → τ → Prop)
    (others : ∀ s t i s' o, P i → R s t → mine i = false → stepS s i = some (s', o) → R s' t)
    (own : ∀ s t i s' o, P i → R s t → mine i = true → stepS s i = some (s', o) →
      ∃ t', stepT t i = some (t', o) ∧ R s' t') :
    ∀ {is s t s' os}, (∀ i ∈ is, P i) → R s t → run stepS s is = some (s', os) →
      ∃ t', run stepT t (is.filter mine) = some (t', outputsOf mine is os) ∧ R s' t'
  | [], s, t, s', os, _, hR, h => by
    simp only [run_nil, Option.some.injEq, Prod.mk.injEq] at h
    obtain ⟨rfl, rfl⟩ := h
    exact ⟨t, rfl, hR⟩
  | i :: is, s, t, s', os, hP, hR, h => by
    obtain ⟨u, o, os', h₁, h₂, rfl⟩ := run_cons.1 h
    have hi := hP i (by simp)
    have hP' : ∀ j ∈ is, P j := fun j hj => hP j (by simp [hj])
    cases hm : mine i with
    | false =>
      obtain ⟨t', hr, hR'⟩ := run_project mine P R others own hP' (others s t i u o hi hR hm h₁) h₂
      exact ⟨t', by simpa [hm, outputsOf] using hr, hR'⟩
    | true =>
      obtain ⟨v, hv, hRv⟩ := own s t i u o hi hR hm h₁
      obtain ⟨t', hr, hR'⟩ := run_project mine P R others own hP' hRv h₂
      refine ⟨t', ?_, hR'⟩
      simp only [List.filter_cons, hm, if_true, outputsOf]
      exact run_cons.2 ⟨v, o, _, hv, hr, rfl⟩

/-! ## Total steps -/

/-- A step that is always enabled. -/
def ofTotal (step : σ → ι → σ × ο) : σ → ι → Option (σ × ο) := fun s i => some (step s i)

/-- The state after a run of a total step. -/
def exec (step : σ → ι → σ × ο) : σ → List ι → σ
  | s, [] => s
  | s, i :: is => exec step (step s i).1 is

/-- The outputs of a run of a total step. -/
def outs (step : σ → ι → σ × ο) : σ → List ι → List ο
  | _, [] => []
  | s, i :: is => (step s i).2 :: outs step (step s i).1 is

theorem run_ofTotal (step : σ → ι → σ × ο) (s : σ) (is : List ι) :
    run (ofTotal step) s is = some (exec step s is, outs step s is) := by
  induction is generalizing s with
  | nil => rfl
  | cons i is ih => exact run_cons.2 ⟨_, _, _, rfl, ih _, rfl⟩

section Total

variable {step : σ → ι → σ × ο}

theorem exec_append (s : σ) (is js : List ι) : exec step s (is ++ js) = exec step (exec step s is) js := by
  induction is generalizing s with
  | nil => rfl
  | cons i is ih => exact ih _

theorem outs_append (s : σ) (is js : List ι) :
    outs step s (is ++ js) = outs step s is ++ outs step (exec step s is) js := by
  induction is generalizing s with
  | nil => rfl
  | cons i is ih => simp only [List.cons_append, outs, exec, ih]

@[simp] theorem outs_length (s : σ) (is : List ι) : (outs step s is).length = is.length :=
  run_length (run_ofTotal step s is)

theorem outs_take (s : σ) (is : List ι) (n : Nat) : (outs step s is).take n = outs step s (is.take n) := by
  induction is generalizing s n with
  | nil => simp [outs]
  | cons i is ih =>
    cases n with
    | zero => rfl
    | succ n => simp only [List.take_succ_cons, outs, ih]

/-- The output at a position is the step's output in the state reached there. -/
theorem outs_getElem? (s : σ) {is : List ι} {n : Nat} {i : ι} (hi : is[n]? = some i) :
    (outs step s is)[n]? = some (step (exec step s (is.take n)) i).2 := by
  induction is generalizing s n with
  | nil => simp at hi
  | cons i' is ih =>
    cases n with
    | zero =>
      simp only [List.getElem?_cons_zero, Option.some.injEq] at hi
      subst hi
      rfl
    | succ n =>
      simp only [List.getElem?_cons_succ] at hi
      simp only [outs, List.getElem?_cons_succ, List.take_succ_cons, exec]
      exact ih (step s i').1 hi

/-- The run rule for a total step. -/
theorem exec_induction {s₀ : σ} (I : List ι → List ο → σ → Prop) (init : I [] [] s₀)
    (next : ∀ is os s i, I is os s → I (is ++ [i]) (os ++ [(step s i).2]) (step s i).1) (is : List ι) :
    I is (outs step s₀ is) (exec step s₀ is) := by
  refine run_induction I init ?_ (run_ofTotal step s₀ is)
  intro is os s i o s' _ hI hs
  simp only [ofTotal, Option.some.injEq] at hs
  have := next is os s i hI
  rwa [hs] at this

/-- Projection of a total step: the party's answers are those of the run of
its own inputs alone. -/
theorem outs_project (mine : ι → Bool) (P : ι → Prop) (R : σ → σ → Prop)
    (others : ∀ s t i, P i → R s t → mine i = false → R (step s i).1 t)
    (own : ∀ s t i, P i → R s t → mine i = true → (step s i).2 = (step t i).2 ∧ R (step s i).1 (step t i).1)
    {s t : σ} {is : List ι} (hP : ∀ i ∈ is, P i) (hR : R s t) :
    outs step t (is.filter mine) = outputsOf mine is (outs step s is) := by
  obtain ⟨t', hr, -⟩ := @run_project _ _ _ _ (ofTotal step) (ofTotal step) mine P R
    (fun s t i s' o hi h hm hs => by
      simp only [ofTotal, Option.some.injEq] at hs
      have := others s t i hi h hm
      rwa [hs] at this)
    (fun s t i s' o hi h hm hs => by
      simp only [ofTotal, Option.some.injEq] at hs
      have := own s t i hi h hm
      rw [hs] at this
      exact ⟨(step t i).1, congrArg some (Prod.ext rfl this.1.symm), this.2⟩)
    is s t _ _ hP hR (run_ofTotal step s is)
  rw [run_ofTotal] at hr
  exact congrArg Prod.snd (Option.some.inj hr)

/-- **Inputs nobody notices.** Let `R is s t` say that for the inputs `is`
to come `s` and `t` are as good as each other. If an input that `f` drops
answers nothing and keeps `R` with `t` at rest, and one that `f` keeps is
answered alike, then the answers are those to the inputs kept. -/
theorem outs_filterMap {κ ω : Type*} {stepT : τ → κ → τ × ω} (f : ι → Option κ) (g : ο → Option ω)
    (R : List ι → σ → τ → Prop)
    (others : ∀ s t i is, R (i :: is) s t → f i = none → g (step s i).2 = none ∧ R is (step s i).1 t)
    (own : ∀ s t i j is, R (i :: is) s t → f i = some j →
      g (step s i).2 = some (stepT t j).2 ∧ R is (step s i).1 (stepT t j).1) :
    ∀ {is s t}, R is s t → (outs step s is).filterMap g = outs stepT t (is.filterMap f)
  | [], _, _, _ => rfl
  | i :: is, s, t, hR => by
    cases hf : f i with
    | none =>
      obtain ⟨hg, hR'⟩ := others s t i is hR hf
      rw [outs, List.filterMap_cons_none hg, List.filterMap_cons_none hf]
      exact outs_filterMap f g R others own hR'
    | some j =>
      obtain ⟨hg, hR'⟩ := own s t i j is hR hf
      rw [outs, List.filterMap_cons_some hg, List.filterMap_cons_some hf, outs,
        outs_filterMap f g R others own hR']

/-- Two total machines on the same inputs: what their steps keep of both
holds of both after every run. -/
theorem exec_induction₂ {ω : Type*} {stepT : τ → ι → τ × ω} {s₀ : σ} {t₀ : τ} (I : List ι → σ → τ → Prop)
    (init : I [] s₀ t₀)
    (next : ∀ is s t i, I is s t → I (is ++ [i]) (step s i).1 (stepT t i).1) (is : List ι) :
    I is (exec step s₀ is) (exec stepT t₀ is) := by
  induction is using List.reverseRecOn with
  | nil => exact init
  | append_singleton is i ih =>
    rw [exec_append, exec_append]
    exact next is _ _ i ih

end Total

end Machine
