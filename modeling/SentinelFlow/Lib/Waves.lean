/-
Jobs on servers, by a clock. No server stands idle while a job waits, and no
job is in service for longer than `d`. So with `k` servers the jobs go in
waves: when `m` times `d` have passed and some job still waits, `k * (m + 1)`
others have been begun (`InWaves.begun`), and all are through after as many
times `d` as there are waves (`InWaves.time_le`).

A job that is through may never have been in service.
-/
import Mathlib.Data.Finset.Card
import Mathlib.Tactic.Linarith

namespace Waves

variable {α 𝕜 : Type*}

/-- Where a job stands; in service it keeps when it was begun. -/
inductive Stage (𝕜 : Type*)
  | waiting
  | since (a : 𝕜)
  | through
  deriving DecidableEq

namespace Stage

def inService : Stage 𝕜 → Bool
  | .since _ => true
  | .waiting | .through => false

theorem inService_iff {v : Stage 𝕜} : v.inService = true ↔ ∃ a, v = .since a := by
  cases v <;> simp [inService]

/-- Through, or in service since then or earlier. -/
def BegunBy [LE 𝕜] (t : 𝕜) : Stage 𝕜 → Prop
  | .waiting => False
  | .since a => a ≤ t
  | .through => True

instance [LE 𝕜] [DecidableLE 𝕜] (t : 𝕜) : DecidablePred (BegunBy t)
  | .waiting => inferInstanceAs (Decidable False)
  | .since a => inferInstanceAs (Decidable (a ≤ t))
  | .through => inferInstanceAs (Decidable True)

end Stage

def serving (jobs : Finset α) (v : α → Stage 𝕜) : Finset α := jobs.filter fun j => (v j).inService = true

theorem mem_serving {jobs : Finset α} {v : α → Stage 𝕜} {j : α} :
    j ∈ serving jobs v ↔ j ∈ jobs ∧ ∃ a, v j = .since a := by
  rw [serving, Finset.mem_filter, Stage.inService_iff]

section Passing

variable [CommRing 𝕜] [LinearOrder 𝕜] (k : ℕ) (d : 𝕜) (jobs : Finset α)

def begunBy (t : 𝕜) (v : α → Stage 𝕜) : Finset α := jobs.filter fun j => (v j).BegunBy t

/-- From one time to another, and what becomes of the jobs then. -/
structure Passes (τ τ' : 𝕜) (v v' : α → Stage 𝕜) : Prop where
  le : τ ≤ τ'
  busy : τ < τ' → (∃ j ∈ jobs, v j = .waiting) → k ≤ (serving jobs v).card
  inTime : ∀ j ∈ jobs, ∀ a, v j = .since a → τ' ≤ a + d
  ready : τ < τ' → ∃ j ∈ jobs, v j ≠ .through
  moves : ∀ j ∈ jobs, v' j = v j ∨ v' j = .through ∨
    v j = .waiting ∧ v' j = .since τ' ∧ (serving jobs v).card < k

/-- What holds of jobs that all waited at `t₀`. -/
structure InWaves (t₀ τ : 𝕜) (v : α → Stage 𝕜) : Prop where
  since_le : ∀ j ∈ jobs, ∀ a, v j = .since a → a ≤ τ
  begun : ∀ m : ℕ, (∃ j ∈ jobs, v j = .waiting) → t₀ + m * d < τ →
    k * (m + 1) ≤ (begunBy jobs (t₀ + m * d) v).card
  start_le : ∀ m : ℕ, jobs.card ≤ k * (m + 1) → ∀ j ∈ jobs, ∀ a, v j = .since a → a ≤ t₀ + m * d
  time_le : ∀ m : ℕ, jobs.card ≤ k * (m + 1) → τ ≤ t₀ + (m + 1) * d

end Passing

section Begun

variable [CommRing 𝕜] [LinearOrder 𝕜] {k : ℕ} {d : 𝕜} {jobs : Finset α} {t₀ τ τ' : 𝕜}
  {v v' : α → Stage 𝕜}

/-- While a job waits, not as many waves have been begun as hold all of them. -/
theorem InWaves.le_of_waiting (h : InWaves k d jobs t₀ τ v) {m : ℕ} (hm : jobs.card ≤ k * (m + 1))
    (hw : ∃ j ∈ jobs, v j = .waiting) : τ ≤ t₀ + m * d := by
  by_contra hlt
  have hbegun := h.begun m hw (not_le.1 hlt)
  obtain ⟨j, hj, hv⟩ := hw
  have hfewer : (begunBy jobs (t₀ + m * d) v).card < jobs.card := by
    refine Finset.card_lt_card (Finset.filter_ssubset.2 ⟨j, hj, ?_⟩)
    rw [hv]
    exact id
  omega

omit [CommRing 𝕜] in
/-- Where all in service were begun after one time and by another, they come on top. -/
theorem card_add_le_begunBy {t t' : 𝕜} (h : ∀ j ∈ jobs, ∀ a, v j = .since a → t < a ∧ a ≤ t') :
    (begunBy jobs t v).card + (serving jobs v).card ≤ (begunBy jobs t' v).card := by
  classical
  have hdisj : Disjoint (begunBy jobs t v) (serving jobs v) := by
    rw [Finset.disjoint_left]
    intro j hj hs
    obtain ⟨hjobs, hb⟩ := Finset.mem_filter.1 hj
    obtain ⟨-, a, ha⟩ := mem_serving.1 hs
    rw [ha] at hb
    exact absurd (h j hjobs a ha).1 (not_lt.2 hb)
  rw [← Finset.card_union_of_disjoint hdisj]
  refine Finset.card_le_card fun j hj => ?_
  rcases Finset.mem_union.1 hj with hj | hj
  · obtain ⟨hjobs, hb⟩ := Finset.mem_filter.1 hj
    refine Finset.mem_filter.2 ⟨hjobs, ?_⟩
    cases hv : v j with
    | waiting =>
      rw [hv] at hb
      cases hb
    | since a => exact (h j hjobs a hv).2
    | through => trivial
  · obtain ⟨hjobs, a, ha⟩ := mem_serving.1 hj
    refine Finset.mem_filter.2 ⟨hjobs, ?_⟩
    rw [ha]
    exact (h j hjobs a ha).2

theorem Passes.waiting (h : Passes k d jobs τ τ' v v') (hw : ∃ j ∈ jobs, v' j = .waiting) :
    ∃ j ∈ jobs, v j = .waiting := by
  obtain ⟨j, hj, hv⟩ := hw
  refine ⟨j, hj, ?_⟩
  rcases h.moves j hj with he | he | ⟨-, he, -⟩
  · rw [← he, hv]
  · rw [hv] at he
    cases he
  · rw [hv] at he
    cases he

theorem Passes.begunBy_le (h : Passes k d jobs τ τ' v v') (t : 𝕜) :
    (begunBy jobs t v).card ≤ (begunBy jobs t v').card := by
  refine Finset.card_le_card fun j hj => ?_
  obtain ⟨hjobs, hb⟩ := Finset.mem_filter.1 hj
  refine Finset.mem_filter.2 ⟨hjobs, ?_⟩
  rcases h.moves j hjobs with he | he | ⟨hv, -⟩
  · rw [he]
    exact hb
  · rw [he]
    trivial
  · rw [hv] at hb
    cases hb

end Begun

section Steps

variable [CommRing 𝕜] [LinearOrder 𝕜] [IsStrictOrderedRing 𝕜] {k : ℕ} {d : 𝕜} {jobs : Finset α}
  {t₀ τ τ' : 𝕜} {v v' : α → Stage 𝕜}

theorem inWaves_start (hd : 0 ≤ d) (h : ∀ j ∈ jobs, v j = .waiting) : InWaves k d jobs t₀ t₀ v := by
  have hnone : ∀ j ∈ jobs, ∀ a, v j ≠ .since a := by
    intro j hj a ha
    rw [h j hj] at ha
    cases ha
  refine ⟨fun j hj a ha => absurd ha (hnone j hj a), fun m _ hlt => ?_,
    fun m _ j hj a ha => absurd ha (hnone j hj a), fun m _ => ?_⟩
  · have hm : 0 ≤ (m : 𝕜) * d := mul_nonneg m.cast_nonneg hd
    linarith
  · have hm : 0 ≤ ((m : 𝕜) + 1) * d := mul_nonneg (by positivity) hd
    linarith

/-- The wave that is in service when its time is up has the earlier ones behind it. -/
theorem InWaves.wave (hk : 0 < k) (h : InWaves k d jobs t₀ τ v) (hp : Passes k d jobs τ τ' v v')
    (hw : ∃ j ∈ jobs, v j = .waiting) {m : ℕ} (hle : τ ≤ t₀ + m * d) (hlt : t₀ + m * d < τ') :
    k * (m + 1) ≤ (begunBy jobs (t₀ + m * d) v).card := by
  have hbusy := hp.busy (lt_of_le_of_lt hle hlt) hw
  have hby : ∀ j ∈ jobs, ∀ a, v j = .since a → a ≤ t₀ + m * d := fun j hj a ha => (h.since_le j hj a ha).trans hle
  cases m with
  | zero =>
    rw [Nat.zero_add, Nat.mul_one]
    refine hbusy.trans (Finset.card_le_card fun j hj => ?_)
    obtain ⟨hjobs, a, ha⟩ := mem_serving.1 hj
    refine Finset.mem_filter.2 ⟨hjobs, ?_⟩
    rw [ha]
    exact hby j hjobs a ha
  | succ m =>
    -- Whoever was begun with the wave before would be overdue.
    have hafter : ∀ j ∈ jobs, ∀ a, v j = .since a → t₀ + m * d < a := by
      intro j hj a ha
      have hin := hp.inTime j hj a ha
      push_cast at hlt
      linarith
    have hadd : (begunBy jobs (t₀ + m * d) v).card + (serving jobs v).card ≤
        (begunBy jobs (t₀ + (m + 1 : ℕ) * d) v).card :=
      card_add_le_begunBy fun j hj a ha => ⟨hafter j hj a ha, hby j hj a ha⟩
    have hbefore : k * (m + 1) ≤ (begunBy jobs (t₀ + m * d) v).card := by
      refine h.begun m hw ?_
      obtain ⟨j, hj⟩ := Finset.card_pos.1 (lt_of_lt_of_le hk hbusy)
      obtain ⟨hjobs, a, ha⟩ := mem_serving.1 hj
      exact lt_of_lt_of_le (hafter j hjobs a ha) (h.since_le j hjobs a ha)
    have hmul : k * (m + 1 + 1) = k * (m + 1) + k := Nat.mul_succ k (m + 1)
    omega

/-- **Jobs go in waves**, from one time to the next. -/
theorem InWaves.passes (hk : 0 < k) (h : InWaves k d jobs t₀ τ v) (hp : Passes k d jobs τ τ' v v') :
    InWaves k d jobs t₀ τ' v' := by
  refine ⟨fun j hj a ha => ?_, fun m hw hlt => ?_, fun m hm j hj a ha => ?_, fun m hm => ?_⟩
  · rcases hp.moves j hj with he | he | ⟨-, he, -⟩
    · exact (h.since_le j hj a (he ▸ ha)).trans hp.le
    · rw [ha] at he
      cases he
    · rw [ha] at he
      cases he
      exact le_rfl
  · refine le_trans ?_ (hp.begunBy_le _)
    have hw' := hp.waiting hw
    by_cases hbefore : t₀ + m * d < τ
    · exact h.begun m hw' hbefore
    · exact h.wave hk hp hw' (not_lt.1 hbefore) hlt
  · rcases hp.moves j hj with he | he | ⟨hv, he, hfree⟩
    · exact h.start_le m hm j hj a (he ▸ ha)
    · rw [ha] at he
      cases he
    -- A job is begun when a server is free, and then no time has passed.
    · rw [ha] at he
      cases he
      have hsame : τ = τ' := le_antisymm hp.le (not_lt.1 fun hlt => absurd (hp.busy hlt ⟨j, hj, hv⟩) (not_le.2 hfree))
      rw [← hsame]
      exact h.le_of_waiting hm ⟨j, hj, hv⟩
  · rcases hp.le.eq_or_lt with heq | hlt
    · rw [← heq]
      exact h.time_le m hm
    · obtain ⟨j, hj, a, ha⟩ : ∃ j ∈ jobs, ∃ a, v j = .since a := by
        obtain ⟨j, hj, hv⟩ := hp.ready hlt
        cases hstage : v j with
        | through => exact absurd hstage hv
        | since a => exact ⟨j, hj, a, hstage⟩
        | waiting =>
          have hbusy := hp.busy hlt ⟨j, hj, hstage⟩
          obtain ⟨i, hi⟩ := Finset.card_pos.1 (lt_of_lt_of_le hk hbusy)
          obtain ⟨hijobs, a, ha⟩ := mem_serving.1 hi
          exact ⟨i, hijobs, a, ha⟩
      have hstart := h.start_le m hm j hj a ha
      have hin := hp.inTime j hj a ha
      linarith

end Steps

end Waves
