/-
Stopping the daemon. After `daemon_task.cancel()` no batch begins, so what is
left is what the invocations of the latest one still take, and the
`CancelledError` that ends `run_daemon` itself. That is bounded, none of it
can get stuck, and once the daemon has stopped no check is under way.
-/
import Mathlib.Algebra.BigOperators.Fin
import SentinelFlow.Engine.Service

namespace SentinelFlow

open Machine

/-- The steps of a batch at most. -/
def AppConfig.batchSteps (config : AppConfig) : ℕ := (config.checks.map fun c => 3 * (c.evaluators.length + 1)).sum

namespace Service

section Stopping

variable {reg : Registry} {config : AppConfig} {s s' : Service}

/-- The invocations of the latest batch. -/
def latest (config : AppConfig) (s : Service) : Finset ℕ :=
  Finset.univ.image fun i => taskOf config i (s.daemon.starts.length - 1)

theorem mem_latest {t : ℕ} : t ∈ latest config s ↔ batchOf config t = s.daemon.starts.length - 1 := by
  simp only [latest, Finset.mem_image, Finset.mem_univ, true_and]
  constructor
  · rintro ⟨i, rfl⟩
    exact batchOf_taskOf config i _
  · intro h
    exact ⟨checkOf config t, by rw [taskOf, ← h]; exact batchOf_add_checkOf config t⟩

/-- The steps the service still takes at most once it is cancelled. -/
def stepsLeft (config : AppConfig) (s : Service) : ℕ :=
  s.engine.stepsLeft (cfgOf config) (latest config s) + if s.daemon.phase = .stopped then 0 else 1

theorem stepsLeft_le {t₀ : Time} {es : List Event} {log : List Seen}
    (h : run (Service.step reg config) (start config t₀) es = some (s, log)) :
    s.stepsLeft config ≤ config.batchSteps + 1 := by
  have hpoint := SentinelFlow.stepsLeft_le ((isPart_engine reg config).run h)
  have hsum : s.engine.stepsLeft (cfgOf config) (latest config s) ≤ config.batchSteps := by
    calc ∑ t ∈ latest config s, (s.engine.point t).stepsLeft (cfgOf config t)
        ≤ ∑ t ∈ latest config s, 3 * ((config.entry (checkOf config) t).evaluators.length + 1) := by
          refine Finset.sum_le_sum fun t _ => (hpoint t).trans (le_of_eq ?_)
          show 3 + 3 * (listAt (config.entry (checkOf config) t).modelDump "evaluators").length = _
          rw [listAt_evaluators, List.length_map]
          omega
      _ = ∑ i : Fin config.checks.length, 3 * ((config.checks.get i).evaluators.length + 1) := by
          rw [latest, Finset.sum_image fun i _ j _ hij => ?_]
          · refine Finset.sum_congr rfl fun i _ => ?_
            rw [AppConfig.entry, checkOf_taskOf]
          · rw [← checkOf_taskOf config i, ← checkOf_taskOf config j]
            exact congrArg _ hij
      _ = config.batchSteps := Fin.sum_univ_fun_getElem config.checks fun c => 3 * (c.evaluators.length + 1)
  unfold stepsLeft
  split <;> omega

/-- A check's step is one of those left to its batch. -/
theorem step_check {i : Input} {o : Seen} (hs : Service.step reg config s (.check i) = some (s', o)) :
    s'.cancelling = s.cancelling ∧ s'.daemon = s.daemon ∧ s'.stepsLeft config < s.stepsLeft config := by
  rcases step_cases hs with ⟨i', x, o', he, -, hcur, -, hx, rfl, -⟩ | ⟨now, w, d, l, he, -⟩ | ⟨he, -⟩ <;> cases he
  refine ⟨rfl, rfl, Nat.add_lt_add_right (stepsLeft_step (mem_latest.2 ?_) hx) _⟩
  show _ = s.daemon.starts.length - 1
  omega

/-- Once it is cancelled it begins no batch, and every step is one of the last. -/
theorem step_cancelling (hc : s.cancelling = true) {e : Event} {o : Seen}
    (hs : Service.step reg config s e = some (s', o)) :
    s'.cancelling = true ∧ s'.daemon.starts = s.daemon.starts ∧ s'.stepsLeft config < s.stepsLeft config := by
  rcases step_cases hs with ⟨i, -, -, rfl, -⟩ | ⟨now, w, d, l, -, hw, hd, rfl, -⟩ | ⟨-, hn, -, -⟩
  · obtain ⟨hsame, hdaemon, hlt⟩ := step_check hs
    exact ⟨hsame.trans hc, by rw [hdaemon], hlt⟩
  · rcases Scheduler.step_cases config hd with ⟨t, -, rfl, -, rfl⟩ | ⟨t, -, rfl, -, rfl⟩ | ⟨t, τ, -, rfl, rfl⟩ |
      ⟨rfl, rfl⟩
    · simp [wakes, hc] at hw
    · simp [wakes, hc] at hw
    · simp [wakes, hc] at hw
    · refine ⟨hc, rfl, Nat.add_lt_add_left ?_ _⟩
      have hlive : s.daemon.phase ≠ .stopped := by
        intro hp
        simp [Scheduler.step, hp] at hd
      rw [if_neg hlive]
      exact Nat.zero_lt_one
  · rw [hc] at hn
    cases hn

/-- While a batch is awaited and not through, a check of it can go on. -/
theorem batch_enabled {t₀ : Time} {es : List Event} {log : List Seen}
    (h : run (Service.step reg config) (start config t₀) es = some (s, log)) (hbatch : s.daemon.phase.isBatch = true)
    (hng : s.gathered config ≠ true) : ∃ t, s.awaited config t = true ∧ s.engine.CanGoOn reg (cfgOf config) t := by
  have hB := batched_run h
  rw [ne_eq, gathered_iff] at hng
  simp only [not_forall, Bool.not_eq_true] at hng
  obtain ⟨t, ht, hun⟩ := hng
  obtain ⟨u, hu, hcan⟩ := unfinished_enabled ((isPart_engine reg config).run h) hun
  refine ⟨u, ?_, hcan⟩
  have hcur : batchOf config u + 1 = s.daemon.starts.length := by
    have hbegun := hB.begun
    rcases hu with rfl | hu
    · omega
    · by_contra hne
      by_cases hlt : batchOf config u + 1 < s.daemon.starts.length
      · have hfin := hB.past u hlt
        rw [hcan.1] at hfin
        cases hfin
      · exact hu (hB.future u (by omega))
  rw [awaited, hbatch, hcur]
  simp

/-- While the daemon has not stopped, a check of the latest batch can go on,
or else the daemon takes the cancellation. -/
theorem stop_enabled {t₀ : Time} {es : List Event} {log : List Seen}
    (h : run (Service.step reg config) (start config t₀) es = some (s, log)) (hc : s.cancelling = true)
    (hlive : s.daemon.phase ≠ .stopped) :
    (∃ t, s.awaited config t = true ∧ s.engine.CanGoOn reg (cfgOf config) t) ∨
      ∀ now, (Service.step reg config s (.woken now .cancelled)).isSome = true := by
  by_cases hw : s.wakes config .cancelled = true
  · refine .inr fun now => ?_
    simp only [Service.step, hw, if_true, Option.isSome_map]
    unfold Scheduler.step
    cases hp : s.daemon.phase with
    | stopped => exact absurd hp hlive
    | batch t => rfl
    | sleeping t τ => rfl
  · simp only [wakes, hc, Bool.true_and, Bool.or_eq_true, Bool.not_eq_true', not_or, Bool.not_eq_false] at hw
    exact .inl (batch_enabled h hw.1 hw.2)

/-- **Stopping.** From every state of a daemon run in which it was cancelled:
it takes no more steps than a batch and one, it never gets stuck before it
has stopped, and no batch begins. Once it has stopped every check begun is
finished, and every permit of both levels is free. -/
theorem stop_ends {t₀ : Time} {es : List Event} {log : List Seen}
    (h : run (Service.step reg config) (start config t₀) es = some (s, log)) (hc : s.cancelling = true) :
    (∀ fs s' log', run (Service.step reg config) s fs = some (s', log') →
      fs.length ≤ config.batchSteps + 1 ∧ s'.daemon.starts = s.daemon.starts) ∧
    (s.daemon.phase = .stopped ∨ (∃ t, s.awaited config t = true ∧ s.engine.CanGoOn reg (cfgOf config) t) ∨
      ∀ now, (Service.step reg config s (.woken now .cancelled)).isSome = true) ∧
    (s.daemon.phase = .stopped → (∀ t, s.engine.point t = .queued ∨ (s.engine.point t).isFinished = true) ∧
      AllFree config s log) := by
  refine ⟨fun fs s' log' hr => ?_, ?_, fun hp => ?_⟩
  · have hlen := run_rank (stepsLeft config) (fun _ => True) (fun s => s.cancelling = true)
      (fun s e s' o hc _ hs => ⟨(step_cancelling hc hs).1, (step_cancelling hc hs).2.2⟩) hc (fun _ _ => trivial) hr
    have hle := stepsLeft_le h
    have hsame := run_induction (fun _ _ t => t.cancelling = true ∧ t.daemon.starts = s.daemon.starts) ⟨hc, rfl⟩
      (fun _ _ _ _ _ _ _ ht hs => ⟨(step_cancelling ht.1 hs).1, (step_cancelling ht.1 hs).2.1.trans ht.2⟩) hr
    exact ⟨by omega, hsame.2⟩
  · by_cases hp : s.daemon.phase = .stopped
    · exact .inl hp
    · exact .inr (stop_enabled h hc hp)
  · have hb : s.daemon.phase.isBatch = false := by rw [hp]; rfl
    have hB := batched_run h
    exact ⟨hB.at_rest (hB.between hb), allFree_of_through h (hB.between hb)⟩

end Stopping

/-- Cancelled in the middle of a batch. -/
theorem stop_ends_midBatch :
    ∃ s log, run (Service.step .builtin oneCheck) (start oneCheck 0)
        [.check ⟨0, ⟨0, 0⟩, .granted⟩, .cancel, .check ⟨0, ⟨1, 1⟩, .cancel []⟩, .woken 1 .cancelled] = some (s, log) ∧
      (∀ t, s.engine.point t = .queued ∨ (s.engine.point t).isFinished = true) ∧
      s.engine.executor.semaphore = 10 ∧ s.engine.freeInflight "orders" = 10 := by
  have h : (run (Service.step .builtin oneCheck) (start oneCheck 0)
      [.check ⟨0, ⟨0, 0⟩, .granted⟩, .cancel, .check ⟨0, ⟨1, 1⟩, .cancel []⟩, .woken 1 .cancelled]).any
      (fun p => p.1.cancelling && p.1.daemon.phase == .stopped &&
        maxInflight (cfgOf oneCheck) "orders" (p.2.filterMap Seen.check?) == 10) = true := by decide +kernel
  obtain ⟨⟨s, log⟩, hs, hq⟩ := (Option.any_eq_true _ _).1 h
  simp only [Bool.and_eq_true, beq_iff_eq] at hq
  obtain ⟨⟨hc, hp⟩, hmax⟩ := hq
  obtain ⟨hrest, hshared, hown⟩ := (stop_ends hs hc).2.2 hp
  exact ⟨s, log, hs, hrest, hshared, (hown "orders").trans hmax⟩

end Service

end SentinelFlow
