/-
What a daemon does to the objects of its checks. Where ids are distinct the
executions of an id are those of one entry, so they come one at a time
(`consecutive_run`). What is proved of consecutive executions then holds of
every daemon run: the breaker of a check is told from how its executions
ended (`refused_iff`), and its own semaphore is never waited for.
-/
import SentinelFlow.Engine.Service
import SentinelFlow.Engine.Tripping

namespace SentinelFlow

open Machine

namespace Service

section DistinctIds

variable {reg : Registry} {config : AppConfig} {s s' : Service} {t₀ : Time} {es : List Event} {log : List Seen}

/-- Two invocations of an id that are under way, or one that is and one that
may become so, are of one entry. -/
theorem checkOf_eq (hd : config.DistinctIds)
    (h : run (Service.step reg config) (start config t₀) es = some (s, log)) {t u : ℕ} {f : Frame}
    (ht : (s.engine.point t).frame? = some f)
    (hid : metricIdOf (cfgOf config t) = metricIdOf (cfgOf config u)) : checkOf config t = checkOf config u := by
  have hK := keeps_run rfl ((isPart_engine reg config).run h)
  obtain ⟨r, hl, -⟩ := hK.frames t f ht
  obtain ⟨w, hw, hb, -⟩ := (hK.built _ r hl).entry
  have hsame : ∀ v, metricIdOf (cfgOf config v) = metricIdOf (cfgOf config t) → checkOf config w = checkOf config v :=
    fun v hv => hd.unique hb (hw.trans hv.symm)
  exact (hsame t rfl).symm.trans (hsame u hid.symm)

/-- An invocation that is under way, or of the batch awaited, is the only one
of its id that is under way. -/
theorem alone (hd : config.DistinctIds)
    (h : run (Service.step reg config) (start config t₀) es = some (s, log)) {t u : ℕ} {f : Frame}
    (ht : (s.engine.point t).frame? = some f) (hu : batchOf config u + 1 = s.daemon.starts.length)
    (hid : metricIdOf (cfgOf config t) = metricIdOf (cfgOf config u)) : t = u := by
  have hcur := (batched_run h).current (show (s.engine.point t).frame?.isSome = true by rw [ht]; rfl)
  rw [← hu] at hcur
  exact eq_of_batchOf_checkOf config (Nat.succ_injective hcur) (checkOf_eq hd h ht hid)

/-- The executions of an id are consecutive. -/
theorem consecutive_run (hd : config.DistinctIds)
    (h : run (Service.step reg config) (start config t₀) es = some (s, log)) (id : String) :
    Along (Engine.step reg (cfgOf config)) (Engine.Consecutive (cfgOf config) id) (Engine.start config.executor)
      (es.filterMap Event.check?) := by
  refine @IsPart.along _ _ _ _ _ _ _ _ _ _ _ (isPart_engine reg config)
    (fun s => ∃ es log, run (Service.step reg config) (start config t₀) es = some (s, log)) _ ?_ ?_ _ _ _ _
    ⟨[], [], rfl⟩ h
  · rintro s e s' o ⟨es, log, h⟩ hs
    exact ⟨es ++ [e], log ++ [o], run_concat.2 ⟨s, log, o, h, hs, rfl⟩⟩
  · rintro s e s' o i ⟨es, log, h⟩ hs hi hid - t - ht hne
    rcases step_cases hs with ⟨j, x, o', rfl, -, hcur, -⟩ | ⟨now, w, d, l, rfl, -⟩ | ⟨rfl, -⟩
    · cases hi
      by_contra hsome
      rw [Bool.not_eq_true, Option.isNone_eq_false_iff] at hsome
      obtain ⟨f, hf⟩ := Option.isSome_iff_exists.1 hsome
      exact hne (alone hd h hf hcur (ht.trans hid.symm))
    · cases hi
    · cases hi

/-- Where one invocation of an id waits, none of the id runs. -/
theorem idle_of_waiting (hd : config.DistinctIds)
    (h : run (Service.step reg config) (start config t₀) es = some (s, log)) {t : ℕ} {f : Frame}
    (ht : s.engine.point t = .waiting f) {u : ℕ}
    (hid : metricIdOf (cfgOf config u) = metricIdOf (cfgOf config t)) : (s.engine.point u).isRunning = false := by
  cases hu : s.engine.point u with
  | queued | waiting | finished => rfl
  | running g st p =>
    have hcur := (batched_run h).current (show (s.engine.point t).frame?.isSome = true by rw [ht]; rfl)
    have heq := alone hd h (show (s.engine.point u).frame? = some g by rw [hu]; rfl) hcur hid
    rw [heq, ht] at hu
    cases hu

/-- An invocation that waits finds the object its own entry asks for. -/
theorem object_of_waiting (hd : config.DistinctIds)
    (h : run (Service.step reg config) (start config t₀) es = some (s, log)) {t : ℕ} {f : Frame}
    (ht : s.engine.point t = .waiting f) :
    ∃ r, s.engine.executor.resilience.lookup (metricIdOf (cfgOf config t)) = some r ∧
      SameParams (config.entry (checkOf config) t).resilience.object r ∧
      (r.semaphore : ℤ) = (config.entry (checkOf config) t).resilience.maxInflight ∧
      f.timeoutSeconds = r.timeoutSeconds ∧ f.cbEnabled = r.cbEnabled := by
  have hK := keeps_run rfl ((isPart_engine reg config).run h)
  obtain ⟨r, hl, hft, hfc⟩ := hK.frames t f (by rw [ht]; rfl)
  obtain ⟨w, hw, hb, hpar, hsum⟩ := (hK.built _ r hl).entry
  have hsame : checkOf config w = checkOf config t := hd.unique hb hw
  rw [AppConfig.entry, hsame] at hpar hsum
  have hidle : s.engine.runningTasks (cfgOf config) (metricIdOf (cfgOf config t)) = ∅ := by
    refine Finset.eq_empty_of_forall_notMem fun u hu => ?_
    obtain ⟨hrun, hid⟩ := mem_runningTasks.1 hu
    rw [idle_of_waiting hd h ht hid] at hrun
    cases hrun
  have hcard : ((s.engine.runningTasks (cfgOf config) (metricIdOf (cfgOf config t))).card : ℤ) = 0 := by
    rw [hidle]
    rfl
  exact ⟨r, hl, hpar, (add_eq_left.2 hcard).symm.trans hsum, hft, hfc⟩

/-- **Nobody waits for a check's own semaphore.** In a daemon run over
distinct ids at most one pipeline of an id runs at a time, and an invocation
that is before its check's semaphore goes on at once: `max_inflight` never
holds anything back. -/
theorem never_waits (hd : config.DistinctIds)
    (h : run (Service.step reg config) (start config t₀) es = some (s, log)) :
    (∀ id, (s.engine.runningTasks (cfgOf config) id).card ≤ 1) ∧
    ∀ t f, s.engine.point t = .waiting f → s.engine.CanGoOn reg (cfgOf config) t := by
  refine ⟨fun id => Finset.card_le_one.2 fun t ht u hu => ?_, fun t f ht => ?_⟩
  · obtain ⟨hrt, hit⟩ := mem_runningTasks.1 ht
    obtain ⟨hru, hiu⟩ := mem_runningTasks.1 hu
    have hframe : ∀ v, (s.engine.point v).isRunning = true → ∃ f, (s.engine.point v).frame? = some f := by
      intro v hv
      cases hp : s.engine.point v with
      | running f st p => exact ⟨f, rfl⟩
      | queued | waiting | finished => rw [hp] at hv; cases hv
    obtain ⟨f, hf⟩ := hframe t hrt
    obtain ⟨g, hg⟩ := hframe u hru
    exact alone hd h hf ((batched_run h).current (by rw [hg]; rfl)) (hit.trans hiu.symm)
  · obtain ⟨r, hl, hpar, hsem, hft, -⟩ := object_of_waiting hd h ht
    refine ⟨by rw [ht]; rfl, fun clk reply ha => Engine.step_isSome ?_⟩
    have hinflight := (config.entry (checkOf config) t).resilience.inflightPos
    rw [ht] at ha ⊢
    refine resume_waiting hl (by omega) ?_ ha
    rw [hft, hpar.timeout]
    exact (config.entry (checkOf config) t).resilience.timeoutPos

/-- **The admission rule.** In a daemon run over distinct ids, whatever the
other checks do: an execution that comes to its breaker is refused if and
only if its last execution that ended threw, at most the reset timeout ago,
and at least `failure_threshold` of them have thrown since the last that
returned. -/
theorem refused_iff (hd : config.DistinctIds)
    (h : run (Service.step reg config) (start config t₀) es = some (s, log)) {t : ℕ} {f : Frame}
    (ht : s.engine.point t = .waiting f)
    (hcb : (config.entry (checkOf config) t).resilience.circuitBreaker.enabled = true) (clk : Clock) :
    Engine.rejects (cfgOf config) s.engine ⟨t, clk, .granted⟩ = true ↔
      (config.entry (checkOf config) t).resilience.circuitBreaker.failureThreshold ≤
          throwsSinceReturn (endings (cfgOf config) (metricIdOf (cfgOf config t)) (log.filterMap Seen.check?)) ∧
        ∃ last ∈ (endings (cfgOf config) (metricIdOf (cfgOf config t)) (log.filterMap Seen.check?)).getLast?,
          last.2.threw = true ∧
            clk.perf - last.1 ≤ (config.entry (checkOf config) t).resilience.circuitBreaker.resetTimeoutSeconds := by
  obtain ⟨r, hl, hpar, -, -, hfc⟩ := object_of_waiting hd h ht
  have hrcb : r.cbEnabled = true := hpar.enabled.trans hcb
  have hthr : r.circuitBreaker.failureThreshold =
      (config.entry (checkOf config) t).resilience.circuitBreaker.failureThreshold := hpar.threshold
  have hreset : r.circuitBreaker.resetTimeoutSeconds =
      .finite (config.entry (checkOf config) t).resilience.circuitBreaker.resetTimeoutSeconds := hpar.reset
  have hone : 1 ≤ r.circuitBreaker.failureThreshold := by
    rw [hthr]
    exact (config.entry (checkOf config) t).resilience.circuitBreaker.thresholdPos
  obtain ⟨hiff, htime⟩ := opened_iff rfl ((isPart_engine reg config).run h) (consecutive_run hd h _)
    (fun u hu => idle_of_waiting hd h ht hu) hl hrcb hone
  have hrej : Engine.rejects (cfgOf config) s.engine ⟨t, clk, .granted⟩ = true ↔
      r.circuitBreaker.state = .opened ∧ clk.perf - r.circuitBreaker.lastFailureTime ≤
        (config.entry (checkOf config) t).resilience.circuitBreaker.resetTimeoutSeconds := by
    simp only [Engine.rejects, ht, hl, hfc, hrcb, Bool.true_and, Bool.not_eq_true']
    cases he : r.circuitBreaker.callEnter clk.perf with
    | ok b =>
      refine ⟨fun hok => (by cases hok), fun ⟨hop, hle⟩ => ?_⟩
      rcases CircuitBreaker.callEnter_ok he with ⟨hne, -⟩ | ⟨-, hlt, -⟩
      · exact absurd hop hne
      · rw [hreset, PyFloat.lt_finite, decide_eq_true_eq] at hlt
        exact absurd hle (not_le.2 hlt)
    | error e =>
      obtain ⟨hop, hlt, -⟩ := CircuitBreaker.callEnter_error_iff.1 he
      rw [hreset, PyFloat.lt_finite, decide_eq_false_iff_not, not_lt] at hlt
      exact ⟨fun _ => ⟨hop, hlt⟩, fun _ => rfl⟩
  rw [hrej, ← hthr]
  constructor
  · intro ⟨hop, hle⟩
    obtain ⟨hn, hlast⟩ := hiff.1 hop
    obtain ⟨last, hmem, hthrew⟩ := (Option.any_eq_true _ _).1 hlast
    exact ⟨hn, last, hmem, hthrew, by rw [← htime hop last hmem]; exact hle⟩
  · intro ⟨hn, last, hmem, hthrew, hle⟩
    have hop := hiff.2 ⟨hn, (Option.any_eq_true _ _).2 ⟨last, hmem, hthrew⟩⟩
    exact ⟨hop, by rw [htime hop last hmem]; exact hle⟩

end DistinctIds

theorem distinctIds_oneCheck (check : MetricCheckConfig) : (plainConfig check []).DistinctIds :=
  fun i j hne => absurd (Subsingleton.elim (α := Fin 1) i j) hne

/-- The first check of a batch, entered. -/
theorem never_waits_entered :
    ∃ s log, run (Service.step .builtin oneCheck) (start oneCheck 0) [.check ⟨0, ⟨0, 0⟩, .granted⟩] = some (s, log) ∧
      s.engine.CanGoOn .builtin (cfgOf oneCheck) 0 := by
  have h : (run (Service.step .builtin oneCheck) (start oneCheck 0) [.check ⟨0, ⟨0, 0⟩, .granted⟩]).any
      (fun p => (p.1.engine.point 0).frame?.isSome && !(p.1.engine.point 0).isRunning) = true := by decide +kernel
  obtain ⟨⟨s, log⟩, hs, hq⟩ := (Option.any_eq_true _ _).1 h
  simp only [Bool.and_eq_true, Bool.not_eq_true'] at hq
  cases hp : s.engine.point 0 with
  | waiting f => exact ⟨s, log, hs, (never_waits (distinctIds_oneCheck _) hs).2 0 f hp⟩
  | running f st p => rw [hp] at hq; cases hq.2
  | queued | finished => rw [hp] at hq; cases hq.1

/-- A check whose breaker opens on the first failure, and stays open over the next batch. -/
def fragile : AppConfig :=
  plainConfig { plainCheck "orders" with
    resilience := { plainResilience with
      circuitBreaker :=
        { failureThreshold := 1, resetTimeoutSeconds := 120, thresholdPos := Int.one_pos, resetPos := by decide } } } []

/-- Its second execution is refused. -/
theorem refused_iff_secondBatch :
    ∃ s log, run (Service.step .builtin fragile) (start fragile 0)
        (oneBatch ++ [.woken 60 .slept, .check ⟨1, ⟨60, 60⟩, .granted⟩]) = some (s, log) ∧
      Engine.rejects (cfgOf fragile) s.engine ⟨1, ⟨60, 60⟩, .granted⟩ = true := by
  have h : (run (Service.step .builtin fragile) (start fragile 0)
      (oneBatch ++ [.woken 60 .slept, .check ⟨1, ⟨60, 60⟩, .granted⟩])).any (fun p =>
        (p.1.engine.point 1).frame?.isSome && !(p.1.engine.point 1).isRunning &&
        (decide (1 ≤ throwsSinceReturn (endings (cfgOf fragile) "orders" (p.2.filterMap Seen.check?))) &&
        (endings (cfgOf fragile) "orders" (p.2.filterMap Seen.check?)).getLast?.any fun last =>
          last.2.threw && decide (60 - last.1 ≤ 120))) = true := by decide +kernel
  obtain ⟨⟨s, log⟩, hs, hq⟩ := (Option.any_eq_true _ _).1 h
  simp only [Bool.and_eq_true, Bool.not_eq_true', decide_eq_true_eq, Option.any_eq_true] at hq
  obtain ⟨⟨hin, hnr⟩, hn, last, hlast, hthrew, hle⟩ := hq
  have hreset : (120 : ℚ) = ((120 : ℤ) : ℚ) := by norm_num
  cases hp : s.engine.point 1 with
  | waiting f =>
    exact ⟨s, log, hs, (refused_iff (distinctIds_oneCheck _) hs hp rfl ⟨60, 60⟩).2
      ⟨Int.ofNat_le.2 hn, last, hlast, hthrew, hle.trans_eq hreset⟩⟩
  | running f st p => rw [hp] at hnr; cases hnr
  | queued | finished => rw [hp] at hin; cases hin

end Service

end SentinelFlow
