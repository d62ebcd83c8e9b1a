/-
The two circuit breakers, driven by one trace of requests and reports.

Their states differ along the run: one counts the failures that come while
it is `OPEN` and not the one that ends a probe, the other counts both; one
takes the time of a failure only when it opens, the other every time; and
exactly at the timeout one still rejects and the other probes. What their
states share (`Twins`) forces equal answers at every other request.
-/
import SentinelFlow.Lib.Machine
import SentinelFlow.Lib.Timed
import SentinelFlow.Resilience.CircuitBreaker

namespace SentinelFlow.SameRule

open Machine Timed

inductive Report
  | request | success | failure
  deriving DecidableEq, Repr

abbrev Trace := List (Time × Report)

/-- The breaker of `runtime/resilience.py`: a request is the admission of
`call`, a report its `else` or its `except` clause. -/
def runtimeStep (b : CircuitBreaker) : Time × Report → CircuitBreaker × Option Bool
  | (now, .request) => match b.callEnter now with
    | .ok b' => (b', some true)
    | .error _ => (b, some false)
  | (_, .success) => (b.callElse, none)
  | (now, .failure) => (b.callExcept now, none)

/-- The breaker of `resilience/circuit_breaker.py`. -/
def resilienceStep (b : Resilience.CircuitBreaker) : Time × Report → Resilience.CircuitBreaker × Option Bool
  | (now, .request) => ((b.allowRequest now).1, some (b.allowRequest now).2)
  | (_, .success) => (b.recordSuccess, none)
  | (now, .failure) => (b.recordFailure now, none)

def Report.isFailure : Report → Bool
  | .failure => true
  | _ => false

/-- When the most recent failure report was made. -/
def lastFailure (tr : Trace) : Option Time := (tr.reverse.find? (·.2.isFailure)).map (·.1)

@[simp] theorem lastFailure_failure (tr : Trace) (now : Time) :
    lastFailure (tr ++ [(now, .failure)]) = some now := by
  simp [lastFailure, Report.isFailure]

@[simp] theorem lastFailure_request (tr : Trace) (now : Time) :
    lastFailure (tr ++ [(now, .request)]) = lastFailure tr := by
  simp [lastFailure, Report.isFailure]

/-! ## What the two states share -/

/-- Both closed with one count, or both not, with the last failure on
record; then the resilience breaker probes whenever the other does, and it
began to no sooner than the timeout. -/
structure Twins (n : ℤ) (timeout : PyFloat) (tr : Trace) (b : CircuitBreaker)
    (r : Resilience.CircuitBreaker) : Prop where
  threshold : b.failureThreshold = n ∧ r.failureThreshold = n
  timeouts : b.resetTimeoutSeconds = timeout ∧ r.recoveryTimeout = timeout
  together : b.state = .closed ↔ r.state = .closed
  closed : b.state = .closed → b.failures = r.failures ∧ b.failures < n
  tripped : b.state ≠ .closed → n ≤ b.failures ∧ lastFailure tr = some b.lastFailureTime ∧
    r.lastFailureTime = some b.lastFailureTime
  probes : b.state = .halfOpen → r.state = .halfOpen
  sooner : r.state = .halfOpen → ∃ e ∈ tr, timeout.le (.finite (e.1 - b.lastFailureTime)) = true

namespace Twins

variable {n : ℤ} {timeout : PyFloat} {tr : Trace} {b : CircuitBreaker} {r : Resilience.CircuitBreaker}

theorem fresh (hn : 1 ≤ n) (timeout : PyFloat) :
    Twins n timeout [] { failureThreshold := n, resetTimeoutSeconds := timeout }
      { failureThreshold := n, recoveryTimeout := timeout } where
  threshold := ⟨rfl, rfl⟩
  timeouts := ⟨rfl, rfl⟩
  together := Iff.rfl
  closed _ := ⟨rfl, by dsimp only; omega⟩
  tripped h := absurd rfl h
  probes h := by cases h
  sooner h := by cases h

/-- A request that neither breaker moves at. -/
theorem stays (h : Twins n timeout tr b r) (now : Time) :
    Twins n timeout (tr ++ [(now, .request)]) b r := by
  refine ⟨h.threshold, h.timeouts, h.together, h.closed, by simpa using h.tripped, h.probes, ?_⟩
  intro hr
  obtain ⟨e, he, hle⟩ := h.sooner hr
  exact ⟨e, List.mem_append_left _ he, hle⟩

/-- The resilience breaker begins to probe, the other does not or does. -/
theorem probe (h : Twins n timeout tr b r) {now : Time} (hb : b.state ≠ .closed)
    (hle : timeout.le (.finite (now - b.lastFailureTime)) = true) {s : CircuitState} (hs : s ≠ .closed) :
    Twins n timeout (tr ++ [(now, .request)]) { b with state := s } { r with state := .halfOpen } := by
  refine ⟨h.threshold, h.timeouts, by simp [hs], fun hc => absurd hc hs, fun _ => ?_, fun _ => rfl, ?_⟩
  · simpa using h.tripped hb
  · intro _
    exact ⟨(now, .request), by simp, hle⟩

/-- While the other breaker is `OPEN`, the resilience breaker is not closed
either, and its answer goes by the same clock reading. -/
theorem allowRequest_of_opened (h : Twins n timeout tr b r) (hs : b.state = .opened) (now : Time) :
    r.allowRequest now =
      if r.state = .halfOpen ∨ timeout.le (.finite (now - b.lastFailureTime)) = true then
        ({ r with state := .halfOpen }, true)
      else (r, false) := by
  obtain ⟨-, -, hl⟩ := h.tripped (by simp [hs])
  have hnot : r.state ≠ .closed := fun hr => by simpa [hs] using h.together.2 hr
  cases hr : r.state with
  | closed => exact absurd hr hnot
  | opened => simp [Resilience.CircuitBreaker.allowRequest, hr, hl, h.timeouts.2]
  | halfOpen =>
    have hsame : ({ r with state := .halfOpen } : Resilience.CircuitBreaker) = r := by rw [← hr]
    simp [Resilience.CircuitBreaker.allowRequest, hr, hsame]

theorem request (h : Twins n timeout tr b r) (now : Time) :
    Twins n timeout (tr ++ [(now, .request)]) (runtimeStep b (now, .request)).1 (r.allowRequest now).1 := by
  cases hs : b.state with
  | closed =>
    have hr := h.together.1 hs
    simp only [runtimeStep, CircuitBreaker.callEnter, Resilience.CircuitBreaker.allowRequest, hs, hr]
    exact h.stays now
  | halfOpen =>
    have hr := h.probes hs
    simp only [runtimeStep, CircuitBreaker.callEnter, Resilience.CircuitBreaker.allowRequest, hs, hr]
    exact h.stays now
  | opened =>
    have hne : b.state ≠ .closed := by simp [hs]
    rw [h.allowRequest_of_opened hs]
    by_cases hlt : timeout.lt (.finite (now - b.lastFailureTime)) = true
    · have hle := PyFloat.le_of_lt hlt
      have hb : (runtimeStep b (now, .request)).1 = { b with state := .halfOpen } := by
        simp [runtimeStep, CircuitBreaker.callEnter, hs, h.timeouts.1, hlt]
      rw [hb, if_pos (.inr hle)]
      exact h.probe hne hle (by simp)
    -- Here the one breaker rejects, and the other may probe already.
    · have hb : (runtimeStep b (now, .request)).1 = b := by
        simp [runtimeStep, CircuitBreaker.callEnter, hs, h.timeouts.1, hlt]
      rw [hb]
      split
      next hp =>
        rcases hp with hr | hle
        · rw [← hr]
          exact h.stays now
        · have := h.probe hne hle hne
          exact this
      next => exact h.stays now

theorem success (hn : 1 ≤ n) (h : Twins n timeout tr b r) (now : Time) :
    Twins n timeout (tr ++ [(now, .success)]) b.callElse r.recordSuccess where
  threshold := h.threshold
  timeouts := h.timeouts
  together := by simp [Resilience.CircuitBreaker.recordSuccess]
  closed _ := ⟨rfl, by rw [CircuitBreaker.callElse_failures]; omega⟩
  tripped hs := absurd rfl hs
  probes hs := by cases hs
  sooner hs := by cases hs

theorem failure (h : Twins n timeout tr b r) (now : Time) :
    Twins n timeout (tr ++ [(now, .failure)]) (b.callExcept now) (r.recordFailure now) := by
  have hth := h.threshold
  by_cases hs : b.state = .closed
  · have hr := h.together.1 hs
    obtain ⟨hf, hlt⟩ := h.closed hs
    rw [Resilience.CircuitBreaker.recordFailure_closed hr]
    rcases b.callExcept_cases now with ⟨-, hc, hb⟩ | ⟨-, hc, hb⟩ | ⟨hh, -⟩
    · have hno : ¬r.failureThreshold ≤ r.failures + 1 := by omega
      rw [hb, if_neg hno]
      refine ⟨hth, h.timeouts, by simp [hs], fun _ => ?_, fun h' => absurd hs h',
        fun h' => (by simp [hs] at h'), fun h' => (by cases h')⟩
      dsimp only
      omega
    · have hyes : r.failureThreshold ≤ r.failures + 1 := by omega
      rw [hb, if_pos hyes]
      refine ⟨hth, h.timeouts, by simp, fun h' => (by cases h'), fun _ => ⟨?_, by simp⟩,
        fun h' => (by cases h'), fun h' => (by cases h')⟩
      dsimp only
      omega
    · simp [hs] at hh
  -- Both have tripped, so this failure opens both, or leaves them open.
  · have hr : r.state ≠ .closed := fun hr => hs (h.together.2 hr)
    obtain ⟨hle, -, -⟩ := h.tripped hs
    rw [Resilience.CircuitBreaker.recordFailure_tripped hr]
    have hb : (b.callExcept now).state = .opened ∧ (b.callExcept now).lastFailureTime = now ∧
        n ≤ (b.callExcept now).failures := by
      rcases b.callExcept_cases now with ⟨-, hc, -⟩ | ⟨-, -, hb⟩ | ⟨-, hb⟩
      · omega
      · rw [hb]
        exact ⟨rfl, rfl, by dsimp only; omega⟩
      · rw [hb]
        exact ⟨rfl, rfl, hle⟩
    obtain ⟨ho, hl, hn⟩ := hb
    have hp := b.callExcept_params now
    exact ⟨⟨hp.1.trans hth.1, hth.2⟩, ⟨hp.2.trans h.timeouts.1, h.timeouts.2⟩, by simp [ho],
      fun h' => (by simp [ho] at h'), fun _ => ⟨hn, by simp [hl]⟩, fun h' => (by simp [ho] at h'),
      fun h' => (by cases h')⟩

end Twins

/-- Both breakers keep what they share along every trace. -/
theorem exec_twins {n : ℤ} (hn : 1 ≤ n) (timeout : PyFloat) (tr : Trace) :
    Twins n timeout tr
      (exec runtimeStep { failureThreshold := n, resetTimeoutSeconds := timeout } tr)
      (exec resilienceStep { failureThreshold := n, recoveryTimeout := timeout } tr) := by
  refine exec_induction₂ (Twins n timeout) (Twins.fresh hn timeout) ?_ tr
  intro is b r e h
  obtain ⟨now, e⟩ := e
  cases e with
  | request => exact h.request now
  | success => exact h.success hn now
  | failure => exact h.failure now

/-- Equal answers, but for a request exactly the timeout after the last
failure. -/
theorem Twins.same {n : ℤ} {timeout : PyFloat} {tr : Trace} {b : CircuitBreaker}
    {r : Resilience.CircuitBreaker} (h : Twins n timeout tr b r) {now : Time} (hnow : ∀ e ∈ tr, e.1 ≤ now)
    (hne : ∀ t, lastFailure tr = some t → timeout ≠ .finite (now - t)) :
    (runtimeStep b (now, .request)).2 = some (r.allowRequest now).2 := by
  cases hs : b.state with
  | closed =>
    have hr := h.together.1 hs
    simp [runtimeStep, CircuitBreaker.callEnter, Resilience.CircuitBreaker.allowRequest, hs, hr]
  | halfOpen =>
    have hr := h.probes hs
    simp [runtimeStep, CircuitBreaker.callEnter, Resilience.CircuitBreaker.allowRequest, hs, hr]
  | opened =>
    obtain ⟨-, hl, -⟩ := h.tripped (by simp [hs])
    have hne := hne _ hl
    rw [h.allowRequest_of_opened hs]
    by_cases hlt : timeout.lt (.finite (now - b.lastFailureTime)) = true
    · simp [runtimeStep, CircuitBreaker.callEnter, hs, h.timeouts.1, hlt, PyFloat.le_of_lt hlt]
    · have hle : ¬timeout.le (.finite (now - b.lastFailureTime)) = true := fun hle =>
        hlt (PyFloat.lt_of_le hne hle)
      have hr : r.state ≠ .halfOpen := by
        intro hr
        obtain ⟨e, he, hle'⟩ := h.sooner hr
        exact hle (PyFloat.le_mono (sub_le_sub_right (hnow e he) _) hle')
      simp [runtimeStep, CircuitBreaker.callEnter, hs, h.timeouts.1, hlt, hle, hr]

/-- **One admission rule.** On every trace whose clock never goes back, the
two breakers give the same answer at every request that is not made exactly
the timeout after the most recent failure report. -/
theorem same_answer {n : ℤ} (hn : 1 ≤ n) (timeout : PyFloat) {tr : Trace} (hmono : Nondecreasing tr)
    {i : ℕ} {now : Time} (hi : tr[i]? = some (now, .request))
    (hne : ∀ t, lastFailure (tr.take i) = some t → timeout ≠ .finite (now - t)) :
    ∃ allowed : Bool,
      (outs runtimeStep { failureThreshold := n, resetTimeoutSeconds := timeout } tr)[i]? =
        some (some allowed) ∧
      (outs resilienceStep { failureThreshold := n, recoveryTimeout := timeout } tr)[i]? =
        some (some allowed) := by
  have h := exec_twins hn timeout (tr.take i)
  have hsame := h.same (hmono.le_getElem hi) hne
  refine ⟨_, ?_, outs_getElem? _ hi⟩
  rw [outs_getElem? _ hi, hsame]

/-- Two failures out of two, a probe past the timeout, its failure, and two
requests: one before the timeout, one after. -/
def probing : Trace :=
  [(0, .failure), (1, .failure), (32, .request), (33, .failure), (40, .request), (64, .request)]

theorem same_answer_probing :
    ∃ allowed : Bool,
      (outs runtimeStep { failureThreshold := 2, resetTimeoutSeconds := .finite 30 } probing)[4]? =
        some (some allowed) ∧
      (outs resilienceStep { failureThreshold := 2, recoveryTimeout := .finite 30 } probing)[4]? =
        some (some allowed) := by
  have hi : probing[4]? = some (40, .request) := rfl
  refine same_answer (by decide) (.finite 30) ?_ hi ?_
  · unfold Nondecreasing probing
    decide +kernel
  · intro t ht
    have : t = 33 := by
      have hl : lastFailure (probing.take 4) = some 33 := by decide +kernel
      rw [hl] at ht
      exact (Option.some.inj ht).symm
    subst this
    decide +kernel

end SentinelFlow.SameRule
