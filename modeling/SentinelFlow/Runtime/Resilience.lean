/-
`runtime/resilience.py`: the circuit breaker around a check, and the
per-check resilience objects the manager hands out.

`CircuitBreaker.call` runs its coroutine outside the lock, so it is three
atomic parts here: the admission (`callEnter`), and the `except` and `else`
clauses (`callExcept`, `callElse`). A call cut by a cancellation runs
neither: `CancelledError` is not an `Exception`. `failures` and
`failure_threshold` are integers; the clock is `time.perf_counter()`.
-/
import Mathlib.Algebra.Order.Ring.Rat
import SentinelFlow.Lib.Dict
import SentinelFlow.Py

namespace SentinelFlow

/-- `CircuitState`. -/
inductive CircuitState
  | closed | opened | halfOpen
  deriving DecidableEq, Repr

/-- `CircuitBreakerOpenException()`. -/
def circuitBreakerOpenException : Exc :=
  plainExc "<class 'runtime.resilience.CircuitBreakerOpenException'>" [.circuitBreakerOpenException]
    "Circuit is OPEN"

/-- `CircuitBreaker`, without its lock. -/
structure CircuitBreaker where
  failureThreshold : ℤ
  resetTimeoutSeconds : PyFloat
  state : CircuitState := .closed
  failures : ℤ := 0
  lastFailureTime : Time := 0
  deriving DecidableEq, Repr

namespace CircuitBreaker

/-- The admission of `call`. -/
def callEnter (b : CircuitBreaker) (now : Time) : Except Exc CircuitBreaker :=
  match b.state with
  | .opened =>
    if b.resetTimeoutSeconds.lt (.finite (now - b.lastFailureTime)) then .ok { b with state := .halfOpen }
    else .error circuitBreakerOpenException
  | .closed | .halfOpen => .ok b

/-- `except Exception` of `call`. -/
def callExcept (b : CircuitBreaker) (now : Time) : CircuitBreaker :=
  match b.state with
  | .halfOpen => { b with state := .opened, lastFailureTime := now }
  | .closed | .opened =>
    if b.failureThreshold ≤ b.failures + 1 then
      { b with failures := b.failures + 1, state := .opened, lastFailureTime := now }
    else { b with failures := b.failures + 1 }

/-- `else` of `call`. -/
def callElse (b : CircuitBreaker) : CircuitBreaker := { b with failures := 0, state := .closed }

theorem callEnter_error_iff {b : CircuitBreaker} {now : Time} {e : Exc} :
    b.callEnter now = .error e ↔ b.state = .opened ∧
      b.resetTimeoutSeconds.lt (.finite (now - b.lastFailureTime)) = false ∧
        e = circuitBreakerOpenException := by
  unfold callEnter
  cases b.state <;> simp only [reduceCtorEq, false_and, true_and]
  split
  next hlt => simp [hlt]
  next hlt => simpa [hlt] using eq_comm

/-- An admission changes nothing but the state, and that only from `OPEN`
to `HALF_OPEN` past the timeout. -/
theorem callEnter_ok {b b' : CircuitBreaker} {now : Time} (h : b.callEnter now = .ok b') :
    (b.state ≠ .opened ∧ b' = b) ∨
      (b.state = .opened ∧ b.resetTimeoutSeconds.lt (.finite (now - b.lastFailureTime)) = true ∧
        b' = { b with state := .halfOpen }) := by
  unfold callEnter at h
  cases hs : b.state <;> simp only [hs] at h
  case opened =>
    split at h
    next hlt => exact .inr ⟨rfl, hlt, (Except.ok.inj h).symm⟩
    next => cases h
  all_goals exact .inl ⟨by simp, (Except.ok.inj h).symm⟩

/-- A failure counts, unless the breaker probes; it opens the breaker when it
reaches the threshold or ends a probe. -/
theorem callExcept_cases (b : CircuitBreaker) (now : Time) :
    (b.state ≠ .halfOpen ∧ b.failures + 1 < b.failureThreshold ∧
      b.callExcept now = { b with failures := b.failures + 1 }) ∨
    (b.state ≠ .halfOpen ∧ b.failureThreshold ≤ b.failures + 1 ∧
      b.callExcept now = { b with failures := b.failures + 1, state := .opened, lastFailureTime := now }) ∨
    (b.state = .halfOpen ∧ b.callExcept now = { b with state := .opened, lastFailureTime := now }) := by
  unfold callExcept
  cases b.state
  case halfOpen => exact .inr (.inr ⟨rfl, rfl⟩)
  all_goals
    dsimp only
    split
    next h => exact .inr (.inl ⟨by simp, h, rfl⟩)
    next h => exact .inl ⟨by simp, not_le.1 h, rfl⟩

@[simp] theorem callElse_state (b : CircuitBreaker) : b.callElse.state = .closed := rfl
@[simp] theorem callElse_failures (b : CircuitBreaker) : b.callElse.failures = 0 := rfl

/-- No step touches the two parameters of the breaker. -/
theorem callExcept_params (b : CircuitBreaker) (now : Time) :
    (b.callExcept now).failureThreshold = b.failureThreshold ∧
      (b.callExcept now).resetTimeoutSeconds = b.resetTimeoutSeconds := by
  rcases callExcept_cases b now with ⟨-, -, h⟩ | ⟨-, -, h⟩ | ⟨-, h⟩ <;> simp [h]

theorem callEnter_params {b b' : CircuitBreaker} {now : Time} (h : b.callEnter now = .ok b') :
    b'.failureThreshold = b.failureThreshold ∧ b'.resetTimeoutSeconds = b.resetTimeoutSeconds := by
  rcases callEnter_ok h with ⟨-, rfl⟩ | ⟨-, -, rfl⟩ <;> exact ⟨rfl, rfl⟩

end CircuitBreaker

/-! ## Per-check resilience -/

/-- `CheckResilience`, its semaphore by the permits that are free. -/
structure CheckResilience where
  semaphore : ℕ
  timeoutSeconds : PyFloat
  cbEnabled : Bool
  circuitBreaker : CircuitBreaker
  deriving DecidableEq, Repr

/-- `asyncio.Semaphore(value)`. -/
def newSemaphore (value : ℤ) : Except Exc ℕ :=
  if value < 0 then .error (valueError "Semaphore initial value must be >= 0") else .ok value.toNat

/-- `ResilienceManager`: the objects by check id. -/
abbrev ResilienceManager := Dict String CheckResilience

namespace ResilienceManager

/-- `cb_cfg.get(..)` on what `cfg.get("circuit_breaker", {})` gave. -/
def asDict : PyVal → Except Exc PyDict
  | .dict kvs => .ok kvs
  | _ => .error (attributeError "object has no attribute 'get'")

/-- The resilience object a configuration asks for. -/
def build (cfg : PyDict) : Except Exc CheckResilience := do
  let maxInflight ← ((cfg.get "max_inflight").getD (.int 10)).toInt
  let timeoutSeconds ← ((cfg.get "timeout_seconds").getD (.float (.finite 15))).toFloat
  let cbCfg ← asDict ((cfg.get "circuit_breaker").getD (.dict []))
  let cbEnabled := ((cbCfg.get "enabled").getD (.bool true)).truthy
  let failureThreshold ← ((cbCfg.get "failure_threshold").getD (.int 5)).toInt
  let resetTimeoutSeconds ← ((cbCfg.get "reset_timeout_seconds").getD (.float (.finite 30))).toFloat
  let semaphore ← newSemaphore maxInflight
  return { semaphore, timeoutSeconds, cbEnabled, circuitBreaker := { failureThreshold, resetTimeoutSeconds } }

/-- `for_check`: the object of a check id is built from the first
configuration that names it, and kept. -/
def forCheck (m : ResilienceManager) (checkId : String) (cfg : PyDict) :
    Except Exc (ResilienceManager × CheckResilience) :=
  match m.lookup checkId with
  | some r => .ok (m, r)
  | none => (build cfg).map fun r => (m.insert checkId r, r)

end ResilienceManager

end SentinelFlow
