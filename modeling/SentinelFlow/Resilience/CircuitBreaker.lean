/-
`resilience/circuit_breaker.py`: the breaker a handler asks before it sends.
Unlike the one in `runtime/resilience.py` it answers a boolean, and the
caller reports the outcome. Each method runs under the lock without a
suspension, so each is one step. Its `CircuitState` has the same values.
-/
import SentinelFlow.Runtime.Resilience

namespace SentinelFlow.Resilience

/-- `CircuitBreaker`, without its lock. -/
structure CircuitBreaker where
  failureThreshold : ℤ := 5
  recoveryTimeout : PyFloat := .finite 30
  state : CircuitState := .closed
  failures : ℤ := 0
  lastFailureTime : Option Time := none
  deriving DecidableEq, Repr

namespace CircuitBreaker

/-- `allow_request`. -/
def allowRequest (b : CircuitBreaker) (now : Time) : CircuitBreaker × Bool :=
  match b.state with
  | .closed => (b, true)
  | .opened => match b.lastFailureTime with
    | some last =>
      if b.recoveryTimeout.le (.finite (now - last)) then ({ b with state := .halfOpen }, true) else (b, false)
    | none => (b, false)
  | .halfOpen => (b, true)

/-- `record_success`. -/
def recordSuccess (b : CircuitBreaker) : CircuitBreaker :=
  { b with failures := 0, state := .closed, lastFailureTime := none }

/-- `record_failure`. -/
def recordFailure (b : CircuitBreaker) (now : Time) : CircuitBreaker :=
  let counted := { b with failures := b.failures + 1, lastFailureTime := some now }
  match b.state with
  | .closed => if b.failureThreshold ≤ b.failures + 1 then { counted with state := .opened } else counted
  | .halfOpen => { counted with state := .opened }
  | .opened => counted

/-- While closed, a failure opens the breaker when it reaches the threshold. -/
theorem recordFailure_closed {b : CircuitBreaker} (hs : b.state = .closed) (now : Time) :
    b.recordFailure now = { b with
      failures := b.failures + 1
      lastFailureTime := some now
      state := if b.failureThreshold ≤ b.failures + 1 then .opened else .closed } := by
  simp only [recordFailure, hs]
  split <;> simp

/-- Otherwise it opens it, or leaves it open. -/
theorem recordFailure_tripped {b : CircuitBreaker} (hs : b.state ≠ .closed) (now : Time) :
    b.recordFailure now =
      { b with failures := b.failures + 1, lastFailureTime := some now, state := .opened } := by
  unfold recordFailure
  cases hb : b.state with
  | closed => exact absurd hb hs
  | opened => rfl
  | halfOpen => rfl

theorem recordFailure_failures (b : CircuitBreaker) (now : Time) :
    (b.recordFailure now).failures = b.failures + 1 := by
  by_cases hs : b.state = .closed
  · rw [recordFailure_closed hs]
  · rw [recordFailure_tripped hs]

end CircuitBreaker

end SentinelFlow.Resilience
