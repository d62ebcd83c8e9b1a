/-
What the executor writes down: the execution history of each check (a ring
of the most recent results) and the Prometheus counters and gauge.

The histograms and the last-success gauge are left out: they are written
and never read.
-/
import SentinelFlow.Lib.Dict
import SentinelFlow.Entities

namespace SentinelFlow

/-! ## Execution history -/

/-- One result of a check. -/
structure ExecutionRecord where
  success : Bool
  durationMs : Time
  deriving DecidableEq, Repr

/-- The most recent results of each check, the oldest first. -/
structure ExecutionHistory where
  maxSize : ℕ := 100
  history : Dict String (List ExecutionRecord) := ∅

/-- `append` of a `deque(maxlen=n)`: the oldest item makes room. -/
def dequeAppend {α} (n : ℕ) (xs : List α) (x : α) : List α := (xs ++ [x]).drop ((xs ++ [x]).length - n)

namespace ExecutionHistory

/-- `get_recent`: the ring of a check, empty where it has none. -/
def getRecent (h : ExecutionHistory) (checkId : String) : List ExecutionRecord :=
  (h.history.lookup checkId).getD []

/-- `add_result`, which makes the ring on the first one. -/
def addResult (h : ExecutionHistory) (checkId : String) (success : Bool) (durationMs : Time) :
    ExecutionHistory :=
  { h with
    history :=
      h.history.insert checkId (dequeAppend h.maxSize (h.getRecent checkId) ⟨success, durationMs⟩) }

@[simp] theorem addResult_maxSize (h : ExecutionHistory) (id : String) (b : Bool) (d : Time) :
    (h.addResult id b d).maxSize = h.maxSize := rfl

@[simp] theorem getRecent_addResult_self (h : ExecutionHistory) (id : String) (b : Bool) (d : Time) :
    (h.addResult id b d).getRecent id = dequeAppend h.maxSize (h.getRecent id) ⟨b, d⟩ := by
  simp [getRecent, addResult]

theorem getRecent_addResult_ne (h : ExecutionHistory) {id id' : String} (b : Bool) (d : Time)
    (hne : id' ≠ id) : (h.addResult id b d).getRecent id' = h.getRecent id' := by
  simp [getRecent, addResult, hne]

end ExecutionHistory

/-! ## Metrics -/

/-- The `status` label of `sentinelflow_checks_total`. -/
inductive CheckStatus
  | started | passed | alerted | failed | skipped | cancelled | timeout
  deriving DecidableEq, Repr

/-- The `action` label of `sentinelflow_alerts_total`. -/
inductive AlertAction
  | suppressed | dispatched
  deriving DecidableEq, Repr

/-- Counters by their labels; a counter not yet touched reads 0. -/
structure Metrics where
  checksTotal : String → CheckStatus → ℕ := fun _ _ => 0
  inflightRequests : String → ℤ := fun _ => 0
  alertsTotal : String → String → Severity → AlertAction → ℕ := fun _ _ _ _ => 0

namespace Metrics

/-- `inc_check`. -/
def incCheck (m : Metrics) (checkId : String) (status : CheckStatus) : Metrics :=
  { m with checksTotal := fun c s =>
      if c = checkId ∧ s = status then m.checksTotal c s + 1 else m.checksTotal c s }

/-- The gauge moved by `d`. -/
def inflightAdd (m : Metrics) (checkId : String) (d : ℤ) : Metrics :=
  { m with inflightRequests := fun c =>
      if c = checkId then m.inflightRequests c + d else m.inflightRequests c }

/-- `inflight_inc`. -/
def inflightInc (m : Metrics) (checkId : String) : Metrics := m.inflightAdd checkId 1

/-- `inflight_dec`. -/
def inflightDec (m : Metrics) (checkId : String) : Metrics := m.inflightAdd checkId (-1)

/-- `inc_alert`. -/
def incAlert (m : Metrics) (checkId evaluator : String) (severity : Severity) (action : AlertAction) :
    Metrics :=
  { m with alertsTotal := fun c e s a =>
      if c = checkId ∧ e = evaluator ∧ s = severity ∧ a = action then m.alertsTotal c e s a + 1
      else m.alertsTotal c e s a }

end Metrics

end SentinelFlow
