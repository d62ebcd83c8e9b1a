/-
The domain payloads (`src/models/entities.py`): both are frozen pydantic
models, and an invalid one cannot be built.

`AlertEvent.context` is left out: nothing modelled reads it. Timestamps are
instants, so the timezone check of both validators is met by construction.
-/
import SentinelFlow.Py

namespace SentinelFlow

/-- `SeverityLevel`. -/
inductive Severity
  | low | medium | high | critical
  deriving DecidableEq, Repr

/-- The literal. -/
def Severity.text : Severity → String
  | .low => "low"
  | .medium => "medium"
  | .high => "high"
  | .critical => "critical"

theorem Severity.text_inj {s s' : Severity} (h : s.text = s'.text) : s = s' := by
  cases s <;> cases s' <;> first | rfl | exact absurd h (by decide)

theorem Severity.colon_notMem_text (s : Severity) : ':' ∉ s.text.toList := by
  cases s <;> decide

/-- A fetched metric, with what `validate_payload` checks. -/
structure MetricPayload where
  metricId : String
  timestamp : Time
  value : Option PyFloat
  rawData : Option PyDict
  validatePayload : value ≠ none ∨ rawData ≠ none

/-- A payload with this number in it. -/
def numericPayload (metricId : String) (timestamp : Time) (x : ℚ) : MetricPayload :=
  ⟨metricId, timestamp, some (.finite x), none, .inl (by simp)⟩

/-- An alert an evaluator emits, with what pydantic prints when its `message`
is assigned: the model is frozen. -/
structure AlertEvent where
  metricId : String
  evaluatorType : String
  severity : Severity
  message : String
  timestamp : Time
  frozenText : String
  deriving DecidableEq, Repr

/-- pydantic's `ValidationError`. -/
def validationError (text : String) : Exc :=
  plainExc "<class 'pydantic_core._pydantic_core.ValidationError'>" [.validationError, .valueError] text

/-- `MetricPayload(..)`: `raw_data` is a mapping or `None`, and not both
fields are missing. -/
def MetricPayload.build (r : Render) (metricId : String) (timestamp : Time) (value : Option PyFloat)
    (rawData : PyVal) : Except Exc MetricPayload :=
  match rawData with
  | .dict kvs => .ok ⟨metricId, timestamp, value, some kvs, .inr (by simp)⟩
  | .none => match value with
    | some v => .ok ⟨metricId, timestamp, some v, none, .inl (by simp)⟩
    | none => .error (validationError (r.validationError "MetricPayload" (.dict [("metric_id", .str metricId)])))
  | v => .error (validationError (r.validationError "MetricPayload" v))

/-- `SeverityLevel` of a text. -/
def severityOf : PyVal → Option Severity
  | .str "low" => some .low
  | .str "medium" => some .medium
  | .str "high" => some .high
  | .str "critical" => some .critical
  | _ => none

/-- `AlertEvent(..)`: `severity` is one of four literals. -/
def AlertEvent.build (r : Render) (metricId evaluatorType : String) (severity : PyVal) (message : String)
    (timestamp : Time) : Except Exc AlertEvent :=
  match severityOf severity with
  | some severity =>
    .ok { metricId, evaluatorType, severity, message, timestamp
          frozenText := r.validationError "AlertEvent" (.str message) }
  | none => .error (validationError (r.validationError "AlertEvent" severity))

/-- The argument `event: Any` of `should_dispatch`: something without a
`message`, an object whose `message` can be assigned, or an `AlertEvent`. -/
inductive EventArg
  | plain
  | assignable (message : String)
  | alertEvent (e : AlertEvent)
  deriving DecidableEq, Repr

namespace EventArg

/-- `event.message += text`, when the event has a message. -/
def appendMessage (text : String) : EventArg → Except Exc EventArg
  | .plain => .ok .plain
  | .assignable message => .ok (.assignable (message ++ text))
  | .alertEvent e => .error (validationError e.frozenText)

/-- An `AlertEvent`: frozen, so assigning its message raises. -/
def isFrozen : EventArg → Bool
  | .alertEvent _ => true
  | _ => false

end EventArg

end SentinelFlow
