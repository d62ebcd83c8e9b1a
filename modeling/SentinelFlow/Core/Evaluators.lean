/-
The two built-in evaluators (`src/core/evaluators/`). `now` is the reading
of `datetime.now(timezone.utc)`.
-/
import SentinelFlow.Entities

namespace SentinelFlow

namespace ThresholdEvaluator

/-- `threshold_val`: nothing usable, a float, or a list of two. -/
inductive ThresholdVal
  | none
  | scalar (x : PyFloat)
  | range (lower upper : PyFloat)
  deriving DecidableEq, Repr

def ThresholdVal.toVal : ThresholdVal → PyVal
  | .none => .none
  | .scalar x => .float x
  | .range lower upper => .list [.float lower, .float upper]

/-- The conversion of `raw_val`: only a text may fail without raising. -/
def thresholdVal : Option PyVal → Except Exc ThresholdVal
  | some (.bool b) => (PyVal.toFloat (.bool b)).map .scalar
  | some (.int n) => (PyVal.toFloat (.int n)).map .scalar
  | some (.float x) => .ok (.scalar x)
  | some (.list [a, b]) => do
    let lower ← a.toFloat
    let upper ← b.toFloat
    return .range lower upper
  | some (.str s) => match parseFloat s with
    | some x => .ok (.scalar x)
    | Option.none => .ok .none
  | _ => .ok .none

/-- `is_breach`, for an operator and a threshold. -/
def isBreach (operator : Option PyVal) (value : PyFloat) : ThresholdVal → Bool
  | .none => false
  | .scalar x => match operator with
    | some (.str "<") => value.lt x
    | some (.str "<=") => value.le x
    | some (.str ">") => x.lt value
    | some (.str ">=") => x.le value
    | _ => false
  | .range lower upper => match operator with
    | some (.str "between") => lower.le value && value.le upper
    | _ => false

def evaluate (r : Render) (payload : MetricPayload) (config : PyDict) (now : Time) :
    Except Exc (Option AlertEvent) := do
  let severity := (config.get "severity").getD (.str "high")
  match payload.value with
  | none =>
    let event ← AlertEvent.build r payload.metricId "threshold" severity
      "Missing numeric value to evaluate threshold." now
    return some event
  | some value =>
    let operator := config.get "operator"
    let threshold ← thresholdVal (config.get "value")
    if isBreach operator value threshold then
      let event ← AlertEvent.build r payload.metricId "threshold" severity
        (s!"Metric {payload.metricId} value '{r.str (.float value)}' breached threshold '" ++
          s!"{r.str (operator.getD .none)} {r.str threshold.toVal}'") now
      return some event
    else return none

end ThresholdEvaluator

namespace FreshnessEvaluator

/-- `age_seconds > max_age_seconds`. -/
def tooOld (ageSeconds : ℚ) : PyVal → Except Exc Bool
  | .bool b => .ok (decide ((if b then 1 else 0) < ageSeconds))
  | .int n => .ok (decide (n < ageSeconds))
  | .float x => .ok (x.lt (.finite ageSeconds))
  | v => .error (typeError s!"'>' not supported between instances of 'float' and '{v.typeName}'")

def evaluate (r : Render) (payload : MetricPayload) (config : PyDict) (now : Time) :
    Except Exc (Option AlertEvent) := do
  let maxAgeSeconds := (config.get "max_age_seconds").getD .none
  let severity := (config.get "severity").getD (.str "high")
  if !maxAgeSeconds.truthy then return none
  let ageSeconds := now - payload.timestamp
  if ← tooOld ageSeconds maxAgeSeconds then
    let event ← AlertEvent.build r payload.metricId "freshness" severity
      (s!"Data for {payload.metricId} is stale. Age: {r.fixed1 (.finite ageSeconds)}s " ++
        s!"(Max: {r.str maxAgeSeconds}s)") now
    return some event
  else return none

end FreshnessEvaluator

/-- The evaluators the registry is built with, by type name. -/
def builtinEvaluate (evalType : String) (r : Render) (payload : MetricPayload) (config : PyDict) (now : Time) :
    Except Exc (Option AlertEvent) :=
  if evalType = "threshold" then ThresholdEvaluator.evaluate r payload config now
  else FreshnessEvaluator.evaluate r payload config now

theorem AlertEvent.build_ok {r : Render} {id ty : String} {severity : PyVal} {message : String} {now : Time}
    {e : AlertEvent} (h : AlertEvent.build r id ty severity message now = .ok e) :
    e.metricId = id ∧ e.evaluatorType = ty ∧ severityOf severity = some e.severity := by
  unfold AlertEvent.build at h
  split at h
  next s hs =>
    cases h
    exact ⟨rfl, rfl, hs⟩
  next => cases h

/-- An alert names the metric its payload names, its own evaluator, and the
severity of its entry. -/
theorem ThresholdEvaluator.evaluate_ok {r : Render} {payload : MetricPayload} {config : PyDict} {now : Time}
    {e : AlertEvent} (h : ThresholdEvaluator.evaluate r payload config now = .ok (some e)) :
    e.metricId = payload.metricId ∧ e.evaluatorType = "threshold" ∧
      severityOf ((config.get "severity").getD (.str "high")) = some e.severity := by
  unfold ThresholdEvaluator.evaluate at h
  split at h
  · obtain ⟨event, hb, he⟩ := bind_ok h
    cases he
    exact AlertEvent.build_ok hb
  · obtain ⟨threshold, -, h⟩ := bind_ok h
    split at h
    · obtain ⟨event, hb, he⟩ := bind_ok h
      cases he
      exact AlertEvent.build_ok hb
    · cases h

theorem FreshnessEvaluator.evaluate_ok {r : Render} {payload : MetricPayload} {config : PyDict} {now : Time}
    {e : AlertEvent} (h : FreshnessEvaluator.evaluate r payload config now = .ok (some e)) :
    e.metricId = payload.metricId ∧ e.evaluatorType = "freshness" ∧
      severityOf ((config.get "severity").getD (.str "high")) = some e.severity := by
  unfold FreshnessEvaluator.evaluate at h
  dsimp only at h
  split at h
  · cases h
  · obtain ⟨old, -, h⟩ := bind_ok h
    split at h
    · obtain ⟨event, hb, he⟩ := bind_ok h
      cases he
      exact AlertEvent.build_ok hb
    · cases h

theorem builtinEvaluate_ok {ty : String} {r : Render} {payload : MetricPayload} {config : PyDict} {now : Time}
    {e : AlertEvent} (h : builtinEvaluate ty r payload config now = .ok (some e)) :
    e.metricId = payload.metricId ∧ e.evaluatorType = (if ty = "threshold" then "threshold" else "freshness") ∧
      severityOf ((config.get "severity").getD (.str "high")) = some e.severity := by
  unfold builtinEvaluate at h
  split at h
  next hty =>
    rw [if_pos hty]
    exact ThresholdEvaluator.evaluate_ok h
  next hty =>
    rw [if_neg hty]
    exact FreshnessEvaluator.evaluate_ok h

end SentinelFlow
