/-
The schema of `src/config/parser.py` on what a YAML file holds: from a loaded
value to the models of `Config.Parser`, field by field, with the defaults of
the fields that are missing.

How pydantic converts a scalar is not modelled: `Pydantic` stands for it. A
model is refused as a whole, so which of its errors are listed is left out.
-/
import SentinelFlow.Config.Parser

namespace SentinelFlow

/-! ## Loaded values -/

/-- A value that `yaml.safe_load` builds. An alias to a collection it stands
inside is `enclosing`, so many levels up; of bytes, dates, sets and pairs
only the type, a text and the truth value are told. -/
inductive YamlVal
  | none
  | bool (b : Bool)
  | int (n : ℤ)
  | float (x : PyFloat)
  | str (s : String)
  | list (xs : List YamlVal)
  | dict (kvs : List (YamlVal × YamlVal))
  | enclosing (typeName : String) (levels : ℕ)
  | other (typeName content : String) (truth : Bool)

namespace YamlVal

/-- `bool(v)`. -/
def truthy : YamlVal → Bool
  | .none => false
  | .bool b => b
  | .int n => n ≠ 0
  | .float x => x ≠ .finite 0
  | .str s => !s.isEmpty
  | .list xs => !xs.isEmpty
  | .dict kvs => !kvs.isEmpty
  | .enclosing _ _ => true
  | .other _ _ truth => truth

/-- `type(v).__name__`. -/
def typeName : YamlVal → String
  | .none => "NoneType"
  | .bool _ => "bool"
  | .int _ => "int"
  | .float _ => "float"
  | .str _ => "str"
  | .list _ => "list"
  | .dict _ => "dict"
  | .enclosing typeName _ => typeName
  | .other typeName _ _ => typeName

/-- The text, of a text. -/
def text? : YamlVal → Option String
  | .str s => some s
  | _ => Option.none

end YamlVal

/-- A loaded mapping. -/
abbrev YamlMap := List (YamlVal × YamlVal)

/-- The value under a key. -/
def YamlMap.get (kvs : YamlMap) (name : String) : Option YamlVal :=
  (List.find? (fun kv => kv.1.text? = some name) kvs).map (·.2)

/-- pydantic's conversions, none where it refuses the value: of scalars, of
a collection to a list, and of `Union[float, int, List[float]]`. -/
structure Pydantic where
  toBool : YamlVal → Option Bool
  toInt : YamlVal → Option ℤ
  toFloat : YamlVal → Option PyFloat
  toStr : YamlVal → Option String
  toUrl : YamlVal → Option AnyHttpUrl
  toList : YamlVal → Option (List YamlVal)
  toThreshold : YamlVal → Option ThresholdValue

/-! ## Fields -/

/-- The fields of a model with `extra="forbid"`. -/
def modelFields (names : List String) : YamlVal → Option YamlMap
  | .dict kvs => if kvs.all fun kv => kv.1.text?.any names.contains then some kvs else none
  | _ => none

/-- A field with a default. -/
def optionalField {α} (kvs : YamlMap) (name : String) (default : α) (convert : YamlVal → Option α) : Option α :=
  match kvs.get name with
  | none => some default
  | some v => convert v

/-- A field that has to be there. -/
def requiredField {α} (kvs : YamlMap) (name : String) (convert : YamlVal → Option α) : Option α :=
  (kvs.get name).bind convert

/-- `Literal[..]`. -/
def literal {α} (options : List (String × α)) (v : YamlVal) : Option α := v.text?.bind fun s => options.lookup s

/-- The texts of `SeverityLevel`. -/
def severityLevels : List (String × Severity) :=
  [("low", .low), ("medium", .medium), ("high", .high), ("critical", .critical)]

section Models

variable (p : Pydantic)

/-! ## Models -/

def ObservabilityConfig.validate (v : YamlVal) : Option ObservabilityConfig := do
  let kvs ← modelFields ["metrics_enabled", "tracing_enabled", "service_name", "otlp_endpoint", "metrics_port",
    "admin_port"] v
  let metricsEnabled ← optionalField kvs "metrics_enabled" true p.toBool
  let tracingEnabled ← optionalField kvs "tracing_enabled" true p.toBool
  let serviceName ← optionalField kvs "service_name" "sentinelflow" p.toStr
  let otlpEndpoint ← optionalField kvs "otlp_endpoint" "http://localhost:4317" p.toStr
  let metricsPort ← optionalField kvs "metrics_port" 9108 p.toInt
  let adminPort ← optionalField kvs "admin_port" 9109 p.toInt
  if h : (0 < metricsPort ∧ metricsPort < 65536) ∧ (0 < adminPort ∧ adminPort < 65536) then
    some { metricsEnabled, tracingEnabled, serviceName, otlpEndpoint, metricsPort, adminPort,
           metricsRange := h.1, adminRange := h.2 }
  else none

def CircuitBreakerConfig.validate (v : YamlVal) : Option CircuitBreakerConfig := do
  let kvs ← modelFields ["enabled", "failure_threshold", "reset_timeout_seconds"] v
  let enabled ← optionalField kvs "enabled" true p.toBool
  let failureThreshold ← optionalField kvs "failure_threshold" 5 p.toInt
  let resetTimeoutSeconds ← optionalField kvs "reset_timeout_seconds" 30 p.toInt
  if h : 0 < failureThreshold ∧ 0 < resetTimeoutSeconds then
    some { enabled, failureThreshold, resetTimeoutSeconds, thresholdPos := h.1, resetPos := h.2 }
  else none

def CheckResilienceConfig.validate (v : YamlVal) : Option CheckResilienceConfig := do
  let kvs ← modelFields ["timeout_seconds", "max_inflight", "circuit_breaker"] v
  let timeoutSeconds ← optionalField kvs "timeout_seconds" (.finite 15) p.toFloat
  let maxInflight ← optionalField kvs "max_inflight" 10 p.toInt
  let circuitBreaker ← optionalField kvs "circuit_breaker" default (CircuitBreakerConfig.validate p)
  if h : PyFloat.lt (.finite 0) timeoutSeconds = true ∧ 0 < maxInflight then
    some { timeoutSeconds, maxInflight, circuitBreaker, timeoutPos := h.1, inflightPos := h.2 }
  else none

def GlobalConfig.validate (v : YamlVal) : Option GlobalConfig := do
  let kvs ← modelFields ["concurrency_limit", "default_timeout_seconds", "scheduler_mode", "interval_seconds",
    "observability"] v
  let concurrencyLimit ← optionalField kvs "concurrency_limit" 10 p.toInt
  let defaultTimeoutSeconds ← optionalField kvs "default_timeout_seconds" (.finite 15) p.toFloat
  let schedulerMode ← optionalField kvs "scheduler_mode" .runOnce
    (literal [("run_once", .runOnce), ("daemon", .daemon)])
  let intervalSeconds ← optionalField kvs "interval_seconds" 60 p.toInt
  let observability ← optionalField kvs "observability" default (ObservabilityConfig.validate p)
  if h : (1 ≤ concurrencyLimit ∧ concurrencyLimit ≤ 100) ∧
      PyFloat.lt (.finite 0) defaultTimeoutSeconds = true ∧ 1 ≤ intervalSeconds then
    some { concurrencyLimit, defaultTimeoutSeconds, schedulerMode, intervalSeconds, observability,
           limitRange := h.1, timeoutPos := h.2.1, intervalPos := h.2.2 }
  else none

/-- `str | None`. -/
def nullableText : YamlVal → Option (Option String)
  | .none => some none
  | v => (p.toStr v).map some

def HttpIngestorConfig.validate (v : YamlVal) : Option HttpIngestorConfig := do
  let kvs ← modelFields ["type", "url", "method", "json_path"] v
  let _ ← requiredField kvs "type" (literal [("http_api", ())])
  let url ← requiredField kvs "url" p.toUrl
  let method ← optionalField kvs "method" .get (literal [("GET", .get), ("POST", .post)])
  let jsonPath ← optionalField kvs "json_path" none (nullableText p)
  some { url, method, jsonPath }

def ThresholdEvaluatorConfig.validate (v : YamlVal) : Option ThresholdEvaluatorConfig := do
  let kvs ← modelFields ["type", "operator", "value", "severity"] v
  let _ ← requiredField kvs "type" (literal [("threshold", ())])
  let operator ← requiredField kvs "operator"
    (literal [("<", .lt), ("<=", .le), (">", .gt), (">=", .ge), ("between", .between)])
  let value ← requiredField kvs "value" p.toThreshold
  let severity ← optionalField kvs "severity" .high (literal severityLevels)
  if h : operator = .between → value.isPair = true then
    some { operator, value, severity, validateBetweenOperator := h }
  else none

def FreshnessEvaluatorConfig.validate (v : YamlVal) : Option FreshnessEvaluatorConfig := do
  let kvs ← modelFields ["type", "max_age_seconds", "severity"] v
  let _ ← requiredField kvs "type" (literal [("freshness", ())])
  let maxAgeSeconds ← requiredField kvs "max_age_seconds" p.toInt
  let severity ← optionalField kvs "severity" .medium (literal severityLevels)
  if h : 0 < maxAgeSeconds then some { maxAgeSeconds, severity, maxAgePos := h } else none

/-- The model of a discriminated union that the field `type` names. -/
def tagged {α} (models : List (String × (YamlVal → Option α))) (v : YamlVal) : Option α :=
  match v with
  | .dict kvs => (requiredField kvs "type" (literal models)).bind (· v)
  | _ => none

def EvaluatorConfig.validate : YamlVal → Option EvaluatorConfig :=
  tagged [("threshold", fun v => (ThresholdEvaluatorConfig.validate p v).map .threshold),
    ("freshness", fun v => (FreshnessEvaluatorConfig.validate p v).map .freshness)]

def AlertPolicyConfig.validate (v : YamlVal) : Option AlertPolicyConfig := do
  let kvs ← modelFields ["cooldown_seconds", "dedupe_window_seconds", "severity"] v
  let cooldownSeconds ← optionalField kvs "cooldown_seconds" 300 p.toInt
  let dedupeWindowSeconds ← optionalField kvs "dedupe_window_seconds" 3600 p.toInt
  let severity ← optionalField kvs "severity" .high (literal severityLevels)
  if h : 0 ≤ cooldownSeconds ∧ 0 ≤ dedupeWindowSeconds then
    some { cooldownSeconds, dedupeWindowSeconds, severity, cooldownNonneg := h.1, dedupeNonneg := h.2 }
  else none

def SlackHandlerConfig.validate (v : YamlVal) : Option SlackHandlerConfig := do
  let kvs ← modelFields ["type", "webhook_url_env_key"] v
  let _ ← requiredField kvs "type" (literal [("slack_webhook", ())])
  let webhookUrlEnvKey ← requiredField kvs "webhook_url_env_key" p.toStr
  if h : isBlank webhookUrlEnvKey = false then some { webhookUrlEnvKey, validateEnvKey := h } else none

/-- `List[..]`: each item is validated. -/
def listOf {α} (item : YamlVal → Option α) (v : YamlVal) : Option (List α) := (p.toList v).bind (·.mapM item)

def MetricCheckConfig.validate (v : YamlVal) : Option MetricCheckConfig := do
  let kvs ← modelFields ["metric_id", "ingestor", "evaluators", "alert_policy", "handlers", "resilience"] v
  let metricId ← requiredField kvs "metric_id" p.toStr
  let ingestor ← requiredField kvs "ingestor" (tagged [("http_api", HttpIngestorConfig.validate p)])
  let evaluators ← requiredField kvs "evaluators" (listOf p (EvaluatorConfig.validate p))
  let alertPolicy ← optionalField kvs "alert_policy" default (AlertPolicyConfig.validate p)
  let handlers ← requiredField kvs "handlers" (listOf p (tagged [("slack_webhook", SlackHandlerConfig.validate p)]))
  let resilience ← optionalField kvs "resilience" default (CheckResilienceConfig.validate p)
  if h : evaluators ≠ [] ∧ handlers ≠ [] then
    some { metricId, ingestor, evaluators, alertPolicy, handlers, resilience,
           evaluatorsNonempty := h.1, handlersNonempty := h.2 }
  else none

/-- The fields of `AppConfig`; `global_config` goes by the alias `global`. -/
def AppConfig.validateFields (v : YamlVal) : Option AppConfig := do
  let kvs ← modelFields ["global", "checks"] v
  let globalConfig ← optionalField kvs "global" default (GlobalConfig.validate p)
  let checks ← requiredField kvs "checks" (listOf p (MetricCheckConfig.validate p))
  if h : checks ≠ [] then some { globalConfig, checks, checksNonempty := h } else none

/-- The configuration, where no validator raises. -/
def AppConfig.validate (reg : Registry) (v : YamlVal) : Option AppConfig :=
  (AppConfig.validateFields p v).filter fun config => (config.validateRegistryTypes reg).isOk

/-- What `validate_registry_types` raises that pydantic takes for no error of
the data. -/
def AppConfig.uncaught (reg : Registry) (v : YamlVal) : Option Exc :=
  (AppConfig.validateFields p v).bind fun config =>
    match config.validateRegistryTypes reg with
    | .ok _ => none
    | .error e => if e.isInstance .valueError || e.isInstance .assertionError then none else some e

end Models

/-! ## What a model was read from -/

theorem forall₂_of_mapM {α β} {f : α → Option β} {xs : List α} {ys : List β} (h : xs.mapM f = some ys) :
    List.Forall₂ (fun x y => f x = some y) xs ys := by
  induction xs generalizing ys with
  | nil =>
    cases h
    exact .nil
  | cons x xs ih =>
    simp only [List.mapM_cons, Option.bind_eq_bind, Option.bind_eq_some_iff, Option.pure_def,
      Option.some.injEq] at h
    obtain ⟨y, hy, ys, hys, rfl⟩ := h
    exact .cons hy (ih hys)

theorem modelFields_eq_some {names : List String} {v : YamlVal} {kvs : YamlMap} :
    modelFields names v = some kvs ↔
      v = .dict kvs ∧ (kvs.all fun kv => kv.1.text?.any names.contains) = true := by
  cases v with
  | dict kvs' =>
    simp only [modelFields, Option.ite_none_right_eq_some, Option.some.injEq, YamlVal.dict.injEq]
    constructor
    · rintro ⟨hall, rfl⟩
      exact ⟨rfl, hall⟩
    · rintro ⟨rfl, hall⟩
      exact ⟨hall, rfl⟩
  | none | bool | int | float | str | list | enclosing | other =>
    exact iff_of_false (fun h => by cases h) fun h => by cases h.1

section Fields

variable {p : Pydantic} {v : YamlVal}

theorem CheckResilienceConfig.validate_timeout {c : CheckResilienceConfig}
    (h : CheckResilienceConfig.validate p v = some c) :
    ∃ kvs, v = .dict kvs ∧ optionalField kvs "timeout_seconds" (.finite 15) p.toFloat = some c.timeoutSeconds := by
  simp only [validate, Option.bind_eq_bind, Option.bind_eq_some_iff] at h
  obtain ⟨kvs, hkvs, timeout, htimeout, _, -, _, -, h⟩ := h
  split at h
  · cases h
    exact ⟨kvs, (modelFields_eq_some.1 hkvs).1, htimeout⟩
  · cases h

theorem MetricCheckConfig.validate_resilience {c : MetricCheckConfig}
    (h : MetricCheckConfig.validate p v = some c) :
    ∃ kvs, v = .dict kvs ∧
      optionalField kvs "resilience" default (CheckResilienceConfig.validate p) = some c.resilience := by
  simp only [validate, Option.bind_eq_bind, Option.bind_eq_some_iff] at h
  obtain ⟨kvs, hkvs, _, -, _, -, _, -, _, -, _, -, resilience, hresilience, h⟩ := h
  split at h
  · cases h
    exact ⟨kvs, (modelFields_eq_some.1 hkvs).1, hresilience⟩
  · cases h

theorem AppConfig.validate_checks {reg : Registry} {config : AppConfig}
    (h : AppConfig.validate p reg v = some config) :
    ∃ kvs, v = .dict kvs ∧ (kvs.all fun kv => kv.1.text?.any ["global", "checks"].contains) = true ∧
      requiredField kvs "checks" (listOf p (MetricCheckConfig.validate p)) = some config.checks := by
  have hfields := (Option.filter_eq_some_iff.1 h).1
  simp only [validateFields, Option.bind_eq_bind, Option.bind_eq_some_iff] at hfields
  obtain ⟨kvs, hkvs, _, -, checks, hchecks, hconfig⟩ := hfields
  split at hconfig <;> cases hconfig
  exact ⟨kvs, (modelFields_eq_some.1 hkvs).1, (modelFields_eq_some.1 hkvs).2, hchecks⟩

end Fields

end SentinelFlow
