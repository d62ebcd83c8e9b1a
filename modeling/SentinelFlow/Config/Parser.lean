/-
`src/config/parser.py`: the validated configuration. A value of one of these
types is a model that pydantic built: every constraint of a field, and every
`model_validator`, is a field of the structure that states it.

`model_dump(by_alias=True)` gives the dictionaries the executor reads. A URL
stands in them as the object it is, of which only the text is read.
-/
import SentinelFlow.Data.Urlparse
import SentinelFlow.Engine.Registry
import SentinelFlow.Entities

namespace SentinelFlow

/-! ## URLs -/

/-- The schemes of an `AnyHttpUrl`. -/
inductive UrlScheme
  | http | https
  deriving DecidableEq, Repr

/-- The scheme as it is written. -/
def UrlScheme.text : UrlScheme → String
  | .http => "http"
  | .https => "https"

/-- pydantic's `AnyHttpUrl`: the scheme, and what follows `://`. -/
structure AnyHttpUrl where
  scheme : UrlScheme
  rest : String
  deriving DecidableEq, Repr

/-- `str(url)`. -/
def AnyHttpUrl.text (u : AnyHttpUrl) : String := u.scheme.text ++ "://" ++ u.rest

/-- A URL that was validated is read back with its own scheme. -/
theorem schemeOf_text (u : AnyHttpUrl) : schemeOf u.text = some u.scheme.text := by
  obtain ⟨scheme, rest⟩ := u
  have hlist : (AnyHttpUrl.text ⟨scheme, rest⟩).toList =
      scheme.text.toList ++ ':' :: '/' :: '/' :: rest.toList := by
    simp [AnyHttpUrl.text]
  unfold schemeOf cleaned
  rw [hlist]
  cases scheme <;> simp [UrlScheme.text, splitScheme, isSchemeChar] <;> decide

/-! ## Resilience -/

/-- The breaker of a check: whether it has one, how many failures open it, and for how long. -/
structure CircuitBreakerConfig where
  enabled : Bool := true
  failureThreshold : ℤ := 5
  resetTimeoutSeconds : ℤ := 30
  thresholdPos : 0 < failureThreshold := by decide
  resetPos : 0 < resetTimeoutSeconds := by decide

/-- `default_factory=CircuitBreakerConfig`; so for the other models without a required field. -/
instance : Inhabited CircuitBreakerConfig := ⟨{}⟩

/-- The dump of a breaker block. -/
def CircuitBreakerConfig.modelDump (c : CircuitBreakerConfig) : PyDict :=
  [("enabled", .bool c.enabled), ("failure_threshold", .int c.failureThreshold),
    ("reset_timeout_seconds", .int c.resetTimeoutSeconds)]

/-- The limits of a check: its timeout, its permits and its breaker. -/
structure CheckResilienceConfig where
  timeoutSeconds : PyFloat := .finite 15
  maxInflight : ℤ := 10
  circuitBreaker : CircuitBreakerConfig := {}
  timeoutPos : PyFloat.lt (.finite 0) timeoutSeconds = true := by decide
  inflightPos : 0 < maxInflight := by decide

instance : Inhabited CheckResilienceConfig := ⟨{}⟩

/-- The dump of a resilience block. -/
def CheckResilienceConfig.modelDump (c : CheckResilienceConfig) : PyDict :=
  [("timeout_seconds", .float c.timeoutSeconds), ("max_inflight", .int c.maxInflight),
    ("circuit_breaker", .dict c.circuitBreaker.modelDump)]

/-! ## Ingestors, evaluators, handlers -/

/-- The two methods the schema allows. -/
inductive HttpMethod
  | get | post
  deriving DecidableEq, Repr

/-- The literal of the schema. -/
def HttpMethod.text : HttpMethod → String
  | .get => "GET"
  | .post => "POST"

/-- Where a check fetches, and the path of the value in what it gets. -/
structure HttpIngestorConfig where
  url : AnyHttpUrl
  method : HttpMethod := .get
  jsonPath : Option String := none

/-- The dump of an ingestor block. The URL stays an object, and a missing path is `None`. -/
def HttpIngestorConfig.modelDump (c : HttpIngestorConfig) : PyDict :=
  [("type", .str "http_api"), ("url", .anyHttpUrl c.url.text), ("method", .str c.method.text),
    ("json_path", match c.jsonPath with | some path => .str path | none => .none)]

/-- The comparisons of a threshold rule. -/
inductive ThresholdOperator
  | lt | le | gt | ge | between
  deriving DecidableEq, Repr

/-- The literal of the schema. -/
def ThresholdOperator.text : ThresholdOperator → String
  | .lt => "<"
  | .le => "<="
  | .gt => ">"
  | .ge => ">="
  | .between => "between"

/-- `Union[float, int, List[float]]`. -/
inductive ThresholdValue
  | float (x : PyFloat)
  | int (n : ℤ)
  | list (xs : List PyFloat)
  deriving DecidableEq, Repr

/-- The dump of a threshold: what it was read as. -/
def ThresholdValue.modelDump : ThresholdValue → PyVal
  | .float x => .float x
  | .int n => .int n
  | .list xs => .list (xs.map .float)

/-- A list of exactly two numbers, as `between` takes it. -/
def ThresholdValue.isPair : ThresholdValue → Bool
  | .list xs => xs.length == 2
  | _ => false

/-- A threshold rule; of all operators only `between` is held against the value. -/
structure ThresholdEvaluatorConfig where
  operator : ThresholdOperator
  value : ThresholdValue
  severity : Severity := .high
  validateBetweenOperator : operator = .between → value.isPair = true

/-- The dump of a threshold rule. -/
def ThresholdEvaluatorConfig.modelDump (c : ThresholdEvaluatorConfig) : PyDict :=
  [("type", .str "threshold"), ("operator", .str c.operator.text), ("value", c.value.modelDump),
    ("severity", .str c.severity.text)]

/-- A freshness rule: how old a payload may be. -/
structure FreshnessEvaluatorConfig where
  maxAgeSeconds : ℤ
  severity : Severity := .medium
  maxAgePos : 0 < maxAgeSeconds

/-- The dump of a freshness rule. -/
def FreshnessEvaluatorConfig.modelDump (c : FreshnessEvaluatorConfig) : PyDict :=
  [("type", .str "freshness"), ("max_age_seconds", .int c.maxAgeSeconds), ("severity", .str c.severity.text)]

/-- A rule, told by its `type`. -/
inductive EvaluatorConfig
  | threshold (c : ThresholdEvaluatorConfig)
  | freshness (c : FreshnessEvaluatorConfig)

namespace EvaluatorConfig

/-- The discriminator. -/
def type : EvaluatorConfig → String
  | .threshold _ => "threshold"
  | .freshness _ => "freshness"

/-- The severity of the alerts of the rule. -/
def severity : EvaluatorConfig → Severity
  | .threshold c => c.severity
  | .freshness c => c.severity

/-- The dump of a rule is that of its model. -/
def modelDump : EvaluatorConfig → PyDict
  | .threshold c => c.modelDump
  | .freshness c => c.modelDump

end EvaluatorConfig

/-- What `should_dispatch` is asked with; the severity is read by nobody. -/
structure AlertPolicyConfig where
  cooldownSeconds : ℤ := 300
  dedupeWindowSeconds : ℤ := 3600
  severity : Severity := .high
  cooldownNonneg : 0 ≤ cooldownSeconds := by decide
  dedupeNonneg : 0 ≤ dedupeWindowSeconds := by decide

instance : Inhabited AlertPolicyConfig := ⟨{}⟩

/-- The dump of a policy block. -/
def AlertPolicyConfig.modelDump (c : AlertPolicyConfig) : PyDict :=
  [("cooldown_seconds", .int c.cooldownSeconds), ("dedupe_window_seconds", .int c.dedupeWindowSeconds),
    ("severity", .str c.severity.text)]

/-- A handler entry: the key its webhook is looked up by, which is not blank. -/
structure SlackHandlerConfig where
  webhookUrlEnvKey : String
  validateEnvKey : isBlank webhookUrlEnvKey = false

/-- The dump of a handler entry. -/
def SlackHandlerConfig.modelDump (c : SlackHandlerConfig) : PyDict :=
  [("type", .str "slack_webhook"), ("webhook_url_env_key", .str c.webhookUrlEnvKey)]

/-! ## Checks -/

/-- A check: what it fetches, the rules on it, and where their alerts go. -/
structure MetricCheckConfig where
  metricId : String
  ingestor : HttpIngestorConfig
  evaluators : List EvaluatorConfig
  alertPolicy : AlertPolicyConfig := {}
  handlers : List SlackHandlerConfig
  resilience : CheckResilienceConfig := {}
  evaluatorsNonempty : evaluators ≠ []
  handlersNonempty : handlers ≠ []

/-- The dictionary the executor is given for a check. -/
def MetricCheckConfig.modelDump (c : MetricCheckConfig) : PyDict :=
  [("metric_id", .str c.metricId), ("ingestor", .dict c.ingestor.modelDump),
    ("evaluators", .list (c.evaluators.map fun e => .dict e.modelDump)),
    ("alert_policy", .dict c.alertPolicy.modelDump),
    ("handlers", .list (c.handlers.map fun h => .dict h.modelDump)),
    ("resilience", .dict c.resilience.modelDump)]

/-- Tracing, metrics and the ports of the service. -/
structure ObservabilityConfig where
  metricsEnabled : Bool := true
  tracingEnabled : Bool := true
  serviceName : String := "sentinelflow"
  otlpEndpoint : String := "http://localhost:4317"
  metricsPort : ℤ := 9108
  adminPort : ℤ := 9109
  metricsRange : 0 < metricsPort ∧ metricsPort < 65536 := by decide
  adminRange : 0 < adminPort ∧ adminPort < 65536 := by decide

instance : Inhabited ObservabilityConfig := ⟨{}⟩

/-- The dump of an observability block. -/
def ObservabilityConfig.modelDump (c : ObservabilityConfig) : PyDict :=
  [("metrics_enabled", .bool c.metricsEnabled), ("tracing_enabled", .bool c.tracingEnabled),
    ("service_name", .str c.serviceName), ("otlp_endpoint", .str c.otlpEndpoint),
    ("metrics_port", .int c.metricsPort), ("admin_port", .int c.adminPort)]

/-- One batch, or one after another. -/
inductive SchedulerMode
  | runOnce | daemon
  deriving DecidableEq, Repr

/-- The literal of the schema. -/
def SchedulerMode.text : SchedulerMode → String
  | .runOnce => "run_once"
  | .daemon => "daemon"

/-- What holds for all checks. `default_timeout_seconds` is read by nobody. -/
structure GlobalConfig where
  concurrencyLimit : ℤ := 10
  defaultTimeoutSeconds : PyFloat := .finite 15
  schedulerMode : SchedulerMode := .runOnce
  intervalSeconds : ℤ := 60
  observability : ObservabilityConfig := {}
  limitRange : 1 ≤ concurrencyLimit ∧ concurrencyLimit ≤ 100 := by decide
  timeoutPos : PyFloat.lt (.finite 0) defaultTimeoutSeconds = true := by decide
  intervalPos : 1 ≤ intervalSeconds := by decide

instance : Inhabited GlobalConfig := ⟨{}⟩

/-- The dump of the global block. -/
def GlobalConfig.modelDump (c : GlobalConfig) : PyDict :=
  [("concurrency_limit", .int c.concurrencyLimit), ("default_timeout_seconds", .float c.defaultTimeoutSeconds),
    ("scheduler_mode", .str c.schedulerMode.text), ("interval_seconds", .int c.intervalSeconds),
    ("observability", .dict c.observability.modelDump)]

/-- A configuration that was accepted; it has a check. -/
structure AppConfig where
  globalConfig : GlobalConfig := {}
  checks : List MetricCheckConfig
  checksNonempty : checks ≠ []

/-- `config.model_dump(by_alias=True)`. -/
def AppConfig.modelDump (c : AppConfig) : PyDict :=
  [("global", .dict c.globalConfig.modelDump), ("checks", .list (c.checks.map fun check => .dict check.modelDump))]

/-! ## `validate_registry_types` -/

/-- The types a check names, in the order of the validator. -/
def MetricCheckConfig.types (c : MetricCheckConfig) : List (Kind × String) :=
  (.ingestor, "http_api") ::
    c.evaluators.map (fun e => (.evaluator, e.type)) ++
    c.handlers.map fun _ => (.handler, "slack_webhook")

/-- Looks the types up. A `ConfigError` is raised again as a `ValueError`;
what a class raises when it is constructed goes on. -/
def lookupTypes (reg : Registry) : List (Kind × String) → Except Exc Registry
  | [] => .ok reg
  | (kind, name) :: rest => match reg.getInstance kind name with
    | .ok (reg', _) => lookupTypes reg' rest
    | .error e => .error (if e.isInstance .configError then e.quoted valueError else e)

/-- The model validator of the whole: every type that is named has a class. -/
def AppConfig.validateRegistryTypes (reg : Registry) (c : AppConfig) : Except Exc Registry :=
  lookupTypes reg (c.checks.flatMap MetricCheckConfig.types)

/-! ## A plain configuration, for examples -/

/-- Every limit at its default. -/
def plainResilience : CheckResilienceConfig := {}

/-- A freshness rule on one value, with one handler. -/
def plainCheck (metricId : String) : MetricCheckConfig where
  metricId := metricId
  ingestor := { url := ⟨.https, "api.example/stats"⟩, jsonPath := some "value" }
  evaluators := [.freshness { maxAgeSeconds := 60, maxAgePos := by decide }]
  handlers := [{ webhookUrlEnvKey := "SLACK_WEBHOOK_URL", validateEnvKey := by decide }]
  resilience := plainResilience
  evaluatorsNonempty := List.cons_ne_nil _ _
  handlersNonempty := List.cons_ne_nil _ _

/-- These checks, with every global setting at its default. -/
def plainConfig (check : MetricCheckConfig) (checks : List MetricCheckConfig) : AppConfig where
  checks := check :: checks
  checksNonempty := List.cons_ne_nil _ _

end SentinelFlow
