/-
A dumped configuration, read again. `async_main` and the executor work on
`config.model_dump(by_alias=True)`; the schema accepts that dump as the
configuration it was made of, so nothing of it is lost on the way
(`AppConfig.validate_modelDump`), and a file that holds the dump loads as it
(`reload`).

Of pydantic this takes that a scalar of the right type is itself, and that
what a URL or a threshold is dumped as is read as it (`Pydantic.Stable`).
-/
import SentinelFlow.Config.Loader

namespace SentinelFlow

/-! ## Dumps as loaded values -/

mutual

/-- The value that YAML has for a Python one; a URL is written as its text. -/
def PyVal.toYaml : PyVal → YamlVal
  | .none => .none
  | .bool b => .bool b
  | .int n => .int n
  | .float x => .float x
  | .str s => .str s
  | .list xs => .list (PyVal.toYamls xs)
  | .dict kvs => .dict (PyVal.toYamlItems kvs)
  | .anyHttpUrl text => .str text

def PyVal.toYamls : List PyVal → List YamlVal
  | [] => []
  | v :: vs => v.toYaml :: PyVal.toYamls vs

def PyVal.toYamlItems : List (String × PyVal) → List (YamlVal × YamlVal)
  | [] => []
  | (key, v) :: kvs => (.str key, v.toYaml) :: PyVal.toYamlItems kvs

end

namespace PyVal

@[simp] theorem toYaml_none : toYaml .none = .none := rfl
@[simp] theorem toYaml_bool (b : Bool) : toYaml (.bool b) = .bool b := rfl
@[simp] theorem toYaml_int (n : ℤ) : toYaml (.int n) = .int n := rfl
@[simp] theorem toYaml_float (x : PyFloat) : toYaml (.float x) = .float x := rfl
@[simp] theorem toYaml_str (s : String) : toYaml (.str s) = .str s := rfl
@[simp] theorem toYaml_anyHttpUrl (text : String) : toYaml (.anyHttpUrl text) = .str text := rfl

end PyVal

theorem PyDict.get_cons (key name : String) (v : PyVal) (kvs : PyDict) :
    PyDict.get ((key, v) :: kvs) name = if key = name then some v else PyDict.get kvs name := by
  unfold PyDict.get
  rw [List.lookup_cons]
  by_cases h : key = name
  · simp [h]
  · have hne : (name == key) = false := beq_false_of_ne (Ne.symm h)
    rw [hne, if_neg h]

theorem toYamls_map {α} (f : α → PyVal) : ∀ xs : List α, PyVal.toYamls (xs.map f) = xs.map fun x => (f x).toYaml
  | [] => rfl
  | _ :: xs => congrArg _ (toYamls_map f xs)

theorem get_toYamlItems (name : String) :
    ∀ kvs : PyDict, YamlMap.get (PyVal.toYamlItems kvs) name = (kvs.get name).map PyVal.toYaml
  | [] => rfl
  | (key, v) :: kvs => by
    have ih := get_toYamlItems name kvs
    unfold YamlMap.get at ih ⊢
    have htext : (YamlVal.str key).text? = some key := rfl
    rw [PyVal.toYamlItems, List.find?_cons, PyDict.get_cons]
    simp only [htext, Option.some.injEq]
    by_cases hkey : key = name
    · simp [hkey]
    · simpa [hkey] using ih

/-- A dump has the fields of its model. -/
theorem modelFields_toYaml {names : List String} :
    ∀ {kvs : PyDict}, (kvs.all fun kv => names.contains kv.1) = true →
      modelFields names (PyVal.toYaml (.dict kvs)) = some (PyVal.toYamlItems kvs) := by
  intro kvs h
  rw [PyVal.toYaml, modelFields_eq_some]
  refine ⟨rfl, ?_⟩
  induction kvs with
  | nil => rfl
  | cons kv kvs ih =>
    simp only [List.all_cons, Bool.and_eq_true] at h
    simp only [PyVal.toYamlItems, List.all_cons, YamlVal.text?, Option.any_some, Bool.and_eq_true]
    exact ⟨h.1, ih h.2⟩

theorem optionalField_toYaml {α} (kvs : PyDict) (name : String) (default : α) (convert : YamlVal → Option α) :
    optionalField (PyVal.toYamlItems kvs) name default convert =
      match kvs.get name with
      | none => some default
      | some v => convert v.toYaml := by
  rw [optionalField, get_toYamlItems]
  cases kvs.get name <;> rfl

theorem requiredField_toYaml {α} (kvs : PyDict) (name : String) (convert : YamlVal → Option α) :
    requiredField (PyVal.toYamlItems kvs) name convert = (kvs.get name).bind fun v => convert v.toYaml := by
  rw [requiredField, get_toYamlItems, Option.bind_map]
  rfl

/-! ## Literals -/

theorem literal_severity (s : Severity) : literal severityLevels (.str s.text) = some s := by
  cases s <;> rfl

theorem literal_operator (o : ThresholdOperator) :
    literal [("<", .lt), ("<=", .le), (">", .gt), (">=", .ge), ("between", .between)] (.str o.text) = some o := by
  cases o <;> rfl

theorem literal_method (m : HttpMethod) : literal [("GET", .get), ("POST", .post)] (.str m.text) = some m := by
  cases m <;> rfl

theorem literal_mode (m : SchedulerMode) :
    literal [("run_once", .runOnce), ("daemon", .daemon)] (.str m.text) = some m := by
  cases m <;> rfl

/-! ## Unions and lists -/

/-- The model that a dump names. -/
theorem tagged_toYaml {α} {models : List (String × (YamlVal → Option α))} (kvs : PyDict) {type : String}
    {f : YamlVal → Option α} (htype : kvs.get "type" = some (.str type)) (hf : models.lookup type = some f) :
    tagged models (PyVal.toYaml (.dict kvs)) = f (PyVal.toYaml (.dict kvs)) := by
  have hliteral : literal models (.str type) = some f := hf
  rw [PyVal.toYaml, tagged, requiredField_toYaml, htype, Option.bind_some, PyVal.toYaml_str, hliteral, Option.bind_some]

theorem tagged_eq_some {α} {models : List (String × (YamlVal → Option α))} {v : YamlVal} {c : α}
    (h : tagged models v = some c) : ∃ m ∈ models, m.2 v = some c := by
  unfold tagged at h
  split at h
  next kvs =>
    obtain ⟨f, hf, hc⟩ := Option.bind_eq_some_iff.1 h
    obtain ⟨tag, -, hliteral⟩ := Option.bind_eq_some_iff.1 hf
    obtain ⟨type, -, hlookup⟩ := Option.bind_eq_some_iff.1 hliteral
    obtain ⟨before, after, rfl, -⟩ := List.lookup_eq_some_iff.1 hlookup
    exact ⟨(type, f), by simp, hc⟩
  next => cases h

theorem mapM_eq_some {α β} {f : α → Option β} {g : β → α} : ∀ {ys : List β}, (∀ y ∈ ys, f (g y) = some y) →
    (ys.map g).mapM f = some ys
  | [], _ => rfl
  | y :: ys, h => by
    rw [List.forall_mem_cons] at h
    rw [List.map_cons, List.mapM_cons, h.1, mapM_eq_some h.2]
    rfl

/-- The items of an accepted list were accepted. -/
theorem exists_of_listOf {α} {p : Pydantic} {item : YamlVal → Option α} {v : YamlVal} {ys : List α}
    (h : listOf p item v = some ys) : ∀ y ∈ ys, ∃ x, item x = some y := by
  obtain ⟨xs, -, hxs⟩ := Option.bind_eq_some_iff.1 h
  have hall := forall₂_of_mapM hxs
  clear h hxs
  induction hall with
  | nil => simp
  | cons hxy _ ih => exact List.forall_mem_cons.2 ⟨⟨_, hxy⟩, ih⟩

/-! ## Each model -/

/-- Scalars of the right type are themselves, and so is what is dumped of
what was accepted. -/
structure Pydantic.Stable (p : Pydantic) : Prop where
  bool : ∀ b, p.toBool (.bool b) = some b
  int : ∀ n, p.toInt (.int n) = some n
  float : ∀ x, p.toFloat (.float x) = some x
  str : ∀ s, p.toStr (.str s) = some s
  list : ∀ xs, p.toList (.list xs) = some xs
  url : ∀ v u, p.toUrl v = some u → p.toUrl (.str u.text) = some u
  threshold : ∀ v t, p.toThreshold v = some t → p.toThreshold t.modelDump.toYaml = some t

section Models

variable {p : Pydantic} {v : YamlVal} (hp : p.Stable)

include hp

theorem listOf_toYaml {α} {item : YamlVal → Option α} {f : α → PyVal} {ys : List α}
    (h : ∀ y ∈ ys, item (f y).toYaml = some y) : listOf p item (PyVal.toYaml (.list (ys.map f))) = some ys := by
  rw [PyVal.toYaml, toYamls_map, listOf, hp.list, Option.bind_some]
  exact mapM_eq_some h

theorem CircuitBreakerConfig.validate_modelDump (c : CircuitBreakerConfig) :
    CircuitBreakerConfig.validate p (PyVal.toYaml (.dict c.modelDump)) = some c := by
  unfold validate
  rw [modelFields_toYaml rfl]
  simp [optionalField_toYaml, modelDump, PyDict.get_cons, hp.bool, hp.int, c.thresholdPos, c.resetPos]

theorem CheckResilienceConfig.validate_modelDump (c : CheckResilienceConfig) :
    CheckResilienceConfig.validate p (PyVal.toYaml (.dict c.modelDump)) = some c := by
  have hbreaker := c.circuitBreaker.validate_modelDump hp
  unfold validate
  rw [modelFields_toYaml rfl]
  simp [optionalField_toYaml, modelDump, PyDict.get_cons, hbreaker, hp.float, hp.int, c.timeoutPos, c.inflightPos]

theorem ObservabilityConfig.validate_modelDump (c : ObservabilityConfig) :
    ObservabilityConfig.validate p (PyVal.toYaml (.dict c.modelDump)) = some c := by
  unfold validate
  rw [modelFields_toYaml rfl]
  simp [optionalField_toYaml, modelDump, PyDict.get_cons, hp.bool, hp.int, hp.str, c.metricsRange, c.adminRange]

theorem GlobalConfig.validate_modelDump (c : GlobalConfig) :
    GlobalConfig.validate p (PyVal.toYaml (.dict c.modelDump)) = some c := by
  have hobservability := c.observability.validate_modelDump hp
  unfold validate
  rw [modelFields_toYaml rfl]
  simp [optionalField_toYaml, modelDump, PyDict.get_cons, literal_mode, hobservability, hp.float, hp.int, c.limitRange,
    c.timeoutPos, c.intervalPos]

theorem AlertPolicyConfig.validate_modelDump (c : AlertPolicyConfig) :
    AlertPolicyConfig.validate p (PyVal.toYaml (.dict c.modelDump)) = some c := by
  unfold validate
  rw [modelFields_toYaml rfl]
  simp [optionalField_toYaml, modelDump, PyDict.get_cons, literal_severity, hp.int, c.cooldownNonneg, c.dedupeNonneg]

theorem SlackHandlerConfig.validate_modelDump (c : SlackHandlerConfig) :
    SlackHandlerConfig.validate p (PyVal.toYaml (.dict c.modelDump)) = some c := by
  have htype : literal [("slack_webhook", ())] (.str "slack_webhook") = some () := rfl
  unfold validate
  rw [modelFields_toYaml rfl]
  simp [requiredField_toYaml, modelDump, PyDict.get_cons, htype, hp.str, c.validateEnvKey]

theorem FreshnessEvaluatorConfig.validate_modelDump (c : FreshnessEvaluatorConfig) :
    FreshnessEvaluatorConfig.validate p (PyVal.toYaml (.dict c.modelDump)) = some c := by
  have htype : literal [("freshness", ())] (.str "freshness") = some () := rfl
  unfold validate
  rw [modelFields_toYaml rfl]
  simp [requiredField_toYaml, optionalField_toYaml, modelDump, PyDict.get_cons, htype, literal_severity, hp.int,
    c.maxAgePos]

/-- The threshold of an accepted rule is read back from its dump. -/
theorem ThresholdEvaluatorConfig.validate_modelDump {c : ThresholdEvaluatorConfig}
    (h : ThresholdEvaluatorConfig.validate p v = some c) :
    ThresholdEvaluatorConfig.validate p (PyVal.toYaml (.dict c.modelDump)) = some c := by
  have hvalue : p.toThreshold c.value.modelDump.toYaml = some c.value := by
    simp only [validate, Option.bind_eq_bind, Option.bind_eq_some_iff] at h
    obtain ⟨kvs, -, _, -, _, -, value, hvalue, _, -, h⟩ := h
    obtain ⟨w, -, hw⟩ := Option.bind_eq_some_iff.1 hvalue
    split at h <;> cases h
    exact hp.threshold w _ hw
  have htype : literal [("threshold", ())] (.str "threshold") = some () := rfl
  unfold validate
  rw [modelFields_toYaml rfl]
  simpa [requiredField_toYaml, optionalField_toYaml, modelDump, PyDict.get_cons, htype, literal_operator,
    literal_severity, hvalue] using c.validateBetweenOperator

theorem HttpIngestorConfig.validate_modelDump {c : HttpIngestorConfig} (h : HttpIngestorConfig.validate p v = some c) :
    HttpIngestorConfig.validate p (PyVal.toYaml (.dict c.modelDump)) = some c := by
  have hurl : p.toUrl (.str c.url.text) = some c.url := by
    simp only [validate, Option.bind_eq_bind, Option.bind_eq_some_iff] at h
    obtain ⟨kvs, -, _, -, url, hurl, _, -, _, -, h⟩ := h
    obtain ⟨w, -, hw⟩ := Option.bind_eq_some_iff.1 hurl
    cases h
    exact hp.url w _ hw
  have htype : literal [("http_api", ())] (.str "http_api") = some () := rfl
  unfold validate
  rw [modelFields_toYaml rfl]
  clear h
  obtain ⟨url, method, path⟩ := c
  cases path <;>
    simp_all [requiredField_toYaml, optionalField_toYaml, modelDump, PyDict.get_cons, literal_method, nullableText, hp.str]

theorem EvaluatorConfig.validate_modelDump {c : EvaluatorConfig} (h : EvaluatorConfig.validate p v = some c) :
    EvaluatorConfig.validate p (PyVal.toYaml (.dict c.modelDump)) = some c := by
  obtain ⟨m, hm, hc⟩ := tagged_eq_some h
  unfold validate
  simp only [List.mem_cons, List.not_mem_nil, or_false] at hm
  rcases hm with rfl | rfl
  · obtain ⟨c', hc', rfl⟩ := Option.map_eq_some_iff.1 hc
    rw [tagged_toYaml (EvaluatorConfig.threshold c').modelDump rfl rfl]
    exact congrArg (Option.map _) (ThresholdEvaluatorConfig.validate_modelDump hp hc')
  · obtain ⟨c', hc', rfl⟩ := Option.map_eq_some_iff.1 hc
    rw [tagged_toYaml (EvaluatorConfig.freshness c').modelDump rfl rfl]
    exact congrArg (Option.map _) (c'.validate_modelDump hp)

theorem MetricCheckConfig.validate_modelDump {c : MetricCheckConfig} (h : MetricCheckConfig.validate p v = some c) :
    MetricCheckConfig.validate p (PyVal.toYaml (.dict c.modelDump)) = some c := by
  have hparts : (∃ w, tagged [("http_api", HttpIngestorConfig.validate p)] w = some c.ingestor) ∧
      ∃ w, listOf p (EvaluatorConfig.validate p) w = some c.evaluators := by
    simp only [validate, Option.bind_eq_bind, Option.bind_eq_some_iff] at h
    obtain ⟨kvs, -, _, -, ingestor, hingestor, evaluators, hevaluators, _, -, _, -, _, -, h⟩ := h
    obtain ⟨w, -, hw⟩ := Option.bind_eq_some_iff.1 hingestor
    obtain ⟨w', -, hw'⟩ := Option.bind_eq_some_iff.1 hevaluators
    split at h <;> cases h
    exact ⟨⟨w, hw⟩, w', hw'⟩
  obtain ⟨⟨w, hw⟩, w', hw'⟩ := hparts
  have hingestor : tagged [("http_api", HttpIngestorConfig.validate p)] (PyVal.toYaml (.dict c.ingestor.modelDump)) =
      some c.ingestor := by
    obtain ⟨m, hm, hc⟩ := tagged_eq_some hw
    obtain rfl := List.mem_singleton.1 hm
    rw [tagged_toYaml c.ingestor.modelDump rfl rfl]
    exact HttpIngestorConfig.validate_modelDump hp hc
  have hevaluators := listOf_toYaml hp fun e he => (exists_of_listOf hw' e he).elim fun _ hx =>
    EvaluatorConfig.validate_modelDump hp hx
  have hhandlers : listOf p (tagged [("slack_webhook", SlackHandlerConfig.validate p)])
      (PyVal.toYaml (.list (c.handlers.map fun h => .dict h.modelDump))) = some c.handlers := by
    refine listOf_toYaml hp fun h _ => ?_
    rw [tagged_toYaml h.modelDump rfl rfl]
    exact h.validate_modelDump hp
  have halertPolicy := c.alertPolicy.validate_modelDump hp
  have hresilience := c.resilience.validate_modelDump hp
  unfold validate
  rw [modelFields_toYaml rfl]
  simp [requiredField_toYaml, optionalField_toYaml, modelDump, PyDict.get_cons, hp.str, hingestor, hevaluators,
    hhandlers, halertPolicy, hresilience, c.evaluatorsNonempty, c.handlersNonempty]

/-- An accepted configuration is read back from its dump. -/
theorem AppConfig.validate_modelDump {reg : Registry} {c : AppConfig} (h : AppConfig.validate p reg v = some c) :
    AppConfig.validate p reg (PyVal.toYaml (.dict c.modelDump)) = some c := by
  have htypes := (Option.filter_eq_some_iff.1 h).2
  obtain ⟨kvs, -, -, hchecks⟩ := AppConfig.validate_checks h
  obtain ⟨w, -, hw⟩ := Option.bind_eq_some_iff.1 hchecks
  have hchecks := listOf_toYaml hp fun check hcheck => (exists_of_listOf hw check hcheck).elim fun _ hx =>
    MetricCheckConfig.validate_modelDump hp hx
  have hglobal := c.globalConfig.validate_modelDump hp
  refine Option.filter_eq_some_iff.2 ⟨?_, htypes⟩
  unfold validateFields
  rw [modelFields_toYaml rfl]
  simp [requiredField_toYaml, optionalField_toYaml, modelDump, PyDict.get_cons, hglobal, hchecks, c.checksNonempty]

end Models

/-- **Read again.** Whatever file a configuration was loaded from, a file
that holds its dump loads as the same configuration. -/
theorem reload {w : Libraries} (hw : w.toPydantic.Stable) {reg : Registry} {filePath filePath' text text' : String}
    {config : AppConfig} (h : loadConfig w reg filePath (.ok text) = .ok config)
    (htext : w.safeLoad text' = .ok (PyVal.toYaml (.dict config.modelDump))) :
    loadConfig w reg filePath' (.ok text') = .ok config := by
  obtain ⟨raw, -, hv⟩ := loadConfig_ok_iff.1 h
  exact loadConfig_ok_iff.2 ⟨_, htext, AppConfig.validate_modelDump hw hv⟩

theorem stable_exactPydantic : exactPydantic.Stable where
  bool _ := rfl
  int _ := rfl
  float _ := rfl
  str _ := rfl
  list _ := rfl
  url v u h := by
    unfold exactPydantic at h
    dsimp only at h
    split at h
    · cases h
      decide
    · cases h
  threshold v t h := by
    unfold exactPydantic at h
    dsimp only at h
    split at h <;> cases h <;> rfl

/-- A file with nothing but what is required. -/
def bareFile : YamlVal :=
  .dict [(.str "checks", .list [.dict [(.str "metric_id", .str "orders"),
    (.str "ingestor", .dict [(.str "type", .str "http_api"), (.str "url", .str "https://api.example/stats")]),
    (.str "evaluators", .list [.dict [(.str "type", .str "freshness"), (.str "max_age_seconds", .int 60)]]),
    (.str "handlers", .list [.dict [(.str "type", .str "slack_webhook"),
      (.str "webhook_url_env_key", .str "SLACK_WEBHOOK_URL")]])]])]

/-- Libraries for that file, and for another that holds this value. -/
def librariesBeside (dump : YamlVal) : Libraries :=
  { librariesFor "bare" bareFile with safeLoad := fun s => .ok (if s = "bare" then bareFile else dump) }

theorem reload_bareFile :
    ∃ config : AppConfig, loadConfig (librariesBeside (PyVal.toYaml (.dict config.modelDump))) .builtin "config.yaml"
        (.ok "bare") = .ok config ∧
      loadConfig (librariesBeside (PyVal.toYaml (.dict config.modelDump))) .builtin "dump.yaml" (.ok "dump") =
        .ok config := by
  have h : (AppConfig.validate exactPydantic .builtin bareFile).isSome = true := by decide +kernel
  obtain ⟨config, hv⟩ := Option.isSome_iff_exists.1 h
  have hload : loadConfig (librariesBeside (PyVal.toYaml (.dict config.modelDump))) .builtin "config.yaml"
      (.ok "bare") = .ok config := loadConfig_ok_iff.2 ⟨bareFile, rfl, hv⟩
  exact ⟨config, hload, reload stable_exactPydantic hload rfl⟩

end SentinelFlow
