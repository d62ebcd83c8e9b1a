/-
`src/config/settings.py`, and what `src/main.py` asks of it before anything
starts: the settings of the environment, and the integrations a
configuration needs of them.

A field keeps the type it is declared with, and `validate_https` is a field
of the structure. What else the class has (its methods, `model_config`, all
of pydantic's) is known to `getattr` by what it prints as, where it is
truthy: `inherited`, which takes no part in anything else.
-/
import Mathlib.Data.List.Dedup
import SentinelFlow.Config.Dump

namespace SentinelFlow

/-- The value of a field. -/
inductive SettingValue
  | none
  | url (u : AnyHttpUrl)
  | str (s : String)
  | int (n : ℤ)
  deriving DecidableEq, Repr

namespace SettingValue

/-- `bool(v)`. -/
def truthy : SettingValue → Bool
  | .none => false
  | .url _ => true
  | .str s => !s.isEmpty
  | .int n => n ≠ 0

/-- `str(v)`. -/
def text : SettingValue → String
  | .none => "None"
  | .url u => u.text
  | .str s => s
  | .int n => toString n

def ofUrl : Option AnyHttpUrl → SettingValue
  | some u => .url u
  | Option.none => .none

def ofStr : Option String → SettingValue
  | some s => .str s
  | Option.none => .none

def ofInt : Option ℤ → SettingValue
  | some n => .int n
  | Option.none => .none

/-- Nothing to post to, or an https URL. -/
def httpsOrUnset : SettingValue → Bool
  | .none => true
  | .url u => u.scheme = .https
  | .str s => s.isEmpty || schemeOf s = some "https"
  | .int n => n = 0

theorem httpsOrUnset_iff (v : SettingValue) :
    v.httpsOrUnset = true ↔ (v.truthy = true → schemeOf v.text = some "https") := by
  cases v with
  | none => simp [httpsOrUnset, truthy]
  | url u =>
    obtain ⟨scheme, rest⟩ := u
    cases scheme <;> simp [httpsOrUnset, truthy, text, schemeOf_text, UrlScheme.text]
  | str s =>
    cases he : s.isEmpty <;> simp [httpsOrUnset, truthy, text, he]
  | int n =>
    simp only [httpsOrUnset, truthy, text, schemeOf_int, decide_eq_true_eq, reduceCtorEq, imp_false, not_not]

end SettingValue

/-- `AppSettings`: the fields, and what their validator checks. -/
structure AppSettings where
  slackWebhookUrl : Option AnyHttpUrl := none
  smtpHost : Option String := none
  smtpPort : Option ℤ := none
  smtpUsername : Option String := none
  smtpPassword : Option String := none
  smtpFrom : Option String := none
  databaseUrl : String := "sqlite:///sentinelflow.db"
  redisUrl : Option String := none
  defaultSiteUrl : Option AnyHttpUrl := none
  archivePath : String := "./archive"
  otlpEndpoint : String := "http://localhost:4317"
  metricsPort : ℤ := 9108
  adminPort : ℤ := 9109
  validateHttps : ∀ u, slackWebhookUrl = some u → u.scheme = .https

namespace AppSettings

/-- The fields by name. -/
def fields (settings : AppSettings) : List (String × SettingValue) :=
  [("slack_webhook_url", .ofUrl settings.slackWebhookUrl), ("smtp_host", .ofStr settings.smtpHost),
    ("smtp_port", .ofInt settings.smtpPort), ("smtp_username", .ofStr settings.smtpUsername),
    ("smtp_password", .ofStr settings.smtpPassword), ("smtp_from", .ofStr settings.smtpFrom),
    ("database_url", .str settings.databaseUrl), ("redis_url", .ofStr settings.redisUrl),
    ("default_site_url", .ofUrl settings.defaultSiteUrl), ("archive_path", .str settings.archivePath),
    ("otlp_endpoint", .str settings.otlpEndpoint), ("metrics_port", .int settings.metricsPort),
    ("admin_port", .int settings.adminPort)]

/-- The value of a field, by its name. -/
def field (settings : AppSettings) (name : String) : Option SettingValue := settings.fields.lookup name

/-- `str(getattr(settings, name, None))`, when that is truthy. -/
def getattr (settings : AppSettings) (inherited : String → Option String) (name : String) : Option String :=
  match settings.field name with
  | some v => if v.truthy then some v.text else none
  | none => inherited name

/-- The name is of an attribute that is set. -/
def IsSet (settings : AppSettings) (inherited : String → Option String) (name : String) : Prop :=
  (∃ v, settings.field name = some v ∧ v.truthy = true) ∨
    (settings.field name = none ∧ (inherited name).isSome = true)

theorem getattr_isSome_iff {settings : AppSettings} {inherited : String → Option String} {name : String} :
    (settings.getattr inherited name).isSome = true ↔ settings.IsSet inherited name := by
  unfold getattr IsSet
  cases settings.field name with
  | none => simp
  | some v => by_cases hv : v.truthy = true <;> simp [hv]

/-- What the name is of is not set, or an https URL. -/
def HttpsOrUnset (settings : AppSettings) (inherited : String → Option String) (name : String) : Prop :=
  (∀ v, settings.field name = some v → v.httpsOrUnset = true) ∧
    (settings.field name = none → ∀ url, inherited name = some url → schemeOf url = some "https")

theorem getattr_https_iff {settings : AppSettings} {inherited : String → Option String} {name : String} :
    (∀ url, settings.getattr inherited name = some url → schemeOf url = some "https") ↔
      settings.HttpsOrUnset inherited name := by
  unfold getattr HttpsOrUnset
  cases settings.field name with
  | none => simp
  | some v =>
    have hiff := v.httpsOrUnset_iff
    by_cases hv : v.truthy = true <;> simp_all

theorem field_slackWebhookUrl (settings : AppSettings) :
    settings.field "slack_webhook_url" = some (.ofUrl settings.slackWebhookUrl) := rfl

/-- `validate_https` is enough for the field it checks. -/
theorem https_slackWebhookUrl (settings : AppSettings) (inherited : String → Option String) :
    settings.HttpsOrUnset inherited "slack_webhook_url" := by
  unfold HttpsOrUnset
  rw [field_slackWebhookUrl]
  refine ⟨fun v hv => ?_, fun h => by cases h⟩
  cases hv
  cases hu : settings.slackWebhookUrl with
  | none => rfl
  | some u => simp [SettingValue.ofUrl, SettingValue.httpsOrUnset, settings.validateHttps u hu]

/-- `validate_required_integrations`: the names of what is missing. -/
def validateRequiredIntegrations (settings : AppSettings) (configuredHandlers : List String) : List String :=
  (if "slack_webhook" ∈ configuredHandlers ∧ (SettingValue.ofUrl settings.slackWebhookUrl).truthy = false then
    ["SLACK_WEBHOOK_URL"] else []) ++
  (if "email" ∈ configuredHandlers ∧ ((SettingValue.ofStr settings.smtpHost).truthy &&
      (SettingValue.ofInt settings.smtpPort).truthy && (SettingValue.ofStr settings.smtpFrom).truthy) = false then
    ["SMTP configuration (HOST, PORT, FROM)"] else [])

end AppSettings

/-! ## The startup check -/

/-- The handler types of the dumped checks. -/
def configuredHandlers (checks : List PyDict) : List String :=
  (checks.flatMap fun chk => (listAt chk "handlers").filterMap fun h => (typedEntry h).map (·.1)).dedup

/-- What `async_main` finds missing, and does not start without. -/
def missingVars (settings : AppSettings) (config : AppConfig) : List String :=
  let handlers := configuredHandlers (config.checks.map (·.modelDump))
  settings.validateRequiredIntegrations handlers ++
    if "persistence" ∈ handlers ∧ settings.databaseUrl.isEmpty = true then ["DATABASE_URL"] else []

/-- The handler entries of a configuration. -/
def AppConfig.handlerEntries (config : AppConfig) : List SlackHandlerConfig := config.checks.flatMap (·.handlers)

/-- Slack is the one type a configuration can name, and it always does. -/
theorem mem_configuredHandlers {config : AppConfig} {handlerType : String} :
    handlerType ∈ configuredHandlers (config.checks.map (·.modelDump)) ↔ handlerType = "slack_webhook" := by
  simp only [configuredHandlers, List.mem_dedup, List.mem_flatMap, List.mem_map, List.mem_filterMap]
  constructor
  · rintro ⟨_, ⟨check, -, rfl⟩, v, hv, hty⟩
    rw [listAt_handlers, List.mem_map] at hv
    obtain ⟨h, -, rfl⟩ := hv
    rw [typedEntry_handler] at hty
    exact (Option.some.inj hty).symm
  · rintro rfl
    obtain ⟨check, hcheck⟩ := List.exists_mem_of_ne_nil _ config.checksNonempty
    obtain ⟨h, hh⟩ := List.exists_mem_of_ne_nil _ check.handlersNonempty
    refine ⟨_, ⟨check, hcheck, rfl⟩, .dict h.modelDump, ?_, by rw [typedEntry_handler]; rfl⟩
    rw [listAt_handlers]
    exact List.mem_map_of_mem hh

/-- So the check asks for one thing, whatever the entries say. -/
theorem validateRequiredIntegrations_eq_nil {settings : AppSettings} {config : AppConfig} :
    settings.validateRequiredIntegrations (configuredHandlers (config.checks.map (·.modelDump))) = [] ↔
      settings.slackWebhookUrl ≠ none := by
  have hslack : "slack_webhook" ∈ configuredHandlers (config.checks.map (·.modelDump)) :=
    mem_configuredHandlers.2 rfl
  have hemail : "email" ∉ configuredHandlers (config.checks.map (·.modelDump)) := fun h => by
    have := mem_configuredHandlers.1 h
    revert this
    decide
  unfold AppSettings.validateRequiredIntegrations
  cases settings.slackWebhookUrl <;> simp [hslack, hemail, SettingValue.ofUrl, SettingValue.truthy]

/-- And nothing else is asked for at startup. -/
theorem missingVars_eq (settings : AppSettings) (config : AppConfig) :
    missingVars settings config =
      settings.validateRequiredIntegrations (configuredHandlers (config.checks.map (·.modelDump))) := by
  have hpersistence : "persistence" ∉ configuredHandlers (config.checks.map (·.modelDump)) := fun h => by
    have := mem_configuredHandlers.1 h
    revert this
    decide
  simp [missingVars, hpersistence]

end SentinelFlow
