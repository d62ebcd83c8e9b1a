/-
Which URL the handler posts to: three parts that must agree. The schema
accepts any key that is not blank, the startup check looks at one field, and
`dispatch` looks up whatever attribute the key names in lower case.

`resolves_iff` and `posts_https_iff` say for which keys an entry that the
schema and the startup check let through finds a URL, and for which it
posts to https alone.
-/
import SentinelFlow.Config.Settings
import SentinelFlow.Handlers.SlackRuns

namespace SentinelFlow

open Machine SlackHandler

/-- What the handler reads of the settings. -/
def AppSettings.surroundings (settings : AppSettings) (inherited : String → Option String)
    (isoformat : Time → String) : Surroundings where
  setting := settings.getattr inherited
  isoformat := isoformat

/-! ## One attempt -/

namespace SlackHandler

/-- The schema leaves one way to fail. -/
theorem webhookUrl_modelDump (env : Surroundings) (c : SlackHandlerConfig) :
    webhookUrl env c.modelDump = (env.setting (lower c.webhookUrlEnvKey)).elim
      (.error (dispatchError s!"Slack webhook not configured for env key '{c.webhookUrlEnvKey}'")) .ok := by
  have hkey : PyDict.get c.modelDump "webhook_url_env_key" = some (.str c.webhookUrlEnvKey) := rfl
  have hne : c.webhookUrlEnvKey ≠ "" := by
    intro he
    have hblank := c.validateEnvKey
    rw [he] at hblank
    revert hblank
    decide
  simp only [webhookUrl, hkey, Option.getD_some, PyVal.truthy]
  rw [String.isEmpty_eq_false_iff.2 hne]
  cases env.setting (lower c.webhookUrlEnvKey) <;> rfl

section Runs

variable {env : Surroundings} {argsOf : ℕ → AlertEvent × PyDict} {s s' : State} {i : Input} {o : Happened}

/-- What a step did is what the look-up of its entry answers. -/
def FollowsLookup (env : Surroundings) (argsOf : ℕ → AlertEvent × PyDict) (o : Happened) : Prop :=
  match o.did with
  | .posts url _ => webhookUrl env (argsOf o.dispatch).2 = .ok url
  | .refused e => webhookUrl env (argsOf o.dispatch).2 = .error e
  | _ => True

theorem followsLookup_step (h : step env argsOf s i = some (s', o)) : FollowsLookup env argsOf o := by
  unfold step at h
  split at h
  next n hp hst =>
    cases h
    unfold beginAttempt
    dsimp only
    split
    · split
      next url hurl => exact hurl
      next e hurl => exact hurl
    · trivial
  next => cases h; trivial
  next => cases h; trivial
  next => cases h

theorem followsLookup_run {b : Resilience.CircuitBreaker} {is : List Input} {log : List Happened}
    (h : run (step env argsOf) (start b) is = some (s, log)) : ∀ o ∈ log, FollowsLookup env argsOf o := by
  refine run_induction (fun _ log _ => ∀ o ∈ log, FollowsLookup env argsOf o) (fun o ho => by cases ho) ?_ h
  intro is log s i o s' _ hI hs o' ho'
  rcases List.mem_append.1 ho' with hold | hnew
  · exact hI o' hold
  · rw [List.mem_singleton.1 hnew]
    exact followsLookup_step hs

/-- The first attempt of a new handler goes by the look-up. -/
theorem run_first (env : Surroundings) (argsOf : ℕ → AlertEvent × PyDict) :
    ∃ s o, run (step env argsOf) (start newBreaker) [⟨0, 0, .proceed⟩] = some (s, [o]) ∧ o.dispatch = 0 ∧
      o.did = match webhookUrl env (argsOf 0).2 with
        | .ok url => .posts url (buildSlackPayload env (argsOf 0).1)
        | .error e => .refused e := by
  have hstep : step env argsOf (start newBreaker) ⟨0, 0, .proceed⟩ =
      some ((beginAttempt env argsOf (start newBreaker) 0 0 1).1,
        ⟨0, (beginAttempt env argsOf (start newBreaker) 0 0 1).2⟩) := rfl
  refine ⟨_, _, run_cons.2 ⟨_, _, _, hstep, rfl, rfl⟩, rfl, ?_⟩
  have hallow : (newBreaker.allowRequest 0).2 = true := rfl
  simp only [beginAttempt, start, hallow, if_true]
  cases webhookUrl env (argsOf 0).2 <;> rfl

/-- An entry whose key finds nothing is refused, and no other. -/
theorem neverRefused_iff (env : Surroundings) (c : SlackHandlerConfig) :
    (∀ argsOf is log s, run (step env argsOf) (start newBreaker) is = some (s, log) →
      ∀ o ∈ log, (argsOf o.dispatch).2 = c.modelDump → ∀ e, o.did ≠ .refused e) ↔
    (env.setting (lower c.webhookUrlEnvKey)).isSome = true := by
  constructor
  · intro hnever
    obtain ⟨s, o, hrun, -, hdid⟩ := run_first env fun _ => (⟨"m", "threshold", .high, "", 0, ""⟩, c.modelDump)
    have hno := hnever _ _ _ s hrun o (by simp) rfl
    rw [hdid, webhookUrl_modelDump] at hno
    cases hset : env.setting (lower c.webhookUrlEnvKey) with
    | some url => rfl
    | none => simp [hset] at hno
  · intro hset argsOf is log s hrun o ho hc e hd
    have hlook := followsLookup_run hrun o ho
    obtain ⟨url, hurl⟩ := Option.isSome_iff_exists.1 hset
    simp only [FollowsLookup, hd, hc, webhookUrl_modelDump, hurl, Option.elim_some, reduceCtorEq] at hlook

/-- What an entry is posted to is what its key finds. -/
theorem alwaysPosts_iff (env : Surroundings) (c : SlackHandlerConfig) (P : String → Prop) :
    (∀ argsOf is log s, run (step env argsOf) (start newBreaker) is = some (s, log) →
      ∀ o ∈ log, (argsOf o.dispatch).2 = c.modelDump → ∀ url payload, o.did = .posts url payload → P url) ↔
    ∀ url, env.setting (lower c.webhookUrlEnvKey) = some url → P url := by
  constructor
  · intro halways url hurl
    obtain ⟨s, o, hrun, -, hdid⟩ := run_first env fun _ => (⟨"m", "threshold", .high, "", 0, ""⟩, c.modelDump)
    rw [webhookUrl_modelDump, hurl] at hdid
    exact halways _ _ _ s hrun o (by simp) rfl url _ hdid
  · intro hset argsOf is log s hrun o ho hc url payload hd
    have hlook := followsLookup_run hrun o ho
    simp only [FollowsLookup, hd, hc, webhookUrl_modelDump] at hlook
    cases hurl : env.setting (lower c.webhookUrlEnvKey) with
    | none => simp [hurl] at hlook
    | some url' =>
      rw [hurl, Option.elim_some, Except.ok.injEq] at hlook
      exact hset url (hlook ▸ hurl)

end Runs

end SlackHandler

/-! ## The entries of a configuration -/

section Entries

variable (settings : AppSettings) (inherited : String → Option String) (isoformat : Time → String)

/-- **When an entry finds its webhook.** With nothing missing at startup: no
dispatch with a handler entry of the configuration is refused, in any run of
the handler, if and only if the entry's key names the field that was checked,
or another attribute that is set. -/
theorem resolves_iff {config : AppConfig}
    (h : settings.validateRequiredIntegrations (configuredHandlers (config.checks.map (·.modelDump))) = []) :
    ∀ entry ∈ config.handlerEntries,
      (∀ argsOf is log s, run (step (settings.surroundings inherited isoformat) argsOf) (start newBreaker) is =
          some (s, log) →
        ∀ o ∈ log, (argsOf o.dispatch).2 = entry.modelDump → ∀ e, o.did ≠ .refused e) ↔
      lower entry.webhookUrlEnvKey = "slack_webhook_url" ∨ settings.IsSet inherited (lower entry.webhookUrlEnvKey) := by
  intro entry _
  rw [neverRefused_iff]
  show (settings.getattr inherited (lower entry.webhookUrlEnvKey)).isSome = true ↔ _
  rw [AppSettings.getattr_isSome_iff]
  refine ⟨.inr, fun hkey => ?_⟩
  rcases hkey with hslack | hset
  · obtain ⟨u, hu⟩ := Option.ne_none_iff_exists'.1 (validateRequiredIntegrations_eq_nil.1 h)
    rw [hslack]
    exact .inl ⟨_, settings.field_slackWebhookUrl, by rw [hu]; rfl⟩
  · exact hset

end Entries

/-- A configuration with one check, and one handler that names this key. -/
def oneWebhook (key : String) (h : isBlank key = false) : AppConfig :=
  plainConfig { plainCheck "orders" with handlers := [⟨key, h⟩], handlersNonempty := List.cons_ne_nil _ _ } []

/-- Everything at its default but the webhook. -/
def webhookSettings : AppSettings where
  slackWebhookUrl := some ⟨.https, "hooks.slack.com/services/T0"⟩
  validateHttps := by simp

/-- Any spelling of the key finds the field that was checked. -/
theorem resolves_iff_mixedCase :
    missingVars webhookSettings (oneWebhook "Slack_Webhook_Url" (by decide)) = [] ∧
      ∀ entry ∈ (oneWebhook "Slack_Webhook_Url" (by decide)).handlerEntries, ∀ argsOf is log s,
        run (step (webhookSettings.surroundings (fun _ => none) fun _ => "") argsOf) (start newBreaker) is =
          some (s, log) → ∀ o ∈ log, (argsOf o.dispatch).2 = entry.modelDump → ∀ e, o.did ≠ .refused e := by
  have hnone : missingVars webhookSettings (oneWebhook "Slack_Webhook_Url" (by decide)) = [] := by decide
  refine ⟨hnone, fun entry hentry => ?_⟩
  rw [missingVars_eq] at hnone
  refine (resolves_iff webhookSettings (fun _ => none) (fun _ => "") hnone entry hentry).2 (.inl ?_)
  simp only [oneWebhook, plainConfig, AppConfig.handlerEntries, List.flatMap_cons, List.flatMap_nil, List.append_nil,
    List.mem_singleton] at hentry
  rw [hentry]
  decide

/-- A second webhook, under a name the settings do not have: startup finds
nothing missing, and the handler refuses every alert. -/
theorem refused_secondWebhook :
    missingVars webhookSettings (oneWebhook "SLACK_OPS_WEBHOOK" (by decide)) = [] ∧
      ∃ entry ∈ (oneWebhook "SLACK_OPS_WEBHOOK" (by decide)).handlerEntries, ∃ is log s,
        run (step (webhookSettings.surroundings (fun _ => none) fun _ => "") fun _ =>
          (⟨"orders", "freshness", .medium, "stale", 0, ""⟩, entry.modelDump)) (start newBreaker) is = some (s, log) ∧
        ∃ o ∈ log, o.did =
          .refused (dispatchError "Slack webhook not configured for env key 'SLACK_OPS_WEBHOOK'") := by
  refine ⟨by decide, _, List.mem_singleton_self _, [⟨0, 0, .proceed⟩], ?_⟩
  obtain ⟨s, o, hrun, -, hdid⟩ := run_first (webhookSettings.surroundings (fun _ => none) fun _ => "") fun _ =>
    (⟨"orders", "freshness", .medium, "stale", 0, ""⟩,
      SlackHandlerConfig.modelDump ⟨"SLACK_OPS_WEBHOOK", by decide⟩)
  exact ⟨[o], s, hrun, o, List.mem_singleton_self o, hdid⟩

section Https

variable (settings : AppSettings) (inherited : String → Option String) (isoformat : Time → String)

/-- **When an entry posts to https alone.** For every settings object and
every accepted entry: each URL a dispatch with the entry posts to has the
https scheme, in every run of the handler, if and only if the attribute its
key names is not set or is itself an https URL. -/
theorem posts_https_iff (entry : SlackHandlerConfig) :
    (∀ argsOf is log s, run (step (settings.surroundings inherited isoformat) argsOf) (start newBreaker) is =
        some (s, log) →
      ∀ o ∈ log, (argsOf o.dispatch).2 = entry.modelDump →
        ∀ url payload, o.did = .posts url payload → schemeOf url = some "https") ↔
    settings.HttpsOrUnset inherited (lower entry.webhookUrlEnvKey) := by
  rw [alwaysPosts_iff, ← AppSettings.getattr_https_iff]
  rfl

end Https

/-- An entry that names the trace collector: its alerts go out over http. -/
theorem posts_otlpEndpoint :
    ∃ entry : SlackHandlerConfig, entry.webhookUrlEnvKey = "OTLP_ENDPOINT" ∧ ∃ is log s,
      run (step (webhookSettings.surroundings (fun _ => none) fun _ => "") fun _ =>
        (⟨"orders", "freshness", .medium, "stale", 0, ""⟩, entry.modelDump)) (start newBreaker) is = some (s, log) ∧
      ∃ o ∈ log, ∃ payload, o.did = .posts "http://localhost:4317" payload ∧
        schemeOf "http://localhost:4317" = some "http" := by
  refine ⟨⟨"OTLP_ENDPOINT", by decide⟩, rfl, [⟨0, 0, .proceed⟩], ?_⟩
  obtain ⟨s, o, hrun, -, hdid⟩ := run_first (webhookSettings.surroundings (fun _ => none) fun _ => "") fun _ =>
    (⟨"orders", "freshness", .medium, "stale", 0, ""⟩, SlackHandlerConfig.modelDump ⟨"OTLP_ENDPOINT", by decide⟩)
  exact ⟨[o], s, hrun, o, List.mem_singleton_self o, _, hdid, by decide⟩

end SentinelFlow
