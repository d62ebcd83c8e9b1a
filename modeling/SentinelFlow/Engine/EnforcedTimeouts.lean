/-
The timeout a check runs under, from the file to `wait_for`.

A check that gives a `timeout_seconds` runs under it: the schema keeps it, the
dump hands it on, and no other check's object comes in between where ids are
distinct. A check that gives none gets the schema's own fifteen seconds.
Nothing reads `default_timeout_seconds`, which the documentation calls the
fallback timeout per check.
-/
import SentinelFlow.Config.Loader
import SentinelFlow.Engine.OwnResilience

namespace SentinelFlow

open Machine Engine

/-! ## Timeouts in the file -/

/-- The entries under `checks`. -/
def Libraries.checksIn (w : Libraries) (text : String) : List YamlVal :=
  match w.safeLoad text with
  | .ok (.dict kvs) => ((YamlMap.get kvs "checks").bind w.toList).getD []
  | _ => []

/-- What an entry gives as the `timeout_seconds` of its `resilience`. -/
def YamlVal.timeoutSeconds : YamlVal → Option YamlVal
  | .dict kvs => match YamlMap.get kvs "resilience" with
    | some (.dict block) => YamlMap.get block "timeout_seconds"
    | _ => Option.none
  | _ => Option.none

/-- What the entry of an index gives. -/
def Libraries.timeoutGiven (w : Libraries) (text : String) (i : ℕ) : Option YamlVal :=
  (w.checksIn text)[i]?.bind YamlVal.timeoutSeconds

/-- The timeout that is given, converted, or a fallback. -/
def timeoutOr (p : Pydantic) (fallback : PyFloat) : Option YamlVal → Option PyFloat
  | some v => p.toFloat v
  | none => some fallback

/-- The documented timeout of an entry: its own, or the fallback. -/
def documentedTimeout (w : Libraries) (text : String) (config : AppConfig) (i : ℕ) : Option PyFloat :=
  timeoutOr w.toPydantic config.globalConfig.defaultTimeoutSeconds (w.timeoutGiven text i)

section Load

variable {w : Libraries} {reg : Registry} {filePath text : String} {config : AppConfig}

theorem optionalField_eq_timeoutOr {kvs : YamlMap} {name : String} {p : Pydantic} {fallback : PyFloat} :
    optionalField kvs name fallback p.toFloat = timeoutOr p fallback (kvs.get name) := by
  unfold optionalField
  cases kvs.get name <;> rfl

/-- The schema's timeout of an entry: its own, or fifteen seconds. -/
theorem timeout_validated {p : Pydantic} {check : YamlVal} {c : MetricCheckConfig}
    (h : MetricCheckConfig.validate p check = some c) :
    timeoutOr p (.finite 15) check.timeoutSeconds = some c.resilience.timeoutSeconds := by
  obtain ⟨kvs, rfl, hres⟩ := MetricCheckConfig.validate_resilience h
  unfold optionalField at hres
  cases hblock : YamlMap.get kvs "resilience" with
  | none =>
    rw [hblock] at hres
    simp only [YamlVal.timeoutSeconds, hblock, timeoutOr, ← Option.some.inj hres]
    rfl
  | some v =>
    rw [hblock] at hres
    obtain ⟨block, rfl, htimeout⟩ := CheckResilienceConfig.validate_timeout hres
    simpa only [YamlVal.timeoutSeconds, hblock] using optionalField_eq_timeoutOr.symm.trans htimeout

/-- Each entry of a loaded configuration was read from the entry of its index. -/
theorem entry_validated (h : loadConfig w reg filePath (.ok text) = .ok config) (i : Fin config.checks.length) :
    ∃ check, (w.checksIn text)[(i : ℕ)]? = some check ∧
      MetricCheckConfig.validate w.toPydantic check = some (config.checks.get i) := by
  obtain ⟨raw, hraw, hv⟩ := loadConfig_ok_iff.1 h
  obtain ⟨kvs, rfl, -, hchecks⟩ := AppConfig.validate_checks hv
  obtain ⟨v, hget, hlist⟩ := Option.bind_eq_some_iff.1 hchecks
  obtain ⟨checks, hto, hmap⟩ := Option.bind_eq_some_iff.1 hlist
  have hin : w.checksIn text = checks := by
    simp only [Libraries.checksIn, hraw, hget, Option.bind_some, hto, Option.getD_some]
  obtain ⟨hlen, hall⟩ := List.forall₂_iff_get.1 (forall₂_of_mapM hmap)
  have hi : (i : ℕ) < checks.length := i.isLt.trans_eq hlen.symm
  exact ⟨checks.get ⟨i, hi⟩, by rw [hin]; exact List.getElem?_eq_getElem hi, hall i hi i.isLt⟩

theorem timeout_loaded (h : loadConfig w reg filePath (.ok text) = .ok config) (i : Fin config.checks.length) :
    timeoutOr w.toPydantic (.finite 15) (w.timeoutGiven text i) =
      some (config.checks.get i).resilience.timeoutSeconds := by
  obtain ⟨check, hcheck, hv⟩ := entry_validated h i
  have hgiven : w.timeoutGiven text i = check.timeoutSeconds := by
    rw [Libraries.timeoutGiven, hcheck, Option.bind_some]
  rw [hgiven]
  exact timeout_validated hv

end Load

/-! ## Timeouts in force -/

theorem checkId_of_ne_empty {c : MetricCheckConfig} (h : c.metricId ≠ "") : c.checkId = c.metricId :=
  if_neg (by simpa using h)

/-- Non-empty metric ids that are not repeated make distinct check ids. -/
theorem distinctIds_of_nodup {config : AppConfig} (hids : (config.checks.map (·.metricId)).Nodup)
    (hne : "" ∉ config.checks.map (·.metricId)) : config.DistinctIds := by
  have hnonempty : ∀ i, (config.checks.get i).metricId ≠ "" := fun i h =>
    hne (List.mem_map.2 ⟨_, List.get_mem _ i, h⟩)
  intro i j hij hid
  rw [checkId_of_ne_empty (hnonempty i), checkId_of_ne_empty (hnonempty j)] at hid
  have hsame := List.inj_on_of_nodup_map hids (List.get_mem _ i) (List.get_mem _ j) hid
  exact absurd (hids.of_map.injective_get hsame) hij

/-- **Timeouts as documented, exactly.** For every file that loads to a
configuration of distinct non-empty ids: in every state that executions of
its entries reach, the timeout an execution is under is the documented one of
its entry, if and only if the file gives that entry a timeout, or the
fallback is the schema's own default. -/
theorem timeout_documented_iff {w : Libraries} {reg : Registry} {filePath text : String} {config : AppConfig}
    (hload : loadConfig w reg filePath (.ok text) = .ok config)
    (hids : (config.checks.map (·.metricId)).Nodup) (hne : "" ∉ config.checks.map (·.metricId))
    {entryOf : ℕ → Fin config.checks.length} {is : List Input} {s : Engine} {log : List Happened}
    (hrun : run (Engine.step reg fun t => (config.entry entryOf t).modelDump) (start config.executor) is =
      some (s, log)) {t : ℕ} {f : Frame} (hf : (s.point t).frame? = some f) :
    documentedTimeout w text config (entryOf t) = some f.timeoutSeconds ↔
      (w.timeoutGiven text (entryOf t)).isSome = true ∨
        config.globalConfig.defaultTimeoutSeconds = .finite 15 := by
  have hown : f.timeoutSeconds = (config.checks.get (entryOf t)).resilience.timeoutSeconds :=
    ((ownResilience_of_distinctIds (distinctIds_of_nodup hids hne) hrun).timer t f hf).1
  have hloaded := timeout_loaded hload (entryOf t)
  rw [← hown] at hloaded
  unfold documentedTimeout
  cases hgiven : w.timeoutGiven text (entryOf t) with
  | some v =>
    rw [hgiven] at hloaded
    exact iff_of_true hloaded (.inl rfl)
  | none =>
    -- The timeout is fifteen seconds, whatever the fallback.
    rw [hgiven] at hloaded
    have hfifteen : PyFloat.finite 15 = f.timeoutSeconds := Option.some.inj hloaded
    simp [timeoutOr, ← hfifteen]

/-! ## Two files -/

/-- An execution of a buildable entry gets under a timer. -/
theorem timer_starts (reg : Registry) (config : AppConfig) {i : Fin config.checks.length}
    (hb : (config.checks.get i).resilience.Buildable) :
    ∃ s log f, run (Engine.step reg fun t => (config.entry (fun _ => i) t).modelDump) (start config.executor)
      [⟨0, ⟨0, 0⟩, .granted⟩] = some (s, log) ∧ (s.point 0).frame? = some f := by
  have hbuild := (build_modelDump (config.checks.get i).resilience).2 ⟨hb, rfl⟩
  have hqueued : (start config.executor).point 0 = .queued := rfl
  obtain ⟨s, o, f, hstep, -, hpoint, -⟩ := step_enters reg
    (fun t => (config.entry (fun _ => i) t).modelDump) ⟨0, 0⟩ hqueued config.executor_semaphore_ne_zero
    (forCheck_empty _ hbuild)
  exact ⟨s, [o], f, run_cons.2 ⟨_, _, _, hstep, rfl, rfl⟩, by rw [hpoint]; rfl⟩

/-- A file with a fallback of a minute and one check, which ends with the given lines. -/
def ordersText (lines : String) : String :=
  "global:\n  default_timeout_seconds: 60\n" ++
  "checks:\n  - metric_id: orders\n    ingestor:\n      type: http_api\n      url: https://api.example/stats\n" ++
  "    evaluators:\n      - type: freshness\n        max_age_seconds: 60\n" ++
  "    handlers:\n      - type: slack_webhook\n        webhook_url_env_key: SLACK_WEBHOOK_URL\n" ++ lines

/-- Its value, given that of the lines. -/
def ordersFile (fields : YamlMap) : YamlVal :=
  .dict [(.str "global", .dict [(.str "default_timeout_seconds", .int 60)]),
    (.str "checks", .list [.dict ([(.str "metric_id", .str "orders"),
      (.str "ingestor", .dict [(.str "type", .str "http_api"), (.str "url", .str "https://api.example/stats")]),
      (.str "evaluators", .list [.dict [(.str "type", .str "freshness"), (.str "max_age_seconds", .int 60)]]),
      (.str "handlers", .list [.dict [(.str "type", .str "slack_webhook"),
        (.str "webhook_url_env_key", .str "SLACK_WEBHOOK_URL")]])] ++ fields)])]

/-- What is loaded from it. -/
def ordersLoaded (seconds : ℚ) (config : AppConfig) : Bool :=
  config.checks.map (·.metricId) == ["orders"] &&
    config.globalConfig.defaultTimeoutSeconds == .finite 60 &&
    config.checks.all fun c => decide c.resilience.Buildable && c.resilience.timeoutSeconds == .finite seconds

/-- Loading the file with these lines. -/
def loadOrders (lines : String) (fields : YamlMap) : Except Exc AppConfig :=
  loadConfig (librariesFor (ordersText lines) (ordersFile fields)) .builtin "config.yaml" (.ok (ordersText lines))

theorem orders_timeoutGiven (lines : String) (fields : YamlMap) :
    (librariesFor (ordersText lines) (ordersFile fields)).timeoutGiven (ordersText lines) 0 =
      (YamlVal.dict fields).timeoutSeconds := by
  rw [Libraries.timeoutGiven, Libraries.checksIn, librariesFor_safeLoad]
  rfl

theorem orders_timer {lines : String} {fields : YamlMap} {seconds : ℚ}
    (h : (AppConfig.validate exactPydantic .builtin (ordersFile fields)).any (ordersLoaded seconds) = true) :
    ∃ config s log f, ∃ hpos : 0 < config.checks.length, loadOrders lines fields = .ok config ∧
      (config.checks.map (·.metricId)).Nodup ∧ "" ∉ config.checks.map (·.metricId) ∧
      config.globalConfig.defaultTimeoutSeconds = .finite 60 ∧
      run (Engine.step .builtin fun t => (config.entry (fun _ => ⟨0, hpos⟩) t).modelDump) (start config.executor)
        [⟨0, ⟨0, 0⟩, .granted⟩] = some (s, log) ∧
      (s.point 0).frame? = some f ∧ f.timeoutSeconds = .finite seconds := by
  obtain ⟨config, hv, hfacts⟩ := (Option.any_eq_true _ _).1 h
  simp only [ordersLoaded, Bool.and_eq_true, beq_iff_eq, List.all_eq_true, decide_eq_true_eq] at hfacts
  obtain ⟨⟨hmetrics, hdefault⟩, hall⟩ := hfacts
  have hload : loadOrders lines fields = .ok config := loadConfig_ok_iff.2 ⟨_, librariesFor_safeLoad _ _, hv⟩
  have hids : (config.checks.map (·.metricId)).Nodup := by
    rw [hmetrics]
    decide
  have hne : "" ∉ config.checks.map (·.metricId) := by
    rw [hmetrics]
    decide
  have hpos : 0 < config.checks.length := List.length_pos_of_ne_nil config.checksNonempty
  obtain ⟨hb, hseconds⟩ := hall _ (List.get_mem config.checks ⟨0, hpos⟩)
  obtain ⟨s, log, f, hrun, hf⟩ := timer_starts .builtin config hb
  have htimer := ((ownResilience_of_distinctIds (distinctIds_of_nodup hids hne) hrun).timer 0 f hf).1
  exact ⟨config, s, log, f, hpos, hload, hids, hne, hdefault, hrun, hf, htimer.trans hseconds⟩

/-- Without a timeout of its own the check runs under fifteen seconds, and not a minute. -/
theorem fallback_not_enforced :
    ∃ config s log f, ∃ hpos : 0 < config.checks.length, loadOrders "" [] = .ok config ∧
      (config.checks.map (·.metricId)).Nodup ∧ "" ∉ config.checks.map (·.metricId) ∧
      run (Engine.step .builtin fun t => (config.entry (fun _ => ⟨0, hpos⟩) t).modelDump) (start config.executor)
        [⟨0, ⟨0, 0⟩, .granted⟩] = some (s, log) ∧
      (s.point 0).frame? = some f ∧ f.timeoutSeconds = .finite 15 ∧
      documentedTimeout (librariesFor (ordersText "") (ordersFile [])) (ordersText "") config 0 =
        some (.finite 60) := by
  obtain ⟨config, s, log, f, hpos, hload, hids, hne, hdefault, hrun, hf, hfifteen⟩ :=
    @orders_timer "" [] 15 (by decide +kernel)
  refine ⟨config, s, log, f, hpos, hload, hids, hne, hrun, hf, hfifteen, ?_⟩
  rw [documentedTimeout, orders_timeoutGiven, hdefault]
  rfl

/-- Lines that give the check five seconds, and their value. -/
def fiveSecondsText : String := "    resilience:\n      timeout_seconds: 5\n"

def fiveSeconds : YamlMap := [(.str "resilience", .dict [(.str "timeout_seconds", .int 5)])]

/-- With five seconds of its own it runs under them. -/
theorem timeout_documented_iff_given :
    ∃ config s log f, ∃ hpos : 0 < config.checks.length, loadOrders fiveSecondsText fiveSeconds = .ok config ∧
      run (Engine.step .builtin fun t => (config.entry (fun _ => ⟨0, hpos⟩) t).modelDump) (start config.executor)
        [⟨0, ⟨0, 0⟩, .granted⟩] = some (s, log) ∧
      (s.point 0).frame? = some f ∧ f.timeoutSeconds = .finite 5 ∧
      documentedTimeout (librariesFor (ordersText fiveSecondsText) (ordersFile fiveSeconds))
        (ordersText fiveSecondsText) config 0 = some f.timeoutSeconds := by
  obtain ⟨config, s, log, f, hpos, hload, hids, hne, -, hrun, hf, hfive⟩ :=
    @orders_timer fiveSecondsText fiveSeconds 5 (by decide +kernel)
  refine ⟨config, s, log, f, hpos, hload, hrun, hf, hfive,
    (timeout_documented_iff hload hids hne hrun hf).2 (.inl ?_)⟩
  show ((librariesFor (ordersText fiveSecondsText) (ordersFile fiveSeconds)).timeoutGiven
    (ordersText fiveSecondsText) 0).isSome = true
  rw [orders_timeoutGiven]
  rfl

end SentinelFlow
