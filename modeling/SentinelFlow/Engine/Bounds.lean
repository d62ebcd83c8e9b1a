/-
What the executor keeps, however long it runs. `purge_old_state` is there to
keep the maps of the policy small, and nothing calls it. They stay small all
the same: an alert carries the id of its check, and the type and the severity
of one of its rules, so the fingerprints are those of the configuration, and
so are the ids of the resilience objects and of the rings (`bounded_state`).

A map grows by a new key only, so all that is asked of an effect is which keys
it names.
-/
import SentinelFlow.Engine.OwnResilience
import SentinelFlow.Engine.Provenance
import SentinelFlow.Lib.Ring

namespace SentinelFlow

open Machine Engine AlertPolicy

/-! ## Keys -/

/-- The fingerprint of the alerts of a rule. -/
def MetricCheckConfig.fingerprint (c : MetricCheckConfig) (entry : EvaluatorConfig) : String :=
  generateFingerprint c.checkId entry.type entry.severity.text

def AppConfig.fingerprints (config : AppConfig) : List String :=
  config.checks.flatMap fun c => c.evaluators.map c.fingerprint

/-- The policy's maps are about these fingerprints, the other ones about these ids. -/
structure Executor.Keyed (fps ids : List String) (x : Executor) : Prop where
  seen : x.policy.lastSeen.keys ⊆ fps
  dispatched : x.policy.lastDispatched.keys ⊆ fps
  counted : x.policy.failureCounts.keys ⊆ fps
  resilience : x.resilience.keys ⊆ ids
  history : x.history.history.keys ⊆ ids
  maxSize : x.history.maxSize = 100
  rings : ∀ id, (x.history.getRecent id).length ≤ 100

def Effect.Keyed (fps ids : List String) (e : Effect) : Prop :=
  (∀ c ∈ e.policyCall?, fingerprintOf c.args ∈ fps) ∧ ∀ id, e.checkId? = some id → id ∈ ids

section Keyed

variable {fps ids : List String} {x : Executor}

theorem Executor.Keyed.onCheck (h : x.Keyed fps ids) {id : String} (hid : id ∈ ids)
    (f : CheckResilience → CheckResilience) : (x.onCheck id f).Keyed fps ids := by
  unfold Executor.onCheck
  split
  · exact { h with resilience := Dict.keys_insert_subset h.resilience hid _ }
  · exact h

theorem Executor.Keyed.forCheck (h : x.Keyed fps ids) {id : String} (hid : id ∈ ids) (cfg : PyDict) :
    (x.apply (.forCheck id cfg)).Keyed fps ids := by
  simp only [Executor.apply, ResilienceManager.forCheck]
  cases x.resilience.lookup id with
  | some r => exact h
  | none =>
    cases ResilienceManager.build cfg with
    | error e => exact h
    | ok r => exact { h with resilience := Dict.keys_insert_subset h.resilience hid _ }

theorem Executor.Keyed.addResult (h : x.Keyed fps ids) {id : String} (hid : id ∈ ids) (success : Bool)
    (durationMs : Time) : (x.apply (.addResult id success durationMs)).Keyed fps ids := by
  refine { h with history := Dict.keys_insert_subset h.history hid _, rings := fun id' => ?_ }
  show ((x.history.addResult id success durationMs).getRecent id').length ≤ 100
  by_cases hne : id' = id
  · subst hne
    rw [ExecutionHistory.getRecent_addResult_self, h.maxSize]
    exact Ring.length_rtake_le _ _
  · rw [ExecutionHistory.getRecent_addResult_ne _ _ _ hne]
    exact h.rings id'

/-- Asking the policy names one fingerprint in each of its maps. -/
theorem Executor.Keyed.shouldDispatch (h : x.Keyed fps ids) (now : Time) {args : DispatchArgs}
    (hfp : fingerprintOf args ∈ fps) (result : Except Exc Bool) :
    (x.apply (.shouldDispatch now args result)).Keyed fps ids := by
  have hseen := Dict.keys_insert_subset h.seen hfp now
  have herase := Dict.keys_erase_subset h.counted (fingerprintOf args)
  have hpolicy : (x.apply (.shouldDispatch now args result)).policy = (x.policy.shouldDispatch now args).1 := rfl
  rcases shouldDispatch_cases x.policy now args with ⟨-, hs⟩ | ⟨-, e, -, hs⟩ | ⟨-, -, ev, -, hs⟩ <;> rw [hs] at hpolicy
  · have hcount := Dict.keys_insert_subset h.counted hfp (x.policy.failureCount (fingerprintOf args) + 1)
    exact { h with seen := hpolicy ▸ hseen, dispatched := hpolicy ▸ h.dispatched, counted := hpolicy ▸ hcount }
  · exact { h with seen := hpolicy ▸ hseen, dispatched := hpolicy ▸ h.dispatched, counted := hpolicy ▸ herase }
  · have hsent := Dict.keys_insert_subset h.dispatched hfp now
    exact { h with seen := hpolicy ▸ hseen, dispatched := hpolicy ▸ hsent, counted := hpolicy ▸ herase }

theorem Executor.Keyed.apply (h : x.Keyed fps ids) {e : Effect} (he : e.Keyed fps ids) :
    (x.apply e).Keyed fps ids := by
  cases e with
  | forCheck id cfg => exact h.forCheck (he.2 id rfl) cfg
  | acquireInflight id | releaseInflight id | callEnter id | callExcept id | callElse id =>
    exact h.onCheck (he.2 id rfl) _
  | addResult id success durationMs => exact h.addResult (he.2 id rfl) success durationMs
  | shouldDispatch now args result => exact h.shouldDispatch now (he.1 _ rfl) result
  | _ => exact { h with }

theorem Executor.Keyed.applyAll {es : List Effect} (hes : ∀ e ∈ es, e.Keyed fps ids) :
    ∀ {x : Executor}, x.Keyed fps ids → (x.applyAll es).Keyed fps ids := by
  induction es with
  | nil => exact fun h => h
  | cons e es ih =>
    intro x h
    rw [List.forall_mem_cons] at hes
    exact ih hes.2 (h.apply hes.1)

end Keyed

/-! ## Runs -/

section Runs

variable {r render : Render} {config : AppConfig} {entryOf : ℕ → Fin config.checks.length} {t : ℕ}

theorem AppConfig.checkId_mem : metricIdOf (config.entry entryOf t).modelDump ∈ config.checks.map (·.checkId) :=
  List.mem_map_of_mem (List.get_mem _ _)

/-- An alert of an entry has the fingerprint of one of its rules. -/
theorem fingerprint_mem {is : List (Turn (List (Time × HttpApiIngestor.Exchange)))} {e : AlertEvent}
    (h : e.Sourced (HttpApiIngestor.ingestor r) render (config.entry entryOf t).modelDump t is) :
    fingerprintOf (dispatchArgs (config.entry entryOf t).modelDump e) ∈ config.fingerprints := by
  obtain ⟨fetched, evaluated, payload, ty, c, -, ⟨-, exchanges, -, hfetch⟩, -, ⟨v, hv, htyped⟩, hev⟩ := h
  obtain ⟨entry, hmem, rfl, rfl⟩ := mem_evaluators_of_typedEntry hv htyped
  obtain ⟨hid, hty, hsev⟩ := builtinEvaluate_entry hev
  have hfp : fingerprintOf (dispatchArgs (config.entry entryOf t).modelDump e) =
      (config.entry entryOf t).fingerprint entry := by
    show generateFingerprint e.metricId e.evaluatorType e.severity.text = _
    rw [hid, hty, hsev, (HttpApiIngestor.fetch_ok hfetch).1]
    rfl
  rw [hfp]
  exact List.mem_flatMap.2 ⟨_, List.get_mem _ _, List.mem_map_of_mem hmem⟩

variable {is : List (Turn (List (Time × HttpApiIngestor.Exchange)))} {log : List Happened} {s : Engine}

/-- In every run, the maps have keys of the configuration only. -/
theorem keyed_run
    (h : run (turn (HttpApiIngestor.ingestor r) render fun t => (config.entry entryOf t).modelDump)
      (start config.executor) is = some (s, log)) :
    s.executor.Keyed config.fingerprints (config.checks.map (·.checkId)) := by
  refine run_induction (fun _ _ (s : Engine) => s.executor.Keyed config.fingerprints (config.checks.map (·.checkId)))
    ?_ (fun is log s i o s' hrun hI hs => ?_) h
  · exact ⟨List.nil_subset _, List.nil_subset _, List.nil_subset _, List.nil_subset _, List.nil_subset _,
      rfl, fun id => Nat.zero_le _⟩
  obtain ⟨reply, -, hstep⟩ := turn_step hs
  obtain ⟨hr, hx, -, -, htask, -⟩ := step_resumes hstep
  have hsourced := (sourced_run (run_concat.2 ⟨s, log, o, hrun, hs, rfl⟩)).2 i.task
  rw [hx]
  refine Executor.Keyed.applyAll (fun e he => ⟨fun c hc => ?_, fun id hid => ?_⟩) hI
  -- What the policy is asked is about an alert of this check.
  · have hmem : e ∈ effectsOf i.task (log ++ [o]) := by
      rw [effectsOf_concat htask]
      exact List.mem_append_right _ he
    have he' := hsourced e hmem
    cases e with
    | shouldDispatch now args result =>
      cases hc
      obtain ⟨event, rfl, hevent⟩ := he'
      exact fingerprint_mem hevent
    | _ => cases hc
  · rw [hr.within e he id hid]
    exact AppConfig.checkId_mem

/-- **The state is bounded.** In every state of an engine that executes an
accepted configuration with the built-in components, however many
executions there were: the policy keeps at most one entry a rule in each of
its maps, there is at most one resilience object and one ring a check, and a
ring holds at most a hundred results. -/
theorem bounded_state
    (h : run (turn (HttpApiIngestor.ingestor r) render fun t => (config.entry entryOf t).modelDump)
      (start config.executor) is = some (s, log)) :
    let rules := (config.checks.map (·.evaluators.length)).sum
    (s.executor.policy.lastSeen.keys.length ≤ rules ∧ s.executor.policy.lastDispatched.keys.length ≤ rules ∧
      s.executor.policy.failureCounts.keys.length ≤ rules) ∧
      s.executor.resilience.keys.length ≤ config.checks.length ∧
      s.executor.history.history.keys.length ≤ config.checks.length ∧
      ∀ id, (s.executor.history.getRecent id).length ≤ 100 := by
  obtain ⟨hseen, hdispatched, hcounted, hresilience, hhistory, -, hrings⟩ := keyed_run h
  have hrules : config.fingerprints.length = (config.checks.map (·.evaluators.length)).sum := by
    rw [AppConfig.fingerprints, List.length_flatMap]
    simp only [List.length_map]
  rw [← hrules]
  refine ⟨⟨Dict.length_keys_le hseen, Dict.length_keys_le hdispatched, Dict.length_keys_le hcounted⟩, ?_, ?_, hrings⟩
  · simpa using Dict.length_keys_le hresilience
  · simpa using Dict.length_keys_le hhistory

end Runs

theorem bounded_state_slowTurns :
    ∃ s log, run (turn (HttpApiIngestor.ingestor wholeTexts) wholeTexts fun _ => (plainCheck "orders").modelDump)
        (start (plainConfig (plainCheck "orders") []).executor) slowTurns = some (s, log) ∧
      s.executor.policy.lastSeen.keys.length = 1 ∧ s.executor.policy.lastSeen.keys.length ≤ 1 ∧
      s.executor.resilience.keys.length ≤ 1 ∧ (s.executor.history.getRecent "orders").length ≤ 100 := by
  have h : (run (turn (HttpApiIngestor.ingestor wholeTexts) wholeTexts fun _ => (plainCheck "orders").modelDump)
      (start (plainConfig (plainCheck "orders") []).executor) slowTurns).any
        (fun p => p.1.executor.policy.lastSeen.keys.length == 1) = true := by decide +kernel
  obtain ⟨⟨s, log⟩, hs, hq⟩ := (Option.any_eq_true _ _).1 h
  obtain ⟨⟨hseen, -, -⟩, hresilience, -, hrings⟩ := @bounded_state wholeTexts wholeTexts
    (plainConfig (plainCheck "orders") []) (fun _ => ⟨0, by decide⟩) _ _ _ hs
  exact ⟨s, log, hs, beq_iff_eq.1 hq, hseen, hresilience, hrings "orders"⟩

end SentinelFlow
