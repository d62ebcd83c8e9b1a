/-
Whose resilience block an execution runs under.

An execution gets the object of its metric id, and that was built from the
block of the entry that came first. So it is the execution's own block, and
nobody else's object, exactly when ids are not repeated
(`ownResilience_iff`); nothing in the schema asks for that, and an empty id
counts as `unknown`.
-/
import SentinelFlow.Config.Dump
import SentinelFlow.Engine.CheckObjects

namespace SentinelFlow

open Machine Engine

/-! ## The object a block asks for -/

/-- `float(reset_timeout_seconds)` does not overflow. -/
def CheckResilienceConfig.Buildable (c : CheckResilienceConfig) : Prop :=
  |(c.circuitBreaker.resetTimeoutSeconds : ℚ)| < floatLimit

instance (c : CheckResilienceConfig) : Decidable c.Buildable :=
  inferInstanceAs (Decidable (|(c.circuitBreaker.resetTimeoutSeconds : ℚ)| < floatLimit))

/-- The object with the parameters of a block. -/
def CheckResilienceConfig.object (c : CheckResilienceConfig) : CheckResilience where
  semaphore := c.maxInflight.toNat
  timeoutSeconds := c.timeoutSeconds
  cbEnabled := c.circuitBreaker.enabled
  circuitBreaker :=
    { failureThreshold := c.circuitBreaker.failureThreshold
      resetTimeoutSeconds := .finite c.circuitBreaker.resetTimeoutSeconds }

theorem CheckResilienceConfig.object_semaphore (c : CheckResilienceConfig) :
    (c.object.semaphore : ℤ) = c.maxInflight := Int.toNat_of_nonneg c.inflightPos.le

theorem newSemaphore_ok {n : ℤ} (h : 0 < n) : newSemaphore n = .ok n.toNat := if_neg (not_lt.2 h.le)

theorem build_eq (c : CheckResilienceConfig) :
    ResilienceManager.build c.modelDump =
      (PyVal.toFloat (.int c.circuitBreaker.resetTimeoutSeconds)).map fun reset =>
        { c.object with circuitBreaker := { c.object.circuitBreaker with resetTimeoutSeconds := reset } } := by
  have hinflight : PyDict.get c.modelDump "max_inflight" = some (.int c.maxInflight) := rfl
  have htimeout : PyDict.get c.modelDump "timeout_seconds" = some (.float c.timeoutSeconds) := rfl
  have hcb : PyDict.get c.modelDump "circuit_breaker" = some (.dict c.circuitBreaker.modelDump) := rfl
  have henabled : PyDict.get c.circuitBreaker.modelDump "enabled" = some (.bool c.circuitBreaker.enabled) := rfl
  have hthreshold : PyDict.get c.circuitBreaker.modelDump "failure_threshold" =
      some (.int c.circuitBreaker.failureThreshold) := rfl
  have hreset : PyDict.get c.circuitBreaker.modelDump "reset_timeout_seconds" =
      some (.int c.circuitBreaker.resetTimeoutSeconds) := rfl
  have hfloat : ∀ x : PyFloat, PyVal.toFloat (.float x) = .ok x := fun _ => rfl
  unfold ResilienceManager.build
  rw [hinflight, htimeout, hcb]
  simp only [Option.getD_some, ResilienceManager.asDict, PyVal.toInt, hfloat, bind, Except.bind, henabled,
    hthreshold, hreset, newSemaphore_ok c.inflightPos]
  cases PyVal.toFloat (.int c.circuitBreaker.resetTimeoutSeconds) <;> rfl

/-- A block has an object exactly when it is buildable, and then its own. -/
theorem build_modelDump (c : CheckResilienceConfig) {r : CheckResilience} :
    ResilienceManager.build c.modelDump = .ok r ↔ c.Buildable ∧ r = c.object := by
  rw [build_eq]
  by_cases hb : c.Buildable
  · rw [PyVal.toFloat_int_of_lt hb, and_iff_right hb]
    exact ⟨fun h => (Except.ok.inj h).symm, fun h => by rw [h]; rfl⟩
  · rw [PyVal.toFloat_int_of_not_lt hb]
    exact ⟨fun h => (by cases h), fun h => absurd h.1 hb⟩

/-! ## Entries -/

namespace AppConfig

variable (config : AppConfig) (entryOf : ℕ → Fin config.checks.length)

/-- The entry an execution is of. -/
def entry (t : ℕ) : MetricCheckConfig := config.checks.get (entryOf t)

/-- `Executor(concurrency_limit)`. -/
def executor : Executor := { semaphore := config.globalConfig.concurrencyLimit.toNat }

theorem executor_semaphore_ne_zero : config.executor.semaphore ≠ 0 := by
  have hlimit := config.globalConfig.limitRange.1
  show config.globalConfig.concurrencyLimit.toNat ≠ 0
  omega

/-- Every execution so far ran, or runs, with the parameters of its own
entry's block, and no other entry's executions found the same object. -/
structure OwnResilience (s : Engine) (log : List Happened) : Prop where
  object : ∀ t, Entered log t → ∃ r, s.executor.resilience.lookup (config.entry entryOf t).checkId = some r ∧
    SameParams (config.entry entryOf t).resilience.object r ∧
      (r.semaphore : ℤ) + (s.runningTasks (fun t => (config.entry entryOf t).modelDump)
        (config.entry entryOf t).checkId).card = (config.entry entryOf t).resilience.maxInflight
  timer : ∀ t f, (s.point t).frame? = some f →
    f.timeoutSeconds = (config.entry entryOf t).resilience.timeoutSeconds ∧
      f.cbEnabled = (config.entry entryOf t).resilience.circuitBreaker.enabled
  unshared : ∀ t u, Entered log t → Entered log u → entryOf t ≠ entryOf u →
    (config.entry entryOf t).checkId ≠ (config.entry entryOf u).checkId

/-- No id is repeated, unless no entry of that id can be entered. -/
def DistinctIds : Prop :=
  ∀ i j : Fin config.checks.length, i ≠ j → (config.checks.get i).checkId = (config.checks.get j).checkId →
    ¬(config.checks.get i).resilience.Buildable ∧ ¬(config.checks.get j).resilience.Buildable

end AppConfig

section Runs

variable {reg : Registry} {config : AppConfig} {entryOf : ℕ → Fin config.checks.length}

/-- The object of an id asks back to a buildable entry of that id. -/
theorem BuiltFor.entry {s : Engine} {id : String} {r : CheckResilience}
    (h : BuiltFor (fun t => (config.entry entryOf t).modelDump) s id r) :
    ∃ t, (config.entry entryOf t).checkId = id ∧ (config.entry entryOf t).resilience.Buildable ∧
      SameParams (config.entry entryOf t).resilience.object r ∧
      (r.semaphore : ℤ) + (s.runningTasks (fun t => (config.entry entryOf t).modelDump) id).card =
        (config.entry entryOf t).resilience.maxInflight := by
  obtain ⟨t, r₀, ht, hb, hpar, hsum⟩ := h
  rw [dictAt_resilience, build_modelDump] at hb
  obtain ⟨hbuild, rfl⟩ := hb
  exact ⟨t, ht, hbuild, hpar, hsum.trans (CheckResilienceConfig.object_semaphore _)⟩

/-- With distinct ids, the buildable entry of an id is the only one of it. -/
theorem AppConfig.DistinctIds.unique (hd : config.DistinctIds) {i j : Fin config.checks.length}
    (hb : (config.checks.get i).resilience.Buildable)
    (hid : (config.checks.get i).checkId = (config.checks.get j).checkId) : i = j := by
  by_contra hne
  exact (hd i j hne hid).1 hb

theorem ownResilience_of_distinctIds (hd : config.DistinctIds) {is : List Input} {log : List Happened}
    {s : Engine} (h : run (Engine.step reg fun t => (config.entry entryOf t).modelDump)
      (start config.executor) is = some (s, log)) : config.OwnResilience entryOf s log := by
  have hfresh : config.executor.resilience = ∅ := rfl
  have hK := keeps_run hfresh h
  -- The entry the object was built for is the execution's own.
  have hown : ∀ t r, s.executor.resilience.lookup (config.entry entryOf t).checkId = some r →
      (config.entry entryOf t).resilience.Buildable ∧
        SameParams (config.entry entryOf t).resilience.object r ∧
        (r.semaphore : ℤ) + (s.runningTasks (fun t => (config.entry entryOf t).modelDump)
          (config.entry entryOf t).checkId).card = (config.entry entryOf t).resilience.maxInflight := by
    intro t r hl
    obtain ⟨u, hid, hb, hpar, hsum⟩ := (hK.built _ r hl).entry
    have hsame : entryOf u = entryOf t := hd.unique hb hid
    simp only [AppConfig.entry, hsame] at hb hpar hsum ⊢
    exact ⟨hb, hpar, hsum⟩
  refine ⟨fun t ht => ?_, fun t f hf => ?_, fun t u ht hu hne hid => ?_⟩
  · obtain ⟨r, hl⟩ := hK.entered t ht
    exact ⟨r, hl, (hown t r hl).2⟩
  · obtain ⟨r, hl, hft, hfc⟩ := hK.frames t f hf
    have hpar := (hown t r hl).2.1
    exact ⟨hft.trans hpar.timeout, hfc.trans hpar.enabled⟩
  · obtain ⟨r, hl⟩ := hK.entered t ht
    exact hne (hd.unique (hown t r hl).1 hid)

end Runs

/-! ## Two entries of one id -/

/-- Task 0 is entered and cut before its check's semaphore; then task 1 is entered. -/
def oneAfterTheOther : List Input :=
  [⟨0, ⟨0, 0⟩, .granted⟩, ⟨0, ⟨0, 0⟩, .cancel []⟩, ⟨1, ⟨0, 0⟩, .granted⟩]

section Sharing

variable {reg : Registry} {cfgOf : ℕ → PyDict} {s : Engine} {t : ℕ} {clk : Clock}

/-- The first check of an id is built. -/
theorem forCheck_empty (id : String) {cfg : PyDict} {r : CheckResilience}
    (hb : ResilienceManager.build cfg = .ok r) :
    ResilienceManager.forCheck ∅ id cfg = .ok (AList.insert id r ∅, r) := by
  simp only [ResilienceManager.forCheck, AList.lookup_empty, hb]
  rfl

variable (reg cfgOf clk)

/-- The step of an execution into its check. -/
theorem step_enters {m : ResilienceManager} {r : CheckResilience} (hq : s.point t = .queued)
    (hsem : s.executor.semaphore ≠ 0) (hok : ResilienceManager.forCheck s.executor.resilience
      (metricIdOf (cfgOf t)) (dictAt (cfgOf t) "resilience") = .ok (m, r)) :
    ∃ s' o f, Engine.step reg cfgOf s ⟨t, clk, .granted⟩ = some (s', o) ∧ s'.executor.resilience = m ∧
      s'.point t = .waiting f ∧ (∀ u, u ≠ t → s'.point u = s.point u) ∧ o.task = t ∧ o.point.frame? = some f := by
  have hr : resume (s.registry reg) s.executor (cfgOf t) clk (s.point t) .granted =
      some (.waiting ⟨clk.perf, r.timeoutSeconds, r.cbEnabled⟩,
        [.acquire, .forCheck (metricIdOf (cfgOf t)) (dictAt (cfgOf t) "resilience")]) := by
    simp only [hq, resume, enterCheck, if_neg hsem, hok]
  refine ⟨_, _, _, step_of_resume hr, ?_, point_insert_self .., fun u hu => point_insert_ne _ _ _ _ hu, rfl, rfl⟩
  simp only [Executor.applyAll, List.foldl_cons, List.foldl_nil, Executor.apply, hok]

/-- The step of an execution cut before its check's semaphore. -/
theorem step_cutWaiting {f : Frame} (hw : s.point t = .waiting f) :
    ∃ s' o, Engine.step reg cfgOf s ⟨t, clk, .cancel []⟩ = some (s', o) ∧
      s'.executor.resilience = s.executor.resilience ∧ s'.executor.semaphore ≠ 0 ∧
      ∀ u, u ≠ t → s'.point u = s.point u := by
  have hr : resume (s.registry reg) s.executor (cfgOf t) clk (s.point t) (.cancel []) =
      some (.finished none (.error .cancelledError), [.release]) := by
    rw [hw]
    rfl
  exact ⟨_, _, step_of_resume hr, rfl, Nat.succ_ne_zero _, fun u hu => point_insert_ne _ _ _ _ hu⟩

/-- The object built for task 0 serves task 1. -/
theorem both_entered {x₀ : Executor} (hx : x₀.resilience = ∅) (hsem : x₀.semaphore ≠ 0)
    (hid : metricIdOf (cfgOf 0) = metricIdOf (cfgOf 1)) {r : CheckResilience}
    (hb : ResilienceManager.build (dictAt (cfgOf 0) "resilience") = .ok r) :
    ∃ s log, run (Engine.step reg cfgOf) (start x₀) oneAfterTheOther = some (s, log) ∧
      Entered log 0 ∧ Entered log 1 := by
  have hfirst : ResilienceManager.forCheck x₀.resilience (metricIdOf (cfgOf 0)) (dictAt (cfgOf 0) "resilience") =
      .ok (AList.insert (metricIdOf (cfgOf 0)) r ∅, r) := by
    rw [hx]
    exact forCheck_empty _ hb
  have hthen : ResilienceManager.forCheck (AList.insert (metricIdOf (cfgOf 0)) r ∅) (metricIdOf (cfgOf 1))
      (dictAt (cfgOf 1) "resilience") = .ok (AList.insert (metricIdOf (cfgOf 0)) r ∅, r) := by
    unfold ResilienceManager.forCheck
    rw [← hid, AList.lookup_insert]
  have hq₀ : (start x₀).point 0 = .queued := rfl
  obtain ⟨s₁, o₁, f, h₁, hm₁, hw, hq₁, ht₁, hf₁⟩ := step_enters reg cfgOf ⟨0, 0⟩ hq₀ hsem hfirst
  obtain ⟨s₂, o₂, h₂, hm₂, hsem₂, hq₂⟩ := step_cutWaiting reg cfgOf ⟨0, 0⟩ hw
  have hq : s₂.point 1 = .queued := (hq₂ 1 one_ne_zero).trans (hq₁ 1 one_ne_zero)
  rw [← hm₁, ← hm₂] at hthen
  obtain ⟨s₃, o₃, f', h₃, -, -, -, ht₃, hf₃⟩ := step_enters reg cfgOf ⟨0, 0⟩ hq hsem₂ hthen
  have hrun : run (Engine.step reg cfgOf) (start x₀) oneAfterTheOther = some (s₃, [o₁, o₂, o₃]) :=
    run_cons.2 ⟨_, _, _, h₁, run_cons.2 ⟨_, _, _, h₂, run_cons.2 ⟨_, _, _, h₃, rfl, rfl⟩, rfl⟩, rfl⟩
  refine ⟨s₃, _, hrun, ⟨o₁, by simp, ht₁, by rw [hf₁]; rfl⟩, ⟨o₃, by simp, ht₃, by rw [hf₃]; rfl⟩⟩

/-- Two entries of one id, the first of them buildable, do share. -/
theorem not_ownResilience (config : AppConfig) {i j : Fin config.checks.length} (hne : i ≠ j)
    (hid : (config.checks.get i).checkId = (config.checks.get j).checkId)
    (hb : (config.checks.get i).resilience.Buildable) :
    ∃ entryOf is log s, run (Engine.step reg fun t => (config.entry entryOf t).modelDump)
      (start config.executor) is = some (s, log) ∧ ¬config.OwnResilience entryOf s log := by
  have hbuild := (build_modelDump (config.checks.get i).resilience).2 ⟨hb, rfl⟩
  have hfresh : config.executor.resilience = ∅ := rfl
  obtain ⟨s, log, hrun, h₀, h₁⟩ := both_entered reg
    (fun t => (config.entry (fun t => if t = 0 then i else j) t).modelDump) hfresh
    config.executor_semaphore_ne_zero hid hbuild
  exact ⟨_, _, log, s, hrun, fun hown => hown.unshared 0 1 h₀ h₁ hne hid⟩

end Sharing

/-- **Own blocks, exactly.** For every accepted configuration: in every state
that executions of its entries reach, in any order and however they
interleave, each has run under the timeout, the permits and the breaker
parameters of its own entry's block and under no object of another entry, if
and only if the ids are distinct. -/
theorem ownResilience_iff (reg : Registry) (config : AppConfig) :
    (∀ entryOf is log s, run (Engine.step reg fun t => (config.entry entryOf t).modelDump)
      (start config.executor) is = some (s, log) → config.OwnResilience entryOf s log) ↔ config.DistinctIds := by
  constructor
  · intro h i j hne hid
    have hnot : ∀ {i j : Fin config.checks.length}, i ≠ j →
        (config.checks.get i).checkId = (config.checks.get j).checkId →
        ¬(config.checks.get i).resilience.Buildable := by
      intro i j hne hid hb
      obtain ⟨entryOf, is, log, s, hrun, hown⟩ := not_ownResilience reg config hne hid hb
      exact hown (h entryOf is log s hrun)
    exact ⟨hnot hne hid, hnot hne.symm hid.symm⟩
  · intro hd entryOf is log s hrun
    exact ownResilience_of_distinctIds hd hrun

/-- An entry with a timeout of its own. -/
def timedEntry (metricId : String) (seconds : ℚ) (h : PyFloat.lt (.finite 0) (.finite seconds) = true) :
    MetricCheckConfig :=
  { plainCheck metricId with
    resilience := { plainResilience with timeoutSeconds := .finite seconds, timeoutPos := h } }

/-- A slow check copied from a fast one, its id with it. -/
def copiedId : AppConfig := plainConfig (timedEntry "orders" 5 (by decide)) [timedEntry "orders" 60 (by decide)]

/-- Its entries in order, one execution each. -/
def inOrder (t : ℕ) : Fin copiedId.checks.length := if t = 0 then ⟨0, by decide⟩ else ⟨1, by decide⟩

/-- Its second entry runs under the five seconds of the first. -/
theorem copiedId_shares :
    ∃ s log, run (Engine.step .builtin fun t => (copiedId.entry inOrder t).modelDump)
        (start copiedId.executor) [⟨0, ⟨0, 0⟩, .granted⟩, ⟨1, ⟨0, 0⟩, .granted⟩] = some (s, log) ∧
      (copiedId.entry inOrder 1).resilience.timeoutSeconds = .finite 60 ∧
      (s.point 1).frame?.map (·.timeoutSeconds) = some (.finite 5) ∧
      ¬copiedId.OwnResilience inOrder s log := by
  have h : (run (Engine.step .builtin fun t => (copiedId.entry inOrder t).modelDump)
      (start copiedId.executor) [⟨0, ⟨0, 0⟩, .granted⟩, ⟨1, ⟨0, 0⟩, .granted⟩]).any
        (fun p => (p.1.point 1).frame?.map (·.timeoutSeconds) == some (.finite 5)) = true := by decide +kernel
  obtain ⟨⟨s, log⟩, hs, hq⟩ := (Option.any_eq_true _ _).1 h
  simp only [beq_iff_eq, Option.map_eq_some_iff] at hq
  obtain ⟨f, hf, hfive⟩ := hq
  refine ⟨s, log, hs, rfl, by rw [hf]; exact congrArg some hfive, fun hown => ?_⟩
  have htimer := (hown.timer 1 f hf).1
  rw [hfive] at htimer
  revert htimer
  decide

end SentinelFlow
