/-
When failing executions open the breaker of a check: consecutive executions
of one check, under any activity of the others.

An exception that leaves the pipeline reaches the breaker's failure step. A
timeout does not: `wait_for` cancels the call with `CancelledError`, which
`except Exception` lets pass. So of the last `n` failures the timeouts do
not count, and after a probe that timed out the breaker is left half-open.
`opens_iff` says exactly when `n` failures in a row do open it.
-/
import SentinelFlow.Engine.BreakerRuns

namespace SentinelFlow

open Machine Engine
open BreakerCalls (onCall Serial SerialState)

/-! ## Executions one after another -/

/-- An invocation goes on only while no other of its check is under way. -/
def Engine.Consecutive (cfgOf : ℕ → PyDict) (id : String) (s : Engine) (i : Input) : Prop :=
  metricIdOf (cfgOf i.task) = id → i.reply.isGranted = true →
    ∀ t ∈ s.tasks.keys, metricIdOf (cfgOf t) = id → t ≠ i.task → (s.point t).frame?.isNone = true

instance (cfgOf : ℕ → PyDict) (id : String) (s : Engine) (i : Input) :
    Decidable (Consecutive cfgOf id s i) := by
  unfold Consecutive
  infer_instance

theorem Engine.mem_keys_of_running {s : Engine} {t : ℕ} (h : (s.point t).isRunning = true) :
    t ∈ s.tasks.keys := by
  refine mem_keys_of_ne_queued fun hq => ?_
  rw [hq] at h
  cases h

theorem Engine.Consecutive.alone {cfgOf : ℕ → PyDict} {id : String} {s : Engine} {i : Input}
    (h : Consecutive cfgOf id s i) (hid : metricIdOf (cfgOf i.task) = id)
    (hg : i.reply.isGranted = true) {t : ℕ} (ht : metricIdOf (cfgOf t) = id) (hne : t ≠ i.task) :
    (s.point t).isRunning = false := by
  rw [← Bool.not_eq_true]
  intro hrun
  have hnone := h hid hg t (mem_keys_of_running hrun) ht hne
  rw [Point.notRunning_of_frame (Option.isNone_iff_eq_none.1 hnone)] at hrun
  cases hrun

/-- The calls of consecutive executions come one after another. -/
def SerialCalls (id : String) (s : Engine) (log : List Happened) : Prop :=
  ∀ r, s.executor.resilience.lookup id = some r → r.cbEnabled = true →
    Along BreakerCalls.step Serial
      (BreakerCalls.fresh r.circuitBreaker.failureThreshold r.circuitBreaker.resetTimeoutSeconds) (calls id log)

section Serial

variable {reg : Registry} {cfgOf : ℕ → PyDict} {s s' : Engine} {i : Input} {o : Happened}
  {id : String} {log : List Happened}

theorem CallShape.serial {x : Executor} {task : ℕ} {now : Time} {p p' : Point} {reply : Reply}
    {evs : BreakerCalls.Trace} (h : CallShape x id task now p reply p' evs)
    {c c' : BreakerCalls.Calls} {as : List BreakerCalls.Answer}
    (hrun : run BreakerCalls.step c evs = some (c', as)) (hin : task ∈ c.inFlight ↔ p.isRunning = true)
    (halone : reply.isGranted = true → ∀ t ∈ c.inFlight, t = task) :
    Along BreakerCalls.step Serial c evs := by
  have hnil : reply.isGranted = true → p.isRunning = false → c.inFlight = [] := by
    intro hg hp
    refine List.eq_nil_iff_forall_not_mem.2 fun t ht => ?_
    have htask := halone hg t ht
    subst htask
    rw [hin, hp] at ht
    cases ht
  have hend : ∀ (d : BreakerCalls.Calls) (e : PipelineEnd), Serial d (now, e.callEvent task) := by
    intro d e hent
    rw [show (now, e.callEvent task).2.isEnter = false from callEvent_isEnter task e] at hent
    cases hent
  cases h with
  | silent => trivial
  | refused hp _ _ hg | admitted hp _ _ hg =>
    obtain ⟨d, a, as', hs, -, -⟩ := run_cons.1 hrun
    exact (along_cons hs).2 ⟨fun _ => hnil hg hp, trivial⟩
  | endedAtOnce hp _ hg =>
    obtain ⟨d, a, as', hs, hr, -⟩ := run_cons.1 hrun
    obtain ⟨d', a', as'', hs', -, -⟩ := run_cons.1 hr
    exact (along_cons hs).2 ⟨fun _ => hnil hg hp, (along_cons hs').2 ⟨hend _ _, trivial⟩⟩
  | ended =>
    obtain ⟨d, a, as', hs, -, -⟩ := run_cons.1 hrun
    exact (along_cons hs).2 ⟨hend _ _, trivial⟩

theorem SerialCalls.step (h : SerialCalls id s log) (hL : Linked cfgOf id s log)
    (hs : Engine.step reg cfgOf s i = some (s', o)) (hc : Consecutive cfgOf id s i) :
    SerialCalls id s' (log ++ [o]) := by
  obtain ⟨hr, hx, hp', hne, ho, hclk⟩ := step_resumes hs
  intro r' hr' hcb
  by_cases hid : metricIdOf (cfgOf i.task) = id
  · by_cases hq : s.point i.task = .queued
    · rw [hq] at hr
      rw [(arrive_log hs hq id log).1]
      cases hl : s.executor.resilience.lookup id with
      | none =>
        rw [(hL.unbuilt hl).1]
        trivial
      | some r =>
        have hkeep := hr.arrives_lookup (hid ▸ hl)
        rw [← hx, hid, hr'] at hkeep
        cases hkeep
        exact h r' hl hcb
    · obtain ⟨r, hl⟩ := hL.exists_entry hs hid hq
      obtain ⟨r₁, hl₁, hcb₁, -⟩ := Executor.applyAll_entry (hr.notForCheck hq) i.task i.clock.perf hl
      rw [← hx, hr'] at hl₁
      cases hl₁
      have hlink := hL.built r hl (hcb₁ ▸ hcb)
      obtain ⟨r₂, hl₂, -, hth, hre, -⟩ := hlink.own hs hid hq hl
      rw [hr'] at hl₂
      cases hl₂
      obtain ⟨c, as, hrun, hb, hn, hin⟩ := hlink.run
      have hshape := hr.callShape i.task fun f hf => hlink.frames _ f hid hf
      rw [hid] at hshape
      obtain ⟨c', as', hrun', -, -⟩ := hshape.calls_run hl hb hn ((hin i.task).trans (by simp [hid]))
      rw [hth, hre, calls_concat, ho, hclk, along_append hrun]
      refine ⟨h r hl (hcb₁ ▸ hcb), hshape.serial hrun' ((hin i.task).trans (by simp [hid])) fun hg t ht => ?_⟩
      -- No other pipeline of the check runs when this one is let on.
      by_contra hti
      have hrunning := ((hin t).1 ht).2
      rw [hc.alone hid hg ((hin t).1 ht).1 hti] at hrunning
      cases hrunning
  · obtain ⟨hlook, -, hcalls, -⟩ := step_other hs hid log
    rw [hcalls]
    exact h r' (hlook ▸ hr') hcb

end Serial

/-- Between executions, the breaker of a check told from how its executions ended. -/
theorem opened_iff {reg : Registry} {cfgOf : ℕ → PyDict} {x₀ : Executor} (hx : x₀.resilience = ∅) {id : String}
    {is : List Input} {log : List Happened} {s : Engine}
    (h : run (Engine.step reg cfgOf) (start x₀) is = some (s, log))
    (hc : Along (Engine.step reg cfgOf) (Consecutive cfgOf id) (start x₀) is)
    (hidle : ∀ t, metricIdOf (cfgOf t) = id → (s.point t).isRunning = false) {r : CheckResilience}
    (hr : s.executor.resilience.lookup id = some r) (hcb : r.cbEnabled = true)
    (hn : 1 ≤ r.circuitBreaker.failureThreshold) :
    (r.circuitBreaker.state = .opened ↔
      r.circuitBreaker.failureThreshold ≤ throwsSinceReturn (endings cfgOf id log) ∧
        (endings cfgOf id log).getLast?.any (·.2.threw) = true) ∧
    (r.circuitBreaker.state = .opened →
      ∀ last ∈ (endings cfgOf id log).getLast?, r.circuitBreaker.lastFailureTime = last.1) := by
  have hinv : Linked cfgOf id s log ∧ SerialCalls id s log := by
    refine run_induction_along (fun _ log s => Linked cfgOf id s log ∧ SerialCalls id s log) ?_ ?_ hc h
    · refine ⟨linked_start hx id, fun r hr => ?_⟩
      rw [show (start x₀).executor.resilience = ∅ from hx, AList.lookup_empty] at hr
      cases hr
    · exact fun _ _ _ _ _ _ _ hI hP hs => ⟨hI.1.step hs, hI.2.step hI.1 hs hP⟩
  have hlink := hinv.1.built r hr hcb
  obtain ⟨c, as, hrun, hb, -, hin⟩ := hlink.run
  have hagree := BreakerCalls.run_agrees hn hrun
  have hserial := BreakerCalls.run_serial hn (hinv.2 r hr hcb) hrun
  have hnil : c.inFlight = [] := by
    refine List.eq_nil_iff_forall_not_mem.2 fun t ht => ?_
    obtain ⟨ht, hrunning⟩ := (hin t).1 ht
    rw [hidle t ht] at hrunning
    cases hrunning
  have hlast : (BreakerCalls.lastEnd (calls id log)).any (·.2.isFailure) =
      (endings cfgOf id log).getLast?.any (·.2.threw) := by
    have := congrArg (Option.any fun x : Time × Bool => x.2) hlink.tells.last
    simpa [Option.any_map, Function.comp_def] using this
  have hiff := hserial.idle hnil
  rw [hb, hlink.tells.counted, hlast] at hiff
  refine ⟨hiff, fun hop last hl => ?_⟩
  -- The last ending threw, so it is the last failure, which the breaker has the time of.
  have htold := hlink.tells.last
  rw [Option.mem_def.1 hl, Option.map_some] at htold
  obtain ⟨e, he, hel⟩ := Option.map_eq_some_iff.1 htold
  simp only [Prod.mk.injEq] at hel
  have hthrew : last.2.threw = true := by
    have := (hiff.1 hop).2
    rwa [Option.mem_def.1 hl, Option.any_some] at this
  have hfail := BreakerCalls.lastFailure_of_lastEnd he (hel.2.trans hthrew)
  have htime := (hagree.tripped (by rw [hb, hop]; simp)).2.2
  rw [hfail, hb, Option.some.injEq] at htime
  rw [← htime, hel.1]

/-! ## What an open breaker holds back -/

/-- The pipeline of the invocation was started. -/
def Point.started (p : Point) : Bool := p.isRunning || p.ending?.isSome

/-- Whatever happens within the window, no pipeline of the check is started. -/
def Engine.Blocks (reg : Registry) (cfgOf : ℕ → PyDict) (id : String) (since : Time)
    (window : PyFloat) (s : Engine) : Prop :=
  ∀ is s' log, run (Engine.step reg cfgOf) s is = some (s', log) →
    (∀ i ∈ is, PyFloat.le (.finite (i.clock.perf - since)) window = true) →
    ∀ o ∈ log, metricIdOf (cfgOf o.task) = id → o.point.started = false

/-- The breaker of the check is `OPEN` since then, and no pipeline of it runs. -/
structure Barred (cfgOf : ℕ → PyDict) (id : String) (since : Time) (window : PyFloat) (s : Engine) : Prop where
  entry : ∃ r, s.executor.resilience.lookup id = some r ∧ r.cbEnabled = true ∧
    r.circuitBreaker.state = .opened ∧ r.circuitBreaker.lastFailureTime = since ∧
    r.circuitBreaker.resetTimeoutSeconds = window
  frames : ∀ t f, metricIdOf (cfgOf t) = id → (s.point t).frame? = some f → f.cbEnabled = true
  idle : ∀ t, metricIdOf (cfgOf t) = id → (s.point t).isRunning = false

theorem PyFloat.lt_eq_false_of_le {a b : PyFloat} (h : a.le b = true) : b.lt a = false := by
  cases a <;> cases b <;> first | rfl | cases h | skip
  rw [PyFloat.le_finite, decide_eq_true_eq] at h
  rw [PyFloat.lt_finite, decide_eq_false_iff_not, not_lt]
  exact h

section Barred

variable {reg : Registry} {cfgOf : ℕ → PyDict} {s s' : Engine} {i : Input} {o : Happened}
  {id : String} {since : Time} {window : PyFloat}

/-- Within the window an attempt of the check changes nothing and starts nothing. -/
theorem CallShape.barred {x : Executor} {task : ℕ} {now : Time} {p p' : Point} {reply : Reply}
    {evs : BreakerCalls.Trace} (h : CallShape x id task now p reply p' evs) {r : CheckResilience}
    (hl : x.resilience.lookup id = some r) (hop : r.circuitBreaker.state = .opened)
    (hw : PyFloat.le (.finite (now - r.circuitBreaker.lastFailureTime))
      r.circuitBreaker.resetTimeoutSeconds = true) (hp : p.isRunning = false) :
    p'.started = false ∧ evs.foldl onCall r.circuitBreaker = r.circuitBreaker := by
  have hshut : ∀ b, r.circuitBreaker.callEnter now ≠ .ok b := by
    intro b hb
    rcases CircuitBreaker.callEnter_ok hb with ⟨hne, -⟩ | ⟨-, hlt, -⟩
    · exact hne hop
    · rw [PyFloat.lt_eq_false_of_le hw] at hlt
      cases hlt
  cases h with
  | silent hrun he => exact ⟨by rw [Point.started, hrun, hp, he]; rfl, rfl⟩
  | refused _ hp' he _ hl' herr =>
    rw [hl] at hl'
    cases hl'
    exact ⟨by rw [Point.started, hp', he]; rfl, by simp [onCall, herr, Except.toOption]⟩
  | admitted _ _ _ _ hl' hb | endedAtOnce _ _ _ hl' hb =>
    rw [hl] at hl'
    cases hl'
    exact absurd hb (hshut _)
  | ended hrun =>
    rw [hp] at hrun
    cases hrun

theorem Point.notRunning_of_started {p : Point} (h : p.started = false) : p.isRunning = false := by
  unfold Point.started at h
  rw [Bool.or_eq_false_iff] at h
  exact h.1

theorem Barred.step (h : Barred cfgOf id since window s) (hs : Engine.step reg cfgOf s i = some (s', o))
    (hw : PyFloat.le (.finite (i.clock.perf - since)) window = true) :
    Barred cfgOf id since window s' ∧ (metricIdOf (cfgOf o.task) = id → o.point.started = false) := by
  obtain ⟨hr, hx, hp', hne, ho, hc⟩ := step_resumes hs
  obtain ⟨r, hl, hcb, hop, hsince, hwin⟩ := h.entry
  by_cases hid : metricIdOf (cfgOf i.task) = id
  · -- What is left to show, from the task's new point and the check's object.
    have hown : ∀ r', s'.executor.resilience.lookup id = some r' → r'.cbEnabled = r.cbEnabled →
        r'.circuitBreaker = r.circuitBreaker → o.point.started = false →
        (∀ f, o.point.frame? = some f → f.cbEnabled = true) →
        Barred cfgOf id since window s' ∧ (metricIdOf (cfgOf o.task) = id → o.point.started = false) := by
      intro r' hl' hcb' hb' hst hf
      have hframes := forall_point hs
        (P := fun t p => ∀ f, metricIdOf (cfgOf t) = id → p.frame? = some f → f.cbEnabled = true)
        (fun f _ => hf f) fun t _ f ht => h.frames t f ht
      have hidle := forall_point hs (P := fun t p => metricIdOf (cfgOf t) = id → p.isRunning = false)
        (fun _ => Point.notRunning_of_started hst) fun t _ => h.idle t
      exact ⟨⟨⟨r', hl', hcb'.trans hcb, hb' ▸ hop, hb' ▸ hsince, hb' ▸ hwin⟩,
        fun t f => hframes t f, hidle⟩, fun _ => hst⟩
    by_cases hq : s.point i.task = .queued
    · rw [hq] at hr
      obtain ⟨-, hrun, hend⟩ := hr.arrives id o.task o.clock.perf
      have hkeep := hr.arrives_lookup (hid ▸ hl)
      rw [← hx, hid] at hkeep
      refine hown r hkeep rfl rfl (by rw [Point.started, hrun, hend]; rfl) fun f hf => ?_
      rw [hr.arrives_frame (hid ▸ hl) f hf, hcb]
    · have hshape := hr.callShape i.task fun f hf => h.frames _ f hid hf
      rw [hid] at hshape
      obtain ⟨hst, hfold⟩ := hshape.barred hl hop (by rw [hsince, hwin]; exact hw) (h.idle _ hid)
      obtain ⟨r', hl', hcb', hb'⟩ := Executor.applyAll_entry (hr.notForCheck hq) i.task i.clock.perf hl
      rw [← hx] at hl'
      refine hown r' hl' hcb' (hb'.trans hfold) hst fun f hf => ?_
      rcases hr.frame hq with hnone | hsame
      · rw [hnone] at hf
        cases hf
      · exact h.frames _ f hid (hsame ▸ hf)
  · obtain ⟨hlook, hpoint, -⟩ := step_other hs hid []
    refine ⟨⟨⟨r, hlook ▸ hl, hcb, hop, hsince, hwin⟩,
      fun t f ht hf => h.frames t f ht (hpoint t ht ▸ hf), fun t ht => ?_⟩,
      fun h' => absurd (ho ▸ h') hid⟩
    rw [hpoint t ht]
    exact h.idle t ht

theorem Barred.blocks (h : Barred cfgOf id since window s) : s.Blocks reg cfgOf id since window := by
  intro is
  induction is generalizing s with
  | nil =>
    intro s' log hrun _ o ho
    simp only [run_nil, Option.some.injEq, Prod.mk.injEq] at hrun
    rw [← hrun.2] at ho
    cases ho
  | cons i is ih =>
    intro s' log hrun hw o ho hid
    obtain ⟨t, o', log', hs, hr, rfl⟩ := run_cons.1 hrun
    obtain ⟨hb, hst⟩ := h.step hs (hw i (by simp))
    rcases List.mem_cons.1 ho with rfl | ho
    · exact hst hid
    · exact ih hb s' log' hr (fun j hj => hw j (by simp [hj])) o ho hid

end Barred

/-! ## Failures in a row -/

/-- How the execution an invocation ended with went; `none` when its time
ran out before its pipeline was started. An attempt the breaker refuses is
no execution. -/
def Point.execution? : Point → Option (Option PipelineEnd)
  | .finished (some e) _ => some (some e)
  | .finished none (.ok ()) => some none
  | _ => none

def executions (cfgOf : ℕ → PyDict) (id : String) (log : List Happened) : List (Option PipelineEnd) :=
  log.filterMap fun o => if metricIdOf (cfgOf o.task) = id then o.point.execution? else none

/-- The execution ended in an exception or ran out of time. -/
def executionFailed : Option PipelineEnd → Bool
  | none => true
  | some e => e.threw || e == .cut true

/-- The last `n` executions failed. -/
def failedInARow (n : ℕ) (xs : List (Option PipelineEnd)) : Bool :=
  decide (n ≤ xs.length) && (xs.drop (xs.length - n)).all executionFailed

/-- The breaker of the check is `OPEN`, and no attempt within its reset
timeout of the last execution starts the pipeline. -/
def Engine.Tripped (reg : Registry) (cfgOf : ℕ → PyDict) (id : String) (log : List Happened) (s : Engine)
    (r : CheckResilience) : Prop :=
  r.circuitBreaker.state = .opened ∧
    ∀ last ∈ (endings cfgOf id log).getLast?,
      s.Blocks reg cfgOf id last.1 r.circuitBreaker.resetTimeoutSeconds

/-- **When failures in a row open the breaker.** Between consecutive
executions of a check, after `n` failures in a row, the breaker is `OPEN`
and holds attempts back if and only if the last execution ended in an
exception and at least `n` have done so since the last one that returned. -/
theorem opens_iff {reg : Registry} {cfgOf : ℕ → PyDict} {x₀ : Executor} (hx : x₀.resilience = ∅) {id : String}
    {is : List Input} {log : List Happened} {s : Engine}
    (h : run (Engine.step reg cfgOf) (start x₀) is = some (s, log))
    (hc : Along (Engine.step reg cfgOf) (Consecutive cfgOf id) (start x₀) is)
    (hidle : ∀ t, metricIdOf (cfgOf t) = id → (s.point t).isRunning = false) {r : CheckResilience}
    (hr : s.executor.resilience.lookup id = some r) (hcb : r.cbEnabled = true) {n : ℕ} (hn : 1 ≤ n)
    (hthr : r.circuitBreaker.failureThreshold = n) :
    (failedInARow n (executions cfgOf id log) = true → s.Tripped reg cfgOf id log r) ↔
      (failedInARow n (executions cfgOf id log) = true →
        (endings cfgOf id log).getLast?.any (·.2.threw) = true ∧
          n ≤ throwsSinceReturn (endings cfgOf id log)) := by
  obtain ⟨hiff, htime⟩ := opened_iff hx h hc hidle hr hcb (by omega)
  rw [hthr, Nat.cast_le] at hiff
  refine imp_congr_right fun _ => ⟨fun ht => (hiff.1 ht.1).symm, fun ht => ?_⟩
  have hop := hiff.2 ht.symm
  refine ⟨hop, fun last hl => ?_⟩
  have hbarred : Barred cfgOf id last.1 r.circuitBreaker.resetTimeoutSeconds s :=
    ⟨⟨r, hr, hcb, hop, htime hop last hl, rfl⟩, ((linked_run hx id h).built r hr hcb).frames, hidle⟩
  exact hbarred.blocks

/-- What a decided run is checked for: one failure, and nothing running. -/
def afterOneFailure (p : Engine × List Happened) : Bool :=
  p.1.tasks.keys.all (fun t => !(p.1.point t).isRunning) &&
    failedInARow 1 (executions fragileCheck "m" p.2) &&
    (p.1.executor.resilience.lookup "m").any fun r => r.cbEnabled && r.circuitBreaker.failureThreshold == 1

theorem afterOneFailure_idle {s : Engine} {log : List Happened} (h : afterOneFailure (s, log) = true) (t : ℕ) :
    (s.point t).isRunning = false := by
  simp only [afterOneFailure, Bool.and_eq_true, List.all_eq_true, Bool.not_eq_true'] at h
  rw [← Bool.not_eq_true]
  intro hrun
  rw [h.1.1 t (mem_keys_of_running hrun)] at hrun
  cases hrun

/-- An execution that fails with an exception opens a breaker of threshold 1. -/
theorem opens_iff_failedFetch :
    ∃ s log r, run (Engine.step .builtin fragileCheck) (start { semaphore := 1 })
        (fetchRun (.error (valueError "no route"))) = some (s, log) ∧
      s.executor.resilience.lookup "m" = some r ∧ s.Tripped .builtin fragileCheck "m" log r := by
  have h : (run (Engine.step .builtin fragileCheck) (start { semaphore := 1 })
      (fetchRun (.error (valueError "no route")))).any (fun p => afterOneFailure p &&
        ((endings fragileCheck "m" p.2).getLast?.any (·.2.threw) &&
          decide (1 ≤ throwsSinceReturn (endings fragileCheck "m" p.2)))) = true := by decide +kernel
  obtain ⟨⟨s, log⟩, hs, hq⟩ := (Option.any_eq_true _ _).1 h
  simp only [Bool.and_eq_true, decide_eq_true_eq] at hq
  obtain ⟨hone, hends⟩ := hq
  have hidle := afterOneFailure_idle hone
  simp only [afterOneFailure, Bool.and_eq_true, Option.any_eq_true, beq_iff_eq] at hone
  obtain ⟨⟨-, hrow⟩, r, hr, hcb, hthr⟩ := hone
  have hc : Along (Engine.step .builtin fragileCheck) (Consecutive fragileCheck "m") (start { semaphore := 1 })
      (fetchRun (.error (valueError "no route"))) := by decide +kernel
  exact ⟨s, log, r, hs, hr,
    (opens_iff rfl hs hc (fun t _ => hidle t) hr hcb le_rfl hthr).2 (fun _ => hends) hrow⟩

/-- One invocation whose time is up while it fetches. -/
def slowRun : List Input :=
  [⟨0, ⟨0, 0⟩, .granted⟩, ⟨0, ⟨0, 0⟩, .granted⟩, ⟨0, ⟨15, 15⟩, .timeout []⟩]

/-- An execution that runs out of time does not. -/
theorem not_tripped_slowRun :
    ∃ s log r, run (Engine.step .builtin fragileCheck) (start { semaphore := 1 }) slowRun = some (s, log) ∧
      Along (Engine.step .builtin fragileCheck) (Consecutive fragileCheck "m")
        (start { semaphore := 1 }) slowRun ∧
      (∀ t, (s.point t).isRunning = false) ∧ s.executor.resilience.lookup "m" = some r ∧
      r.cbEnabled = true ∧ r.circuitBreaker.failureThreshold = 1 ∧
      failedInARow 1 (executions fragileCheck "m" log) = true ∧
      ¬ s.Tripped .builtin fragileCheck "m" log r := by
  have h : (run (Engine.step .builtin fragileCheck) (start { semaphore := 1 }) slowRun).any
      (fun p => afterOneFailure p &&
        !(p.1.executor.resilience.lookup "m").any fun r => r.circuitBreaker.state == .opened) = true := by
    decide +kernel
  obtain ⟨⟨s, log⟩, hs, hq⟩ := (Option.any_eq_true _ _).1 h
  rw [Bool.and_eq_true, Bool.not_eq_true'] at hq
  obtain ⟨hone, hclosed⟩ := hq
  have hidle := afterOneFailure_idle hone
  simp only [afterOneFailure, Bool.and_eq_true, Option.any_eq_true, beq_iff_eq] at hone
  obtain ⟨⟨-, hrow⟩, r, hr, hcb, hthr⟩ := hone
  refine ⟨s, log, r, hs, by decide +kernel, hidle, hr, hcb, hthr, hrow, fun ht => ?_⟩
  simp [hr, ht.1] at hclosed

end SentinelFlow
