/-
An exception inside a started pipeline, and whether the execution counts as
a failure everywhere: in the check counter, in the history, in what leaves
`run_pipeline`, and at the breaker.

The clause for an open circuit stands inside `run_pipeline`, where the
breaker's own exception never arrives (it is raised around the pipeline).
What it does catch is any other exception whose class name or text quotes
one. That is counted as skipped and not raised again. An exception whose text
or `error_code` cannot be read is counted by no clause at all.
-/
import SentinelFlow.Engine.Counters

namespace SentinelFlow

open Machine Engine

/-! ## The step that ends a pipeline -/

/-- Every pipeline leaves through the same layers, and the step that ends it
did nothing before but the pipeline's start and a part of its body. -/
theorem Resumes.leaves {reg : Registry} {x : Executor} {cfg : PyDict} {clk : Clock} {p p' : Point} {reply : Reply}
    {es : List Effect} {e : PipelineEnd} (h : Resumes reg x cfg clk p reply p' es) (he : p'.ending? = some e) :
    ∃ f st pre bs, p.frame? = some f ∧ es = pre ++ bs ++ (leave f (metricIdOf cfg) st clk.perf e).2 ∧
      (pre = [] ∨ pre = startEffects f.cbEnabled (metricIdOf cfg) clk.perf) ∧
      ∀ ev ∈ bs, ev.OfBody (metricIdOf cfg) := by
  cases h with
  | refused | entered | cancelledQueued | cancelledWaiting | timedOutWaiting | rejected => cases he
  | @started f =>
    cases hb : (startBody reg cfg).1 with
    | paused q => rw [hb] at he; cases he
    | ended e' =>
      rw [hb] at he
      cases he
      exact ⟨f, clk.perf, _, _, rfl, (List.append_assoc ..).symm, .inr rfl, ofBody_startBody⟩
  | @body f st q reply prog bs hb =>
    cases prog with
    | paused q' => cases he
    | ended e' =>
      cases he
      exact ⟨f, st, [], bs, rfl, rfl, .inl rfl, ofBody_resumeBody hb⟩
  | @timedOut f st | @cancelled f st =>
    cases he
    exact ⟨f, st, [], _, rfl, rfl, .inl rfl, ofBody_dispatched⟩

/-! ## The check counter -/

namespace Executor

theorem apply_checksTotal (x : Executor) (e : Effect) (id : String) (status : CheckStatus) :
    (x.apply e).metrics.checksTotal id status =
      x.metrics.checksTotal id status + (statuses [e]).count (id, status) := by
  cases e with
  | incCheck i st =>
    by_cases hi : id = i ∧ status = st
    · obtain ⟨rfl, rfl⟩ := hi
      simp [apply, Metrics.incCheck, statuses, Effect.status?]
    · have hne : (i, st) ≠ (id, status) := fun h => hi ⟨(congrArg Prod.fst h).symm, (congrArg Prod.snd h).symm⟩
      simp [apply, Metrics.incCheck, statuses, Effect.status?, hi, hne]
  | forCheck i cfg =>
    simp only [apply]
    split <;> rfl
  | acquireInflight | releaseInflight | callEnter | callExcept | callElse =>
    simp only [apply, onBreaker, onCheck_metrics]
    rfl
  | _ => rfl

theorem applyAll_checksTotal (es : List Effect) (id : String) (status : CheckStatus) :
    ∀ x : Executor, (x.applyAll es).metrics.checksTotal id status =
      x.metrics.checksTotal id status + (statuses es).count (id, status) := by
  induction es with
  | nil => exact fun x => rfl
  | cons e es ih =>
    intro x
    have hsplit : statuses (e :: es) = statuses [e] ++ statuses es := statuses_append [e] es
    rw [hsplit, List.count_append, ← add_assoc, ← apply_checksTotal]
    exact ih (x.apply e)

end Executor

/-! ## What counts as a failure -/

/-- The execution that ended in this step, with this exception, counts as a
failure everywhere. -/
structure CountsAsFailure (id : String) (e : Exc) (s s' : Engine) (o : Happened) : Prop where
  counted : s'.executor.metrics.checksTotal id .failed = s.executor.metrics.checksTotal id .failed + 1
  recorded : (id, false) ∈ records o.effects ∧ (id, true) ∉ records o.effects
  /-- What leaves `run_pipeline`, for the breaker around it to see. -/
  reraised : ∀ d, (closeBody id d (.raised e)).1 = .error (.exception e)
  failureStep : ∀ f, (s.point o.task).frame? = some f → f.cbEnabled = true →
    .callExcept id o.clock.perf ∈ o.effects
  noSuccessStep : .callElse id ∉ o.effects

section Leave

variable {id : String} {f : Frame} {st now : Time} {e : Exc}

/-- How the layers are left by an exception that can be read and passes for no
open circuit: a `TimeoutError` of the pipeline's own is counted once more,
around `wait_for`. -/
theorem leave_raised (hco : isCircuitOpen e = false) (hu : e.unread? = none) :
    (leave f id st now (.raised e)).2 =
      [Effect.addResult id false ((now - st) * 1000), Effect.incCheck id .failed] ++ [Effect.inflightDec id] ++
        (if f.cbEnabled then [Effect.callExcept id now] else []) ++ [Effect.releaseInflight id] ++
        (if e.isInstance .timeoutError then
          [Effect.addResult id false ((now - f.startOuter) * 1000), Effect.incCheck id .timeout] else []) ++
        [Effect.release] := by
  have hclose : ∀ d, closeBody id d (.raised e) =
      (.error (.exception e), [.addResult id false d, .incCheck id .failed]) := by
    intro d
    simp [closeBody, hco, hu]
  have houter : ∀ d, (exceptTimeout id d (.error (.exception e))).2 =
      if e.isInstance .timeoutError then [.addResult id false d, .incCheck id .timeout] else [] := by
    intro d
    unfold exceptTimeout
    dsimp only
    split <;> rfl
  simp only [leave, hclose, waitFor, exitCall, houter]

/-- Only the last `except` of `run_pipeline` counts a check as failed. -/
theorem statuses_leave_raised : (statuses (leave f id st now (.raised e)).2).count (id, .failed) =
    if isCircuitOpen e = false ∧ e.unread? = none then 1 else 0 := by
  have hcall : ∀ r, statuses (exitCall f.cbEnabled id now r) = [] := by
    intro r
    unfold exitCall
    split
    case h_3 => rfl
    all_goals split <;> rfl
  have houter : ∀ d r, (statuses (exceptTimeout id d r).2).count (id, .failed) = 0 := by
    intro d r
    unfold exceptTimeout
    split
    · split <;> simp [statuses, List.filterMap_cons, Effect.status?]
    · rfl
  simp only [leave, statuses_append, List.count_append, hcall, houter]
  rcases closeBody_raised id ((now - st) * 1000) e with ⟨hco, hu, hb⟩ | ⟨hco, hu, hb⟩ | ⟨e', hco, hu, hb⟩ <;>
    rw [hb] <;> simp [hco, hu, statuses, List.filterMap_cons, Effect.status?]

theorem record_mem_leave_raised (hco : isCircuitOpen e = false) (hu : e.unread? = none) :
    (id, false) ∈ records (leave f id st now (.raised e)).2 ∧
      (id, true) ∉ records (leave f id st now (.raised e)).2 := by
  rw [leave_raised hco hu]
  cases f.cbEnabled <;> cases e.isInstance .timeoutError <;>
    simp [records, List.filterMap_cons, Effect.record?]

theorem callExcept_mem_leave_raised (hco : isCircuitOpen e = false) (hu : e.unread? = none)
    (hcb : f.cbEnabled = true) : .callExcept id now ∈ (leave f id st now (.raised e)).2 := by
  rw [leave_raised hco hu, hcb]
  simp

theorem callElse_notMem_leave_raised (hco : isCircuitOpen e = false) (hu : e.unread? = none) :
    .callElse id ∉ (leave f id st now (.raised e)).2 := by
  rw [leave_raised hco hu]
  cases f.cbEnabled <;> cases e.isInstance .timeoutError <;> simp

end Leave

/-- A pipeline's start, and a part of its body, report no failure and are no
step of the breaker after the call. -/
theorem silent_before {id : String} {cb : Bool} {now : Time} {pre bs : List Effect}
    (hpre : pre = [] ∨ pre = startEffects cb id now) (hbs : ∀ ev ∈ bs, ev.OfBody id) :
    (statuses (pre ++ bs)).count (id, .failed) = 0 ∧ records (pre ++ bs) = [] ∧ .callElse id ∉ pre ++ bs := by
  rw [statuses_append, statuses_ofBody hbs, records_append, records_ofBody hbs, List.append_nil, List.append_nil,
    List.mem_append, not_or]
  have helse : .callElse id ∉ bs := fun hmem => hbs _ hmem
  rcases hpre with rfl | rfl
  · exact ⟨rfl, rfl, by simp, helse⟩
  · cases cb <;> simp [startEffects, statuses, records, List.filterMap_cons, Effect.status?, Effect.record?, helse]

section Steps

variable {reg : Registry} {cfgOf : ℕ → PyDict} {s s' : Engine} {i : Input} {o : Happened} {e : Exc}

/-- What the step that ends a pipeline with an exception adds to the check's counter of failures. -/
theorem checksTotal_failed (h : step reg cfgOf s i = some (s', o)) (he : o.point.ending? = some (.raised e)) :
    s'.executor.metrics.checksTotal (metricIdOf (cfgOf i.task)) .failed =
      s.executor.metrics.checksTotal (metricIdOf (cfgOf i.task)) .failed +
        if isCircuitOpen e = false ∧ e.unread? = none then 1 else 0 := by
  obtain ⟨hr, hx, -, -, -, -⟩ := step_resumes h
  obtain ⟨f, st, pre, bs, -, hes, hpre, hbs⟩ := hr.leaves he
  rw [hx, Executor.applyAll_checksTotal, hes, statuses_append, List.count_append, (silent_before hpre hbs).1,
    statuses_leave_raised, zero_add]

theorem countsAsFailure_of (h : step reg cfgOf s i = some (s', o)) (he : o.point.ending? = some (.raised e))
    (hco : isCircuitOpen e = false) (hu : e.unread? = none) :
    CountsAsFailure (metricIdOf (cfgOf i.task)) e s s' o := by
  obtain ⟨hr, -, -, -, ho, hclk⟩ := step_resumes h
  obtain ⟨f, st, pre, bs, hf, hes, hpre, hbs⟩ := hr.leaves he
  obtain ⟨-, hrecord, helse⟩ := silent_before hpre hbs
  constructor
  · rw [checksTotal_failed h he, if_pos ⟨hco, hu⟩]
  · rw [hes, records_append, hrecord, List.nil_append]
    exact record_mem_leave_raised hco hu
  · intro d
    simp [closeBody, hco, hu]
  · intro f' hf' hcb
    rw [ho] at hf'
    cases hf.symm.trans hf'
    rw [hes, hclk]
    exact List.mem_append_right _ (callExcept_mem_leave_raised hco hu hcb)
  · rw [hes, List.mem_append, not_or]
    exact ⟨helse, callElse_notMem_leave_raised hco hu⟩

/-- Of any other exception the counter of failures is not told. -/
theorem not_countsAsFailure (h : step reg cfgOf s i = some (s', o)) (he : o.point.ending? = some (.raised e))
    (hnot : ¬(isCircuitOpen e = false ∧ e.unread? = none)) :
    ¬CountsAsFailure (metricIdOf (cfgOf i.task)) e s s' o := by
  intro hc
  have hcount := hc.counted
  rw [checksTotal_failed h he, if_neg hnot] at hcount
  omega

/-- **What counts as a failure.** An exception that ends a pipeline counts as
a failure everywhere, if and only if neither its class nor its text passes
for an open circuit, and its text and its `error_code` can be read. -/
theorem counts_as_failure_iff (h : step reg cfgOf s i = some (s', o)) (he : o.point.ending? = some (.raised e)) :
    CountsAsFailure (metricIdOf (cfgOf i.task)) e s s' o ↔ isCircuitOpen e = false ∧ e.unread? = none := by
  refine ⟨fun hc => ?_, fun ⟨hco, hu⟩ => countsAsFailure_of h he hco hu⟩
  by_contra hnot
  exact not_countsAsFailure h he hnot hc

end Steps

/-- A fetch that raises ends the pipeline. -/
theorem fetching_raises {reg : Registry} {cfgOf : ℕ → PyDict} {s : Engine} {t : ℕ} {clk : Clock} {f : Frame}
    {startTime : Time} (e : Exc) (h : s.point t = .running f startTime .fetching) :
    ∃ s' o, step reg cfgOf s ⟨t, clk, .fetched (.error e)⟩ = some (s', o) ∧
      o.point.ending? = some (.raised e) := by
  have hr : resume (s.registry reg) s.executor (cfgOf t) clk (s.point t) (.fetched (.error e)) =
      some (leave f (metricIdOf (cfgOf t)) startTime clk.perf (.raised e)) := by
    rw [h]
    rfl
  exact ⟨_, _, step_of_resume hr, rfl⟩

/-- The only check there is fetches. -/
theorem fetchRun_fetching (r : Except Exc MetricPayload) : ∃ s log f startTime,
    run (step .builtin fun _ => exampleCheck "m" []) (start { semaphore := 1 }) ((fetchRun r).take 2) =
      some (s, log) ∧ s.point 0 = .running f startTime .fetching :=
  ⟨_, _, _, _, rfl, rfl⟩

/-- A fetch that finds no route counts as a failure. -/
theorem counts_as_failure_iff_noRoute : ∃ s s' o,
    step .builtin (fun _ => exampleCheck "m" []) s ⟨0, ⟨1, 1⟩, .fetched (.error (valueError "no route"))⟩ =
      some (s', o) ∧ CountsAsFailure "m" (valueError "no route") s s' o := by
  obtain ⟨s, -, f, startTime, -, hp⟩ := fetchRun_fetching (.error (valueError "no route"))
  obtain ⟨s', o, hs, he⟩ := fetching_raises (valueError "no route") hp
  exact ⟨s, s', o, hs, (counts_as_failure_iff hs he).2 (by decide)⟩

/-- What `fetch` raises on an answer 503 whose reason phrase quotes a breaker. -/
def quotingError : Exc :=
  ingestionError "Network error during ingestion: 503, message='Circuit is OPEN', url='http://x/'" true

/-- An answer that quotes a breaker is no failure. -/
theorem not_counted_of_quoting : ∃ s log s' o,
    run (step .builtin fun _ => exampleCheck "m" []) (start { semaphore := 1 })
      ((fetchRun (.error quotingError)).take 2) = some (s, log) ∧
    step .builtin (fun _ => exampleCheck "m" []) s ⟨0, ⟨1, 1⟩, .fetched (.error quotingError)⟩ = some (s', o) ∧
    o.point.ending? = some (.raised quotingError) ∧ ¬CountsAsFailure "m" quotingError s s' o := by
  obtain ⟨s, log, f, startTime, hr, hp⟩ := fetchRun_fetching (.error quotingError)
  obtain ⟨s', o, hs, he⟩ := fetching_raises quotingError hp
  exact ⟨s, log, s', o, hr, hs, he, not_countsAsFailure hs he (by decide +kernel)⟩

end SentinelFlow
