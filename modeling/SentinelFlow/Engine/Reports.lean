/-
What an invocation reports: the records it appends to the history of its
check, and the statuses it counts.

Each exit of the pipeline is written down once, inside, but for two. A
`TimeoutError` raised in the pipeline is recorded and re-raised by its
`except` clause, and recorded again by the clause around `wait_for`. An
exception that cannot be read is recorded by neither, unless what reading it
raises is such a `TimeoutError`. An invocation the open breaker refuses
never enters the pipeline, so the clause that counts it as skipped never
sees it.
-/
import SentinelFlow.Engine.Raises

namespace SentinelFlow

open Machine Engine

/-! ## The records of an exit -/

/-- The pipeline completed: the check passed or alerted. -/
def PipelineEnd.completed : PipelineEnd → Bool
  | .passed | .alerted => true
  | _ => false

/-- An exception that is recorded once. One that can be read is recorded
inside, and outside if it leaves as a `TimeoutError`; of one that cannot be
read only what takes its place can be recorded, outside. -/
def Exc.recordedOnce (e : Exc) : Bool :=
  match e.unread? with
  | some e' => e'.isInstance .timeoutError
  | none => isCircuitOpen e || !e.isInstance .timeoutError

def PipelineEnd.recordedOnce : PipelineEnd → Bool
  | .raised e => e.recordedOnce
  | _ => true

theorem Exc.IsOwn.recordedOnce {e : Exc} (h : e.IsOwn) : e.recordedOnce = true := by
  rw [Exc.recordedOnce, h.1, h.2]
  simp

theorem records_exitCall {cb : Bool} {id : String} {now : Time} {r : Except Raised Unit} :
    records (exitCall cb id now r) = [] := by
  unfold exitCall
  split
  case h_3 => rfl
  all_goals split <;> rfl

/-- The clause around `wait_for` records a `TimeoutError`, and nothing else. -/
theorem records_exceptTimeout {id : String} {d : Time} {e : Exc} :
    records (exceptTimeout id d (.error (.exception e))).2 =
      if e.isInstance .timeoutError then [(id, false)] else [] := by
  unfold exceptTimeout
  dsimp only
  split <;> rfl

theorem records_leave_raised {f : Frame} {id : String} {st now : Time} {e : Exc} :
    records (leave f id st now (.raised e)).2 = [(id, false)] ↔ e.recordedOnce = true := by
  simp only [leave, records_append, records_exitCall, waitFor, Exc.recordedOnce]
  rcases closeBody_raised id ((now - st) * 1000) e with ⟨hco, hu, hb⟩ | ⟨hco, hu, hb⟩ | ⟨e', -, hu, hb⟩ <;>
    rw [hb, hu]
  · simp [hco, exceptTimeout, records, List.filterMap_cons, Effect.record?]
  · rw [hco, records_exceptTimeout]
    cases e.isInstance .timeoutError <;> simp [records, List.filterMap_cons, Effect.record?]
  · show _ ↔ e'.isInstance .timeoutError = true
    rw [records_exceptTimeout]
    cases e'.isInstance .timeoutError <;> simp [records, List.filterMap_cons, Effect.record?]

theorem records_leave {f : Frame} {id : String} {st now : Time} {e : PipelineEnd} (hc : e ≠ .cut false) :
    records (leave f id st now e).2 = [(id, e.completed)] ↔ e.recordedOnce = true := by
  cases e with
  | raised e => exact records_leave_raised
  | passed | alerted =>
    refine iff_of_true ?_ rfl
    simp only [leave, records_append, records_exitCall]
    rfl
  | cut byTimer => cases byTimer with
    | true =>
      refine iff_of_true ?_ rfl
      simp only [leave, records_append, records_exitCall]
      rfl
    | false => exact absurd rfl hc

/-! ## One record for one execution -/

/-- What a task has recorded by the time it stands at a point. -/
def Accounted (id : String) (es : List Effect) : Point → Prop
  | .finished none _ => True
  | .finished (some e) _ => e ≠ .cut false → (records es = [(id, e.completed)] ↔ e.recordedOnce = true)
  | _ => records es = []

theorem Accounted.settle {id : String} {es es' : List Effect} {f : Frame} {st now : Time} {prog : Progress}
    (hes : records es = []) (hes' : records es' = []) :
    Accounted id (es ++ (es' ++ (settle f id st now prog).2)) (settle f id st now prog).1 := by
  cases prog with
  | paused p => simp [SentinelFlow.settle, Accounted, hes, hes']
  | ended e =>
    intro hc
    simp only [SentinelFlow.settle, records_append, hes, hes', List.nil_append]
    exact records_leave hc

theorem accounted_run {reg : Registry} {cfgOf : ℕ → PyDict} {x₀ : Executor} {task : ℕ} {is : List Input}
    {log : List Happened} {s : Engine} (h : run (step reg cfgOf) (start x₀) is = some (s, log)) :
    Accounted (metricIdOf (cfgOf task)) (effectsOf task log) (s.point task) := by
  refine task_run (fun _ es p => Accounted (metricIdOf (cfgOf task)) es p) rfl ?_ h
  intro ins es p ⟨t, clk, reply⟩ now x p' es' ht _ hI hr
  dsimp only at ht hr
  subst ht
  cases hr with
  | refused | cancelledQueued | cancelledWaiting | timedOutWaiting | rejected => trivial
  | entered =>
    show records (es ++ _) = []
    rw [records_append, show records es = [] from hI]
    rfl
  | @started f =>
    have hnone : records (startEffects f.cbEnabled (metricIdOf (cfgOf t)) clk.perf) = [] := by
      unfold startEffects
      split <;> rfl
    rw [← List.append_assoc (startEffects ..)]
    refine Accounted.settle hI ?_
    rw [records_append, hnone, records_ofBody ofBody_startBody]
    rfl
  | body hb => exact Accounted.settle hI (records_ofBody (ofBody_resumeBody hb))
  | timedOut =>
    exact @Accounted.settle _ _ _ _ _ _ (.ended (.cut true)) hI (records_ofBody ofBody_dispatched)
  | cancelled => exact fun hc => absurd rfl hc

/-- **One record for one execution.** An invocation whose pipeline was
started, and which was not cancelled from outside, appends exactly one
record, successful exactly when the pipeline completed, if and only if every
exception raised to it is recorded once: by its ingestor, an evaluator, the
description of a handler's exception, or a class of the registry. -/
theorem one_record_iff {reg : Registry} {cfgOf : ℕ → PyDict} {x₀ : Executor} {task : ℕ} {is : List Input}
    {log : List Happened} {s : Engine} {e : PipelineEnd}
    (h : run (step reg cfgOf) (start x₀) is = some (s, log)) (hp : (s.point task).ending? = some e)
    (hc : e ≠ .cut false) :
    records (effectsOf task log) = [(metricIdOf (cfgOf task), e.completed)] ↔
      ∀ x ∈ outside (inputsOf task is) (effectsOf task log), x.recordedOnce = true := by
  have hanswers := answers_run h task
  obtain ⟨r, hp'⟩ := Point.ending?_eq_some.1 hp
  have hacc : Accounted _ _ (s.point task) := accounted_run h
  rw [hp'] at hacc
  rw [hacc hc]
  rcases hanswers with ⟨x, hx, hend⟩ | ⟨hnil, hown⟩
  · rw [hp] at hend
    cases hend
    simp [hx, PipelineEnd.recordedOnce]
  · rw [hnil]
    refine iff_of_true ?_ (by simp)
    cases e with
    | raised x => exact (hown x hp).recordedOnce
    | passed | alerted | cut => rfl

/-- One invocation, whose ingestor answers so. -/
def fetchRun (r : Except Exc MetricPayload) : List Input :=
  [⟨0, ⟨0, 0⟩, .granted⟩, ⟨0, ⟨0, 0⟩, .granted⟩, ⟨0, ⟨1, 1⟩, .fetched r⟩]

/-- A fetch that fails with an ordinary exception is recorded once. -/
theorem one_record_iff_failedFetch :
    ∃ s log, run (step .builtin fun _ => exampleCheck "m" []) (start { semaphore := 1 })
        (fetchRun (.error (valueError "no route"))) = some (s, log) ∧
      records (effectsOf 0 log) = [("m", false)] := by
  have h : (run (step .builtin fun _ => exampleCheck "m" []) (start { semaphore := 1 })
      (fetchRun (.error (valueError "no route")))).any
        (fun p => (p.1.point 0).ending? == some (.raised (valueError "no route")) &&
          outside (inputsOf 0 (fetchRun (.error (valueError "no route")))) (effectsOf 0 p.2) ==
            [valueError "no route"]) = true := by decide +kernel
  obtain ⟨⟨s, log⟩, hs, hend⟩ := (Option.any_eq_true _ _).1 h
  simp only [Bool.and_eq_true, beq_iff_eq] at hend
  refine ⟨s, log, hs, (one_record_iff hs hend.1 (by decide)).2 ?_⟩
  intro x hx
  rw [hend.2, List.mem_singleton] at hx
  rw [hx]
  rfl

/-- A fetch that fails with a `TimeoutError` is recorded twice. -/
theorem not_one_record_of_fetch_timeout :
    ∃ s log, run (step .builtin fun _ => exampleCheck "m" []) (start { semaphore := 1 })
        (fetchRun (.error timeoutError)) = some (s, log) ∧
      (s.point 0).ending? = some (.raised timeoutError) ∧
      records (effectsOf 0 log) ≠ [("m", PipelineEnd.completed (.raised timeoutError))] := by
  have h : (run (step .builtin fun _ => exampleCheck "m" []) (start { semaphore := 1 })
      (fetchRun (.error timeoutError))).any (fun p => (p.1.point 0).ending? == some (.raised timeoutError) &&
        records (effectsOf 0 p.2) == [("m", false), ("m", false)]) = true := by decide +kernel
  obtain ⟨⟨s, log⟩, hs, hend⟩ := (Option.any_eq_true _ _).1 h
  simp only [Bool.and_eq_true, beq_iff_eq] at hend
  exact ⟨s, log, hs, hend.1, by rw [hend.2]; decide⟩

/-! ## An open breaker -/

/-- The open breaker of its check refuses this input. -/
def Engine.rejects (cfgOf : ℕ → PyDict) (s : Engine) (i : Input) : Bool :=
  match s.point i.task, i.reply, s.executor.resilience.lookup (metricIdOf (cfgOf i.task)) with
  | .waiting f, .granted, some r => f.cbEnabled && !(r.circuitBreaker.callEnter i.clock.perf).isOk
  | _, _, _ => false

theorem Engine.rejects_eq_true {cfgOf : ℕ → PyDict} {s : Engine} {i : Input} (h : rejects cfgOf s i = true) :
    ∃ f r e, s.point i.task = .waiting f ∧ i.reply = .granted ∧
      s.executor.resilience.lookup (metricIdOf (cfgOf i.task)) = some r ∧ f.cbEnabled = true ∧
      r.circuitBreaker.callEnter i.clock.perf = .error e := by
  unfold rejects at h
  split at h
  next f r hp hreply hlook =>
    simp only [Bool.and_eq_true, Bool.not_eq_true'] at h
    obtain ⟨hcb, hok⟩ := h
    cases he : r.circuitBreaker.callEnter i.clock.perf with
    | ok b => rw [he] at hok; cases hok
    | error e => exact ⟨f, r, e, hp, hreply, hlook, hcb, he⟩
  · cases h

/-- The invocation is over, and did not raise. -/
def Point.returned : Point → Bool
  | .finished _ (.ok ()) => true
  | _ => false

/-- The invocation counts as skipped once, records one failure and returns. -/
def ReportedSkipped (id : String) (es : List Effect) (p : Point) : Prop :=
  (statuses es).count (id, .skipped) = 1 ∧ records es = [(id, false)] ∧ p.returned = true

/-- Before its pipeline is started, an invocation reports nothing. -/
def Unreported (es : List Effect) : Point → Prop
  | .queued | .waiting _ => statuses es = [] ∧ records es = []
  | _ => True

theorem unreported_run {reg : Registry} {cfgOf : ℕ → PyDict} {x₀ : Executor} {task : ℕ} {is : List Input}
    {log : List Happened} {s : Engine} (h : run (step reg cfgOf) (start x₀) is = some (s, log)) :
    Unreported (effectsOf task log) (s.point task) := by
  refine task_run (fun _ es p => Unreported es p) ⟨rfl, rfl⟩ ?_ h
  intro ins es p ⟨t, clk, reply⟩ now x p' es' ht _ hI hr
  dsimp only at ht hr
  subst ht
  have hend : ∀ {f : Frame} {st now : Time} {es : List Effect} {prog : Progress},
      Unreported es (settle f (metricIdOf (cfgOf t)) st now prog).1 := by
    intro f st now es prog
    cases prog <;> trivial
  cases hr with
  | entered =>
    rw [Unreported, statuses_append, records_append, hI.1, hI.2]
    exact ⟨rfl, rfl⟩
  | refused | cancelledQueued | cancelledWaiting | timedOutWaiting | rejected | timedOut | cancelled => trivial
  | started | body => exact hend

/-- A refused invocation counts nothing, records nothing, and raises. -/
theorem rejected_reports {reg : Registry} {cfgOf : ℕ → PyDict} {x₀ : Executor} {is : List Input} {i : Input}
    {log : List Happened} {s s' : Engine} {o : Happened}
    (h : run (step reg cfgOf) (start x₀) is = some (s, log)) (hs : step reg cfgOf s i = some (s', o))
    (hrej : rejects cfgOf s i = true) :
    statuses (effectsOf i.task (log ++ [o])) = [] ∧ records (effectsOf i.task (log ++ [o])) = [] ∧
      s'.point i.task = .finished none (.error (.exception circuitBreakerOpenException)) := by
  obtain ⟨hr, -, hp', -, ho, -⟩ := step_resumes hs
  obtain ⟨f, r, e, hp, hreply, hlook, hcb, he⟩ := rejects_eq_true hrej
  have hun : Unreported (effectsOf i.task log) (s.point i.task) := unreported_run h
  rw [hp] at hr hun
  rw [hreply] at hr
  rw [effectsOf_concat ho, hp', statuses_append, records_append, hun.1, hun.2]
  generalize o.point = p', o.effects = es at hr
  cases hr with
  | started hl _ hok =>
    rw [hlook] at hl
    cases hl
    obtain ⟨b, hb⟩ := hok hcb
    rw [he] at hb
    cases hb
  | rejected hl _ _ he' =>
    obtain ⟨-, -, rfl⟩ := CircuitBreaker.callEnter_error_iff.1 he'
    exact ⟨rfl, rfl, rfl⟩

/-- **A refused invocation is never reported as skipped.** -/
theorem not_reportedSkipped {reg : Registry} {cfgOf : ℕ → PyDict} {x₀ : Executor} {is : List Input} {i : Input}
    {log : List Happened} {s s' : Engine} {o : Happened}
    (h : run (step reg cfgOf) (start x₀) is = some (s, log)) (hs : step reg cfgOf s i = some (s', o))
    (hrej : rejects cfgOf s i = true) :
    ¬ ReportedSkipped (metricIdOf (cfgOf i.task)) (effectsOf i.task (log ++ [o])) (s'.point i.task) := by
  obtain ⟨-, hrec, -⟩ := rejected_reports h hs hrej
  intro hsk
  have hone := hsk.2.1
  rw [hrec] at hone
  cases hone

/-- A check whose breaker opens at the first failure. -/
def fragileCheck : ℕ → PyDict :=
  fun _ => exampleCheck "m" [("circuit_breaker", .dict [("failure_threshold", .int 1)])]

/-- One failed execution, and a second invocation up to the breaker. -/
def secondAttempt : List Input :=
  fetchRun (.error (valueError "no route")) ++ [⟨1, ⟨2, 2⟩, .granted⟩]

theorem not_reportedSkipped_secondAttempt :
    ∃ s s' log o, run (step .builtin fragileCheck) (start { semaphore := 1 }) secondAttempt = some (s, log) ∧
      step .builtin fragileCheck s ⟨1, ⟨2, 2⟩, .granted⟩ = some (s', o) ∧
      ¬ ReportedSkipped "m" (effectsOf 1 (log ++ [o])) (s'.point 1) := by
  have h : (run (step .builtin fragileCheck) (start { semaphore := 1 }) secondAttempt).any
      (fun p => rejects fragileCheck p.1 ⟨1, ⟨2, 2⟩, .granted⟩ &&
        (step .builtin fragileCheck p.1 ⟨1, ⟨2, 2⟩, .granted⟩).isSome) = true := by decide +kernel
  obtain ⟨⟨s, log⟩, hrun, hrej⟩ := (Option.any_eq_true _ _).1 h
  rw [Bool.and_eq_true, Option.isSome_iff_exists] at hrej
  obtain ⟨hrej, ⟨s', o⟩, hs⟩ := hrej
  exact ⟨s, s', log, o, hrun, hs, not_reportedSkipped hrun hs hrej⟩

/-- The refused invocation raises into the batch. -/
theorem secondAttempt_raises :
    ∃ s s' log o, run (step .builtin fragileCheck) (start { semaphore := 1 }) secondAttempt = some (s, log) ∧
      rejects fragileCheck s ⟨1, ⟨2, 2⟩, .granted⟩ = true ∧
      step .builtin fragileCheck s ⟨1, ⟨2, 2⟩, .granted⟩ = some (s', o) ∧
      (statuses (effectsOf 1 (log ++ [o]))).count ("m", .skipped) = 0 ∧
      records (effectsOf 1 (log ++ [o])) = [] ∧
      (s'.point 1).returned = false := by
  have h : (run (step .builtin fragileCheck) (start { semaphore := 1 }) secondAttempt).any
      (fun p => rejects fragileCheck p.1 ⟨1, ⟨2, 2⟩, .granted⟩ &&
        (step .builtin fragileCheck p.1 ⟨1, ⟨2, 2⟩, .granted⟩).any fun q =>
          (statuses (effectsOf 1 (p.2 ++ [q.2]))).count ("m", .skipped) == 0 &&
            records (effectsOf 1 (p.2 ++ [q.2])) == [] && !(q.1.point 1).returned) = true := by decide +kernel
  obtain ⟨⟨s, log⟩, hrun, hq⟩ := (Option.any_eq_true _ _).1 h
  rw [Bool.and_eq_true, Option.any_eq_true] at hq
  obtain ⟨hrej, ⟨s', o⟩, hs, hq⟩ := hq
  simp only [Bool.and_eq_true, beq_iff_eq, Bool.not_eq_true'] at hq
  exact ⟨s, s', log, o, hrun, hrej, hs, hq.1.1, hq.1.2, hq.2⟩

end SentinelFlow
