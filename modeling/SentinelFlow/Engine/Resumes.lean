/-
What one step of an invocation can be. `Resumes` is the relation, with a
constructor for each kind of step; `resumes_of_resume` is the inversion
every later fact about the executor goes through, and nothing after it
unfolds `resume`. `Continues` does the same for the body.

The middle of the file reads three things off a list of effects: the
history records, the counted statuses, and what the body alone does.
-/
import SentinelFlow.Engine.Executor

namespace SentinelFlow

/-- How the pipeline of a finished invocation ended, if it was started. -/
def Point.ending? : Point → Option PipelineEnd
  | .finished e _ => e
  | _ => none

theorem Point.ending?_eq_some {p : Point} {e : PipelineEnd} :
    p.ending? = some e ↔ ∃ r, p = .finished (some e) r := by
  cases p with
  | finished pipeline r => simp [ending?]
  | queued | waiting | running => simp [ending?]

/-! ## Exceptions that can be read -/

/-- A plain exception is read like any text. -/
@[simp] theorem unread?_plainExc (typeStr : String) (bases : List ExcClass) (text : String) (retryable : Bool) :
    (plainExc typeStr bases text retryable).unread? = none := by
  unfold Exc.unread?
  split <;> rfl

/-- What cannot be read is not taken for an open circuit. -/
theorem isCircuitOpen_of_unread {e e' : Exc} (h : e.unread? = some e') : isCircuitOpen e = false := by
  by_contra hco
  have hopen : isCircuitOpen e = true := by simpa using hco
  rw [Exc.unread?, if_pos hopen] at h
  cases h

/-- The `except` clause takes an exception for an open circuit, for a failure,
or raises another in reading it. -/
theorem closeBody_raised (id : String) (durationMs : Time) (e : Exc) :
    (isCircuitOpen e = true ∧ e.unread? = none ∧
      closeBody id durationMs (.raised e) = (.ok (), [.incCheck id .skipped, .addResult id false durationMs])) ∨
    (isCircuitOpen e = false ∧ e.unread? = none ∧
      closeBody id durationMs (.raised e) =
        (.error (.exception e), [.addResult id false durationMs, .incCheck id .failed])) ∨
    ∃ e', isCircuitOpen e = false ∧ e.unread? = some e' ∧
      closeBody id durationMs (.raised e) = (.error (.exception e'), []) := by
  cases hu : e.unread? with
  | some e' => exact .inr (.inr ⟨e', isCircuitOpen_of_unread hu, rfl, by simp [closeBody, hu]⟩)
  | none =>
    cases hco : isCircuitOpen e with
    | true => exact .inl ⟨rfl, rfl, by simp [closeBody, hu, hco]⟩
    | false => exact .inr (.inl ⟨rfl, rfl, by simp [closeBody, hu, hco]⟩)

/-! ## The steps -/

/-- The effects of a pipeline's start, before its body. -/
def startEffects (cbEnabled : Bool) (id : String) (now : Time) : List Effect :=
  .acquireInflight id :: (if cbEnabled then [.callEnter id now] else []) ++
    [.incCheck id .started, .inflightInc id]

/-- The effects of an admission the breaker refuses. -/
def rejectEffects (id : String) (now : Time) : List Effect :=
  [.acquireInflight id, .callEnter id now, .releaseInflight id]

inductive Resumes (reg : Registry) (x : Executor) (cfg : PyDict) (clk : Clock) :
    Point → Reply → Point → List Effect → Prop where
  /-- `for_check` raises. -/
  | refused {e} : x.semaphore ≠ 0 →
      ResilienceManager.forCheck x.resilience (metricIdOf cfg) (dictAt cfg "resilience") = .error e →
      Resumes reg x cfg clk .queued .granted (.finished none (.error (.exception e))) [.acquire, .release]
  | entered {m r} : x.semaphore ≠ 0 →
      ResilienceManager.forCheck x.resilience (metricIdOf cfg) (dictAt cfg "resilience") = .ok (m, r) →
      Resumes reg x cfg clk .queued .granted (.waiting ⟨clk.perf, r.timeoutSeconds, r.cbEnabled⟩)
        [.acquire, .forCheck (metricIdOf cfg) (dictAt cfg "resilience")]
  | cancelledQueued : Resumes reg x cfg clk .queued (.cancel []) (.finished none (.error .cancelledError)) []
  | cancelledWaiting {f} :
      Resumes reg x cfg clk (.waiting f) (.cancel []) (.finished none (.error .cancelledError)) [.release]
  | timedOutWaiting {f} : f.due clk.perf = true →
      Resumes reg x cfg clk (.waiting f) (.timeout []) (leaveUnstarted f (metricIdOf cfg) clk.perf timeoutError).1
        (leaveUnstarted f (metricIdOf cfg) clk.perf timeoutError).2
  | rejected {f r e} : x.resilience.lookup (metricIdOf cfg) = some r → r.semaphore ≠ 0 → f.cbEnabled = true →
      r.circuitBreaker.callEnter clk.perf = .error e →
      Resumes reg x cfg clk (.waiting f) .granted (leaveUnstarted f (metricIdOf cfg) clk.perf e).1
        (rejectEffects (metricIdOf cfg) clk.perf ++ (leaveUnstarted f (metricIdOf cfg) clk.perf e).2)
  | started {f r} : x.resilience.lookup (metricIdOf cfg) = some r → r.semaphore ≠ 0 →
      (f.cbEnabled = true → ∃ b, r.circuitBreaker.callEnter clk.perf = .ok b) →
      Resumes reg x cfg clk (.waiting f) .granted (settle f (metricIdOf cfg) clk.perf clk.perf (startBody reg cfg).1).1
        (startEffects f.cbEnabled (metricIdOf cfg) clk.perf ++ ((startBody reg cfg).2 ++
          (settle f (metricIdOf cfg) clk.perf clk.perf (startBody reg cfg).1).2))
  | body {f startTime p reply prog es} : resumeBody reg cfg x.policy clk.wall p reply = some (prog, es) →
      Resumes reg x cfg clk (.running f startTime p) reply (settle f (metricIdOf cfg) startTime clk.perf prog).1
        (es ++ (settle f (metricIdOf cfg) startTime clk.perf prog).2)
  | timedOut {f startTime p rs} : f.due clk.perf = true → p.suspended = true → rs.length = p.tasks.length →
      Resumes reg x cfg clk (.running f startTime p) (.timeout rs)
        (leave f (metricIdOf cfg) startTime clk.perf (.cut true)).1
        (p.dispatched (metricIdOf cfg) rs ++ (leave f (metricIdOf cfg) startTime clk.perf (.cut true)).2)
  | cancelled {f startTime p rs} : p.suspended = true → rs.length = p.tasks.length →
      Resumes reg x cfg clk (.running f startTime p) (.cancel rs)
        (leave f (metricIdOf cfg) startTime clk.perf (.cut false)).1
        (p.dispatched (metricIdOf cfg) rs ++ (leave f (metricIdOf cfg) startTime clk.perf (.cut false)).2)

section Inversion

variable {reg : Registry} {x : Executor} {cfg : PyDict} {clk : Clock} {p p' : Point} {reply : Reply}
  {es : List Effect}

theorem resumes_of_enterCheck (h : enterCheck x cfg clk = some (p', es)) :
    Resumes reg x cfg clk .queued .granted p' es := by
  unfold enterCheck at h
  dsimp only at h
  split at h
  · cases h
  next hs =>
    split at h <;> cases h
    next e he => exact .refused hs he
    next m r hr => exact .entered hs hr

theorem resumes_of_enterPipeline {f : Frame} (h : enterPipeline reg x cfg clk f = some (p', es)) :
    Resumes reg x cfg clk (.waiting f) .granted p' es := by
  unfold enterPipeline at h
  dsimp only at h
  split at h
  · cases h
  next r hr =>
    split at h
    · cases h
    next hs =>
      simp only [Bool.or_eq_true, decide_eq_true_eq, not_or] at hs
      have hstart := @Resumes.started reg x cfg clk f r hr hs.1
      split at h
      next hcb =>
        split at h <;> cases h
        next b hb => simpa [startEffects, hcb] using hstart fun _ => ⟨b, hb⟩
        next e he => exact .rejected hr hs.1 hcb he
      next hcb =>
        cases h
        simpa [startEffects, hcb] using hstart fun h => absurd h hcb

/-- **What a step can be.** -/
theorem resumes_of_resume (h : resume reg x cfg clk p reply = some (p', es)) :
    Resumes reg x cfg clk p reply p' es := by
  unfold resume at h
  split at h
  · exact resumes_of_enterCheck h
  · cases h
    exact .cancelledQueued
  · exact resumes_of_enterPipeline h
  · split at h <;> cases h
    next hd => exact .timedOutWaiting hd
  · cases h
    exact .cancelledWaiting
  · split at h <;> cases h
    next hc =>
      simp only [Bool.and_eq_true, beq_iff_eq] at hc
      exact .timedOut hc.1.1 hc.1.2 hc.2
  · split at h <;> cases h
    next hc =>
      simp only [Bool.and_eq_true, beq_iff_eq] at hc
      exact .cancelled hc.1 hc.2
  · simp only [Option.map_eq_some_iff] at h
    obtain ⟨⟨prog, bs⟩, hb, he⟩ := h
    cases he
    exact .body hb
  · cases h

end Inversion

/-- The body from one point to the next, by what it has awaited. -/
inductive Continues (reg : Registry) (cfg : PyDict) (policy : AlertPolicy) (now : Time) :
    PipePoint → Reply → Progress → List Effect → Prop where
  | fetchRaised {e} : Continues reg cfg policy now .fetching (.fetched (.error e)) (.ended (.raised e)) []
  | fetched {payload} :
      Continues reg cfg policy now .fetching (.fetched (.ok payload))
        (nextEvaluator reg cfg payload [] (listAt cfg "evaluators")).1
        (nextEvaluator reg cfg payload [] (listAt cfg "evaluators")).2
  | evaluatorRaised {payload evalType evalCfg todo validEvents e} :
      Continues reg cfg policy now (.evaluating payload evalType evalCfg todo validEvents) (.evaluated (.error e))
        (.ended (.raised e)) []
  | evaluated {payload evalType evalCfg todo validEvents} {event : Option AlertEvent} :
      Continues reg cfg policy now (.evaluating payload evalType evalCfg todo validEvents) (.evaluated (.ok event))
        (nextEvaluator reg cfg payload (validEvents ++ event.toList) todo).1
        (nextEvaluator reg cfg payload (validEvents ++ event.toList) todo).2
  | decided {event todo} :
      Continues reg cfg policy now (.deciding event todo) .proceed (decideEvent reg cfg policy now event todo).1
        (decideEvent reg cfg policy now event todo).2
  | gathered {event tasks todo} {rs : List (Except Raised Unit)} : rs.length = tasks.length →
      Continues reg cfg policy now (.dispatching event tasks todo) (.gathered rs) (afterDispatches todo rs)
        (runDispatches (metricIdOf cfg) event tasks rs)

/-- **What a step of the body can be.** -/
theorem continues_of_resumeBody {reg : Registry} {cfg : PyDict} {policy : AlertPolicy} {now : Time} {p : PipePoint}
    {reply : Reply} {prog : Progress} {es : List Effect}
    (h : resumeBody reg cfg policy now p reply = some (prog, es)) : Continues reg cfg policy now p reply prog es := by
  unfold resumeBody at h
  split at h
  · cases h
    exact .fetchRaised
  · obtain ⟨rfl, rfl⟩ := Prod.ext_iff.1 (Option.some.inj h)
    exact .fetched
  · cases h
    exact .evaluatorRaised
  · obtain ⟨rfl, rfl⟩ := Prod.ext_iff.1 (Option.some.inj h)
    exact .evaluated
  · obtain ⟨rfl, rfl⟩ := Prod.ext_iff.1 (Option.some.inj h)
    exact .decided
  · split at h <;> cases h
    next hlen => exact .gathered hlen
  · cases h

/-! ## Where a body pauses -/

/-- The body has ended, or paused at such a point. -/
def Progress.At (Q : PipePoint → Prop) : Progress → Prop
  | .paused p => Q p
  | .ended _ => True

/-- The invocation is not in its body, or at such a point of it. -/
def Point.At (Q : PipePoint → Prop) : Point → Prop
  | .running _ _ p => Q p
  | _ => True

section At

variable {Q : PipePoint → Prop}

theorem at_callOn {inst : PyClass} {kind : Kind} {p : PipePoint} (h : Q p) : (callOn inst kind p).At Q := by
  unfold callOn
  split
  · exact h
  · trivial

/-- A body pauses first at its fetch. -/
theorem at_startBody {reg : Registry} {cfg : PyDict} (h : Q .fetching) : (startBody reg cfg).1.At Q := by
  unfold startBody
  split
  · split
    · split
      · exact at_callOn h
      · trivial
    · trivial
  · trivial

theorem at_settle {f : Frame} {id : String} {st now : Time} {prog : Progress} (h : prog.At Q) :
    (settle f id st now prog).1.At Q := by
  cases prog with
  | paused p => exact h
  | ended e => trivial

end At

/-! ## Reading effects -/

/-- The records written to the execution history, with the check they name. -/
def Effect.record? : Effect → Option (String × Bool)
  | .addResult id success _ => some (id, success)
  | _ => none

def records (es : List Effect) : List (String × Bool) := es.filterMap Effect.record?

/-- The increments of the check counter. -/
def Effect.status? : Effect → Option (String × CheckStatus)
  | .incCheck id status => some (id, status)
  | _ => none

def statuses (es : List Effect) : List (String × CheckStatus) := es.filterMap Effect.status?

@[simp] theorem records_append (es fs : List Effect) : records (es ++ fs) = records es ++ records fs :=
  List.filterMap_append

@[simp] theorem statuses_append (es fs : List Effect) : statuses (es ++ fs) = statuses es ++ statuses fs :=
  List.filterMap_append

/-- The effects a body has before it ends: on the policy, the handlers, the
registry and the alert counter of its check. -/
def Effect.OfBody (id : String) : Effect → Prop
  | .shouldDispatch _ _ _ => True
  | .handed _ _ _ _ => True
  | .lookedUp _ _ _ => True
  | .incAlert id' _ _ _ => id' = id
  | _ => False

section Body

variable {id : String} {es : List Effect}

theorem records_ofBody (h : ∀ e ∈ es, e.OfBody id) : records es = [] := by
  rw [records, List.filterMap_eq_nil_iff]
  intro e he
  have := h e he
  cases e <;> first | rfl | cases this

theorem statuses_ofBody (h : ∀ e ∈ es, e.OfBody id) : statuses es = [] := by
  rw [statuses, List.filterMap_eq_nil_iff]
  intro e he
  have := h e he
  cases e <;> first | rfl | cases this

/-- A dispatch task hands its alert over, and may count it. -/
theorem mem_runDispatches {event : AlertEvent} {ts : List DispatchTask}
    {rs : List (Except Raised Unit)} {e : Effect} (h : e ∈ runDispatches id event ts rs) :
    (∃ ty cfg r, e = .handed event ty cfg r) ∨
      e = .incAlert id event.evaluatorType event.severity .dispatched := by
  obtain ⟨l, hl, he⟩ := List.mem_flatten.1 h
  obtain ⟨i, hi, rfl⟩ := List.mem_iff_getElem.1 hl
  rw [List.getElem_zipWith] at he
  unfold runDispatch at he
  split at he
  · split at he <;> simp only [List.mem_cons, List.not_mem_nil, or_false] at he
    · exact he.imp_left fun h => ⟨_, _, _, h⟩
    · exact .inl ⟨_, _, _, he⟩
  · cases he

theorem ofBody_runDispatches {event : AlertEvent} {ts : List DispatchTask}
    {rs : List (Except Raised Unit)} :
    ∀ e ∈ runDispatches id event ts rs, e.OfBody id := by
  intro e he
  rcases mem_runDispatches he with ⟨ty, cfg, r, rfl⟩ | rfl
  · trivial
  · rfl

theorem ofBody_dispatched {p : PipePoint} {rs : List (Except Raised Unit)} :
    ∀ e ∈ p.dispatched id rs, e.OfBody id := by
  cases p with
  | dispatching event ts todo => exact ofBody_runDispatches
  | fetching | evaluating | deciding => intro e he; cases he

/-- What the loops over entries do: they look up the instances. -/
def Effect.isLookup : Effect → Bool
  | .lookedUp _ _ _ => true
  | _ => false

/-- Lookups show nothing where a lookup shows nothing. -/
theorem filterMap_lookups {β : Type} {f : Effect → Option β} (hf : ∀ kind name r, f (.lookedUp kind name r) = none)
    (h : ∀ e ∈ es, e.isLookup = true) : es.filterMap f = [] := by
  rw [List.filterMap_eq_nil_iff]
  intro e he
  have := h e he
  cases e with
  | lookedUp kind name r => exact hf kind name r
  | _ => cases this

theorem Effect.ofBody_of_isLookup {e : Effect} (h : e.isLookup = true) : e.OfBody id := by
  cases e <;> trivial

theorem isLookup_startBody {reg : Registry} {cfg : PyDict} : ∀ e ∈ (startBody reg cfg).2, e.isLookup = true := by
  unfold startBody
  repeat' split
  all_goals simp [Effect.isLookup]

theorem ofBody_startBody {reg : Registry} {cfg : PyDict} : ∀ e ∈ (startBody reg cfg).2, e.OfBody (metricIdOf cfg) :=
  fun e he => Effect.ofBody_of_isLookup (isLookup_startBody e he)

theorem isLookup_nextEvaluator {reg : Registry} {cfg : PyDict} {payload : MetricPayload}
    {validEvents : List AlertEvent} :
    ∀ vs : List PyVal, ∀ e ∈ (nextEvaluator reg cfg payload validEvents vs).2, e.isLookup = true
  | [] => by simp [nextEvaluator]
  | v :: rest => by
    unfold nextEvaluator
    split
    · exact isLookup_nextEvaluator rest
    · split <;> simp [Effect.isLookup]

theorem isLookup_dispatchTasks :
    ∀ (reg : Registry) (vs : List PyVal), ∀ e ∈ (dispatchTasks reg vs).2, e.isLookup = true
  | _, [] => by simp [dispatchTasks]
  | reg, v :: rest => by
    unfold dispatchTasks
    split
    · exact isLookup_dispatchTasks reg rest
    · split
      next reg' handler _ =>
        intro e he
        rcases List.mem_cons.1 he with rfl | he
        · rfl
        · exact isLookup_dispatchTasks reg' rest e he
      next => simp [Effect.isLookup]

theorem ofBody_decideEvent {reg : Registry} {cfg : PyDict} {policy : AlertPolicy} {now : Time}
    {event : AlertEvent} {todo : List AlertEvent} :
    ∀ e ∈ (decideEvent reg cfg policy now event todo).2, e.OfBody (metricIdOf cfg) := by
  unfold decideEvent
  dsimp only
  split
  · simp [Effect.OfBody]
  · simp [Effect.OfBody]
  · intro e he
    rcases List.mem_cons.1 he with rfl | he
    · trivial
    · exact Effect.ofBody_of_isLookup (isLookup_dispatchTasks reg _ e he)

theorem ofBody_resumeBody {reg : Registry} {cfg : PyDict} {policy : AlertPolicy} {now : Time}
    {p : PipePoint} {reply : Reply} {prog : Progress}
    (h : resumeBody reg cfg policy now p reply = some (prog, es)) :
    ∀ e ∈ es, e.OfBody (metricIdOf cfg) := by
  cases continues_of_resumeBody h with
  | fetchRaised | evaluatorRaised =>
    intro e he
    cases he
  | fetched | evaluated => exact fun e he => Effect.ofBody_of_isLookup (isLookup_nextEvaluator _ e he)
  | decided => exact ofBody_decideEvent
  | gathered => exact ofBody_runDispatches

end Body

end SentinelFlow
