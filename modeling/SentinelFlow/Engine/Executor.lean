/-
`Executor` (`src/engine/executor.py`): one invocation of `_bounded_execute`
and, inside it, `_execute_single_check`, as a coroutine.

A `Point` is where the coroutine stands; `resume` runs it from there, on a
reply of the environment, to the next one. Between two points nothing else
runs. What it does to the state all checks share is a list of effects, and
`Executor.apply` carries one out. The points between `fetching` and
`dispatching` are no suspensions: no timer and no cancellation cuts there,
and evaluators answer at once.

The clocks are read once in a step. Locks are free when taken, spans and
metrics do not raise, and the registry's classes stand still while checks
run, though the cache of instances does not. A span that records reads the
exception that passes it: a reply is what has left the span around its call.
`AlertEvent` has no truth value of its own, so `if event` asks whether there
is one.
-/
import SentinelFlow.AlertPolicy
import SentinelFlow.Engine.Records
import SentinelFlow.Engine.Registry
import SentinelFlow.Runtime.Resilience

namespace SentinelFlow

/-- `Executor`: what all checks share. -/
structure Executor where
  /-- Free permits of `_semaphore`. -/
  semaphore : ℕ
  policy : AlertPolicy := .new
  history : ExecutionHistory := {}
  metrics : Metrics := {}
  resilience : ResilienceManager := ∅

/-- The readings of the two clocks. -/
structure Clock where
  /-- `datetime.now(timezone.utc)`. -/
  wall : Time
  /-- `time.perf_counter()`. -/
  perf : Time
  deriving DecidableEq, Repr

/-! ## Effects -/

/-- A step on the shared state, or a call to the outside. -/
inductive Effect
  | acquire
  | release
  | forCheck (checkId : String) (cfg : PyDict)
  | acquireInflight (checkId : String)
  | releaseInflight (checkId : String)
  | callEnter (checkId : String) (now : Time)
  | callExcept (checkId : String) (now : Time)
  | callElse (checkId : String)
  | incCheck (checkId : String) (status : CheckStatus)
  | inflightInc (checkId : String)
  | inflightDec (checkId : String)
  | addResult (checkId : String) (success : Bool) (durationMs : Time)
  | shouldDispatch (now : Time) (args : DispatchArgs) (result : Except Exc Bool)
  | handed (event : AlertEvent) (handlerType : String) (config : PyDict) (result : Except Raised Unit)
  | incAlert (checkId evaluator : String) (severity : Severity) (action : AlertAction)
  | lookedUp (kind : Kind) (name : String) (result : Except Exc PyClass)

namespace Executor

/-- The resilience object of a check, changed in place. -/
def onCheck (x : Executor) (id : String) (f : CheckResilience → CheckResilience) : Executor :=
  match x.resilience.lookup id with
  | some r => { x with resilience := x.resilience.insert id (f r) }
  | none => x

/-- The breaker of a check, changed in place. -/
def onBreaker (x : Executor) (id : String) (f : CircuitBreaker → CircuitBreaker) : Executor :=
  x.onCheck id fun r => { r with circuitBreaker := f r.circuitBreaker }

/-- The state after an effect. -/
def apply (x : Executor) : Effect → Executor
  | .acquire => { x with semaphore := x.semaphore - 1 }
  | .release => { x with semaphore := x.semaphore + 1 }
  | .forCheck id cfg => match ResilienceManager.forCheck x.resilience id cfg with
    | .ok (m, _) => { x with resilience := m }
    | .error _ => x
  | .acquireInflight id => x.onCheck id fun r => { r with semaphore := r.semaphore - 1 }
  | .releaseInflight id => x.onCheck id fun r => { r with semaphore := r.semaphore + 1 }
  | .callEnter id now => x.onBreaker id fun b => ((b.callEnter now).toOption).getD b
  | .callExcept id now => x.onBreaker id (·.callExcept now)
  | .callElse id => x.onBreaker id (·.callElse)
  | .incCheck id status => { x with metrics := x.metrics.incCheck id status }
  | .inflightInc id => { x with metrics := x.metrics.inflightInc id }
  | .inflightDec id => { x with metrics := x.metrics.inflightDec id }
  | .addResult id success durationMs => { x with history := x.history.addResult id success durationMs }
  | .shouldDispatch now args _ => { x with policy := (x.policy.shouldDispatch now args).1 }
  | .handed _ _ _ _ | .lookedUp _ _ _ => x
  | .incAlert id evaluator severity action =>
    { x with metrics := x.metrics.incAlert id evaluator severity action }

/-- The state after some effects, in their order. -/
def applyAll (x : Executor) (es : List Effect) : Executor := es.foldl apply x

end Executor

/-! ## The configuration of a check -/

/-- `metric_id`, or `"unknown"` for what is no text or empty. -/
def metricIdOf (cfg : PyDict) : String :=
  match cfg.get "metric_id" with
  | some (.str s) => if s.isEmpty then "unknown" else s
  | _ => "unknown"

/-- `d.get(key, {})`, and `{}` for what is no dictionary. -/
def dictAt (cfg : PyDict) (key : String) : PyDict :=
  match cfg.get key with
  | some (.dict kvs) => kvs
  | _ => []

/-- `d.get(key, [])`, and `[]` for what is no list. -/
def listAt (cfg : PyDict) (key : String) : List PyVal :=
  match cfg.get key with
  | some (.list vs) => vs
  | _ => []

/-- `int(raw) if isinstance(raw, (int, float, str)) and str(raw).isdigit()
else default`: no float prints as digits alone, nor does a truth value.
`int` does not read every digit that `isdigit` knows. -/
def digitsOr (default : ℤ) : Option PyVal → Except Exc ℤ
  | some (.int n) => .ok (if 0 ≤ n then n else default)
  | some (.str s) => if isDigits s then (PyVal.str s).toInt else .ok default
  | _ => .ok default

def cooldownOf (cfg : PyDict) : Except Exc ℤ :=
  digitsOr 300 ((dictAt cfg "alert_policy").get "cooldown_seconds")
def dedupeOf (cfg : PyDict) : Except Exc ℤ :=
  digitsOr 3600 ((dictAt cfg "alert_policy").get "dedupe_window_seconds")

/-- The two numbers of the policy, read once before the alerts have their turn. -/
def policyNumbers (cfg : PyDict) : Except Exc (ℤ × ℤ) := do
  let cooldown ← cooldownOf cfg
  let dedupe ← dedupeOf cfg
  return (cooldown, dedupe)

/-- The entries of a list that are dictionaries with a text under `type`. -/
def typedEntry : PyVal → Option (String × PyDict)
  | .dict kvs => match PyDict.get kvs "type" with
    | some (.str ty) => some (ty, kvs)
    | _ => none
  | _ => none

/-! ## Exceptions read -/

/-- `"CircuitBreakerOpenException" in str(type(e)) or "Circuit is OPEN" in
str(e)`, where that is true. -/
def isCircuitOpen (e : Exc) : Bool :=
  contains e.typeStr "CircuitBreakerOpenException" ||
    match e.str with
    | .ok text => contains text "Circuit is OPEN"
    | .error _ => false

/-- What reading an exception raises in the `except` clause of `run_pipeline`:
its text, and then its `error_code`, unless it is taken for an open circuit
before. -/
def Exc.unread? (e : Exc) : Option Exc :=
  if isCircuitOpen e then none
  else match e.str with
    | .error e' => some e'
    | .ok _ => match e.errorCode with
      | .error e' => some e'
      | .ok () => none

/-- What describing a handler's exception raises: its `error_code` is read
before its text. -/
def Exc.undescribed? (e : Exc) : Option Exc :=
  match e.errorCode with
  | .error e' => some e'
  | .ok () => match e.str with
    | .error e' => some e'
    | .ok _ => none

/-- What the loop over the results of the dispatch tasks raises. -/
def undescribed? (rs : List (Except Raised Unit)) : Option Exc :=
  rs.findSome? fun r => match r with
    | .error (.exception e) => e.undescribed?
    | _ => none

/-! ## Points of the coroutine -/

/-- A `run_dispatch`, with the instance its handler's lookup answered. -/
structure DispatchTask where
  handlerType : String
  handler : PyClass
  config : PyDict
  deriving Repr

/-- Where the `try` of `run_pipeline` stands. -/
inductive PipePoint
  | fetching
  | evaluating (payload : MetricPayload) (evalType : String) (evalCfg : PyDict) (todo : List PyVal)
      (validEvents : List AlertEvent)
  | deciding (alertEvent : AlertEvent) (todo : List AlertEvent)
  | dispatching (alertEvent : AlertEvent) (dispatchTasks : List DispatchTask) (todo : List AlertEvent)

/-- How a pipeline that was started ends; it is cut by the timer of
`wait_for` or by a cancellation from outside. -/
inductive PipelineEnd
  | passed
  | alerted
  | raised (e : Exc)
  | cut (byTimer : Bool)
  deriving DecidableEq

/-- What comes of running the body: it stands at a point, or it has ended. -/
inductive Progress
  | paused (p : PipePoint)
  | ended (e : PipelineEnd)

/-- What the invocation keeps while it is inside `wait_for`. -/
structure Frame where
  startOuter : Time
  timeoutSeconds : PyFloat
  cbEnabled : Bool
  deriving DecidableEq

/-- Where `_bounded_execute` stands. -/
inductive Point
  /-- Before `async with self._semaphore`. -/
  | queued
  /-- Before the semaphore of the check's resilience object. -/
  | waiting (frame : Frame)
  | running (frame : Frame) (startTime : Time) (at_ : PipePoint)
  /-- How the pipeline ended, if it was started, and what left the coroutine. -/
  | finished (pipeline : Option PipelineEnd) (result : Except Raised Unit)

/-- What the coroutine goes on with. -/
inductive Reply
  /-- The semaphore awaited has a permit. -/
  | granted
  | fetched (r : Except Exc MetricPayload)
  | evaluated (r : Except Exc (Option AlertEvent))
  /-- No answer is awaited. -/
  | proceed
  /-- What each dispatch task returned or raised. -/
  | gathered (rs : List (Except Raised Unit))
  /-- The timer of `wait_for` is due, or the task is cancelled from outside;
  the dispatch tasks that run then end so. -/
  | timeout (rs : List (Except Raised Unit))
  | cancel (rs : List (Except Raised Unit))

namespace PipePoint

/-- The dispatch tasks that are awaited. -/
def tasks : PipePoint → List DispatchTask
  | .dispatching _ ts _ => ts
  | _ => []

/-- The coroutine is suspended: `gather` of nothing is done at once. -/
def suspended : PipePoint → Bool
  | .fetching => true
  | .dispatching _ ts _ => !ts.isEmpty
  | _ => false

end PipePoint

/-! ## The body of `run_pipeline` -/

section Body

variable (reg : Registry) (cfg : PyDict)

/-- The call of its kind's method on an instance. -/
def callOn (inst : PyClass) (kind : Kind) (p : PipePoint) : Progress :=
  if kind ∈ inst.methods then .paused p else .ended (.raised (inst.noMethod kind))

/-- The body up to the call of the ingestor. -/
def startBody : Progress × List Effect :=
  match cfg.get "ingestor" with
  | some (.dict ingestorCfg) => match PyDict.get ingestorCfg "type" with
    | some (.str ingestorType) => match reg.getIngestor ingestorType with
      | .ok (_, ingestor) =>
        (callOn ingestor .ingestor .fetching, [.lookedUp .ingestor ingestorType (.ok ingestor)])
      | .error e => (.ended (.raised e), [.lookedUp .ingestor ingestorType (.error e)])
    | _ => (.ended (.raised (valueError "Ingestor 'type' must be a string")), [])
  | _ => (.ended (.raised (valueError "Missing or invalid 'ingestor' config")), [])

/-- The turn of the next alert. -/
def nextEvent : List AlertEvent → Progress
  | [] => .ended .alerted
  | e :: rest => .paused (.deciding e rest)

/-- What follows the loop over `evaluators_cfg`. -/
def afterEvaluators (validEvents : List AlertEvent) : Progress :=
  if validEvents.isEmpty then .ended .passed
  else match policyNumbers cfg with
    | .ok _ => nextEvent validEvents
    | .error e => .ended (.raised e)

/-- The loop over `evaluators_cfg`, and what follows it. -/
def nextEvaluator (payload : MetricPayload) (validEvents : List AlertEvent) : List PyVal → Progress × List Effect
  | [] => (afterEvaluators cfg validEvents, [])
  | v :: rest => match typedEntry v with
    | none => nextEvaluator payload validEvents rest
    | some (evalType, evalCfg) => match reg.getEvaluator evalType with
      | .ok (_, evaluator) =>
        (callOn evaluator .evaluator (.evaluating payload evalType evalCfg rest validEvents),
          [.lookedUp .evaluator evalType (.ok evaluator)])
      | .error e => (.ended (.raised e), [.lookedUp .evaluator evalType (.error e)])

/-- The loop over `handlers_cfg`. -/
def dispatchTasks (reg : Registry) : List PyVal → Except Exc (List DispatchTask) × List Effect
  | [] => (.ok [], [])
  | v :: rest => match typedEntry v with
    | none => dispatchTasks reg rest
    | some (handlerType, handlerCfg) => match reg.getHandler handlerType with
      | .ok (reg', handler) =>
        let tasks := dispatchTasks reg' rest
        (tasks.1.map (⟨handlerType, handler, handlerCfg⟩ :: ·),
          .lookedUp .handler handlerType (.ok handler) :: tasks.2)
      | .error e => (.error e, [.lookedUp .handler handlerType (.error e)])

/-- The arguments of `should_dispatch`, whose turn comes only when the numbers
could be read. -/
def dispatchArgs (event : AlertEvent) : DispatchArgs :=
  let numbers := (policyNumbers cfg).toOption.getD (300, 3600)
  { metricId := event.metricId, evaluatorType := event.evaluatorType, severity := event.severity.text
    cooldownSeconds := numbers.1, dedupeWindowSeconds := numbers.2, event := .alertEvent event }

/-- `run_dispatch`: the handler's call, counted when it does not raise. There
is none where the instance has no such method. The code counts as the call
returns, and here it is counted when `gather` is taken up: until then nothing
of the executor reads the counter. -/
def runDispatch (id : String) (event : AlertEvent) (task : DispatchTask) (r : Except Raised Unit) : List Effect :=
  if .handler ∈ task.handler.methods then
    .handed event task.handlerType task.config r ::
      match r with
      | .ok () => [.incAlert id event.evaluatorType event.severity .dispatched]
      | .error _ => []
  else []

/-- The dispatch tasks of an alert, each as it ended. -/
def runDispatches (id : String) (event : AlertEvent) (tasks : List DispatchTask) (rs : List (Except Raised Unit)) :
    List Effect := (tasks.zipWith (runDispatch id event) rs).flatten

/-- What the dispatch tasks of a point have done when they ended so. -/
def PipePoint.dispatched (id : String) (p : PipePoint) (rs : List (Except Raised Unit)) : List Effect :=
  match p with
  | .dispatching event ts _ => runDispatches id event ts rs
  | _ => []

/-- The turn of an alert at the policy, and the tasks of one it lets through. -/
def decideEvent (policy : AlertPolicy) (now : Time) (event : AlertEvent) (todo : List AlertEvent) :
    Progress × List Effect :=
  let args := dispatchArgs cfg event
  let result := (policy.shouldDispatch now args).2.value
  match result with
  | .error e => (.ended (.raised e), [.shouldDispatch now args result])
  | .ok false => (nextEvent todo,
      [.shouldDispatch now args result,
        .incAlert (metricIdOf cfg) event.evaluatorType event.severity .suppressed])
  | .ok true =>
    let tasks := dispatchTasks reg (listAt cfg "handlers")
    (match tasks.1 with
      | .error e => .ended (.raised e)
      | .ok ts => .paused (.dispatching event ts todo), .shouldDispatch now args result :: tasks.2)

/-- What follows `gather`: the exceptions among its results are described. -/
def afterDispatches (todo : List AlertEvent) (rs : List (Except Raised Unit)) : Progress :=
  match undescribed? rs with
  | some e => .ended (.raised e)
  | none => nextEvent todo

/-- The body from one point to the next. -/
def resumeBody (policy : AlertPolicy) (now : Time) : PipePoint → Reply → Option (Progress × List Effect)
  | .fetching, .fetched (.error e) => some (.ended (.raised e), [])
  | .fetching, .fetched (.ok payload) => some (nextEvaluator reg cfg payload [] (listAt cfg "evaluators"))
  | .evaluating _ _ _ _ _, .evaluated (.error e) => some (.ended (.raised e), [])
  | .evaluating payload _ _ todo validEvents, .evaluated (.ok event) =>
    some (nextEvaluator reg cfg payload (validEvents ++ event.toList) todo)
  | .deciding event todo, .proceed => some (decideEvent reg cfg policy now event todo)
  | .dispatching event tasks todo, .gathered rs =>
    if rs.length = tasks.length then
      some (afterDispatches todo rs, runDispatches (metricIdOf cfg) event tasks rs)
    else none
  | _, _ => none

end Body

/-! ## The layers around it -/

/-- The end of the body and the `except` clauses of `run_pipeline`: what
leaves them, and what they write. An exception that cannot be read leaves
nothing but what reading it raises. -/
def closeBody (id : String) (durationMs : Time) : PipelineEnd → Except Raised Unit × List Effect
  | .passed => (.ok (), [.addResult id true durationMs, .incCheck id .passed])
  | .alerted => (.ok (), [.addResult id true durationMs, .incCheck id .alerted])
  | .cut _ => (.error .cancelledError, [.incCheck id .cancelled])
  | .raised e =>
    match e.unread? with
    | some e' => (.error (.exception e'), [])
    | none =>
      if isCircuitOpen e then (.ok (), [.incCheck id .skipped, .addResult id false durationMs])
      else (.error (.exception e), [.addResult id false durationMs, .incCheck id .failed])

/-- `except Exception` and `else` of `CircuitBreaker.call`. -/
def exitCall (cbEnabled : Bool) (id : String) (now : Time) : Except Raised Unit → List Effect
  | .ok () => if cbEnabled then [.callElse id] else []
  | .error (.exception _) => if cbEnabled then [.callExcept id now] else []
  | .error .cancelledError => []

/-- `wait_for` turns the cancellation by its own timer into `TimeoutError`. -/
def waitFor (r : Except Raised Unit) : PipelineEnd → Except Raised Unit
  | .cut true => .error (.exception timeoutError)
  | _ => r

/-- `except asyncio.TimeoutError` around `wait_for`. -/
def exceptTimeout (id : String) (durationMs : Time) : Except Raised Unit → Except Raised Unit × List Effect
  | .error (.exception e) =>
    if e.isInstance .timeoutError then (.ok (), [.addResult id false durationMs, .incCheck id .timeout])
    else (.error (.exception e), [])
  | r => (r, [])

/-- From the end of the pipeline out of `_bounded_execute`. -/
def leave (f : Frame) (id : String) (startTime now : Time) (e : PipelineEnd) : Point × List Effect :=
  let body := closeBody id ((now - startTime) * 1000) e
  let outer := exceptTimeout id ((now - f.startOuter) * 1000) (waitFor body.1 e)
  (.finished (some e) outer.1,
    body.2 ++ [.inflightDec id] ++ exitCall f.cbEnabled id now body.1 ++ [.releaseInflight id] ++
      outer.2 ++ [.release])

/-- The coroutine after the body: at its new point, or out. -/
def settle (f : Frame) (id : String) (startTime now : Time) : Progress → Point × List Effect
  | .paused p => (.running f startTime p, [])
  | .ended e => leave f id startTime now e

/-- Out of `_bounded_execute` with no pipeline started. -/
def leaveUnstarted (f : Frame) (id : String) (now : Time) (e : Exc) : Point × List Effect :=
  let outer := exceptTimeout id ((now - f.startOuter) * 1000) (.error (.exception e))
  (.finished none outer.1, outer.2 ++ [.release])

/-- The timer of `wait_for` is due. -/
def Frame.due (f : Frame) (now : Time) : Bool := f.timeoutSeconds.le (.finite (now - f.startOuter))

section Resume

variable (reg : Registry) (x : Executor) (cfg : PyDict) (clk : Clock)

/-- Through `async with self._semaphore`, `for_check` and into `wait_for`. -/
def enterCheck : Option (Point × List Effect) :=
  let id := metricIdOf cfg
  if x.semaphore = 0 then none
  else match ResilienceManager.forCheck x.resilience id (dictAt cfg "resilience") with
    | .error e => some (.finished none (.error (.exception e)), [.acquire, .release])
    | .ok (_, r) =>
      some (.waiting ⟨clk.perf, r.timeoutSeconds, r.cbEnabled⟩,
        [.acquire, .forCheck id (dictAt cfg "resilience")])

/-- Through the check's semaphore and the admission of its breaker, into
`run_pipeline`. `wait_for` starts nothing when its time is not positive. -/
def enterPipeline (f : Frame) : Option (Point × List Effect) :=
  let id := metricIdOf cfg
  let start := fun (es : List Effect) =>
    let b := startBody reg cfg
    let s := settle f id clk.perf clk.perf b.1
    some (s.1, .acquireInflight id :: es ++ [.incCheck id .started, .inflightInc id] ++ b.2 ++ s.2)
  match x.resilience.lookup id with
  | none => none
  | some r =>
    if r.semaphore = 0 || f.timeoutSeconds.le (.finite 0) then none
    else if f.cbEnabled then
      match r.circuitBreaker.callEnter clk.perf with
      | .ok _ => start [.callEnter id clk.perf]
      | .error e =>
        let s := leaveUnstarted f id clk.perf e
        some (s.1, [.acquireInflight id, .callEnter id clk.perf, .releaseInflight id] ++ s.2)
    else start []

/-- One step of the coroutine. -/
def resume : Point → Reply → Option (Point × List Effect)
  | .queued, .granted => enterCheck x cfg clk
  | .queued, .cancel [] => some (.finished none (.error .cancelledError), [])
  | .waiting f, .granted => enterPipeline reg x cfg clk f
  | .waiting f, .timeout [] =>
    if f.due clk.perf then some (leaveUnstarted f (metricIdOf cfg) clk.perf timeoutError) else none
  | .waiting _, .cancel [] => some (.finished none (.error .cancelledError), [.release])
  | .running f startTime p, .timeout rs =>
    if f.due clk.perf && p.suspended && rs.length == p.tasks.length then
      let s := leave f (metricIdOf cfg) startTime clk.perf (.cut true)
      some (s.1, p.dispatched (metricIdOf cfg) rs ++ s.2)
    else none
  | .running f startTime p, .cancel rs =>
    if p.suspended && rs.length == p.tasks.length then
      let s := leave f (metricIdOf cfg) startTime clk.perf (.cut false)
      some (s.1, p.dispatched (metricIdOf cfg) rs ++ s.2)
    else none
  | .running f startTime p, reply => (resumeBody reg cfg x.policy clk.wall p reply).map fun b =>
      let s := settle f (metricIdOf cfg) startTime clk.perf b.1
      (s.1, b.2 ++ s.2)
  | _, _ => none

end Resume

end SentinelFlow
