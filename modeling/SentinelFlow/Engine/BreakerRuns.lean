/-
The breaker of a check under the executor. Every pipeline with an enabled
breaker runs inside `CircuitBreaker.call`, so a run of the engine is, seen
from one check, a run of the calls of `BreakerCalls`: `linked_run` is that
refinement, whatever the other checks do.

What a pipeline's end does to the breaker depends on how it ended. An
exception is the failure step; the timer of `wait_for` cuts the call with a
`CancelledError`, which is no step at all.
-/
import SentinelFlow.Engine.Reports
import SentinelFlow.Runtime.BreakerCalls

namespace SentinelFlow

open Machine Engine
open BreakerCalls (CallEvent Trace Calls onCall)

/-! ## The calls in a log -/

/-- The call step an effect is for the breaker of a check. -/
def Effect.callEvent? (id : String) (task : ℕ) (now : Time) : Effect → Option (Time × CallEvent)
  | .callEnter i t => if i = id then some (t, .enter task) else none
  | .callExcept i t => if i = id then some (t, .fail task) else none
  | .callElse i => if i = id then some (now, .succeed task) else none
  | .incCheck i .cancelled => if i = id then some (now, .cancel task) else none
  | _ => none

def callsIn (id : String) (task : ℕ) (now : Time) (es : List Effect) : Trace :=
  es.filterMap (Effect.callEvent? id task now)

def calls (id : String) (log : List Happened) : Trace :=
  log.flatMap fun o => callsIn id o.task o.clock.perf o.effects

/-- How a call ends whose pipeline ended so. -/
def PipelineEnd.callEvent (task : ℕ) : PipelineEnd → CallEvent
  | .passed | .alerted => .succeed task
  | .raised e => if isCircuitOpen e then .succeed task else .fail task
  | .cut _ => .cancel task

@[simp] theorem callsIn_append (id : String) (task : ℕ) (now : Time) (es fs : List Effect) :
    callsIn id task now (es ++ fs) = callsIn id task now es ++ callsIn id task now fs := List.filterMap_append

theorem calls_concat (id : String) (log : List Happened) (o : Happened) :
    calls id (log ++ [o]) = calls id log ++ callsIn id o.task o.clock.perf o.effects := by
  simp [calls]

section CallsIn

variable {id : String} {task : ℕ} {now : Time} {es : List Effect}

theorem callsIn_ofBody {id' : String} (h : ∀ e ∈ es, e.OfBody id') : callsIn id task now es = [] := by
  rw [callsIn, List.filterMap_eq_nil_iff]
  intro e he
  have := h e he
  cases e <;> first | rfl | cases this

/-- Another check's effects are no calls of this one. -/
theorem callsIn_ne {id' : String} (h : ∀ e ∈ es, e.Within id') (hne : id ≠ id') :
    callsIn id task now es = [] := by
  rw [callsIn, List.filterMap_eq_nil_iff]
  intro e he
  have key : ∀ i, e.checkId? = some i → i ≠ id := fun i hi h' => hne (h'.symm.trans (h e he i hi))
  cases e with
  | callEnter i t => simp [Effect.callEvent?, key i rfl]
  | callExcept i t => simp [Effect.callEvent?, key i rfl]
  | callElse i => simp [Effect.callEvent?, key i rfl]
  | incCheck i status => cases status <;> simp [Effect.callEvent?, key i rfl]
  | _ => rfl

theorem callsIn_exceptTimeout {d : Time} {r : Except Raised Unit} :
    callsIn id task now (exceptTimeout id d r).2 = [] := by
  unfold exceptTimeout
  split
  · split <;> rfl
  · rfl

theorem callsIn_leaveUnstarted {f : Frame} {t : Time} {x : Exc} :
    callsIn id task now (leaveUnstarted f id t x).2 = [] := by
  rw [leaveUnstarted, callsIn_append, callsIn_exceptTimeout]
  rfl

/-- A pipeline under an enabled breaker ends in one call step. -/
theorem callsIn_leave {f : Frame} {st : Time} {e : PipelineEnd} (hcb : f.cbEnabled = true) :
    callsIn id task now (leave f id st now e).2 = [(now, e.callEvent task)] := by
  have hone : ∀ ev : Effect, ev.checkId? = none ∨ (∃ i, ev = .inflightDec i) ∨ (∃ i, ev = .releaseInflight i) →
      callsIn id task now [ev] = [] := by
    rintro ev (h | ⟨i, rfl⟩ | ⟨i, rfl⟩)
    · cases ev <;> first | rfl | cases h
    · rfl
    · rfl
  simp only [leave, callsIn_append, callsIn_exceptTimeout, hone (.inflightDec id) (.inr (.inl ⟨id, rfl⟩)),
    hone (.releaseInflight id) (.inr (.inr ⟨id, rfl⟩)), hone .release (.inl rfl), List.append_nil]
  cases e with
  | passed | alerted | cut => simp [closeBody, exitCall, hcb, callsIn, Effect.callEvent?, PipelineEnd.callEvent]
  | raised e =>
    rcases closeBody_raised id ((now - st) * 1000) e with ⟨hco, -, hb⟩ | ⟨hco, -, hb⟩ | ⟨e', hco, -, hb⟩ <;>
      rw [hb] <;> simp [exitCall, hcb, hco, callsIn, Effect.callEvent?, PipelineEnd.callEvent]

end CallsIn

/-! ## The shape of a step, seen from the breaker -/

/-- What the invocation holds from `for_check` on. -/
def Point.frame? : Point → Option Frame
  | .waiting f | .running f _ _ => some f
  | _ => none

def Point.isRunning : Point → Bool
  | .running _ _ _ => true
  | _ => false

def Reply.isGranted : Reply → Bool
  | .granted => true
  | _ => false

/-- What a step can be for the breaker of its own check. -/
inductive CallShape (x : Executor) (id : String) (task : ℕ) (now : Time) (p : Point) (reply : Reply)
    (p' : Point) : Trace → Prop where
  | silent : p'.isRunning = p.isRunning → p'.ending? = none → CallShape x id task now p reply p' []
  | refused {r e} : p.isRunning = false → p'.isRunning = false → p'.ending? = none → reply.isGranted = true →
      x.resilience.lookup id = some r → r.circuitBreaker.callEnter now = .error e →
      CallShape x id task now p reply p' [(now, .enter task)]
  | admitted {r b} : p.isRunning = false → p'.isRunning = true → p'.ending? = none → reply.isGranted = true →
      x.resilience.lookup id = some r → r.circuitBreaker.callEnter now = .ok b →
      CallShape x id task now p reply p' [(now, .enter task)]
  | endedAtOnce {r b e} : p.isRunning = false → p'.ending? = some e → reply.isGranted = true →
      x.resilience.lookup id = some r → r.circuitBreaker.callEnter now = .ok b →
      CallShape x id task now p reply p' [(now, .enter task), (now, e.callEvent task)]
  | ended {e} : p.isRunning = true → p'.ending? = some e →
      CallShape x id task now p reply p' [(now, e.callEvent task)]

theorem Resumes.callShape {reg : Registry} {x : Executor} {cfg : PyDict} {clk : Clock} {p p' : Point}
    {reply : Reply} {es : List Effect} (h : Resumes reg x cfg clk p reply p' es) (task : ℕ)
    (hcb : ∀ f, p.frame? = some f → f.cbEnabled = true) :
    CallShape x (metricIdOf cfg) task clk.perf p reply p' (callsIn (metricIdOf cfg) task clk.perf es) := by
  cases h with
  | refused | entered | cancelledQueued | cancelledWaiting => exact .silent rfl rfl
  | timedOutWaiting =>
    rw [callsIn_leaveUnstarted]
    exact .silent rfl rfl
  | rejected hl hs hcb' he =>
    rw [callsIn_append, callsIn_leaveUnstarted]
    simp only [rejectEffects, callsIn, Effect.callEvent?, List.filterMap_cons, if_true,
      List.filterMap_nil, List.append_nil]
    exact .refused rfl rfl rfl rfl hl he
  | @started f r hl hs hok =>
    obtain ⟨b, hb⟩ := hok (hcb f rfl)
    have hstart : callsIn (metricIdOf cfg) task clk.perf (startEffects f.cbEnabled (metricIdOf cfg) clk.perf) =
        [(clk.perf, .enter task)] := by
      simp [startEffects, hcb f rfl, callsIn, Effect.callEvent?, List.filterMap_cons]
    rw [callsIn_append, callsIn_append, hstart,
      callsIn_ofBody ofBody_startBody]
    cases (startBody reg cfg).1 with
    | paused q => exact .admitted rfl rfl rfl rfl hl hb
    | ended e =>
      rw [settle, callsIn_leave (hcb f rfl)]
      exact .endedAtOnce rfl rfl rfl hl hb
  | @body f st q reply prog bs hb =>
    rw [callsIn_append, callsIn_ofBody (ofBody_resumeBody hb)]
    cases prog with
    | paused q' => exact .silent rfl rfl
    | ended e =>
      rw [settle, callsIn_leave (hcb f rfl)]
      exact .ended rfl rfl
  | @timedOut f | @cancelled f =>
    rw [callsIn_append, callsIn_ofBody ofBody_dispatched, callsIn_leave (hcb f rfl)]
    exact .ended rfl rfl

/-! ## The resilience object after a step -/

def Effect.isForCheck : Effect → Bool
  | .forCheck _ _ => true
  | _ => false

theorem Executor.apply_entry (x : Executor) {e : Effect} (he : e.isForCheck = false) {id : String}
    {r : CheckResilience} (hl : x.resilience.lookup id = some r) (task : ℕ) (now : Time) :
    ∃ r', (x.apply e).resilience.lookup id = some r' ∧ r'.cbEnabled = r.cbEnabled ∧
      r'.circuitBreaker = (e.callEvent? id task now).toList.foldl onCall r.circuitBreaker := by
  have hcheck : ∀ (i : String) (f : CheckResilience → CheckResilience), (x.onCheck i f).resilience.lookup id =
      some (if i = id then f r else r) := by
    intro i f
    by_cases hi : i = id
    · subst hi
      rw [Executor.onCheck_lookup_self, hl, if_pos rfl]
      rfl
    · rw [Executor.onCheck_lookup_ne _ _ (Ne.symm hi), hl, if_neg hi]
  cases e with
  | forCheck i cfg => cases he
  | acquireInflight i | releaseInflight i =>
    refine ⟨_, hcheck i _, ?_, ?_⟩ <;> by_cases hi : i = id <;> simp [hi, Effect.callEvent?]
  | callEnter i t | callExcept i t | callElse i =>
    refine ⟨_, hcheck i _, ?_, ?_⟩ <;> by_cases hi : i = id <;> simp [hi, Effect.callEvent?, onCall]
  | incCheck i status =>
    refine ⟨r, hl, rfl, ?_⟩
    cases status <;> simp only [Effect.callEvent?] <;> first | rfl | (split <;> rfl)
  | _ => exact ⟨r, hl, rfl, rfl⟩

theorem Executor.applyAll_entry {es : List Effect} (hes : ∀ e ∈ es, e.isForCheck = false)
    {id : String} (task : ℕ) (now : Time) :
    ∀ {x : Executor} {r : CheckResilience}, x.resilience.lookup id = some r →
      ∃ r', (x.applyAll es).resilience.lookup id = some r' ∧ r'.cbEnabled = r.cbEnabled ∧
        r'.circuitBreaker = (callsIn id task now es).foldl onCall r.circuitBreaker := by
  induction es with
  | nil => exact fun {x r} hl => ⟨r, hl, rfl, rfl⟩
  | cons e es ih =>
    intro x r hl
    rw [List.forall_mem_cons] at hes
    obtain ⟨r₁, hl₁, hcb₁, hb₁⟩ := x.apply_entry hes.1 hl task now
    obtain ⟨r₂, hl₂, hcb₂, hb₂⟩ := ih hes.2 hl₁
    refine ⟨r₂, hl₂, hcb₂.trans hcb₁, ?_⟩
    rw [hb₂, hb₁, callsIn, callsIn, List.filterMap_cons]
    cases Effect.callEvent? id task now e <;> rfl

theorem Effect.OfBody.notForCheck {id : String} {e : Effect} (h : e.OfBody id) : e.isForCheck = false := by
  cases e <;> first | rfl | cases h

theorem Effect.OfExit.notForCheck {id : String} {e : Effect} (h : e.OfExit id) : e.isForCheck = false := by
  cases e <;> first | rfl | cases h

/-- Only entering asks for a resilience object. -/
theorem Resumes.notForCheck {reg : Registry} {x : Executor} {cfg : PyDict} {clk : Clock}
    {p p' : Point} {reply : Reply} {es : List Effect} (h : Resumes reg x cfg clk p reply p' es)
    (hp : p ≠ .queued) : ∀ e ∈ es, e.isForCheck = false := by
  cases h with
  | refused | entered | cancelledQueued => exact absurd rfl hp
  | cancelledWaiting => simp [Effect.isForCheck]
  | timedOutWaiting => exact fun e he => (ofExit_leaveUnstarted e he).notForCheck
  | rejected =>
    rw [List.forall_mem_append]
    exact ⟨by simp [rejectEffects, Effect.isForCheck], fun e he => (ofExit_leaveUnstarted e he).notForCheck⟩
  | @started f =>
    rw [List.forall_mem_append, List.forall_mem_append]
    refine ⟨?_, fun e he => (ofBody_startBody e he).notForCheck,
      fun e he => (ofExit_settle e he).notForCheck⟩
    unfold startEffects
    split <;> simp [Effect.isForCheck]
  | body hb =>
    rw [List.forall_mem_append]
    exact ⟨fun e he => (ofBody_resumeBody hb e he).notForCheck, fun e he => (ofExit_settle e he).notForCheck⟩
  | timedOut | cancelled =>
    rw [List.forall_mem_append]
    exact ⟨fun e he => (ofBody_dispatched e he).notForCheck, fun e he => (ofExit_leave e he).notForCheck⟩

/-! ## The endings in a log -/

/-- How the pipelines of a check ended, and when. -/
def endings (cfgOf : ℕ → PyDict) (id : String) (log : List Happened) : List (Time × PipelineEnd) :=
  log.filterMap fun o => if metricIdOf (cfgOf o.task) = id then o.point.ending?.map (o.clock.perf, ·) else none

/-- The execution ended in an exception. -/
def PipelineEnd.threw : PipelineEnd → Bool
  | .raised e => !isCircuitOpen e
  | _ => false

/-- `run_pipeline` returned. -/
def PipelineEnd.returned : PipelineEnd → Bool
  | .passed | .alerted => true
  | .raised e => isCircuitOpen e
  | .cut _ => false

/-- How many executions ended in an exception since the last one that returned. -/
def throwsSinceReturn (ends : List (Time × PipelineEnd)) : ℕ :=
  (ends.reverse.takeWhile fun x => !x.2.returned).countP (·.2.threw)

theorem throwsSinceReturn_concat (ends : List (Time × PipelineEnd)) (now : Time) (e : PipelineEnd) :
    throwsSinceReturn (ends ++ [(now, e)]) =
      if e.returned then 0 else throwsSinceReturn ends + if e.threw then 1 else 0 := by
  unfold throwsSinceReturn
  by_cases hr : e.returned = true
  · simp [hr]
  · by_cases ht : e.threw = true <;> simp [hr, ht]

theorem failuresSinceSuccess_callEvent (tr : Trace) (now : Time) (task : ℕ) (e : PipelineEnd) :
    BreakerCalls.failuresSinceSuccess (tr ++ [(now, e.callEvent task)]) =
      if e.returned then 0 else BreakerCalls.failuresSinceSuccess tr + if e.threw then 1 else 0 := by
  cases e with
  | passed | alerted | cut => simp [PipelineEnd.callEvent, PipelineEnd.returned, PipelineEnd.threw]
  | raised x =>
    by_cases hco : isCircuitOpen x = true <;>
      simp [PipelineEnd.callEvent, PipelineEnd.returned, PipelineEnd.threw, hco]

@[simp] theorem callEvent_id (task : ℕ) (e : PipelineEnd) : (e.callEvent task).id = task := by
  cases e with
  | passed | alerted | cut => rfl
  | raised x => by_cases hco : isCircuitOpen x = true <;> simp [PipelineEnd.callEvent, hco, CallEvent.id]

theorem callEvent_isEnter (task : ℕ) (e : PipelineEnd) : (e.callEvent task).isEnter = false := by
  cases e with
  | passed | alerted | cut => rfl
  | raised x => by_cases hco : isCircuitOpen x = true <;> simp [PipelineEnd.callEvent, hco, CallEvent.isEnter]

theorem callEvent_isFailure (task : ℕ) (e : PipelineEnd) : (e.callEvent task).isFailure = e.threw := by
  cases e with
  | passed | alerted | cut => rfl
  | raised x =>
    by_cases hco : isCircuitOpen x = true <;>
      simp [PipelineEnd.callEvent, hco, CallEvent.isFailure, PipelineEnd.threw]

/-! ## The refinement -/

/-- What a trace of calls tells, a list of endings tells too. -/
structure Tells (tr : Trace) (ends : List (Time × PipelineEnd)) : Prop where
  counted : BreakerCalls.failuresSinceSuccess tr = throwsSinceReturn ends
  last : (BreakerCalls.lastEnd tr).map (fun e => (e.1, e.2.isFailure)) =
    ends.getLast?.map fun x => (x.1, x.2.threw)

theorem Tells.ended {tr : Trace} {ends : List (Time × PipelineEnd)} (h : Tells tr ends) (now : Time) (task : ℕ)
    (e : PipelineEnd) : Tells (tr ++ [(now, e.callEvent task)]) (ends ++ [(now, e)]) where
  counted := by rw [failuresSinceSuccess_callEvent, throwsSinceReturn_concat, h.counted]
  last := by rw [BreakerCalls.lastEnd_end _ (callEvent_isEnter task e)]; simp [callEvent_isFailure]

theorem Tells.entered {tr : Trace} {ends : List (Time × PipelineEnd)} (h : Tells tr ends) (now : Time)
    (task : ℕ) :
    Tells (tr ++ [(now, .enter task)]) ends where
  counted := by rw [BreakerCalls.failuresSinceSuccess_enter, h.counted]
  last := by rw [BreakerCalls.lastEnd_enter, h.last]

/-- The calls in the log are a run of the breaker's calls, with the check's
running pipelines in flight; they tell of the endings in the log. -/
structure LinkedTo (cfgOf : ℕ → PyDict) (id : String) (s : Engine) (log : List Happened)
    (r : CheckResilience) : Prop where
  frames : ∀ t f, metricIdOf (cfgOf t) = id → (s.point t).frame? = some f → f.cbEnabled = true
  run : ∃ c as, run BreakerCalls.step
      (BreakerCalls.fresh r.circuitBreaker.failureThreshold r.circuitBreaker.resetTimeoutSeconds)
      (calls id log) = some (c, as) ∧
    c.breaker = r.circuitBreaker ∧ c.inFlight.Nodup ∧
    ∀ t, t ∈ c.inFlight ↔ metricIdOf (cfgOf t) = id ∧ (s.point t).isRunning = true
  tells : Tells (calls id log) (endings cfgOf id log)

theorem Point.notRunning_of_ending {p : Point} {e : PipelineEnd} (h : p.ending? = some e) :
    p.isRunning = false ∧ p.frame? = none := by
  obtain ⟨r, rfl⟩ := Point.ending?_eq_some.1 h
  exact ⟨rfl, rfl⟩

theorem Point.notRunning_of_frame {p : Point} (h : p.frame? = none) : p.isRunning = false := by
  cases p <;> first | rfl | cases h

theorem settle_frame (f : Frame) (id : String) (st now : Time) (prog : Progress) :
    (settle f id st now prog).1.frame? = none ∨ (settle f id st now prog).1.frame? = some f := by
  cases prog with
  | paused p => exact .inr rfl
  | ended e => exact .inl rfl

/-- Past `for_check` an invocation keeps its frame until it is over. -/
theorem Resumes.frame {reg : Registry} {x : Executor} {cfg : PyDict} {clk : Clock} {p p' : Point}
    {reply : Reply} {es : List Effect} (h : Resumes reg x cfg clk p reply p' es) (hp : p ≠ .queued) :
    p'.frame? = none ∨ p'.frame? = p.frame? := by
  cases h with
  | refused | entered | cancelledQueued => exact absurd rfl hp
  | cancelledWaiting | timedOutWaiting | rejected | timedOut | cancelled => exact .inl rfl
  | started | body => exact settle_frame _ _ _ _ _

/-- A step of the check's own, on the calls. -/
theorem CallShape.calls_run {x : Executor} {id : String} {task : ℕ} {now : Time} {p p' : Point}
    {reply : Reply} {evs : Trace} (h : CallShape x id task now p reply p' evs) {c : Calls}
    {r : CheckResilience} (hl : x.resilience.lookup id = some r) (hb : c.breaker = r.circuitBreaker)
    (hn : c.inFlight.Nodup) (hin : task ∈ c.inFlight ↔ p.isRunning = true) :
    ∃ c' as, run BreakerCalls.step c evs = some (c', as) ∧ c'.inFlight.Nodup ∧
      ∀ t, t ∈ c'.inFlight ↔ if t = task then p'.isRunning = true else t ∈ c.inFlight := by
  have hend : ∀ (d : Calls) (e : PipelineEnd), task ∈ d.inFlight →
      ∃ d', BreakerCalls.step d (now, e.callEvent task) = some (d', .finished) ∧
        d'.inFlight = d.inFlight.erase task := by
    intro d e hd
    refine ⟨_, BreakerCalls.step_end (fun i hi => ?_) (by simpa using hd), by simp⟩
    have := callEvent_isEnter task e
    simp only at hi
    rw [hi] at this
    cases this
  cases h with
  | silent hrun _ =>
    refine ⟨c, [], rfl, hn, fun t => ?_⟩
    by_cases ht : t = task
    · subst ht
      simp [hin, hrun]
    · simp [ht]
  | refused hp hp' _ _ hl' he =>
    rw [hl] at hl'
    cases hl'
    have hnot : task ∉ c.inFlight := by simp [hin, hp]
    have hrej : BreakerCalls.step c (now, .enter task) = some (c, .rejected) :=
      BreakerCalls.step_rejected hnot (hb ▸ he)
    refine ⟨c, [.rejected], run_cons.2 ⟨c, _, [], hrej, rfl, rfl⟩, hn, fun t => ?_⟩
    by_cases ht : t = task
    · subst ht
      simp [hnot, hp']
    · simp [ht]
  | admitted hp hp' _ _ hl' hok =>
    rw [hl] at hl'
    cases hl'
    have hnot : task ∉ c.inFlight := by simp [hin, hp]
    have hadm := BreakerCalls.step_admitted hnot (hb ▸ hok)
    refine ⟨_, [.admitted], run_cons.2 ⟨_, _, [], hadm, rfl, rfl⟩, List.nodup_cons.2 ⟨hnot, hn⟩,
      fun t => ?_⟩
    by_cases ht : t = task
    · simp [ht, hp']
    · simp [ht]
  | @endedAtOnce _ b e hp hp' _ hl' hok =>
    rw [hl] at hl'
    cases hl'
    have hnot : task ∉ c.inFlight := by simp [hin, hp]
    obtain ⟨d', hd, hfl⟩ := hend ⟨b, task :: c.inFlight⟩ e (by simp)
    rw [List.erase_cons_head] at hfl
    have hadm := BreakerCalls.step_admitted hnot (hb ▸ hok)
    have hfin : run BreakerCalls.step ⟨b, task :: c.inFlight⟩ [(now, e.callEvent task)] =
        some (d', [.finished]) := run_cons.2 ⟨d', _, [], hd, rfl, rfl⟩
    refine ⟨d', [.admitted, .finished], run_cons.2 ⟨_, _, _, hadm, hfin, rfl⟩, hfl ▸ hn, fun t => ?_⟩
    rw [hfl]
    by_cases ht : t = task
    · subst ht
      simp [hnot, (Point.notRunning_of_ending hp').1]
    · simp [ht]
  | ended hp hp' =>
    obtain ⟨d', hd, hfl⟩ := hend c _ (hin.2 hp)
    refine ⟨d', [.finished], run_cons.2 ⟨d', _, [], hd, rfl, rfl⟩, hfl ▸ hn.erase task, fun t => ?_⟩
    rw [hfl, hn.mem_erase_iff]
    by_cases ht : t = task
    · subst ht
      simp [(Point.notRunning_of_ending hp').1]
    · simp [ht]

theorem CallShape.tells {x : Executor} {id : String} {task : ℕ} {now : Time} {p p' : Point}
    {reply : Reply} {evs : Trace} (h : CallShape x id task now p reply p' evs) {tr : Trace}
    {ends : List (Time × PipelineEnd)} (ht : Tells tr ends) :
    Tells (tr ++ evs) (ends ++ (p'.ending?.map (now, ·)).toList) := by
  cases h with
  | silent _ he => simpa [he] using ht
  | refused _ _ he | admitted _ _ he => simpa [he] using ht.entered now task
  | endedAtOnce _ he =>
    have := (ht.entered now task).ended now task
    simpa [he, List.append_assoc] using this _
  | ended _ he => simpa [he] using ht.ended now task _

section Step

variable {reg : Registry} {cfgOf : ℕ → PyDict} {s s' : Engine} {i : Input} {o : Happened} {id : String}
  {log : List Happened} {r : CheckResilience}

theorem endings_concat (cfgOf : ℕ → PyDict) (id : String) (log : List Happened) (o : Happened) :
    endings cfgOf id (log ++ [o]) = endings cfgOf id log ++
      (if metricIdOf (cfgOf o.task) = id then (o.point.ending?.map (o.clock.perf, ·)).toList else []) := by
  unfold endings
  rw [List.filterMap_append]
  congr 1
  by_cases hid : metricIdOf (cfgOf o.task) = id
  · cases he : o.point.ending? <;> simp [hid, he]
  · simp [hid]

/-- A step of another check's moves nothing of this one. -/
theorem step_other (hs : step reg cfgOf s i = some (s', o)) (hid : metricIdOf (cfgOf i.task) ≠ id)
    (log : List Happened) :
    s'.executor.resilience.lookup id = s.executor.resilience.lookup id ∧
      (∀ t, metricIdOf (cfgOf t) = id → s'.point t = s.point t) ∧
      calls id (log ++ [o]) = calls id log ∧ endings cfgOf id (log ++ [o]) = endings cfgOf id log := by
  obtain ⟨hr, hx, -, hne, ho, -⟩ := step_resumes hs
  refine ⟨?_, fun t ht => hne t fun h => hid (h ▸ ht), ?_, ?_⟩
  · rw [hx]
    exact (Executor.applyAll_frame hr.within (Ne.symm hid) _).1
  · rw [calls_concat, callsIn_ne hr.within (Ne.symm hid), List.append_nil]
  · rw [endings_concat, ho, if_neg hid, List.append_nil]

theorem LinkedTo.other (h : LinkedTo cfgOf id s log r) (hs : step reg cfgOf s i = some (s', o))
    (hid : metricIdOf (cfgOf i.task) ≠ id) : LinkedTo cfgOf id s' (log ++ [o]) r := by
  obtain ⟨-, hpoint, hcalls, hends⟩ := step_other hs hid log
  refine ⟨fun t f ht hf => h.frames t f ht (hpoint t ht ▸ hf), ?_, ?_⟩
  · obtain ⟨c, as, hrun, hb, hn, hin⟩ := h.run
    refine ⟨c, as, hcalls ▸ hrun, hb, hn, fun t => (hin t).trans ?_⟩
    by_cases ht : metricIdOf (cfgOf t) = id
    · simp [ht, hpoint t ht]
    · simp [ht]
  · rw [hcalls, hends]
    exact h.tells

/-- A step of the check's own, past `for_check`. -/
theorem LinkedTo.own (h : LinkedTo cfgOf id s log r) (hs : step reg cfgOf s i = some (s', o))
    (hid : metricIdOf (cfgOf i.task) = id) (hp : s.point i.task ≠ .queued)
    (hl : s.executor.resilience.lookup id = some r) :
    ∃ r', s'.executor.resilience.lookup id = some r' ∧ r'.cbEnabled = r.cbEnabled ∧
      r'.circuitBreaker.failureThreshold = r.circuitBreaker.failureThreshold ∧
      r'.circuitBreaker.resetTimeoutSeconds = r.circuitBreaker.resetTimeoutSeconds ∧
      LinkedTo cfgOf id s' (log ++ [o]) r' := by
  obtain ⟨hr, hx, hp', hne, ho, hc⟩ := step_resumes hs
  subst hid
  have hshape := hr.callShape i.task fun f hf => h.frames _ f rfl hf
  obtain ⟨r', hl', hcb', hb'⟩ := Executor.applyAll_entry (hr.notForCheck hp) i.task i.clock.perf hl
  obtain ⟨c, as, hrun, hb, hn, hin⟩ := h.run
  obtain ⟨c', as', hrun', hn', hin'⟩ := hshape.calls_run hl hb hn ((hin i.task).trans (by simp))
  have hcalls : calls (metricIdOf (cfgOf i.task)) (log ++ [o]) = calls (metricIdOf (cfgOf i.task)) log ++
      callsIn (metricIdOf (cfgOf i.task)) i.task i.clock.perf o.effects := by rw [calls_concat, ho, hc]
  have hparams := BreakerCalls.foldl_onCall_params
    (callsIn (metricIdOf (cfgOf i.task)) i.task i.clock.perf o.effects) r.circuitBreaker
  rw [← hb'] at hparams
  have hframe : ∀ f, o.point.frame? = some f → f.cbEnabled = true := by
    intro f hf
    rcases hr.frame hp with hnone | hsame
    · rw [hnone] at hf
      cases hf
    · exact h.frames _ f rfl (hsame ▸ hf)
  have hframes := forall_point hs
    (P := fun t p => ∀ f, metricIdOf (cfgOf t) = metricIdOf (cfgOf i.task) →
      p.frame? = some f → f.cbEnabled = true)
    (fun f _ => hframe f) fun t _ f ht => h.frames t f ht
  refine ⟨r', hx ▸ hl', hcb', hparams.1, hparams.2, fun t f => hframes t f,
    ⟨c', as ++ as', ?_, ?_, hn', fun t => ?_⟩, ?_⟩
  · rw [hparams.1, hparams.2, hcalls]
    exact run_append.2 ⟨c, as, as', hrun, hrun', rfl⟩
  · rw [BreakerCalls.run_breaker hrun', hb, hb']
  · rw [hin' t]
    by_cases hti : t = i.task
    · subst hti
      simp [hp']
    · simp only [hti, if_false, hne t hti]
      exact hin t
  · rw [hcalls, endings_concat, ho, hc, if_pos rfl]
    exact hshape.tells h.tells

/-- What a run keeps of a check: no call and no ending before its resilience
object is built, and from then on the calls of its breaker. -/
structure Linked (cfgOf : ℕ → PyDict) (id : String) (s : Engine) (log : List Happened) : Prop where
  unbuilt : s.executor.resilience.lookup id = none → calls id log = [] ∧ endings cfgOf id log = [] ∧
    ∀ t, metricIdOf (cfgOf t) = id → (s.point t).frame? = none
  built : ∀ r, s.executor.resilience.lookup id = some r → r.cbEnabled = true → LinkedTo cfgOf id s log r

theorem forCheck_lookup {m m' : ResilienceManager} {cfg : PyDict}
    (h : ResilienceManager.forCheck m id cfg = .ok (m', r)) :
    (m.lookup id = some r ∧ m' = m) ∨
      (m.lookup id = none ∧ ResilienceManager.build cfg = .ok r ∧ m'.lookup id = some r) := by
  unfold ResilienceManager.forCheck at h
  cases hl : m.lookup id with
  | some r₀ =>
    rw [hl] at h
    cases h
    exact .inl ⟨rfl, rfl⟩
  | none =>
    rw [hl] at h
    cases hb : ResilienceManager.build cfg with
    | error e => rw [hb] at h; cases h
    | ok r₀ =>
      rw [hb] at h
      cases h
      exact .inr ⟨rfl, rfl, AList.lookup_insert _⟩

/-- Entering the check is silent for its breaker. -/
theorem Resumes.arrives {x : Executor} {cfg : PyDict} {clk : Clock} {p' : Point} {reply : Reply}
    {es : List Effect} (h : Resumes reg x cfg clk .queued reply p' es) (id : String) (task : ℕ)
    (now : Time) :
    callsIn id task now es = [] ∧ p'.isRunning = false ∧ p'.ending? = none := by
  cases h with
  | refused | entered | cancelledQueued => exact ⟨rfl, rfl, rfl⟩

theorem arrive_log (hs : Engine.step reg cfgOf s i = some (s', o)) (hq : s.point i.task = .queued) (id : String)
    (log : List Happened) :
    calls id (log ++ [o]) = calls id log ∧ endings cfgOf id (log ++ [o]) = endings cfgOf id log := by
  obtain ⟨hr, -⟩ := step_resumes hs
  rw [hq] at hr
  obtain ⟨hev, -, hend⟩ := hr.arrives id o.task o.clock.perf
  constructor
  · rw [calls_concat, hev, List.append_nil]
  · rw [endings_concat, hend]
    simp

/-- Only an invocation inside `wait_for` is resumed past the first semaphore. -/
theorem Resumes.frame_ne_none {x : Executor} {cfg : PyDict} {clk : Clock} {p p' : Point}
    {reply : Reply} {es : List Effect} (h : Resumes reg x cfg clk p reply p' es) (hp : p ≠ .queued) :
    p.frame? ≠ none := by
  cases h with
  | refused | entered | cancelledQueued => exact absurd rfl hp
  | cancelledWaiting | timedOutWaiting | rejected | started | body | timedOut | cancelled =>
    exact Option.some_ne_none _

/-- A task of the check arrives. -/
theorem LinkedTo.arrive (h : LinkedTo cfgOf id s log r) (hs : Engine.step reg cfgOf s i = some (s', o))
    (hq : s.point i.task = .queued) (hf : ∀ f, o.point.frame? = some f → f.cbEnabled = true) :
    LinkedTo cfgOf id s' (log ++ [o]) r := by
  obtain ⟨hr, -, hp', hne, -, -⟩ := step_resumes hs
  rw [hq] at hr
  obtain ⟨-, hrun', -⟩ := hr.arrives id o.task o.clock.perf
  obtain ⟨hcalls, hends⟩ := arrive_log hs hq id log
  have hframes := forall_point hs
    (P := fun t p => ∀ f, metricIdOf (cfgOf t) = id → p.frame? = some f → f.cbEnabled = true)
    (fun f _ hpf => hf f hpf) fun t _ f ht => h.frames t f ht
  refine ⟨fun t f => hframes t f, ?_, ?_⟩
  · obtain ⟨c, as, hrun, hb, hn, hin⟩ := h.run
    refine ⟨c, as, hcalls ▸ hrun, hb, hn, fun t => (hin t).trans ?_⟩
    by_cases hti : t = i.task
    · subst hti
      rw [hp', hq, hrun']
      exact Iff.rfl
    · rw [hne t hti]
  · rw [hcalls, hends]
    exact h.tells

theorem build_fresh {cfg : PyDict} (h : ResilienceManager.build cfg = .ok r) :
    (BreakerCalls.fresh r.circuitBreaker.failureThreshold r.circuitBreaker.resetTimeoutSeconds).breaker =
      r.circuitBreaker := by
  unfold ResilienceManager.build at h
  obtain ⟨_, -, h⟩ := bind_ok h
  obtain ⟨_, -, h⟩ := bind_ok h
  obtain ⟨_, -, h⟩ := bind_ok h
  obtain ⟨_, -, h⟩ := bind_ok h
  obtain ⟨_, -, h⟩ := bind_ok h
  obtain ⟨_, -, h⟩ := bind_ok h
  cases h
  rfl

/-- The task that arrives has the object built: no call has been made yet. -/
theorem LinkedTo.first (h : calls id log = [] ∧ endings cfgOf id log = [] ∧
      ∀ t, metricIdOf (cfgOf t) = id → (s.point t).frame? = none)
    (hs : Engine.step reg cfgOf s i = some (s', o)) (hq : s.point i.task = .queued) {cfg : PyDict}
    (hb : ResilienceManager.build cfg = .ok r) (hf : ∀ f, o.point.frame? = some f → f.cbEnabled = true) :
    LinkedTo cfgOf id s' (log ++ [o]) r := by
  obtain ⟨h₁, h₂, h₃⟩ := h
  obtain ⟨hr, -⟩ := step_resumes hs
  rw [hq] at hr
  obtain ⟨-, hrun', -⟩ := hr.arrives id o.task o.clock.perf
  obtain ⟨hcalls, hends⟩ := arrive_log hs hq id log
  have hframes := forall_point hs
    (P := fun t p => ∀ f, metricIdOf (cfgOf t) = id → p.frame? = some f → f.cbEnabled = true)
    (fun f _ => hf f) fun t _ f ht hpf => by rw [h₃ t ht] at hpf; cases hpf
  have hidle := forall_point hs (P := fun t p => metricIdOf (cfgOf t) = id → p.isRunning = false)
    (fun _ => hrun') fun t _ ht => Point.notRunning_of_frame (h₃ t ht)
  refine ⟨fun t f => hframes t f, ?_, ?_⟩
  · refine ⟨_, [], by rw [hcalls, h₁]; exact run_nil _, build_fresh hb, List.nodup_nil, fun t => ?_⟩
    simpa [BreakerCalls.fresh] using hidle t
  · rw [hcalls, hends, h₁, h₂]
    exact ⟨rfl, rfl⟩

/-- An object once built is kept. -/
theorem Resumes.arrives_lookup {x : Executor} {cfg : PyDict} {clk : Clock} {p' : Point}
    {reply : Reply} {es : List Effect} (h : Resumes reg x cfg clk .queued reply p' es)
    (hl : x.resilience.lookup (metricIdOf cfg) = some r) :
    (x.applyAll es).resilience.lookup (metricIdOf cfg) = some r := by
  cases h with
  | refused | cancelledQueued => exact hl
  | entered hsem hok =>
    rcases forCheck_lookup hok with ⟨-, rfl⟩ | ⟨hnone, -, -⟩
    · simp only [Executor.applyAll, List.foldl_cons, List.foldl_nil, Executor.apply, hok]
      exact hl
    · rw [hl] at hnone
      cases hnone

theorem Resumes.arrives_frame {x : Executor} {cfg : PyDict} {clk : Clock} {p' : Point} {reply : Reply}
    {es : List Effect} (h : Resumes reg x cfg clk .queued reply p' es)
    (hl : x.resilience.lookup (metricIdOf cfg) = some r) :
    ∀ f, p'.frame? = some f → f.cbEnabled = r.cbEnabled := by
  intro f hf
  cases h with
  | refused | cancelledQueued => cases hf
  | entered hsem hok =>
    cases hf
    rcases forCheck_lookup hok with ⟨hl', -⟩ | ⟨hnone, -, -⟩
    · rw [hl] at hl'
      cases hl'
      rfl
    · rw [hl] at hnone
      cases hnone

theorem Linked.arrive (h : Linked cfgOf id s log) (hs : Engine.step reg cfgOf s i = some (s', o))
    (hid : metricIdOf (cfgOf i.task) = id) (hq : s.point i.task = .queued) :
    Linked cfgOf id s' (log ++ [o]) := by
  obtain ⟨hr, hx, -⟩ := step_resumes hs
  rw [hq] at hr
  obtain ⟨hcalls, hends⟩ := arrive_log hs hq id log
  -- Without a frame the task leaves the object as it is.
  have hplain : s'.executor.resilience.lookup id = s.executor.resilience.lookup id → o.point.frame? = none →
      Linked cfgOf id s' (log ++ [o]) := by
    intro hlook hnone
    refine ⟨fun hl => ?_, fun r hl hcb => (h.built r (hlook ▸ hl) hcb).arrive hs hq fun f hf => ?_⟩
    · obtain ⟨h₁, h₂, h₃⟩ := h.unbuilt (hlook ▸ hl)
      exact ⟨hcalls ▸ h₁, hends ▸ h₂,
        forall_point hs (P := fun t p => metricIdOf (cfgOf t) = id → p.frame? = none)
        (fun _ => hnone) fun t _ => h₃ t⟩
    · rw [hnone] at hf
      cases hf
  have hx' := congrArg Executor.resilience hx
  clear hx
  have hframe : ∀ r : CheckResilience,
      o.point.frame? = some ⟨i.clock.perf, r.timeoutSeconds, r.cbEnabled⟩ → r.cbEnabled = true →
      ∀ f, o.point.frame? = some f → f.cbEnabled = true := by
    intro r hr hcb f hf
    rw [hr] at hf
    cases hf
    exact hcb
  generalize i.reply = reply at hr
  generalize hgp : o.point = p', hge : o.effects = es at *
  cases hr with
  | refused => exact hplain (congrArg (AList.lookup id) hx') rfl
  | cancelledQueued => exact hplain (congrArg (AList.lookup id) hx') rfl
  | @entered m r hsem hok =>
    subst hid
    have happ : s'.executor.resilience = m := by
      rw [hx']
      simp only [Executor.applyAll, List.foldl_cons, List.foldl_nil, Executor.apply, hok]
    rcases forCheck_lookup hok with ⟨hl, rfl⟩ | ⟨hl, hb, hl'⟩
    · refine ⟨fun hnone => ?_, fun r' hr' hcb => ?_⟩
      · rw [happ, hl] at hnone
        cases hnone
      · rw [happ, hl] at hr'
        cases hr'
        exact (h.built r hl hcb).arrive hs hq (hgp ▸ hframe r rfl hcb)
    -- The object is new: no call has been made yet.
    · refine ⟨fun hnone => ?_, fun r' hr' hcb => ?_⟩
      · rw [happ, hl'] at hnone
        cases hnone
      · rw [happ, hl'] at hr'
        cases hr'
        exact LinkedTo.first (h.unbuilt hl) hs hq hb (hgp ▸ hframe r rfl hcb)

/-- Past `for_check` the check has its object. -/
theorem Linked.exists_entry (h : Linked cfgOf id s log) (hs : Engine.step reg cfgOf s i = some (s', o))
    (hid : metricIdOf (cfgOf i.task) = id) (hq : s.point i.task ≠ .queued) :
    ∃ r, s.executor.resilience.lookup id = some r := by
  rw [← Option.ne_none_iff_exists']
  exact fun hnone => (step_resumes hs).1.frame_ne_none hq ((h.unbuilt hnone).2.2 _ hid)

theorem Linked.step (h : Linked cfgOf id s log) (hs : Engine.step reg cfgOf s i = some (s', o)) :
    Linked cfgOf id s' (log ++ [o]) := by
  obtain ⟨hr, hx, hp', hne, ho, hc⟩ := step_resumes hs
  by_cases hid : metricIdOf (cfgOf i.task) = id
  · by_cases hq : s.point i.task = .queued
    · exact h.arrive hs hid hq
    · obtain ⟨r, hl⟩ := h.exists_entry hs hid hq
      obtain ⟨r', hl', hcb', -⟩ := Executor.applyAll_entry (hr.notForCheck hq) i.task i.clock.perf hl
      rw [← hx] at hl'
      refine ⟨fun hnone => ?_, fun r'' hr'' hcb => ?_⟩
      · rw [hl'] at hnone
        cases hnone
      · rw [hl'] at hr''
        cases hr''
        obtain ⟨r₁, hl₁, -, -, -, hlink⟩ := (h.built r hl (hcb' ▸ hcb)).own hs hid hq hl
        rw [hl'] at hl₁
        cases hl₁
        exact hlink
  · obtain ⟨hlook, hpoint, hcalls, hends⟩ := step_other hs hid log
    refine ⟨fun hl => ?_, fun r hl hcb => (h.built r (hlook ▸ hl) hcb).other hs hid⟩
    obtain ⟨h₁, h₂, h₃⟩ := h.unbuilt (hlook ▸ hl)
    refine ⟨hcalls ▸ h₁, hends ▸ h₂, fun t ht => ?_⟩
    rw [hpoint t ht]
    exact h₃ t ht

end Step

theorem linked_start {cfgOf : ℕ → PyDict} {x₀ : Executor} (hx : x₀.resilience = ∅) (id : String) :
    Linked cfgOf id (start x₀) [] := by
  refine ⟨fun _ => ⟨rfl, rfl, fun t _ => rfl⟩, fun r hr => ?_⟩
  rw [show (start x₀).executor.resilience = ∅ from hx, AList.lookup_empty] at hr
  cases hr

/-- **The refinement.** In every run of the engine from an executor that
knows no check yet, an enabled breaker has gone through the calls the log
shows of its check. -/
theorem linked_run {reg : Registry} {cfgOf : ℕ → PyDict} {x₀ : Executor} (hx : x₀.resilience = ∅) (id : String)
    {is : List Input} {log : List Happened} {s : Engine}
    (h : run (Engine.step reg cfgOf) (start x₀) is = some (s, log)) :
    Linked cfgOf id s log := by
  refine run_induction (fun _ log s => Linked cfgOf id s log) (linked_start hx id) ?_ h
  exact fun _ _ _ _ _ _ _ hI hs => hI.step hs

end SentinelFlow
