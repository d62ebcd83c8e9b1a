/-
Which rule of a check an alert comes from. The alerts of an execution go
from the evaluators to the policy through one list and carry no mark of
their entry; `watch` runs the engine and keeps that mark beside it, where no
step reads it.

A fingerprint is made of the metric id, the evaluator type and the severity.
So an alert can be silenced by that of another entry, but only of one with
the same type and severity (`suppressed_by_sameKind`).
-/
import SentinelFlow.Config.Dump
import SentinelFlow.Engine.Delivery
import SentinelFlow.Engine.Deployment
import SentinelFlow.Engine.Lookups

namespace SentinelFlow

open Machine Engine AlertPolicy PolicyRuns

/-! ## Alerts and their entries -/

/-- An alert's turn at the policy, with its execution and the position of
the entry that raised it. -/
structure RaisedCall where
  task : ℕ
  entry : ℕ
  call : PolicyCall

/-- The engine, and for each execution the entries whose alerts wait for
their turn, in order. -/
structure Watched where
  engine : Engine
  waiting : ℕ → List ℕ

def Watched.start (x : Executor) : Watched := ⟨Engine.start x, fun _ => []⟩

/-- The position of the entry whose alert a step from this point adds. -/
def raisedAt (render : Render) (cfg : PyDict) (now : Time) : Point → List ℕ
  | .running _ _ (.evaluating payload evalType evalCfg todo _) =>
    match builtinEvaluate evalType render payload evalCfg now with
    | .ok (some _) => [(listAt cfg "evaluators").length - todo.length - 1]
    | _ => []
  | _ => []

section Watch

variable {ξ : Type} (ingestor : Ingestor ξ) (render : Render) (cfgOf : ℕ → PyDict)

/-- A step, watched: it adds at most one entry, and gives at most one a turn. -/
def watch (s : Watched) (i : Turn ξ) : Option (Watched × Happened × Option RaisedCall) :=
  (turn ingestor render cfgOf s.engine i).map fun r =>
    let waiting := s.waiting i.task ++ raisedAt render (cfgOf i.task) i.clock.wall (s.engine.point i.task)
    match policyCallsIn r.2.effects with
    | [] => (⟨r.1, Function.update s.waiting i.task waiting⟩, r.2, none)
    | c :: _ => (⟨r.1, Function.update s.waiting i.task waiting.tail⟩, r.2, some ⟨i.task, waiting.headD 0, c⟩)

end Watch

/-- The turns in a log, in order. -/
def raisedCalls (log : List (Happened × Option RaisedCall)) : List RaisedCall := log.filterMap (·.2)

/-! ## Entries of a check -/

/-- The alert is one that the entry at this position raises. -/
def MetricCheckConfig.RaisedBy (check : MetricCheckConfig) (k : ℕ) (e : AlertEvent) : Prop :=
  ∃ entry, check.evaluators[k]? = some entry ∧ e.metricId = check.checkId ∧ e.evaluatorType = entry.type ∧
    e.severity = entry.severity

theorem severityOf_text (s : Severity) : severityOf (.str s.text) = some s := by
  cases s <;> rfl

theorem builtinEvaluate_entry {entry : EvaluatorConfig} {render : Render} {payload : MetricPayload} {now : Time}
    {e : AlertEvent} (h : builtinEvaluate entry.type render payload entry.modelDump now = .ok (some e)) :
    e.metricId = payload.metricId ∧ e.evaluatorType = entry.type ∧ e.severity = entry.severity := by
  obtain ⟨hid, hty, hsev⟩ := builtinEvaluate_ok h
  have hdump : (PyDict.get entry.modelDump "severity").getD (.str "high") = .str entry.severity.text := by
    cases entry <;> rfl
  rw [hdump, severityOf_text] at hsev
  refine ⟨hid, ?_, (Option.some.inj hsev).symm⟩
  rw [hty]
  cases entry <;> rfl

/-- The marks fit what waits at a point. -/
def PipePoint.Marked (check : MetricCheckConfig) (ks : List ℕ) : PipePoint → Prop
  | .fetching => ks = []
  | .evaluating payload evalType evalCfg todo validEvents =>
    payload.metricId = check.checkId ∧
      (∃ done entry rest, check.evaluators = done ++ entry :: rest ∧ evalType = entry.type ∧
        evalCfg = entry.modelDump ∧ todo = rest.map fun e => .dict e.modelDump) ∧
      List.Forall₂ check.RaisedBy ks validEvents
  | .deciding e todo => List.Forall₂ check.RaisedBy ks (e :: todo)
  | .dispatching _ _ todo => List.Forall₂ check.RaisedBy ks todo

def Progress.Marked (check : MetricCheckConfig) (ks : List ℕ) : Progress → Prop :=
  Progress.At (PipePoint.Marked check ks)

def Point.Marked (check : MetricCheckConfig) (ks : List ℕ) : Point → Prop
  | .queued | .waiting _ => ks = []
  | .running _ _ p => p.Marked check ks
  | .finished _ _ => True

section Body

variable {check : MetricCheckConfig} {ks : List ℕ}

theorem marked_nextEvent {events : List AlertEvent} (h : List.Forall₂ check.RaisedBy ks events) :
    (nextEvent events).Marked check ks := by
  cases events with
  | nil => trivial
  | cons e rest => exact h

/-- No entry of an accepted check is skipped. -/
theorem marked_nextEvaluator {payload : MetricPayload} {validEvents : List AlertEvent}
    {done rest : List EvaluatorConfig} (hp : payload.metricId = check.checkId)
    (hsplit : check.evaluators = done ++ rest) (hv : List.Forall₂ check.RaisedBy ks validEvents) :
    (nextEvaluator .builtin check.modelDump payload validEvents
      (rest.map fun e => .dict e.modelDump)).1.Marked check ks := by
  cases rest with
  | nil =>
    rw [List.map_nil]
    unfold nextEvaluator afterEvaluators
    split
    · trivial
    · split
      · exact marked_nextEvent hv
      · trivial
  | cons entry rest =>
    obtain ⟨r, hr⟩ := getEvaluator_builtin entry
    rw [List.map_cons]
    unfold nextEvaluator
    simp only [typedEntry_evaluator, hr]
    exact at_callOn ⟨hp, ⟨done, entry, rest, hsplit, rfl, rfl, rfl⟩, hv⟩

theorem marked_settle {f : Frame} {id : String} {st now : Time} {prog : Progress} (h : prog.Marked check ks) :
    (settle f id st now prog).1.Marked check ks := by
  cases prog with
  | paused p => exact h
  | ended e => trivial

/-- The first alert waiting has its turn. -/
theorem marked_decideEvent {policy : AlertPolicy} {now : Time} {event : AlertEvent} {todo : List AlertEvent}
    (h : List.Forall₂ check.RaisedBy ks todo) :
    (decideEvent .builtin check.modelDump policy now event todo).1.Marked check ks := by
  unfold decideEvent
  dsimp only
  split
  · trivial
  · exact marked_nextEvent h
  · split
    · trivial
    · exact h

end Body

/-! ## The marks of a step -/

section Answers

variable {ξ : Type} {ingestor : Ingestor ξ} {render : Render} {cfg : PyDict} {clk : Clock} {p : Point}
  {x : Stimulus ξ}

theorem answer_fetched {payload : MetricPayload}
    (h : answer ingestor render cfg clk p x = some (.fetched (.ok payload))) : payload.metricId = metricIdOf cfg := by
  cases x <;> simp only [answer] at h
  case ingested x =>
    split at h
    · obtain ⟨r, hr, he⟩ := Option.map_eq_some_iff.1 h
      cases he
      exact ingestor.names hr
    · cases h
  case proceed => split at h <;> cases h
  all_goals cases h

theorem answer_evaluated {f : Frame} {st : Time} {payload : MetricPayload} {evalType : String} {evalCfg : PyDict}
    {todo : List PyVal} {validEvents : List AlertEvent} {r : Except Exc (Option AlertEvent)}
    (h : answer ingestor render cfg clk (.running f st (.evaluating payload evalType evalCfg todo validEvents)) x =
      some (.evaluated r)) : builtinEvaluate evalType render payload evalCfg clk.wall = r := by
  cases x <;> cases h
  rfl

end Answers

/-- A step that gives no alert a turn, or gives it to the first one waiting. -/
def Marks (check : MetricCheckConfig) (ks : List ℕ) (calls : List PolicyCall) (marked : List ℕ → Prop) : Prop :=
  (calls = [] ∧ marked ks) ∨
    ∃ k rest event c, ks = k :: rest ∧ calls = [c] ∧ c.args = dispatchArgs check.modelDump event ∧
      check.RaisedBy k event ∧ marked rest

section Steps

variable {ξ : Type} {ingestor : Ingestor ξ} {render : Render} {check : MetricCheckConfig} {ks : List ℕ}
  {clk : Clock} {x : Stimulus ξ} {reply : Reply}

theorem Marks.imp {calls : List PolicyCall} {m m' : List ℕ → Prop} (h : Marks check ks calls m)
    (himp : ∀ l, m l → m' l) : Marks check ks calls m' := by
  rcases h with ⟨hc, hm⟩ | ⟨k, rest, event, c, hk, hc, ha, hr, hm⟩
  · exact .inl ⟨hc, himp _ hm⟩
  · exact .inr ⟨k, rest, event, c, hk, hc, ha, hr, himp _ hm⟩

theorem marks_resumeBody {policy : AlertPolicy} {f : Frame} {st : Time} {q : PipePoint} {prog : Progress}
    {es : List Effect} (ha : answer ingestor render check.modelDump clk (.running f st q) x = some reply)
    (h : resumeBody .builtin check.modelDump policy clk.wall q reply = some (prog, es)) (hm : q.Marked check ks) :
    Marks check (ks ++ raisedAt render check.modelDump clk.wall (.running f st q)) (policyCallsIn es)
      (prog.Marked check) := by
  cases continues_of_resumeBody h with
  | fetchRaised | evaluatorRaised => exact .inl ⟨rfl, trivial⟩
  | @fetched payload =>
    rw [policyCallsIn_lookups (isLookup_nextEvaluator _)]
    have hid : payload.metricId = check.checkId := (answer_fetched ha).trans (metricIdOf_modelDump check)
    rw [show ks = [] from hm]
    have hsplit : check.evaluators = [] ++ check.evaluators := rfl
    exact .inl ⟨rfl, marked_nextEvaluator hid hsplit .nil⟩
  | @evaluated payload evalType evalCfg todo validEvents event =>
    rw [policyCallsIn_lookups (isLookup_nextEvaluator _)]
    obtain ⟨hid, ⟨done, entry, rest, hsplit, rfl, rfl, rfl⟩, hv⟩ := hm
    have hev := answer_evaluated ha
    have hnext : check.evaluators = (done ++ [entry]) ++ rest := by rw [hsplit, List.append_assoc]; rfl
    refine .inl ⟨rfl, marked_nextEvaluator hid hnext ?_⟩
    cases event with
    | none =>
      simp only [raisedAt, hev, Option.toList_none, List.append_nil]
      exact hv
    | some e =>
      obtain ⟨hid', hty, hsev⟩ := builtinEvaluate_entry hev
      have hpos : (listAt check.modelDump "evaluators").length -
          (rest.map fun e => PyVal.dict e.modelDump).length - 1 = done.length := by
        rw [listAt_evaluators, hsplit]
        simp only [List.length_map, List.length_append, List.length_cons]
        omega
      simp only [raisedAt, hev, hpos, Option.toList_some]
      refine List.rel_append hv (.cons ⟨entry, ?_, hid'.trans hid, hty, hsev⟩ .nil)
      rw [hsplit]
      simp
  | @decided event todo =>
    rw [policyCallsIn_decideEvent]
    cases hm with
    | @cons k _ rest _ hk hrest =>
      exact .inr ⟨k, rest, event, _, by simp [raisedAt], rfl, rfl, hk, marked_decideEvent hrest⟩
  | gathered =>
    rw [policyCallsIn_runDispatches]
    refine .inl ⟨rfl, ?_⟩
    simp only [raisedAt, List.append_nil]
    unfold afterDispatches
    split
    · trivial
    · exact marked_nextEvent hm

/-- **The step lemma.** The marks that fit a point fit the next one. -/
theorem Resumes.marks {y : Executor} {p p' : Point} {es : List Effect}
    (ha : answer ingestor render check.modelDump clk p x = some reply)
    (h : Resumes .builtin y check.modelDump clk p reply p' es) (hm : p.Marked check ks) :
    Marks check (ks ++ raisedAt render check.modelDump clk.wall p) (policyCallsIn es) (p'.Marked check) := by
  cases h with
  | refused | cancelledQueued | cancelledWaiting => exact .inl ⟨rfl, trivial⟩
  | entered =>
    refine .inl ⟨rfl, ?_⟩
    rw [show ks = [] from hm]
    rfl
  | timedOutWaiting =>
    rw [policyCallsIn_ofExit ofExit_leaveUnstarted]
    exact .inl ⟨rfl, trivial⟩
  | rejected =>
    rw [policyCallsIn_append, policyCallsIn_ofExit ofExit_leaveUnstarted]
    exact .inl ⟨rfl, trivial⟩
  | @started f =>
    have hnone : policyCallsIn (startEffects f.cbEnabled (metricIdOf check.modelDump) clk.perf) = [] := by
      unfold startEffects
      split <;> rfl
    rw [policyCallsIn_append, policyCallsIn_append, policyCallsIn_lookups isLookup_startBody,
      policyCallsIn_ofExit ofExit_settle, hnone, show ks = [] from hm]
    exact .inl ⟨rfl, marked_settle (at_startBody rfl)⟩
  | body hb =>
    rw [policyCallsIn_append, policyCallsIn_ofExit ofExit_settle, List.append_nil]
    exact (marks_resumeBody ha hb hm).imp fun _ => marked_settle
  | timedOut | cancelled =>
    rw [policyCallsIn_append, policyCallsIn_dispatched, policyCallsIn_ofExit ofExit_leave]
    exact .inl ⟨rfl, trivial⟩

end Steps

/-! ## Runs -/

/-- The marks fit, and each alert that has had its turn is one that its
entry raises. -/
structure MarksFit (checkOf : ℕ → MetricCheckConfig) (s : Watched) (calls : List RaisedCall) : Prop where
  regular : (s.engine.registry .builtin).Regular
  marked : ∀ t, (s.engine.point t).Marked (checkOf t) (s.waiting t)
  raised : ∀ c ∈ calls, ∃ event, c.call.args = dispatchArgs (checkOf c.task).modelDump event ∧
    (checkOf c.task).RaisedBy c.entry event

section Runs

variable {ξ : Type} {ingestor : Ingestor ξ} {render : Render} {checkOf : ℕ → MetricCheckConfig}
  {s s' : Watched} {i : Turn ξ} {o : Happened × Option RaisedCall} {calls : List RaisedCall}

theorem watch_turn {cfgOf : ℕ → PyDict} (h : watch ingestor render cfgOf s i = some (s', o)) :
    turn ingestor render cfgOf s.engine i = some (s'.engine, o.1) := by
  unfold watch at h
  obtain ⟨r, hr, he⟩ := Option.map_eq_some_iff.1 h
  dsimp only at he
  split at he <;> cases he <;> exact hr

theorem MarksFit.step (hI : MarksFit checkOf s calls)
    (h : watch ingestor render (fun t => (checkOf t).modelDump) s i = some (s', o)) :
    MarksFit checkOf s' (calls ++ o.2.toList) ∧ o.2.toList.map (·.call) = policyCallsIn o.1.effects := by
  obtain ⟨reply, ha, hs⟩ := turn_step (watch_turn h)
  obtain ⟨-, -, hp, hne, -⟩ := step_resumes hs
  have hr := step_regular Registry.builtin_regular hI.regular hs
  have hregular := registry_regular_step hI.regular hs
  have hmarks := hr.marks ha (hI.marked i.task)
  -- The other executions keep their points and their marks.
  have hpoints : ∀ ks, (o.1.point.Marked (checkOf i.task) ks) → s'.waiting = Function.update s.waiting i.task ks →
      ∀ t, (s'.engine.point t).Marked (checkOf t) (s'.waiting t) := by
    intro ks hm hw t
    rw [hw]
    by_cases ht : t = i.task
    · subst ht
      rw [Function.update_self, hp]
      exact hm
    · rw [Function.update_of_ne ht, hne t ht]
      exact hI.marked t
  unfold watch at h
  obtain ⟨r, -, he⟩ := Option.map_eq_some_iff.1 h
  dsimp only at he
  split at he
  next hnil =>
    cases he
    rcases hmarks with ⟨-, hm⟩ | ⟨_, _, _, _, _, hone, -⟩
    · refine ⟨⟨hregular, hpoints _ hm rfl, ?_⟩, by rw [hnil]; rfl⟩
      rw [Option.toList_none, List.append_nil]
      exact hI.raised
    · rw [hnil] at hone
      cases hone
  next c cs hcons =>
    cases he
    rcases hmarks with ⟨hnil, -⟩ | ⟨k, rest, event, c', hks, hone, hargs, hby, hm⟩
    · rw [hcons] at hnil
      cases hnil
    · rw [hcons] at hone
      cases hone
      refine ⟨⟨hregular, hpoints _ hm (by rw [hks]; rfl), fun d hd => ?_⟩, by rw [hcons]; rfl⟩
      rcases List.mem_append.1 hd with hold | hnew
      · exact hI.raised d hold
      · rw [Option.toList_some, List.mem_singleton] at hnew
        rw [hnew, hks]
        exact ⟨event, hargs, hby⟩

theorem raisedCalls_concat (log : List (Happened × Option RaisedCall)) (o : Happened × Option RaisedCall) :
    raisedCalls (log ++ [o]) = raisedCalls log ++ o.2.toList := by
  rw [raisedCalls, List.filterMap_append, ← raisedCalls]
  cases ho : o.2 <;> simp [ho]

/-- **The run lemma.** A watched run is a run of the engine, whose turns are
those of the log, each for an alert of its entry. -/
theorem marksFit_run {x₀ : Executor} {is : List (Turn ξ)} {log : List (Happened × Option RaisedCall)}
    (h : run (watch ingestor render fun t => (checkOf t).modelDump) (.start x₀) is = some (s, log)) :
    MarksFit checkOf s (raisedCalls log) ∧ (raisedCalls log).map (·.call) = policyCalls (log.map (·.1)) ∧
      ∃ js, run (Engine.step .builtin fun t => (checkOf t).modelDump) (Engine.start x₀) js =
        some (s.engine, log.map (·.1)) := by
  refine run_induction (fun _ log s => MarksFit checkOf s (raisedCalls log) ∧
    (raisedCalls log).map (·.call) = policyCalls (log.map (·.1)) ∧
      ∃ js, run (Engine.step .builtin fun t => (checkOf t).modelDump) (Engine.start x₀) js =
        some (s.engine, log.map (·.1))) ?_ ?_ h
  · exact ⟨⟨Engine.registry_regular_start Registry.builtin_regular x₀, fun t => rfl, fun c hc => by cases hc⟩,
      rfl, [], rfl⟩
  · intro is log s i o s' _ ⟨hI, hcalls, js, hjs⟩ hs
    obtain ⟨hI', hone⟩ := hI.step hs
    obtain ⟨reply, -, hstep⟩ := turn_step (watch_turn hs)
    rw [raisedCalls_concat, List.map_append, List.map_append, hcalls, hone, List.map_singleton, policyCalls_concat]
    exact ⟨hI', rfl, _, run_concat.2 ⟨_, _, _, hjs, hstep, rfl⟩⟩

/-- No type and no severity of an entry has a colon. -/
theorem colonFree_dispatchArgs {cfg : PyDict} {e : AlertEvent} {entry : EvaluatorConfig}
    (hty : e.evaluatorType = entry.type) : ColonFree (dispatchArgs cfg e) := by
  refine ⟨?_, e.severity.colon_notMem_text⟩
  show ':' ∉ e.evaluatorType.toList
  rw [hty]
  cases entry <;> simp [EvaluatorConfig.type]

/-- **What hides an alert.** In every run of accepted checks, from a fresh
policy: an alert is suppressed only if one of the same metric id, raised by
an entry of the same type and severity, was let through less than the dedupe
window of the alert's check before. -/
theorem suppressed_by_sameKind {x₀ : Executor} (hx : x₀.policy = .new) {is : List (Turn ξ)}
    {log : List (Happened × Option RaisedCall)}
    (h : run (watch ingestor render fun t => (checkOf t).modelDump) (.start x₀) is = some (s, log)) {i : ℕ}
    {c : RaisedCall} (hi : (raisedCalls log)[i]? = some c) (hsup : c.call.result = .ok false) :
    ∃ entry, (checkOf c.task).evaluators[c.entry]? = some entry ∧
      ∃ j < i, ∃ d entry', (raisedCalls log)[j]? = some d ∧
        (checkOf d.task).evaluators[d.entry]? = some entry' ∧
        (checkOf d.task).checkId = (checkOf c.task).checkId ∧ entry'.type = entry.type ∧
        entry'.severity = entry.severity ∧ d.call.result = .ok true ∧
        c.call.now - d.call.now < (checkOf c.task).alertPolicy.dedupeWindowSeconds := by
  obtain ⟨hfit, hcalls, js, hrun⟩ := marksFit_run h
  have hi' : (policyCalls (log.map (·.1)))[i]? = some c.call := by
    rw [← hcalls, List.getElem?_map, hi]
    rfl
  obtain ⟨last, hlast, hwindow⟩ := (suppressed_iff_letThrough hx hrun hi').1 hsup
  obtain ⟨hmem, hthrough⟩ := List.mem_filter.1 (List.mem_of_getLast? hlast)
  obtain ⟨j, hj⟩ := List.mem_iff_getElem?.1 hmem
  rw [List.getElem?_take] at hj
  split at hj
  next hji =>
    rw [← hcalls, List.getElem?_map] at hj
    obtain ⟨d, hd, rfl⟩ := Option.map_eq_some_iff.1 hj
    simp only [Bool.and_eq_true, decide_eq_true_eq, beq_iff_eq] at hthrough
    obtain ⟨event, hargs, entry, hentry, hid, hty, hsev⟩ := hfit.raised c (List.mem_of_getElem? hi)
    obtain ⟨event', hargs', entry', hentry', hid', hty', hsev'⟩ := hfit.raised d (List.mem_of_getElem? hd)
    have hfp := hthrough.1
    rw [hargs, hargs'] at hfp
    have htriple := (fingerprintOf_inj (colonFree_dispatchArgs hty') (colonFree_dispatchArgs hty)).1 hfp
    simp only [triple, dispatchArgs, Prod.mk.injEq] at htriple
    obtain ⟨hids, htypes, hsevs⟩ := htriple
    rw [hid, hid'] at hids
    rw [hty, hty'] at htypes
    have hsame := Severity.text_inj hsevs
    rw [hsev, hsev'] at hsame
    rw [hargs] at hwindow
    refine ⟨entry, hentry, j, hji, d, entry', hd, hentry', hids, htypes, hsame, hthrough.2, ?_⟩
    rw [dispatchArgs, policyNumbers_modelDump] at hwindow
    exact hwindow
  next => cases hj

end Runs

/-- Two rules for one number: past 5 it is worth a look, past 100 it burns. -/
def twoRules : MetricCheckConfig :=
  { plainCheck "errors" with
    evaluators :=
      [.threshold { operator := .gt, value := .int 5, validateBetweenOperator := by simp },
       .threshold { operator := .gt, value := .int 100, validateBetweenOperator := by simp }]
    evaluatorsNonempty := List.cons_ne_nil _ _ }

/-- An execution that reads 200. -/
def burning : List (Turn (List (Time × HttpApiIngestor.Exchange))) :=
  [⟨0, ⟨0, 0⟩, .granted⟩, ⟨0, ⟨0, 0⟩, .granted⟩,
   ⟨0, ⟨1, 1⟩, .ingested
     [(1, .response 200 "OK" "application/json" (.ok "") (.ok (.dict [("value", .int 200)])))]⟩,
   ⟨0, ⟨1, 1⟩, .proceed⟩, ⟨0, ⟨1, 1⟩, .proceed⟩, ⟨0, ⟨1, 1⟩, .proceed⟩, ⟨0, ⟨2, 2⟩, .gathered [.ok ()]⟩,
   ⟨0, ⟨2, 2⟩, .proceed⟩]

/-- The second rule's alert, its first ever, is suppressed a second after
the first rule's. -/
theorem suppressed_secondRule :
    ∃ s log c, run (watch (HttpApiIngestor.ingestor wholeTexts) wholeTexts fun _ => twoRules.modelDump)
        (.start { semaphore := 1 }) burning = some (s, log) ∧
      (raisedCalls log)[1]? = some c ∧ c.entry = 1 ∧ c.call.result = .ok false ∧
      ∀ d ∈ raisedCalls log, d.entry = 1 → d.call.result ≠ .ok true := by
  have h : (run (watch (HttpApiIngestor.ingestor wholeTexts) wholeTexts fun _ => twoRules.modelDump)
      (.start { semaphore := 1 }) burning).any (fun p =>
        ((raisedCalls p.2)[1]?.any fun c => c.entry == 1 && c.call.result == .ok false) &&
          (raisedCalls p.2).all fun d => !(d.entry == 1) || !(d.call.result == .ok true)) = true := by
    decide +kernel
  obtain ⟨⟨s, log⟩, hs, hq⟩ := (Option.any_eq_true _ _).1 h
  rw [Bool.and_eq_true] at hq
  obtain ⟨c, hc, hres⟩ := (Option.any_eq_true _ _).1 hq.1
  simp only [Bool.and_eq_true, beq_iff_eq] at hres
  refine ⟨s, log, c, hs, hc, hres.1, hres.2, fun d hd hone => ?_⟩
  have hd' := List.all_eq_true.1 hq.2 d hd
  simpa [hone] using hd'

/-- What hid it came from the first rule, of the same type and severity. -/
theorem suppressed_by_sameKind_secondRule :
    ∃ s log c, run (watch (HttpApiIngestor.ingestor wholeTexts) wholeTexts fun _ => twoRules.modelDump)
        (.start { semaphore := 1 }) burning = some (s, log) ∧ (raisedCalls log)[1]? = some c ∧
      ∃ entry, twoRules.evaluators[c.entry]? = some entry ∧
        ∃ j < 1, ∃ d entry', (raisedCalls log)[j]? = some d ∧ twoRules.evaluators[d.entry]? = some entry' ∧
          entry'.type = entry.type ∧ entry'.severity = entry.severity ∧ d.call.result = .ok true := by
  have h : (run (watch (HttpApiIngestor.ingestor wholeTexts) wholeTexts fun _ => twoRules.modelDump)
      (.start { semaphore := 1 }) burning).any (fun p =>
        (raisedCalls p.2)[1]?.any fun c => c.call.result == .ok false) = true := by decide +kernel
  obtain ⟨⟨s, log⟩, hs, hq⟩ := (Option.any_eq_true _ _).1 h
  obtain ⟨c, hc, hres⟩ := (Option.any_eq_true _ _).1 hq
  obtain ⟨entry, hentry, j, hj, d, entry', hd, hentry', -, hty, hsev, hsent, -⟩ :=
    @suppressed_by_sameKind _ _ _ (fun _ => twoRules) _ _ rfl _ _ hs _ _ hc (beq_iff_eq.1 hres)
  exact ⟨s, log, c, hs, hc, entry, hentry, j, hj, d, entry', hd, hentry', hty, hsev, hsent⟩

end SentinelFlow
