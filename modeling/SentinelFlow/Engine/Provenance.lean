/-
Where an alert comes from. Every alert that reaches the policy or a handler
was raised by an evaluation, in the same execution, of an entry of its own
check, on the payload of a fetch before it (`sourced_run`): no alert is made
up, mixed up with that of another execution, or kept from an earlier one.

For the freshness rule this says what it measures. The payload of
`HttpApiIngestor` is stamped with the time of the exchange, so the age that is
compared is how long the engine itself took since then.
-/
import SentinelFlow.Engine.Dispatching
import SentinelFlow.Engine.Rules

namespace SentinelFlow

open Machine Engine

section Provenance

variable {ξ : Type} (ingestor : Ingestor ξ) (render : Render)

/-- A turn of the execution in which its ingestor gave the payload. -/
def Turn.Fetched (cfg : PyDict) (t : ℕ) (payload : MetricPayload) (i : Turn ξ) : Prop :=
  i.task = t ∧ ∃ x, i.stimulus = .ingested x ∧
    ingestor.fetch (metricIdOf cfg) (dictAt cfg "ingestor") x = some (.ok payload)

/-- In the turns so far the alert was raised for the execution: by an entry
of its check, at an evaluation of what was fetched before. -/
def AlertEvent.Sourced (cfg : PyDict) (t : ℕ) (is : List (Turn ξ)) (e : AlertEvent) : Prop :=
  ∃ fetched evaluated payload evalType evalCfg, [fetched, evaluated].Sublist is ∧
    fetched.Fetched ingestor cfg t payload ∧ evaluated.task = t ∧
    (∃ v ∈ listAt cfg "evaluators", typedEntry v = some (evalType, evalCfg)) ∧
    builtinEvaluate evalType render payload evalCfg evaluated.clock.wall = .ok (some e)

def PipePoint.Sourced (cfg : PyDict) (t : ℕ) (is : List (Turn ξ)) : PipePoint → Prop
  | .fetching => True
  | .evaluating payload evalType evalCfg todo validEvents =>
    (∃ i ∈ is, i.Fetched ingestor cfg t payload) ∧
      (∃ v ∈ listAt cfg "evaluators", typedEntry v = some (evalType, evalCfg)) ∧
      (∀ v ∈ todo, v ∈ listAt cfg "evaluators") ∧ ∀ e ∈ validEvents, e.Sourced ingestor render cfg t is
  | .deciding e todo | .dispatching e _ todo => ∀ e' ∈ e :: todo, e'.Sourced ingestor render cfg t is

def Progress.Sourced (cfg : PyDict) (t : ℕ) (is : List (Turn ξ)) : Progress → Prop :=
  Progress.At (PipePoint.Sourced ingestor render cfg t is)

def Point.Sourced (cfg : PyDict) (t : ℕ) (is : List (Turn ξ)) : Point → Prop :=
  Point.At (PipePoint.Sourced ingestor render cfg t is)

/-- What the policy is asked and the handlers are given is about such alerts. -/
def Effect.Sourced (cfg : PyDict) (t : ℕ) (is : List (Turn ξ)) : Effect → Prop
  | .shouldDispatch _ args _ => ∃ e, args = dispatchArgs cfg e ∧ e.Sourced ingestor render cfg t is
  | .handed e _ _ _ => e.Sourced ingestor render cfg t is
  | _ => True

end Provenance

/-! ## More turns -/

section Mono

variable {ξ : Type} {ingestor : Ingestor ξ} {render : Render} {cfg : PyDict} {t : ℕ} {is : List (Turn ξ)}

theorem AlertEvent.Sourced.mono {e : AlertEvent} (h : e.Sourced ingestor render cfg t is) (i : Turn ξ) :
    e.Sourced ingestor render cfg t (is ++ [i]) := by
  obtain ⟨j, k, payload, ty, c, hsub, hrest⟩ := h
  exact ⟨j, k, payload, ty, c, hsub.trans (List.sublist_append_left is [i]), hrest⟩

theorem Point.Sourced.mono {p : Point} (h : p.Sourced ingestor render cfg t is) (i : Turn ξ) :
    p.Sourced ingestor render cfg t (is ++ [i]) := by
  cases p with
  | queued | waiting | finished => trivial
  | running f st q =>
    cases q with
    | fetching => trivial
    | evaluating payload ty c todo valid =>
      obtain ⟨⟨j, hj, hf⟩, hv, htodo, hvalid⟩ := h
      exact ⟨⟨j, List.mem_append_left _ hj, hf⟩, hv, htodo, fun e he => (hvalid e he).mono i⟩
    | deciding e todo | dispatching e _ todo => exact fun e' he' => (h e' he').mono i

theorem Effect.Sourced.mono {ef : Effect} (h : ef.Sourced ingestor render cfg t is) (i : Turn ξ) :
    ef.Sourced ingestor render cfg t (is ++ [i]) := by
  cases ef with
  | shouldDispatch now args r =>
    obtain ⟨e, ha, he⟩ := h
    exact ⟨e, ha, he.mono i⟩
  | handed e ty c r => exact AlertEvent.Sourced.mono h i
  | _ => trivial

end Mono

/-! ## One step -/

section Body

variable {ξ : Type} {ingestor : Ingestor ξ} {render : Render} {reg : Registry} {cfg : PyDict} {t : ℕ}
  {is : List (Turn ξ)}

theorem sourced_nextEvent {events : List AlertEvent} (h : ∀ e ∈ events, e.Sourced ingestor render cfg t is) :
    (nextEvent events).Sourced ingestor render cfg t is := by
  cases events with
  | nil => trivial
  | cons e rest => exact h

theorem sourced_nextEvaluator {payload : MetricPayload} {validEvents : List AlertEvent}
    (hp : ∃ i ∈ is, i.Fetched ingestor cfg t payload) (hv : ∀ e ∈ validEvents, e.Sourced ingestor render cfg t is) :
    ∀ {vs : List PyVal}, (∀ v ∈ vs, v ∈ listAt cfg "evaluators") →
      (nextEvaluator reg cfg payload validEvents vs).1.Sourced ingestor render cfg t is
  | [], _ => by
    unfold nextEvaluator afterEvaluators
    split
    · trivial
    · split
      · exact sourced_nextEvent hv
      · trivial
  | v :: rest, h => by
    have hrest : ∀ v ∈ rest, v ∈ listAt cfg "evaluators" := fun v' hv' => h v' (List.mem_cons_of_mem _ hv')
    unfold nextEvaluator
    split
    · exact sourced_nextEvaluator hp hv hrest
    next ty c htyped =>
      split
      · exact at_callOn ⟨hp, ⟨v, h v (by simp), htyped⟩, hrest, hv⟩
      · trivial

/-- Lookups are about no alert. -/
theorem sourced_lookups {es : List Effect} (h : ∀ e ∈ es, e.isLookup = true) :
    ∀ e ∈ es, e.Sourced ingestor render cfg t is := by
  intro e he
  have := h e he
  cases e with
  | lookedUp => trivial
  | _ => cases this

theorem sourced_decideEvent {policy : AlertPolicy} {now : Time} {event : AlertEvent} {todo : List AlertEvent}
    (h : ∀ e ∈ event :: todo, e.Sourced ingestor render cfg t is) :
    (decideEvent reg cfg policy now event todo).1.Sourced ingestor render cfg t is ∧
      ∀ ef ∈ (decideEvent reg cfg policy now event todo).2, ef.Sourced ingestor render cfg t is := by
  have hasked : ∀ result,
      Effect.Sourced ingestor render cfg t is (.shouldDispatch now (dispatchArgs cfg event) result) :=
    fun _ => ⟨event, rfl, h event (by simp)⟩
  have htodo : ∀ e ∈ todo, e.Sourced ingestor render cfg t is := fun e he => h e (List.mem_cons_of_mem _ he)
  unfold decideEvent
  dsimp only
  split
  · exact ⟨trivial, by simpa using hasked _⟩
  · exact ⟨sourced_nextEvent htodo, List.forall_mem_cons.2 ⟨hasked _, by simp [Effect.Sourced]⟩⟩
  · refine ⟨?_, List.forall_mem_cons.2 ⟨hasked _, sourced_lookups (isLookup_dispatchTasks reg _)⟩⟩
    split
    · trivial
    · exact h

theorem sourced_runDispatches {id : String} {event : AlertEvent} {tasks : List DispatchTask}
    {rs : List (Except Raised Unit)} (h : event.Sourced ingestor render cfg t is) :
    ∀ ef ∈ runDispatches id event tasks rs, ef.Sourced ingestor render cfg t is := by
  intro ef hef
  rcases mem_runDispatches hef with ⟨ty, c, r, rfl⟩ | rfl
  · exact h
  · trivial

theorem sourced_dispatched {id : String} {p : PipePoint} {rs : List (Except Raised Unit)}
    (h : p.Sourced ingestor render cfg t is) : ∀ ef ∈ p.dispatched id rs, ef.Sourced ingestor render cfg t is := by
  cases p with
  | dispatching event ts todo => exact sourced_runDispatches (h event (by simp))
  | fetching | evaluating | deciding =>
    intro ef hef
    cases hef

theorem Effect.OfExit.sourced {id : String} {ef : Effect} (h : ef.OfExit id) : ef.Sourced ingestor render cfg t is := by
  cases ef <;> trivial

end Body

section Turns

variable {ξ : Type} {ingestor : Ingestor ξ} {render : Render} {reg : Registry} {cfg : PyDict} {is : List (Turn ξ)}
  {i : Turn ξ}

/-- What was fetched is what the ingestor gave in this turn. -/
theorem fetched_of_answer {p : Point} {payload : MetricPayload}
    (h : answer ingestor render cfg i.clock p i.stimulus = some (.fetched (.ok payload))) :
    i.Fetched ingestor cfg i.task payload := by
  cases hx : i.stimulus with
  | ingested x =>
    rw [hx] at h
    simp only [answer] at h
    split at h
    · obtain ⟨r, hr, he⟩ := Option.map_eq_some_iff.1 h
      cases he
      exact ⟨rfl, x, hx, hr⟩
    · cases h
  | proceed =>
    rw [hx] at h
    simp only [answer] at h
    split at h <;> cases h
  | granted | gathered | timeout | cancel =>
    rw [hx] at h
    cases h

theorem sourced_resumeBody {policy : AlertPolicy} {f : Frame} {st : Time} {q : PipePoint} {reply : Reply}
    {prog : Progress} {es : List Effect}
    (ha : answer ingestor render cfg i.clock (.running f st q) i.stimulus = some reply)
    (h : resumeBody reg cfg policy i.clock.wall q reply = some (prog, es))
    (hq : q.Sourced ingestor render cfg i.task is) :
    prog.Sourced ingestor render cfg i.task (is ++ [i]) ∧
      ∀ ef ∈ es, ef.Sourced ingestor render cfg i.task (is ++ [i]) := by
  have hlast : i ∈ is ++ [i] := List.mem_append_right _ (List.mem_singleton_self i)
  have hmono := Point.Sourced.mono (p := .running f st q) hq i
  cases continues_of_resumeBody h with
  | fetchRaised | evaluatorRaised => exact ⟨trivial, by simp⟩
  | fetched =>
    exact ⟨sourced_nextEvaluator ⟨i, hlast, fetched_of_answer ha⟩ (by simp) fun _ hv => hv,
      sourced_lookups (isLookup_nextEvaluator _)⟩
  | @evaluated payload evalType evalCfg todo validEvents event =>
    obtain ⟨⟨j, hj, hf⟩, hv, -, -⟩ := hq
    obtain ⟨hp, -, htodo, hvalid⟩ := hmono
    refine ⟨sourced_nextEvaluator hp (fun e he => ?_) htodo, sourced_lookups (isLookup_nextEvaluator _)⟩
    rcases List.mem_append.1 he with he | he
    · exact hvalid e he
    -- The alert this turn adds.
    · rw [Option.mem_toList] at he
      subst he
      have hsub : [j, i].Sublist (is ++ [i]) := (List.singleton_sublist.2 hj).append (List.Sublist.refl [i])
      exact ⟨j, i, payload, evalType, evalCfg, hsub, hf, rfl, hv, answer_evaluated ha⟩
  | decided => exact sourced_decideEvent hmono
  | @gathered event tasks todo rs =>
    refine ⟨?_, sourced_runDispatches (hmono event (by simp))⟩
    unfold afterDispatches
    split
    · trivial
    · exact sourced_nextEvent fun e he => hmono e (List.mem_cons_of_mem _ he)

/-- **The step lemma.** -/
theorem Resumes.sourced {x : Executor} {p p' : Point} {reply : Reply} {es : List Effect}
    (ha : answer ingestor render cfg i.clock p i.stimulus = some reply)
    (h : Resumes reg x cfg i.clock p reply p' es) (hp : p.Sourced ingestor render cfg i.task is) :
    p'.Sourced ingestor render cfg i.task (is ++ [i]) ∧
      ∀ ef ∈ es, ef.Sourced ingestor render cfg i.task (is ++ [i]) := by
  cases h with
  | refused | entered | cancelledQueued | cancelledWaiting => exact ⟨trivial, by simp [Effect.Sourced]⟩
  | timedOutWaiting => exact ⟨trivial, fun ef hef => (ofExit_leaveUnstarted ef hef).sourced⟩
  | rejected =>
    refine ⟨trivial, List.forall_mem_append.2 ⟨by simp [rejectEffects, Effect.Sourced], fun ef hef => ?_⟩⟩
    exact (ofExit_leaveUnstarted ef hef).sourced
  | @started f =>
    refine ⟨at_settle (at_startBody trivial), List.forall_mem_append.2 ⟨?_, List.forall_mem_append.2
      ⟨sourced_lookups isLookup_startBody, fun ef hef => (ofExit_settle ef hef).sourced⟩⟩⟩
    unfold startEffects
    split <;> simp [Effect.Sourced]
  | body hb =>
    obtain ⟨hprog, hes⟩ := sourced_resumeBody ha hb hp
    exact ⟨at_settle hprog, List.forall_mem_append.2 ⟨hes, fun ef hef => (ofExit_settle ef hef).sourced⟩⟩
  | @timedOut f st q | @cancelled f st q =>
    have hq : q.Sourced ingestor render cfg i.task (is ++ [i]) := Point.Sourced.mono (p := .running f st q) hp i
    exact ⟨trivial, List.forall_mem_append.2 ⟨sourced_dispatched hq, fun ef hef => (ofExit_leave ef hef).sourced⟩⟩

end Turns

/-! ## Runs -/

section Runs

variable {ξ : Type} {ingestor : Ingestor ξ} {render : Render} {cfgOf : ℕ → PyDict} {x₀ : Executor}
  {is : List (Turn ξ)} {log : List Happened} {s : Engine}

/-- In every run, what stands at a point and what an effect is about was raised. -/
theorem sourced_run (h : run (turn ingestor render cfgOf) (start x₀) is = some (s, log)) :
    (∀ t, (s.point t).Sourced ingestor render (cfgOf t) t is) ∧
      ∀ t, ∀ ef ∈ effectsOf t log, ef.Sourced ingestor render (cfgOf t) t is := by
  refine run_induction (fun is log (s : Engine) => (∀ t, (s.point t).Sourced ingestor render (cfgOf t) t is) ∧
    ∀ t, ∀ ef ∈ effectsOf t log, ef.Sourced ingestor render (cfgOf t) t is) ⟨fun t => ?_, by simp [effectsOf]⟩
    (fun is log s i o s' _ hI hs => ?_) h
  · rw [point_start]
    trivial
  obtain ⟨reply, ha, hstep⟩ := turn_step hs
  obtain ⟨hr, -, hpoint, hother, htask, -⟩ := step_resumes hstep
  obtain ⟨hp, hes⟩ := hr.sourced ha (hI.1 i.task)
  refine ⟨fun t => ?_, fun t ef hef => ?_⟩
  · by_cases ht : t = i.task
    · subst ht
      rw [hpoint]
      exact hp
    · rw [hother t ht]
      exact (hI.1 t).mono i
  · by_cases ht : o.task = t
    · subst ht
      rw [effectsOf_concat rfl, List.mem_append] at hef
      rcases hef with hef | hef
      · exact (hI.2 _ ef hef).mono i
      · rw [htask]
        exact hes ef hef
    · rw [effectsOf_concat_ne ht] at hef
      exact (hI.2 t ef hef).mono i

end Runs

theorem mem_of_handoffs {es : List Effect} {d : Handoff} (h : d ∈ handoffs es) :
    ∃ result, .handed d.1 d.2.1 d.2.2 result ∈ es := by
  obtain ⟨ef, hef, hd⟩ := List.mem_filterMap.1 h
  cases ef with
  | handed e ty c result =>
    cases hd
    exact ⟨result, hef⟩
  | _ => cases hd

theorem mem_of_policyCallsIn {es : List Effect} {c : PolicyCall} (h : c ∈ policyCallsIn es) :
    .shouldDispatch c.now c.args c.result ∈ es := by
  obtain ⟨ef, hef, hc⟩ := List.mem_filterMap.1 h
  cases ef with
  | shouldDispatch now args result =>
    cases hc
    exact hef
  | _ => cases hc

/-! ## Accepted checks -/

theorem mem_evaluators_of_typedEntry {c : MetricCheckConfig} {v : PyVal} {evalType : String} {evalCfg : PyDict}
    (hv : v ∈ listAt c.modelDump "evaluators") (h : typedEntry v = some (evalType, evalCfg)) :
    ∃ entry ∈ c.evaluators, evalType = entry.type ∧ evalCfg = entry.modelDump := by
  rw [listAt_evaluators] at hv
  obtain ⟨entry, hmem, rfl⟩ := List.mem_map.1 hv
  rw [typedEntry_evaluator] at h
  cases h
  exact ⟨entry, hmem, rfl, rfl⟩

/-- A freshness rule alerts when the payload is older than it allows. -/
theorem FreshnessEvaluator.evaluate_age {c : FreshnessEvaluatorConfig} {render : Render} {payload : MetricPayload}
    {now : Time} {e : AlertEvent} (h : FreshnessEvaluator.evaluate render payload c.modelDump now = .ok (some e)) :
    c.maxAgeSeconds < now - payload.timestamp := by
  have hage : PyDict.get c.modelDump "max_age_seconds" = some (.int c.maxAgeSeconds) := rfl
  unfold FreshnessEvaluator.evaluate at h
  rw [hage] at h
  dsimp only at h
  split at h
  · cases h
  · obtain ⟨old, hold, h⟩ := bind_ok h
    split at h
    next hyes =>
      subst hyes
      simpa [FreshnessEvaluator.tooOld] using hold
    next => cases h

/-- **Alerts have a source.** In every run of accepted checks with the HTTP
ingestor, whatever comes from outside and however executions interleave:
an alert a handler is given was raised in the same execution by one of its
check's own rules, evaluated on what the HTTP exchanges of that execution
came to, and these came first. -/
theorem alerts_sourced {r render : Render} {checkOf : ℕ → MetricCheckConfig}
    {x₀ : Executor} {is : List (Turn (List (Time × HttpApiIngestor.Exchange)))} {log : List Happened} {s : Engine}
    (h : run (turn (HttpApiIngestor.ingestor r) render fun t => (checkOf t).modelDump) (start x₀) is =
      some (s, log)) {t : ℕ} {d : Handoff} (hd : d ∈ handoffs (effectsOf t log)) :
    ∃ fetched evaluated exchanges payload, [fetched, evaluated].Sublist is ∧ fetched.task = t ∧ evaluated.task = t ∧
      fetched.stimulus = .ingested exchanges ∧
      HttpApiIngestor.fetch r (checkOf t).checkId (checkOf t).ingestor.modelDump exchanges =
        some (.ok payload) ∧
      ∃ entry ∈ (checkOf t).evaluators,
        builtinEvaluate entry.type render payload entry.modelDump evaluated.clock.wall = .ok (some d.1) := by
  obtain ⟨result, hh⟩ := mem_of_handoffs hd
  obtain ⟨fetched, evaluated, payload, ty, c, hsub, ⟨hf, exchanges, hx, hfetch⟩, ht, ⟨v, hv, htyped⟩, hev⟩ :=
    (sourced_run h).2 t _ hh
  obtain ⟨entry, hmem, rfl, rfl⟩ := mem_evaluators_of_typedEntry hv htyped
  exact ⟨fetched, evaluated, exchanges, payload, hsub, hf, ht, hx, hfetch, entry, hmem, hev⟩

/-- A response of nothing but a number. -/
def fiveOrders : HttpApiIngestor.Exchange :=
  .response 200 "OK" "application/json" (.ok "") (.ok (.dict [("value", .int 5)]))

/-- An execution that evaluates it a hundred seconds later. -/
def slowTurns : List (Turn (List (Time × HttpApiIngestor.Exchange))) :=
  [⟨0, ⟨0, 0⟩, .granted⟩, ⟨0, ⟨0, 0⟩, .granted⟩, ⟨0, ⟨0, 0⟩, .ingested [(0, fiveOrders)]⟩, ⟨0, ⟨100, 1⟩, .proceed⟩,
    ⟨0, ⟨100, 1⟩, .proceed⟩, ⟨0, ⟨100, 1⟩, .gathered [.ok ()]⟩]

theorem alerts_sourced_slowTurns :
    ∃ s log, run (turn (HttpApiIngestor.ingestor wholeTexts) wholeTexts fun _ => (plainCheck "orders").modelDump)
        (start { semaphore := 1 }) slowTurns = some (s, log) ∧
      ∃ payload, ∃ d ∈ handoffs (effectsOf 0 log), ∃ entry ∈ (plainCheck "orders").evaluators, ∃ now,
        builtinEvaluate entry.type wholeTexts payload entry.modelDump now = .ok (some d.1) := by
  have h : (run (turn (HttpApiIngestor.ingestor wholeTexts) wholeTexts fun _ => (plainCheck "orders").modelDump)
      (start { semaphore := 1 }) slowTurns).any (fun p => (handoffs (effectsOf 0 p.2)).length == 1) = true := by
    decide +kernel
  obtain ⟨⟨s, log⟩, hs, hq⟩ := (Option.any_eq_true _ _).1 h
  obtain ⟨d, hd⟩ := List.length_eq_one_iff.1 (beq_iff_eq.1 hq)
  have hmem : d ∈ handoffs (effectsOf 0 log) := hd ▸ List.mem_singleton_self d
  obtain ⟨_, evaluated, _, payload, -, -, -, -, -, entry, hentry, hev⟩ :=
    @alerts_sourced _ _ (fun _ => plainCheck "orders") _ _ _ _ hs _ _ hmem
  exact ⟨s, log, hs, payload, d, hmem, entry, hentry, _, hev⟩

/-- **What freshness measures.** In every such run the policy is asked about
a freshness alert only where the engine itself has let more than the rule's
`max_age_seconds` pass between an HTTP exchange and its evaluation: the age of
the data in the response has no part in it. -/
theorem freshness_delay {r render : Render} {checkOf : ℕ → MetricCheckConfig}
    {x₀ : Executor} {is : List (Turn (List (Time × HttpApiIngestor.Exchange)))} {log : List Happened} {s : Engine}
    (h : run (turn (HttpApiIngestor.ingestor r) render fun t => (checkOf t).modelDump) (start x₀) is =
      some (s, log)) {t : ℕ} {call : PolicyCall} (hc : call ∈ policyCallsIn (effectsOf t log))
    (hfresh : call.args.evaluatorType = "freshness") :
    ∃ fetched evaluated exchanges, [fetched, evaluated].Sublist is ∧ fetched.task = t ∧ evaluated.task = t ∧
      fetched.stimulus = .ingested exchanges ∧
      ∃ x ∈ exchanges, ∃ c, EvaluatorConfig.freshness c ∈ (checkOf t).evaluators ∧
        c.maxAgeSeconds < evaluated.clock.wall - x.1 := by
  obtain ⟨e, he, fetched, evaluated, payload, ty, c, hsub, ⟨hf, exchanges, hx, hfetch⟩, ht, ⟨v, hv, htyped⟩, hev⟩ :=
    (sourced_run h).2 t _ (mem_of_policyCallsIn hc)
  obtain ⟨entry, hmem, rfl, rfl⟩ := mem_evaluators_of_typedEntry hv htyped
  obtain ⟨-, x, hxmem, htime⟩ := HttpApiIngestor.fetch_ok hfetch
  cases entry with
  | threshold c =>
    have hty : e.evaluatorType = "threshold" := (@builtinEvaluate_entry (.threshold c) _ _ _ _ hev).2.1
    rw [he, show (dispatchArgs (checkOf t).modelDump e).evaluatorType = e.evaluatorType from rfl, hty] at hfresh
    exact absurd hfresh (by decide)
  | freshness c =>
    refine ⟨fetched, evaluated, exchanges, hsub, hf, ht, hx, x, hxmem, c, hmem, ?_⟩
    rw [← htime]
    exact FreshnessEvaluator.evaluate_age hev

theorem freshness_delay_slowTurns :
    ∃ s log, run (turn (HttpApiIngestor.ingestor wholeTexts) wholeTexts fun _ => (plainCheck "orders").modelDump)
        (start { semaphore := 1 }) slowTurns = some (s, log) ∧
      ∃ i ∈ slowTurns, ∃ c, EvaluatorConfig.freshness c ∈ (plainCheck "orders").evaluators ∧
        ∃ x : Time, c.maxAgeSeconds < i.clock.wall - x := by
  have h : (run (turn (HttpApiIngestor.ingestor wholeTexts) wholeTexts fun _ => (plainCheck "orders").modelDump)
      (start { semaphore := 1 }) slowTurns).any (fun p =>
        (policyCallsIn (effectsOf 0 p.2)).any (·.args.evaluatorType == "freshness")) = true := by decide +kernel
  obtain ⟨⟨s, log⟩, hs, hq⟩ := (Option.any_eq_true _ _).1 h
  obtain ⟨call, hc, hfresh⟩ := List.any_eq_true.1 hq
  obtain ⟨_, evaluated, _, hsub, -, -, -, x, -, c, hmem, hage⟩ :=
    @freshness_delay _ _ (fun _ => plainCheck "orders") _ _ _ _ hs _ _ hc (beq_iff_eq.1 hfresh)
  exact ⟨s, log, hs, evaluated, hsub.subset (by simp), c, hmem, x.1, hage⟩

end SentinelFlow
