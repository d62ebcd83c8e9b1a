/-
What becomes of an alert, from the policy to the webhook, with any number of
executions and of dispatches under way at once.

What the policy lets through is posted at most once with success
(`posted_once`), and what the counter of dispatched alerts counts is not what
was posted: it counts the dispatches the breaker turned away as well
(`dispatched_counter`). The code counts a dispatch as its call returns, the
executor of the model when its execution takes it up, so to the model's
counter those between are added (`dispatchedTotal`).
-/
import SentinelFlow.Config.Parser
import SentinelFlow.Engine.Alerting
import SentinelFlow.Lib.Parts

namespace SentinelFlow

open Machine Engine

/-! ## What is counted in a step -/

/-- The labels a dispatch is counted under. -/
def Dispatch.labels (cfgOf : ℕ → PyDict) (b : Dispatch) : String × String × Severity :=
  (metricIdOf (cfgOf b.task), b.event.evaluatorType, b.event.severity)

/-- A handler call is counted if it did not raise. -/
def countedAs (cfgOf : ℕ → PyDict) (p : Dispatch × Except Raised Unit) : Option (String × String × Severity) :=
  match p.2 with
  | .ok () => some (p.1.labels cfgOf)
  | .error _ => none

section Counted

variable {id evaluator : String} {severity : Severity}

theorem counted_handedIn {cfgOf : ℕ → PyDict} {task : ℕ} {es : List Effect}
    (h : CountsDeliveries (metricIdOf (cfgOf task)) es) :
    es.filterMap Effect.counted? = (handedIn task es).filterMap (countedAs cfgOf) := by
  rw [h, handedIn, List.filterMap_filterMap]
  refine List.filterMap_congr fun e _ => ?_
  cases e with
  | handed event ty config r => cases r <;> rfl
  | _ => rfl

theorem Executor.apply_dispatched (x : Executor) (e : Effect) :
    (x.apply e).metrics.alertsTotal id evaluator severity .dispatched =
      x.metrics.alertsTotal id evaluator severity .dispatched +
        (e.counted?).toList.count (id, evaluator, severity) := by
  cases e with
  | incAlert i ev sev action =>
    cases action with
    | suppressed => simp [apply, Metrics.incAlert, Effect.counted?]
    | dispatched =>
      by_cases hsame : id = i ∧ evaluator = ev ∧ severity = sev
      · obtain ⟨rfl, rfl, rfl⟩ := hsame
        simp [apply, Metrics.incAlert, Effect.counted?]
      · have hne : (i, ev, sev) ≠ (id, evaluator, severity) := by
          rintro ⟨⟩
          exact hsame ⟨rfl, rfl, rfl⟩
        simp only [apply, Metrics.incAlert, Effect.counted?, Option.toList_some, List.count_singleton,
          beq_eq_false_iff_ne.2 hne, and_true]
        rw [if_neg hsame]
        rfl
  | forCheck i cfg =>
    simp only [apply]
    split <;> rfl
  | acquireInflight | releaseInflight | callEnter | callExcept | callElse =>
    simp only [apply, onBreaker, onCheck]
    split <;> rfl
  | _ => rfl

theorem Executor.applyAll_dispatched (es : List Effect) :
    ∀ x : Executor, (x.applyAll es).metrics.alertsTotal id evaluator severity .dispatched =
      x.metrics.alertsTotal id evaluator severity .dispatched +
        (es.filterMap Effect.counted?).count (id, evaluator, severity) := by
  induction es with
  | nil => exact fun x => rfl
  | cons e es ih =>
    intro x
    have h := ih (x.apply e)
    rw [x.apply_dispatched, add_assoc, ← List.count_append] at h
    have hsplit : (e :: es).filterMap Effect.counted? = (e.counted?).toList ++ es.filterMap Effect.counted? := by
      cases hc : e.counted? <;> simp [hc]
    rw [hsplit]
    exact h

end Counted

namespace Alerting

/-! ## From the policy to the webhook -/

section Task

variable {env : SlackHandler.Surroundings} {cfgOf : ℕ → PyDict} {x₀ : Executor} {b₀ : Resilience.CircuitBreaker}
  {s : Alerting} {es : List Event} {log : List Seen}

def Event.check? : Event → Option Input
  | .check i => some i
  | .dispatch _ => none

/-- The engine's part. -/
theorem isPart_engine (env : SlackHandler.Surroundings) (cfgOf : ℕ → PyDict) :
    IsPart Alerting.engine Event.check? Seen.check? (step env cfgOf) (Engine.step .builtin cfgOf) := by
  refine ⟨fun s e s' o h he => ?_, fun s e s' o j h he => ?_⟩
  · rcases step_cases h with ⟨i, x, h', rfl, -⟩ | ⟨i, b, k, h', -, -, -, rfl, rfl⟩
    · cases he
    · exact ⟨rfl, rfl⟩
  · rcases step_cases h with ⟨i, x, h', rfl, -, hs, rfl, rfl⟩ | ⟨i, b, k, h', rfl, -⟩
    · cases he
      exact ⟨h', hs, rfl⟩
    · cases he

/-- The dispatch is one of the execution's. -/
def isOf (s : Alerting) (t d : ℕ) : Bool := (s.begun[d]?).any (·.task = t)

theorem task_of_mem_handedIn {t : ℕ} {effects : List Effect} {p : Dispatch × Except Raised Unit}
    (h : p ∈ handedIn t effects) : p.1.task = t := by
  obtain ⟨e, -, he⟩ := List.mem_filterMap.1 h
  cases e with
  | handed event ty config r =>
    cases he
    rfl
  | _ => cases he

/-- The handler calls of an execution are those of its own steps. -/
theorem handedOver_task (t : ℕ) :
    (handedOver log).filter (·.1.task = t) = handedIn t (effectsOf t (checks log)) := by
  unfold handedOver
  induction checks log with
  | nil => rfl
  | cons o os ih =>
    rw [List.flatMap_cons, List.filter_append, ih]
    by_cases ht : o.task = t
    · subst ht
      have hown : (handedIn o.task o.effects).filter (·.1.task = o.task) = handedIn o.task o.effects :=
        List.filter_eq_self.2 fun p hp => decide_eq_true (task_of_mem_handedIn hp)
      rw [hown, ← handedIn_append]
      congr 1
      simp [effectsOf]
    · have hnone : (handedIn o.task o.effects).filter (·.1.task = t) = [] :=
        List.filter_eq_nil_iff.2 fun p hp => by simpa [task_of_mem_handedIn hp] using ht
      rw [hnone, List.nil_append]
      congr 1
      simp [effectsOf, ht]

theorem handedIn_fst (t : ℕ) (effects : List Effect) :
    (handedIn t effects).map (·.1) = (handoffs effects).map fun h => ⟨t, h.1, h.2.2⟩ := by
  rw [handedIn, handoffs, List.map_filterMap, List.map_filterMap]
  refine List.filterMap_congr fun e _ => ?_
  cases e <;> rfl

/-- The dispatches an execution has taken up, in order. -/
theorem Coupled.collected_task (h : Coupled env s log) (t : ℕ) :
    (s.collected.filter (s.isOf t)).map (s.begun[·]?) =
      (handoffs (effectsOf t (checks log))).map fun h => some ⟨t, h.1, h.2.2⟩ := by
  have hboth := congrArg (List.filter fun p : Option Dispatch × Option (Except Raised Unit) => p.1.any (·.task = t))
    h.handed
  rw [List.filter_map, List.filter_map] at hboth
  have hright : (handedOver log).filter ((fun p : Option Dispatch × Option (Except Raised Unit) =>
      p.1.any (·.task = t)) ∘ fun p => (some p.1, some p.2)) = handedIn t (effectsOf t (checks log)) := handedOver_task t
  rw [hright] at hboth
  have hfst := congrArg (List.map Prod.fst) hboth
  rw [List.map_map, List.map_map] at hfst
  have hhand := congrArg (List.map some) (handedIn_fst t (effectsOf t (checks log)))
  rw [List.map_map, List.map_map] at hhand
  exact hfst.trans hhand

open SlackHandler in
/-- **Posted once.** In every run of executions and dispatches, when an
execution has alerted: its dispatches are one for each alert the policy let
through and each handler entry, in that order, and no others. All have
ended. Each made at most three POSTs, with the payload of its alert to the
URL its entry names, and at most one was accepted; it returned normally
exactly when one was or the breaker turned it away. -/
theorem posted_once (h : run (Alerting.step env cfgOf) (start x₀ b₀) es = some (s, log)) {t : ℕ}
    (hend : (s.engine.point t).ending? = some .alerted) :
    let through := (policyCallsIn (effectsOf t (checks log))).filterMap PolicyCall.through?
    let ds := s.collected.filter (s.isOf t)
    ds.map (s.begun[·]?) = (toEveryEntry (cfgOf t) through).map (fun h => some ⟨t, h.1, h.2.2⟩) ∧
      ds.Nodup ∧ (∀ d b, s.begun[d]? = some b → b.task = t → d ∈ ds) ∧
      ∀ d ∈ ds, ∃ b r, s.begun[d]? = some b ∧ s.result? d = some r ∧
        (postsOf d (dispatches log)).length ≤ 3 ∧
        (∀ p ∈ postsOf d (dispatches log),
          webhookUrl env b.config = .ok p.1 ∧ p.2 = buildSlackPayload env b.event) ∧
        acceptedOf d (dispatches log) ≤ 1 ∧
        (r = .ok () ↔ acceptedOf d (dispatches log) = 1 ∨ TurnedAway d (dispatches log)) := by
  intro through ds
  have hc := coupled_run h
  have hpart := (isPart_engine env cfgOf).run h
  have htracked := @tracked_run _ _ _ t _ _ _ hpart
    (fit_of_completed Registry.builtin_regular hpart hend fun x hx => by cases hx)
  obtain ⟨r, hp⟩ := Point.ending?_eq_some.1 hend
  have hp' : s.engine.point t = .finished (some .alerted) r := hp
  rw [hp'] at htracked
  obtain ⟨-, hhanded, -⟩ := htracked
  have hall : handoffs (effectsOf t (checks log)) = toEveryEntry (cfgOf t) through := hhanded
  have hnone : s.awaited t = [] := by
    have hw := hc.awaited t
    rw [hp'] at hw
    exact List.map_eq_nil_iff.1 hw
  refine ⟨by rw [hc.collected_task, hall], hc.collectedNodup.filter _, fun d b hb hbt => ?_, fun d hd => ?_⟩
  · have hof : s.isOf t d = true := by simp [isOf, hb, hbt]
    rcases hc.covered d b hb with hcol | hw
    · exact List.mem_filter.2 ⟨hcol, hof⟩
    · rw [hbt, hnone] at hw
      cases hw
  · obtain ⟨b, r, hb, hr⟩ := hc.of_collected (List.mem_filter.1 hd).1
    have hposted := hc.posted d
    have hsettled := hc.settled d
    have hphase : (s.slack.phase d).result? = some r := hr
    generalize s.slack.phase d = phase at hposted hsettled hphase
    cases phase with
    | trying | posting => cases hphase
    | done _ =>
      cases hphase
      refine ⟨b, r, hb, hr, hposted.1, fun p hp => ?_, hposted.2, ?_⟩
      · obtain ⟨b', hb', hpost⟩ := hc.posts d p hp
        rw [hb] at hb'
        cases hb'
        exact hpost
      · have hone : acceptedOf d (dispatches log) = 1 ↔ Delivered d (dispatches log) := by
          have hle := hposted.2
          rw [delivered_iff_acceptedOf]
          omega
        rw [hone]
        exact hsettled.returned_iff

end Task

/-- One execution, its one dispatch delivered at the first attempt. -/
def deliveredAlert : List Event :=
  (breachRun 0 0).map .check ++
    [.dispatch ⟨0, 0, .proceed⟩, .dispatch ⟨0, 1, .posted (.response 200 "OK")⟩,
      .check ⟨0, ⟨1, 1⟩, .gathered [.ok ()]⟩]

theorem posted_once_deliveredAlert :
    ∃ s log, run (Alerting.step SlackHandler.slackSurroundings fun _ => (plainCheck "reqs").modelDump)
        (start { semaphore := 1 } SlackHandler.newBreaker) deliveredAlert = some (s, log) ∧
      (s.collected.filter (s.isOf 0)).length = 1 ∧
      ∀ d ∈ s.collected.filter (s.isOf 0), SlackHandler.acceptedOf d (dispatches log) ≤ 1 := by
  have h : (run (Alerting.step SlackHandler.slackSurroundings fun _ => (plainCheck "reqs").modelDump)
      (start { semaphore := 1 } SlackHandler.newBreaker) deliveredAlert).any (fun p =>
        (p.1.engine.point 0).ending? == some .alerted && (p.1.collected.filter (p.1.isOf 0)).length == 1) = true := by
    decide +kernel
  obtain ⟨⟨s, log⟩, hs, hq⟩ := (Option.any_eq_true _ _).1 h
  simp only [Bool.and_eq_true, beq_iff_eq] at hq
  refine ⟨s, log, hs, hq.2, fun d hd => ?_⟩
  obtain ⟨b, r, -, -, -, -, honce, -⟩ := (posted_once hs hq.1).2.2.2 d hd
  exact honce

/-! ## What the counter counts -/

section Counter

variable {env : SlackHandler.Surroundings} {cfgOf : ℕ → PyDict} {x₀ : Executor} {b₀ : Resilience.CircuitBreaker}
  {s : Alerting} {es : List Event} {log : List Seen} {id evaluator : String} {severity : Severity}

/-- The counter counts the handler calls of the log that did not raise. -/
theorem dispatched_run (h : run (Alerting.step env cfgOf) (start x₀ b₀) es = some (s, log)) :
    s.engine.executor.metrics.alertsTotal id evaluator severity .dispatched =
      x₀.metrics.alertsTotal id evaluator severity .dispatched +
        ((handedOver log).filterMap (countedAs cfgOf)).count (id, evaluator, severity) := by
  refine run_induction (fun _ log (s : Alerting) =>
    s.engine.executor.metrics.alertsTotal id evaluator severity .dispatched =
      x₀.metrics.alertsTotal id evaluator severity .dispatched +
        ((handedOver log).filterMap (countedAs cfgOf)).count (id, evaluator, severity)) rfl ?_ h
  intro es log s e o s' _ hI hs
  rcases step_cases hs with ⟨i, x, h', -, -, hx, rfl, rfl⟩ | ⟨i, b, k, h', -, -, -, rfl, rfl⟩
  · obtain ⟨hr, hexec, -, -, htask, -⟩ := step_resumes hx
    have hcounts : CountsDeliveries (metricIdOf (cfgOf h'.task)) h'.effects := htask ▸ hr.countsDeliveries
    have hafter : (s.next x h').engine.executor = s.engine.executor.applyAll h'.effects := hexec
    rw [hafter, Executor.applyAll_dispatched, hI, counted_handedIn hcounts, handedOver_check, List.filterMap_append,
      List.count_append, add_assoc]
  · have hsame : handedOver (log ++ [.dispatch h']) = handedOver log := by rw [handedOver, checks_dispatch, handedOver]
    rw [hsame]
    exact hI

/-- The dispatch is counted under these labels. -/
def isLabelled (cfgOf : ℕ → PyDict) (s : Alerting) (labels : String × String × Severity) (d : ℕ) : Bool :=
  (s.begun[d]?).any (·.labels cfgOf = labels)

open SlackHandler in
/-- A dispatch has returned when it is delivered or was turned away, as the log of the handler says. -/
theorem Coupled.returned_iff (h : Coupled env s log) (d : ℕ) :
    s.result? d = some (.ok ()) ↔ Delivered d (dispatches log) ∨ TurnedAway d (dispatches log) := by
  have hsettled := h.settled d
  unfold result?
  generalize s.slack.phase d = phase at hsettled
  cases phase with
  | trying | posting => exact iff_of_false (fun hr => by cases hr) (not_or.2 ⟨hsettled.2, hsettled.1⟩)
  | done r => exact Option.some_inj.trans hsettled.returned_iff

/-- The handler calls counted are the dispatches that returned. -/
theorem Coupled.count_handedOver (h : Coupled env s log) {labels : String × String × Severity} :
    ((handedOver log).filterMap (countedAs cfgOf)).count labels =
      s.collected.countP fun d => s.isLabelled cfgOf labels d && s.result? d == some (.ok ()) := by
  let counts (p : Option Dispatch × Option (Except Raised Unit)) : Bool :=
    p.1.any (·.labels cfgOf = labels) && p.2 == some (.ok ())
  have hone : ∀ p : Dispatch × Except Raised Unit,
      (countedAs cfgOf p == some labels) = counts (some p.1, some p.2) := by
    rintro ⟨b, r⟩
    cases r with
    | ok u => simp [countedAs, counts, beq_eq_decide]
    | error x => simp [countedAs, counts]
  calc ((handedOver log).filterMap (countedAs cfgOf)).count labels
      = (handedOver log).countP fun p => counts (some p.1, some p.2) := by
        rw [List.count_filterMap]
        exact List.countP_congr fun p _ => by rw [hone]
    _ = (s.collected.map fun d => (s.begun[d]?, s.result? d)).countP counts := by
        rw [h.handed, List.countP_map]
        rfl
    _ = s.collected.countP fun d => s.isLabelled cfgOf labels d && s.result? d == some (.ok ()) := by
        rw [List.countP_map]
        rfl

/-- The places of the dispatches begun. -/
def places (s : Alerting) : List ℕ := List.range s.begun.length

/-- The dispatch has returned and was not taken up yet. -/
def isReturning (s : Alerting) (d : ℕ) : Bool := d ∉ s.collected && s.result? d == some (.ok ())

/-- The counter of dispatched alerts, as the code counts: with the dispatches
that have returned and were not taken up yet. -/
def dispatchedTotal (cfgOf : ℕ → PyDict) (s : Alerting) (id evaluator : String) (severity : Severity) : ℕ :=
  s.engine.executor.metrics.alertsTotal id evaluator severity .dispatched +
    s.places.countP fun d => s.isLabelled cfgOf (id, evaluator, severity) d && s.isReturning d

theorem Coupled.mem_places (h : Coupled env s log) {d : ℕ} (hd : d ∈ s.collected) : d ∈ s.places := by
  obtain ⟨b, r, hb, -⟩ := h.of_collected hd
  exact List.mem_range.2 (List.getElem?_eq_some_iff.1 hb).1

/-- What is counted over all dispatches is counted over those taken up and over the others. -/
theorem Coupled.countP_places (h : Coupled env s log) (P : ℕ → Bool) :
    s.places.countP P = s.collected.countP P + s.places.countP fun d => P d && decide (d ∉ s.collected) := by
  have hperm : (s.places.filter (· ∈ s.collected)).Perm s.collected := by
    refine (List.perm_ext_iff_of_nodup (List.nodup_range.filter _) h.collectedNodup).2 fun d => ?_
    simp only [List.mem_filter, decide_eq_true_eq]
    exact ⟨And.right, fun hd => ⟨h.mem_places hd, hd⟩⟩
  rw [List.countP_eq_countP_filter_add s.places P (· ∈ s.collected), hperm.countP_eq, List.countP_filter]
  congr 2
  funext d
  rw [decide_not]

/-- Where no execution awaits a dispatch, the executor's counter is the code's. -/
theorem Coupled.dispatchedTotal_eq (h : Coupled env s log) (hidle : ∀ t, s.awaited t = []) :
    s.dispatchedTotal cfgOf id evaluator severity =
      s.engine.executor.metrics.alertsTotal id evaluator severity .dispatched := by
  have hnone : ∀ d ∈ s.places, ¬ (s.isLabelled cfgOf (id, evaluator, severity) d && s.isReturning d) = true := by
    intro d hd hret
    obtain ⟨b, hb⟩ : ∃ b, s.begun[d]? = some b := ⟨_, List.getElem?_eq_getElem (List.mem_range.1 hd)⟩
    rcases h.covered d b hb with hcol | hw
    · simp [isReturning, hcol] at hret
    · rw [hidle] at hw
      cases hw
  rw [dispatchedTotal, List.countP_eq_zero.2 hnone, add_zero]

open SlackHandler in
/-- **What the counter counts.** In every run of executions and dispatches,
the counter of dispatched alerts under some labels has counted the
dispatches under them that delivered their alert, and those that the
breaker turned away, which posted nothing that was accepted; each once, and
no other. -/
theorem dispatched_counter (h : run (Alerting.step env cfgOf) (start x₀ b₀) es = some (s, log)) :
    s.dispatchedTotal cfgOf id evaluator severity =
        x₀.metrics.alertsTotal id evaluator severity .dispatched +
          s.places.countP (fun d =>
            s.isLabelled cfgOf (id, evaluator, severity) d && decide (Delivered d (dispatches log))) +
          s.places.countP (fun d =>
            s.isLabelled cfgOf (id, evaluator, severity) d && decide (TurnedAway d (dispatches log))) ∧
      (∀ d, ¬ (Delivered d (dispatches log) ∧ TurnedAway d (dispatches log))) ∧
      ((∀ t, s.awaited t = []) → s.dispatchedTotal cfgOf id evaluator severity =
        s.engine.executor.metrics.alertsTotal id evaluator severity .dispatched) := by
  have hc := coupled_run h
  refine ⟨?_, fun d => (hc.settled d).not_both, hc.dispatchedTotal_eq⟩
  have hreturned : s.dispatchedTotal cfgOf id evaluator severity =
      x₀.metrics.alertsTotal id evaluator severity .dispatched +
        s.places.countP fun d => s.isLabelled cfgOf (id, evaluator, severity) d && s.result? d == some (.ok ()) := by
    rw [dispatchedTotal, dispatched_run h, hc.count_handedOver, add_assoc,
      hc.countP_places fun d => s.isLabelled cfgOf (id, evaluator, severity) d && s.result? d == some (.ok ())]
    congr 3
    funext d
    rw [isReturning, Bool.and_comm (decide (d ∉ s.collected)), Bool.and_assoc]
  rw [hreturned, add_assoc]
  congr 1
  rw [List.countP_eq_countP_filter_add _ _ fun d => decide (Delivered d (dispatches log)), List.countP_filter,
    List.countP_filter]
  refine congrArg₂ _ (List.countP_congr fun d _ => ?_) (List.countP_congr fun d _ => ?_)
  · have hret := hc.returned_iff d
    simp only [Bool.and_eq_true, beq_iff_eq, decide_eq_true_eq, hret]
    tauto
  · have hret := hc.returned_iff d
    have hnot := (hc.settled d).not_both
    simp only [Bool.and_eq_true, beq_iff_eq, decide_eq_true_eq, Bool.not_eq_true', decide_eq_false_iff_not, hret]
    tauto

end Counter

/-- One execution, its one dispatch turned away. -/
def skippedAlert : List Event :=
  (breachRun 0 0).map .check ++ [.dispatch ⟨0, 1, .proceed⟩, .check ⟨0, ⟨1, 1⟩, .gathered [.ok ()]⟩]

/-- Counted as dispatched, with nothing posted. -/
theorem dispatched_counter_skippedAlert :
    ∃ s log, run (Alerting.step SlackHandler.slackSurroundings fun _ => (plainCheck "reqs").modelDump)
        (start { semaphore := 1 } { SlackHandler.newBreaker with state := .opened, lastFailureTime := some 0 })
        skippedAlert = some (s, log) ∧
      s.dispatchedTotal (fun _ => (plainCheck "reqs").modelDump) "reqs" "threshold" .high = 1 ∧
      ∀ d, SlackHandler.postsOf d (dispatches log) = [] := by
  have h : (run (Alerting.step SlackHandler.slackSurroundings fun _ => (plainCheck "reqs").modelDump)
      (start { semaphore := 1 } { SlackHandler.newBreaker with state := .opened, lastFailureTime := some 0 })
      skippedAlert).any (fun p =>
        p.1.places.countP (fun d => p.1.isLabelled (fun _ => (plainCheck "reqs").modelDump)
          ("reqs", "threshold", .high) d && decide (SlackHandler.Delivered d (dispatches p.2))) == 0 &&
        p.1.places.countP (fun d => p.1.isLabelled (fun _ => (plainCheck "reqs").modelDump)
          ("reqs", "threshold", .high) d && decide (SlackHandler.TurnedAway d (dispatches p.2))) == 1 &&
        (dispatches p.2).all fun o => o.did.post?.isNone) = true := by
    decide +kernel
  obtain ⟨⟨s, log⟩, hs, hq⟩ := (Option.any_eq_true _ _).1 h
  simp only [Bool.and_eq_true, beq_iff_eq, List.all_eq_true] at hq
  obtain ⟨⟨hdelivered, hturned⟩, hnone⟩ := hq
  refine ⟨s, log, hs, ?_, fun d => ?_⟩
  · rw [(dispatched_counter hs).1, hdelivered, hturned]
  · refine List.filterMap_eq_nil_iff.2 fun o ho => ?_
    simpa using hnone o (List.mem_filter.1 ho).1

end Alerting

end SentinelFlow
