/-
The alert policy under the executor. Every alert has its turn at
`should_dispatch` before any handler is called, and nothing of what the
handlers do comes back to the policy: in a run of the engine the policy has
gone through exactly the calls the log shows (`replays_run`).

So what silences an alert is an earlier one the policy let through,
delivered or not (`suppressed_iff_letThrough`).
-/
import SentinelFlow.PolicyRuns
import SentinelFlow.Engine.Reports

namespace SentinelFlow

open Machine Engine AlertPolicy PolicyRuns Timed

/-! ## The calls in a log -/

/-- A call of `should_dispatch`, and what it returned or raised. -/
structure PolicyCall where
  now : Time
  args : DispatchArgs
  result : Except Exc Bool
  deriving DecidableEq

def Effect.policyCall? : Effect → Option PolicyCall
  | .shouldDispatch now args result => some ⟨now, args, result⟩
  | _ => none

def policyCallsIn (es : List Effect) : List PolicyCall := es.filterMap Effect.policyCall?

def policyCalls (log : List Happened) : List PolicyCall := log.flatMap fun o => policyCallsIn o.effects

@[simp] theorem policyCallsIn_append (es fs : List Effect) :
    policyCallsIn (es ++ fs) = policyCallsIn es ++ policyCallsIn fs :=
  List.filterMap_append

theorem policyCalls_concat (log : List Happened) (o : Happened) :
    policyCalls (log ++ [o]) = policyCalls log ++ policyCallsIn o.effects := by
  simp [policyCalls]

section Calls

variable {id : String} {es : List Effect}

theorem policyCallsIn_ofExit (h : ∀ e ∈ es, e.OfExit id) : policyCallsIn es = [] := by
  rw [policyCallsIn, List.filterMap_eq_nil_iff]
  intro e he
  have := h e he
  cases e <;> first | rfl | cases this

theorem policyCallsIn_runDispatches {event : AlertEvent} {ts : List DispatchTask}
    {rs : List (Except Raised Unit)} :
    policyCallsIn (runDispatches id event ts rs) = [] := by
  rw [policyCallsIn, List.filterMap_eq_nil_iff]
  intro e he
  rcases mem_runDispatches he with ⟨ty, cfg, r, rfl⟩ | rfl <;> rfl

theorem policyCallsIn_dispatched {p : PipePoint} {rs : List (Except Raised Unit)} :
    policyCallsIn (p.dispatched id rs) = [] := by
  cases p with
  | dispatching event ts todo => exact policyCallsIn_runDispatches
  | fetching | evaluating | deciding => rfl

theorem policyCallsIn_lookups (h : ∀ e ∈ es, e.isLookup = true) : policyCallsIn es = [] :=
  filterMap_lookups (fun _ _ _ => rfl) h

theorem policyCallsIn_decideEvent (reg : Registry) (cfg : PyDict) (policy : AlertPolicy) (now : Time)
    (event : AlertEvent) (todo : List AlertEvent) :
    policyCallsIn (decideEvent reg cfg policy now event todo).2 =
      [⟨now, dispatchArgs cfg event, (policy.shouldDispatch now (dispatchArgs cfg event)).2.value⟩] := by
  unfold decideEvent
  dsimp only
  split
  · rfl
  · rfl
  · exact congrArg _ (policyCallsIn_lookups (isLookup_dispatchTasks reg _))

/-- Only the turn of an alert asks the policy. -/
theorem policyCallsIn_resumeBody {reg : Registry} {cfg : PyDict} {policy : AlertPolicy} {now : Time}
    {p : PipePoint} {reply : Reply} {prog : Progress}
    (h : resumeBody reg cfg policy now p reply = some (prog, es)) :
    policyCallsIn es = [] ∨ ∃ event todo, p = .deciding event todo ∧ policyCallsIn es =
      [⟨now, dispatchArgs cfg event, (policy.shouldDispatch now (dispatchArgs cfg event)).2.value⟩] := by
  cases continues_of_resumeBody h with
  | fetchRaised | evaluatorRaised => exact .inl rfl
  | fetched | evaluated => exact .inl (policyCallsIn_lookups (isLookup_nextEvaluator _))
  | @decided event todo => exact .inr ⟨event, todo, rfl, policyCallsIn_decideEvent ..⟩
  | gathered => exact .inl policyCallsIn_runDispatches

/-- What a step asks the policy. -/
theorem Resumes.policyCalls {reg : Registry} {x : Executor} {cfg : PyDict} {clk : Clock}
    {p p' : Point} {reply : Reply} (h : Resumes reg x cfg clk p reply p' es) :
    policyCallsIn es = [] ∨ ∃ f st event todo, p = .running f st (.deciding event todo) ∧
      policyCallsIn es = [⟨clk.wall, dispatchArgs cfg event,
        (x.policy.shouldDispatch clk.wall (dispatchArgs cfg event)).2.value⟩] := by
  cases h with
  | refused | entered | cancelledQueued | cancelledWaiting => exact .inl rfl
  | timedOutWaiting => exact .inl (policyCallsIn_ofExit ofExit_leaveUnstarted)
  | rejected =>
    rw [policyCallsIn_append, policyCallsIn_ofExit ofExit_leaveUnstarted]
    exact .inl rfl
  | @started f =>
    rw [policyCallsIn_append, policyCallsIn_append, policyCallsIn_lookups isLookup_startBody,
      policyCallsIn_ofExit ofExit_settle, startEffects]
    cases f.cbEnabled <;> exact .inl rfl
  | body hb =>
    rw [policyCallsIn_append, policyCallsIn_ofExit ofExit_settle, List.append_nil]
    refine (policyCallsIn_resumeBody hb).imp_right ?_
    rintro ⟨event, todo, rfl, hes⟩
    exact ⟨_, _, event, todo, rfl, hes⟩
  | timedOut | cancelled =>
    rw [policyCallsIn_append, policyCallsIn_dispatched, policyCallsIn_ofExit ofExit_leave]
    exact .inl rfl

end Calls

/-! ## The policy is a replay of its calls -/

theorem Executor.apply_policy (x : Executor) (e : Effect) :
    (x.apply e).policy =
      (e.policyCall?.toList).foldl (fun p c => (p.shouldDispatch c.now c.args).1) x.policy := by
  cases e with
  | forCheck id cfg =>
    simp only [apply]
    split <;> rfl
  | acquireInflight | releaseInflight | callEnter | callExcept | callElse =>
    simp only [apply, onBreaker, onCheck]
    split <;> rfl
  | _ => rfl

theorem Executor.applyAll_policy (es : List Effect) :
    ∀ x : Executor, (x.applyAll es).policy =
      (policyCallsIn es).foldl (fun p c => (p.shouldDispatch c.now c.args).1) x.policy := by
  induction es with
  | nil => exact fun x => rfl
  | cons e es ih =>
    intro x
    have h := ih (x.apply e)
    rw [x.apply_policy] at h
    rw [policyCallsIn, List.filterMap_cons]
    cases he : e.policyCall? <;> rw [he] at h <;> exact h

/-- Calls as the inputs of a run of the policy. -/
def asked (cs : List PolicyCall) : List (Time × DispatchArgs) := cs.map fun c => (c.now, c.args)

/-- A fresh policy, called so, answers so and comes to this state. -/
structure Replays (cs : List PolicyCall) (p : AlertPolicy) : Prop where
  state : p = stateAfter (asked cs)
  results : cs.map (·.result) = (answers (asked cs)).map (·.value)

theorem Replays.call {cs : List PolicyCall} {p : AlertPolicy} (h : Replays cs p) (now : Time)
    (a : DispatchArgs) :
    Replays (cs ++ [⟨now, a, (p.shouldDispatch now a).2.value⟩]) (p.shouldDispatch now a).1 := by
  have hasked : asked (cs ++ [⟨now, a, (p.shouldDispatch now a).2.value⟩]) = asked cs ++ [(now, a)] := by
    simp [asked]
  constructor
  · rw [hasked, stateAfter, exec_append, h.state]
    rfl
  · rw [hasked, answers, outs_append, List.map_append, List.map_append, h.results, h.state]
    rfl

/-- **The refinement.** The executor's policy has gone through the calls of
the log, and through no others. -/
theorem replays_run {reg : Registry} {cfgOf : ℕ → PyDict} {x₀ : Executor} (hx : x₀.policy = .new)
    {is : List Input} {log : List Happened} {s : Engine}
    (h : run (Engine.step reg cfgOf) (start x₀) is = some (s, log)) :
    Replays (policyCalls log) s.executor.policy := by
  refine run_induction (fun _ log s => Replays (policyCalls log) s.executor.policy) ⟨hx, rfl⟩ ?_ h
  intro is log s i o s' _ hI hs
  obtain ⟨hr, hx', -⟩ := step_resumes hs
  rw [hx', Executor.applyAll_policy, policyCalls_concat]
  rcases hr.policyCalls with hnil | ⟨-, -, event, -, -, hone⟩
  · rw [hnil, List.append_nil]
    exact hI
  · rw [hone]
    exact hI.call _ _

/-! ## What silences an alert -/

/-- The calls of a fingerprint at which the policy let the alert through. -/
def letThrough (fp : String) (cs : List PolicyCall) : List PolicyCall :=
  cs.filter fun c => fingerprintOf c.args = fp && c.result == .ok true

theorem hits_asked (fp : String) : ∀ {cs : List PolicyCall} {rs : List DispatchResult},
    cs.map (·.result) = rs.map (·.value) → hits (sent fp) (asked cs) rs = (letThrough fp cs).map (·.now)
  | [], _, _ => by simp [asked, letThrough]
  | c :: cs, [], h => by cases h
  | c :: cs, r :: rs, h => by
    simp only [List.map_cons, List.cons.injEq] at h
    have ih := hits_asked fp h.2
    have hsent : sent fp c.args r = (fingerprintOf c.args = fp && c.result == .ok true : Bool) := by
      rw [Bool.eq_iff_iff, sent_iff]
      simp [h.1]
    simp only [asked, List.map_cons, hits, letThrough, List.filter_cons, hsent]
    split
    · rw [List.map_cons, ← letThrough, ← ih]
      rfl
    · exact ih

theorem Replays.take {cs : List PolicyCall} {p : AlertPolicy} (h : Replays cs p) (i : ℕ) :
    Replays (cs.take i) (stateAfter (asked (cs.take i))) where
  state := rfl
  results := by
    have hasked : asked (cs.take i) = (asked cs).take i := List.map_take
    rw [hasked, answers, ← outs_take, List.map_take, List.map_take, ← answers, h.results]

/-- **What silences an alert.** In every run of the engine, whatever the
handlers did, an alert is suppressed exactly when the latest earlier alert
of its fingerprint that the policy let through is less than its dedupe
window ago. -/
theorem suppressed_iff_letThrough {reg : Registry} {cfgOf : ℕ → PyDict} {x₀ : Executor} (hx : x₀.policy = .new)
    {is : List Input} {log : List Happened} {s : Engine}
    (h : run (Engine.step reg cfgOf) (start x₀) is = some (s, log)) {i : ℕ} {c : PolicyCall}
    (hi : (policyCalls log)[i]? = some c) :
    c.result = .ok false ↔
      ∃ last, (letThrough (fingerprintOf c.args) ((policyCalls log).take i)).getLast? = some last ∧
        c.now - last.now < c.args.dedupeWindowSeconds := by
  have hrep := replays_run hx h
  have hasked : (asked (policyCalls log))[i]? = some (c.now, c.args) := by simp [asked, hi]
  have hres : c.result =
      ((stateAfter (asked ((policyCalls log).take i))).shouldDispatch c.now c.args).2.value := by
    have hget := congrArg (·[i]?) hrep.results
    simp only [List.getElem?_map, hi, answers_getElem? hasked, Option.map_some, Option.some.injEq] at hget
    rw [hget, asked, asked, List.map_take]
  have hlast := lastDispatched_eq (asked ((policyCalls log).take i)) (fingerprintOf c.args)
  rw [hits_asked _ (hrep.take i).results, List.getLast?_map] at hlast
  rw [hres, value_eq_false_iff, windowOpen_iff, hlast]
  simp only [Option.map_eq_some_iff]
  constructor
  · rintro ⟨_, ⟨last, hl, rfl⟩, hw⟩
    exact ⟨last, hl, hw⟩
  · rintro ⟨last, hl, hw⟩
    exact ⟨_, ⟨last, hl, rfl⟩, hw⟩

/-- A handler took the alert without raising. -/
def Effect.isDelivery : Effect → Bool
  | .handed _ _ _ (.ok ()) => true
  | _ => false

/-- An invocation up to the turn of its alert `breach`. -/
def breachRun (task : ℕ) (now : Time) : List Input :=
  let clk : Clock := ⟨now, now⟩
  [⟨task, clk, .granted⟩, ⟨task, clk, .granted⟩,
   ⟨task, clk, .fetched (.ok ⟨"reqs", now, some (.finite 9), none, .inl (by simp)⟩)⟩,
   ⟨task, clk, .evaluated (.ok (some breach))⟩, ⟨task, clk, .proceed⟩]

/-- The alert of the first invocation reaches no one; a minute later the
second raises it again. -/
def undeliveredRun : List Input :=
  breachRun 0 0 ++
    [⟨0, ⟨1, 1⟩, .gathered [.error (.exception (dispatchError "Slack HTTP error: 500" true))]⟩] ++
    breachRun 1 60

/-- Silenced by an alert that was let through. -/
theorem suppressed_iff_letThrough_undelivered :
    ∃ s log c,
      run (Engine.step .builtin fun _ => exampleCheck "reqs" []) (start { semaphore := 1 })
        undeliveredRun = some (s, log) ∧ (policyCalls log)[1]? = some c ∧
      ∃ last, (letThrough (fingerprintOf c.args) ((policyCalls log).take 1)).getLast? = some last ∧
        c.now - last.now < c.args.dedupeWindowSeconds := by
  have h : (run (Engine.step .builtin fun _ => exampleCheck "reqs" []) (start { semaphore := 1 })
      undeliveredRun).any (fun p => (policyCalls p.2)[1]?.any fun c => c.result == .ok false) = true := by
    decide +kernel
  obtain ⟨⟨s, log⟩, hs, hq⟩ := (Option.any_eq_true _ _).1 h
  obtain ⟨c, hc, hres⟩ := (Option.any_eq_true _ _).1 hq
  exact ⟨s, log, c, hs, hc, (suppressed_iff_letThrough rfl hs hc).1 (beq_iff_eq.1 hres)⟩

/-- Silenced, although no handler delivered anything. -/
theorem suppressed_undelivered :
    ∃ s log c,
      run (Engine.step .builtin fun _ => exampleCheck "reqs" []) (start { semaphore := 1 })
        undeliveredRun = some (s, log) ∧ (policyCalls log)[1]? = some c ∧ c.result = .ok false ∧
      ∀ o ∈ log, ∀ e ∈ o.effects, e.isDelivery = false := by
  have h : (run (Engine.step .builtin fun _ => exampleCheck "reqs" []) (start { semaphore := 1 })
      undeliveredRun).any (fun p => ((policyCalls p.2)[1]?.any fun c => c.result == .ok false) &&
        p.2.all fun o => o.effects.all fun e => !e.isDelivery) = true := by decide +kernel
  obtain ⟨⟨s, log⟩, hs, hq⟩ := (Option.any_eq_true _ _).1 h
  rw [Bool.and_eq_true] at hq
  obtain ⟨c, hc, hres⟩ := (Option.any_eq_true _ _).1 hq.1
  have hnone := hq.2
  simp only [List.all_eq_true, Bool.not_eq_true'] at hnone
  exact ⟨s, log, c, hs, hc, beq_iff_eq.1 hres, hnone⟩

end SentinelFlow
