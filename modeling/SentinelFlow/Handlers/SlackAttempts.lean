/-
What one attempt of a dispatch tells the breaker and the retries, whatever
state the breaker was in and whatever other dispatches do while the POST is
out.

The one `except` clause of `dispatch` is for `aiohttp.ClientError`. The
session's own total timeout is none: it leaves the attempt as it is, so the
breaker hears nothing of it, a half-open breaker stays half-open, and the
attempt is not tried again.
-/
import SentinelFlow.Handlers.SlackRuns

namespace SentinelFlow.SlackHandler

open Machine

variable {env : Surroundings} {argsOf : ℕ → AlertEvent × PyDict}

/-! ## An attempt among others -/

/-- While others step, a dispatch stays where it is. -/
theorem phase_run_others {s s' : State} {is : List Input} {log : List Happened} {d : ℕ}
    (h : run (step env argsOf) s is = some (s', log)) (hd : ∀ i ∈ is, i.dispatch ≠ d) :
    s'.phase d = s.phase d := by
  induction is generalizing s log with
  | nil =>
    cases h
    rfl
  | cons i is ih =>
    obtain ⟨t, o, os, hs, hr, -⟩ := run_cons.1 h
    rw [List.forall_mem_cons] at hd
    obtain ⟨-, -, hne⟩ := step_moves hs
    exact (ih hr hd.2).trans (hne d (Ne.symm hd.1))

/-- The step of a dispatch whose POST comes to an outcome. -/
theorem step_posted {s : State} {d n : ℕ} {url : String} (hp : s.phase d = .posting n url) (now : Time)
    (outcome : PostOutcome) :
    step env argsOf s ⟨d, now, .posted outcome⟩ =
      some (⟨(finishAttempt s.breaker now url outcome).1,
        s.dispatches.insert d (afterAttempt n (finishAttempt s.breaker now url outcome).2)⟩,
        ⟨d, .answered outcome⟩) := by
  simp only [step, hp]

/-- An attempt of a dispatch: it begins at `s`, others go on up to `u`, and
its POST comes to an outcome. -/
structure Attempt (env : Surroundings) (argsOf : ℕ → AlertEvent × PyDict) (d n : ℕ) (url : String) (now : Time)
    (outcome : PostOutcome) (s u s' : State) : Prop where
  trying : s.phase d = .trying n
  resolved : webhookUrl env (argsOf d).2 = .ok url
  admitted : ∃ t, (s.breaker.allowRequest t).2 = true ∧ ∃ begun o is log,
    step env argsOf s ⟨d, t, .proceed⟩ = some (begun, o) ∧ (∀ i ∈ is, i.dispatch ≠ d) ∧
      run (step env argsOf) begun is = some (u, log)
  ended : ∃ o, step env argsOf u ⟨d, now, .posted outcome⟩ = some (s', o)

/-- Until its outcome the attempt is in its POST, and then it is finished. -/
theorem Attempt.finish {d n : ℕ} {url : String} {now : Time} {outcome : PostOutcome} {s u s' : State}
    (h : Attempt env argsOf d n url now outcome s u s') :
    s'.breaker = (finishAttempt u.breaker now url outcome).1 ∧
      s'.phase d = afterAttempt n (finishAttempt u.breaker now url outcome).2 := by
  obtain ⟨t, hallow, begun, o, is, log, hbegin, hothers, hrun⟩ := h.admitted
  obtain ⟨o', hend⟩ := h.ended
  have hposting : u.phase d = .posting n url := by
    rw [phase_run_others hrun hothers]
    simp only [step, h.trying, beginAttempt, hallow, if_true, h.resolved, Option.some.injEq, Prod.mk.injEq] at hbegin
    rw [← hbegin.1]
    exact phase_insert_self ..
  rw [step_posted hposting, Option.some.injEq, Prod.mk.injEq] at hend
  rw [← hend.1]
  exact ⟨rfl, phase_insert_self ..⟩

/-! ## What it reports -/

/-- The attempt is reported as it ended: one success for a non-error
response, and otherwise one failure and a `DispatchError` to try again. -/
def ReportedRight (d n : ℕ) (url : String) (now : Time) (outcome : PostOutcome) (u s' : State) : Prop :=
  if outcome.accepted then s'.breaker = u.breaker.recordSuccess ∧ s'.phase d = .done (.ok ())
  else s'.breaker = u.breaker.recordFailure now ∧
    ∃ e : Exc, e.isInstance .dispatchError = true ∧ isRetryableException e = true ∧
      (finishAttempt u.breaker now url outcome).2 = .error (.exception e) ∧
      s'.phase d = afterAttempt n (.error (.exception e))

/-- The exception can be printed, or what printing it raises is a
`DispatchError` to try again itself. -/
def isQuotable (e : Exc) : Bool :=
  match e.str with
  | .ok _ => true
  | .error e' => e'.isInstance .dispatchError && isRetryableException e'

/-- A response, or an exception `except aiohttp.ClientError` is for, and can
quote. -/
def PostOutcome.isCaught : PostOutcome → Bool
  | .response _ _ => true
  | .raised (.exception e) => e.isInstance .clientError && isQuotable e
  | .raised .cancelledError => false

/-- What a client error is turned into. -/
theorem finishAttempt_clientError {b : Resilience.CircuitBreaker} {now : Time} {url : String} {outcome : PostOutcome}
    {e : Exc} (h : postResult url outcome = .error (.exception e)) (he : e.isInstance .clientError = true) :
    finishAttempt b now url outcome = (b.recordFailure now, .error (.exception
      (e.quoted fun text => dispatchError s!"Network error during Slack dispatch: {text}" true))) := by
  unfold finishAttempt
  rw [h]
  exact if_pos he

/-- A client error that can be quoted becomes a `DispatchError`, to be tried
again. -/
theorem quoted_isDispatchError {e : Exc} (h : isQuotable e = true) : ∃ e' : Exc,
    (e.quoted fun text => dispatchError s!"Network error during Slack dispatch: {text}" true) = e' ∧
      e'.isInstance .dispatchError = true ∧ isRetryableException e' = true := by
  unfold isQuotable at h
  unfold Exc.quoted
  cases hs : e.str with
  | ok text => exact ⟨_, rfl, rfl, rfl⟩
  | error e' =>
    rw [hs] at h
    exact ⟨e', rfl, Bool.and_eq_true_iff.1 h⟩

/-- Any other outcome leaves the breaker alone, or a client error that is
none to try again in its place. -/
theorem finishAttempt_uncaught {b : Resilience.CircuitBreaker} {now : Time} {url : String} {outcome : PostOutcome}
    (h : outcome.isCaught = false) : (finishAttempt b now url outcome).1 = b ∨
      ∃ e : Exc, (finishAttempt b now url outcome).2 = .error (.exception e) ∧
        ¬(e.isInstance .dispatchError = true ∧ isRetryableException e = true) := by
  cases outcome with
  | response status reason => cases h
  | raised r =>
    cases r with
    | cancelledError => exact .inl rfl
    | exception e =>
      by_cases hc : e.isInstance .clientError = true
      · rw [finishAttempt_clientError rfl hc]
        simp only [PostOutcome.isCaught, hc, Bool.true_and, isQuotable] at h
        unfold Exc.quoted
        cases hs : e.str with
        | ok text =>
          rw [hs] at h
          cases h
        | error e' =>
          rw [hs] at h
          refine .inr ⟨e', rfl, fun hboth => ?_⟩
          simp [hboth.1, hboth.2] at h
      · left
        simp only [finishAttempt, postResult, hc, Bool.false_eq_true, if_false]

theorem reportedRight_of_clientError {d n : ℕ} {url : String} {now : Time} {outcome : PostOutcome} {s u s' : State}
    {e : Exc} (h : Attempt env argsOf d n url now outcome s u s') (hacc : outcome.accepted = false)
    (hpost : postResult url outcome = .error (.exception e)) (he : e.isInstance .clientError = true)
    (hquot : isQuotable e = true) : ReportedRight d n url now outcome u s' := by
  obtain ⟨hbreaker, hphase⟩ := h.finish
  obtain ⟨e', hquoted, hdispatch, hretry⟩ := quoted_isDispatchError hquot
  have hfinish := @finishAttempt_clientError u.breaker now url outcome e hpost he
  rw [hquoted] at hfinish
  rw [hfinish] at hbreaker hphase
  rw [ReportedRight, if_neg (by simp [hacc])]
  exact ⟨hbreaker, e', hdispatch, hretry, by rw [hfinish], hphase⟩

/-- **What an attempt reports.** In whatever state the breaker admits it and
whatever the others do, an attempt is reported as it ended, if and only if it
ended in a response or in an `aiohttp.ClientError` that can be quoted. -/
theorem reportedRight_iff {d n : ℕ} {url : String} {now : Time} {outcome : PostOutcome} {s u s' : State}
    (h : Attempt env argsOf d n url now outcome s u s') :
    ReportedRight d n url now outcome u s' ↔ outcome.isCaught = true := by
  constructor
  · intro hright
    by_contra hno
    have hcaught : outcome.isCaught = false := by simpa using hno
    have hacc : outcome.accepted = false := by
      cases outcome with
      | response => cases hcaught
      | raised => rfl
    rw [ReportedRight, if_neg (by simp [hacc])] at hright
    obtain ⟨hbreaker, e, hdispatch, hretry, hfinish, -⟩ := hright
    rcases @finishAttempt_uncaught u.breaker now url outcome hcaught with halone | ⟨e', he', hno⟩
    · rw [h.finish.1, halone] at hbreaker
      -- a failure recorded would have been counted
      have hcount := congrArg Resilience.CircuitBreaker.failures hbreaker
      rw [Resilience.CircuitBreaker.recordFailure_failures] at hcount
      omega
    · rw [hfinish] at he'
      cases he'
      exact hno ⟨hdispatch, hretry⟩
  · intro hcaught
    cases outcome with
    | response status reason =>
      by_cases hs : 400 ≤ status
      · exact reportedRight_of_clientError h (by simp [PostOutcome.accepted, hs])
          (if_pos hs : postResult url (.response status reason) = _) rfl rfl
      · obtain ⟨hbreaker, hphase⟩ := h.finish
        simp only [finishAttempt, postResult, if_neg hs] at hbreaker hphase
        rw [ReportedRight, if_pos (by simpa [PostOutcome.accepted] using hs)]
        exact ⟨hbreaker, hphase⟩
    | raised r =>
      cases r with
      | cancelledError => cases hcaught
      | exception e =>
        obtain ⟨he, hquot⟩ := Bool.and_eq_true_iff.1 hcaught
        exact reportedRight_of_clientError h rfl rfl he hquot

/-- A half-open breaker. -/
def probing : Resilience.CircuitBreaker := { newBreaker with failures := 3, state := .halfOpen, lastFailureTime := some 0 }

/-- Its probe, begun at 40 and out for ten seconds. -/
theorem attempt_probing (outcome : PostOutcome) :
    ∃ u s', Attempt slackSurroundings slackArgs 0 1 "https://hooks.slack.com/services/T0" 50 outcome
      (start probing) u s' ∧ u.breaker = probing := by
  obtain ⟨begun, o, hbegin, hb, hp⟩ : ∃ begun o, step slackSurroundings slackArgs (start probing) ⟨0, 40, .proceed⟩ =
      some (begun, o) ∧ begun.breaker = probing ∧
        begun.phase 0 = .posting 1 "https://hooks.slack.com/services/T0" := ⟨_, _, rfl, rfl, rfl⟩
  exact ⟨begun, _, ⟨rfl, rfl, ⟨40, rfl, begun, o, [], [], hbegin, by simp, rfl⟩, _, step_posted hp 50 outcome⟩, hb⟩

/-- A probe answered 503 is one failure, and is tried again. -/
theorem reportedRight_iff_refusedProbe : ∃ s u s', s.breaker.state = .halfOpen ∧
    Attempt slackSurroundings slackArgs 0 1 "https://hooks.slack.com/services/T0" 50
      (.response 503 "Service Unavailable") s u s' ∧
    ReportedRight 0 1 "https://hooks.slack.com/services/T0" 50 (.response 503 "Service Unavailable") u s' := by
  obtain ⟨u, s', h, -⟩ := attempt_probing (.response 503 "Service Unavailable")
  exact ⟨_, u, s', rfl, h, (reportedRight_iff h).2 rfl⟩

/-- A probe that runs into the session's total timeout is reported to nobody:
the breaker stays half-open, and the `TimeoutError` ends the dispatch. -/
theorem not_reportedRight_timedOutProbe : ∃ u s',
    Attempt slackSurroundings slackArgs 0 1 "https://hooks.slack.com/services/T0" 50
      (.raised (.exception timeoutError)) (start probing) u s' ∧
    ¬ReportedRight 0 1 "https://hooks.slack.com/services/T0" 50 (.raised (.exception timeoutError)) u s' ∧
    s'.breaker = probing ∧ s'.phase 0 = .done (.error (.exception timeoutError)) := by
  obtain ⟨u, s', h, hu⟩ := attempt_probing (.raised (.exception timeoutError))
  obtain ⟨hbreaker, hphase⟩ := h.finish
  rw [hu] at hbreaker
  refine ⟨u, s', h, fun hright => ?_, hbreaker, hphase⟩
  rw [ReportedRight, if_neg (by decide), hbreaker, hu] at hright
  exact absurd hright.1 (by decide)

end SentinelFlow.SlackHandler
