/-
The shared Slack handler at work: dispatches side by side, each an attempt
or up to three, and one breaker for them all. Between an attempt's POST and
its outcome, and between two attempts, the others go on.

A dispatch also returns normally when the breaker turns one of its attempts
away, and then nothing was posted by it for good: `delivered_iff_admitted`.
-/
import SentinelFlow.Lib.Dict
import SentinelFlow.Lib.Machine
import SentinelFlow.Handlers.Slack

namespace SentinelFlow.SlackHandler

open Machine

/-! ## Dispatches -/

/-- Where a dispatch stands. -/
inductive Phase
  /-- Before the attempt of this number. -/
  | trying (attempt : ℕ)
  /-- In the POST of the attempt. -/
  | posting (attempt : ℕ) (url : String)
  | done (r : Except Raised Unit)
  deriving DecidableEq

/-- The breaker, and where each dispatch stands. -/
structure State where
  breaker : Resilience.CircuitBreaker
  dispatches : Dict ℕ Phase := ∅

def State.phase (s : State) (d : ℕ) : Phase := (s.dispatches.lookup d).getD (.trying 1)

/-- What a dispatch goes on with. -/
inductive Stimulus
  /-- The attempt begins. -/
  | proceed
  | posted (outcome : PostOutcome)
  /-- Cancelled before the attempt. -/
  | cancel

/-- One step of one dispatch. -/
structure Input where
  dispatch : ℕ
  now : Time
  stimulus : Stimulus

/-- What a step of a dispatch did. -/
inductive Did
  /-- "Circuit breaker OPEN. Skipping Slack dispatch." -/
  | skipped
  /-- Raised before the POST. -/
  | refused (e : Exc)
  | posts (url : String) (payload : PyVal)
  | answered (outcome : PostOutcome)
  | cancelled

/-- What a step came to. -/
structure Happened where
  dispatch : ℕ
  did : Did

/-- After an attempt: the retries of `async_retry_network(max_attempts=3)`. -/
def afterAttempt (attempt : ℕ) : Except Raised Unit → Phase
  | .ok () => .done (.ok ())
  | .error (.exception e) =>
    match raisedAttempt (decide (attempt < 3)) e with
    | none => .trying (attempt + 1)
    | some e' => .done (.error (.exception e'))
  | .error .cancelledError => .done (.error .cancelledError)

section Step

variable (env : Surroundings) (argsOf : ℕ → AlertEvent × PyDict)

/-- The beginning of an attempt, up to its POST. -/
def beginAttempt (s : State) (d : ℕ) (now : Time) (attempt : ℕ) : State × Did :=
  let asked := s.breaker.allowRequest now
  if asked.2 then
    match webhookUrl env (argsOf d).2 with
    | .ok url =>
      (⟨asked.1, s.dispatches.insert d (.posting attempt url)⟩,
        .posts url (buildSlackPayload env (argsOf d).1))
    | .error e =>
      (⟨asked.1, s.dispatches.insert d (afterAttempt attempt (.error (.exception e)))⟩, .refused e)
  else (⟨asked.1, s.dispatches.insert d (.done (.ok ()))⟩, .skipped)

/-- One step. -/
def step (s : State) (i : Input) : Option (State × Happened) :=
  match s.phase i.dispatch, i.stimulus with
  | .trying attempt, .proceed =>
    let begun := beginAttempt env argsOf s i.dispatch i.now attempt
    some (begun.1, ⟨i.dispatch, begun.2⟩)
  | .trying _, .cancel =>
    some ({ s with dispatches := s.dispatches.insert i.dispatch (.done (.error .cancelledError)) },
      ⟨i.dispatch, .cancelled⟩)
  | .posting attempt url, .posted outcome =>
    let ended := finishAttempt s.breaker i.now url outcome
    some (⟨ended.1, s.dispatches.insert i.dispatch (afterAttempt attempt ended.2)⟩,
      ⟨i.dispatch, .answered outcome⟩)
  | _, _ => none

end Step

/-- The handler with no dispatch yet, its breaker in any state. -/
def start (b : Resilience.CircuitBreaker) : State := { breaker := b }

/-! ## What a step does -/

/-- What a step of a dispatch can be, with the phases before and after. -/
inductive Moves (s : State) (i : Input) : Phase → Did → Phase → Prop where
  | skipped {n} : i.stimulus = .proceed → (s.breaker.allowRequest i.now).2 = false →
      Moves s i (.trying n) .skipped (.done (.ok ()))
  | refused {n e} : (s.breaker.allowRequest i.now).2 = true →
      Moves s i (.trying n) (.refused e) (afterAttempt n (.error (.exception e)))
  | posts {n url payload} : (s.breaker.allowRequest i.now).2 = true →
      Moves s i (.trying n) (.posts url payload) (.posting n url)
  | answered {n url outcome r} : (r = .ok () ↔ outcome.accepted = true) →
      Moves s i (.posting n url) (.answered outcome) (afterAttempt n r)
  | cancelled {n} : i.stimulus = .cancel → Moves s i (.trying n) .cancelled (.done (.error .cancelledError))

section Moves

variable {env : Surroundings} {argsOf : ℕ → AlertEvent × PyDict} {s s' : State} {i : Input} {o : Happened}

theorem phase_insert_self (b : Resilience.CircuitBreaker) (ds : Dict ℕ Phase) (d : ℕ) (p : Phase) :
    (⟨b, ds.insert d p⟩ : State).phase d = p := by simp [State.phase]

theorem phase_insert_ne (b : Resilience.CircuitBreaker) (ds : Dict ℕ Phase) {d d' : ℕ} (p : Phase)
    (h : d' ≠ d) :
    (⟨b, ds.insert d p⟩ : State).phase d' = (ds.lookup d').getD (.trying 1) := by simp [State.phase, h]

theorem step_moves (h : step env argsOf s i = some (s', o)) :
    Moves s i (s.phase i.dispatch) o.did (s'.phase i.dispatch) ∧ o.dispatch = i.dispatch ∧
      ∀ d, d ≠ i.dispatch → s'.phase d = s.phase d := by
  unfold step at h
  split at h
  next n hp hst =>
    cases h
    unfold beginAttempt
    dsimp only
    rw [hp]
    split
    next hallow =>
      split
      · exact ⟨by rw [phase_insert_self]; exact .posts hallow, rfl, fun d hd => phase_insert_ne _ _ _ hd⟩
      · exact ⟨by rw [phase_insert_self]; exact .refused hallow, rfl, fun d hd => phase_insert_ne _ _ _ hd⟩
    next hallow =>
      exact ⟨by rw [phase_insert_self]; exact .skipped hst (by simpa using hallow), rfl,
        fun d hd => phase_insert_ne _ _ _ hd⟩
  next n hp hst =>
    cases h
    rw [hp, phase_insert_self]
    exact ⟨.cancelled hst, rfl, fun d hd => phase_insert_ne _ _ _ hd⟩
  next n url outcome hp hst =>
    cases h
    rw [hp, phase_insert_self]
    exact ⟨.answered finishAttempt_ok_iff, rfl, fun d hd => phase_insert_ne _ _ _ hd⟩
  next => cases h

end Moves

/-! ## Delivered, or turned away -/

/-- The attempt posted and got a non-error response. -/
def Did.delivers : Did → Bool
  | .answered outcome => outcome.accepted
  | _ => false

def Did.isSkipped : Did → Bool
  | .skipped => true
  | _ => false

/-- An attempt of the dispatch delivered its payload. -/
def Delivered (d : ℕ) (log : List Happened) : Prop := ∃ o ∈ log, o.dispatch = d ∧ o.did.delivers = true

/-- An attempt of the dispatch was turned away by the breaker. -/
def TurnedAway (d : ℕ) (log : List Happened) : Prop := ∃ o ∈ log, o.dispatch = d ∧ o.did.isSkipped = true

instance (d : ℕ) (log : List Happened) : Decidable (Delivered d log) := by
  unfold Delivered
  infer_instance

/-- The breaker admits the attempt of the dispatch that this input begins,
if it begins one. -/
def Admitted (d : ℕ) (s : State) (i : Input) : Prop :=
  i.dispatch = d → (∃ n, s.phase d = .trying n) → i.stimulus = .proceed →
    (s.breaker.allowRequest i.now).2 = true

section Delivery

variable {env : Surroundings} {argsOf : ℕ → AlertEvent × PyDict} {s s' : State} {i : Input}
  {o : Happened} {d : ℕ} {log : List Happened}

theorem delivered_concat :
    Delivered d (log ++ [o]) ↔ Delivered d log ∨ (o.dispatch = d ∧ o.did.delivers = true) := by
  simp only [Delivered, List.mem_append, List.mem_singleton, or_and_right, exists_or, exists_eq_left]

theorem turnedAway_concat :
    TurnedAway d (log ++ [o]) ↔ TurnedAway d log ∨ (o.dispatch = d ∧ o.did.isSkipped = true) := by
  simp only [TurnedAway, List.mem_append, List.mem_singleton, or_and_right, exists_or, exists_eq_left]

/-- An attempt is turned away exactly when the breaker does not admit it. -/
theorem admitted_iff (h : step env argsOf s i = some (s', o)) :
    Admitted d s i ↔ ¬ (o.dispatch = d ∧ o.did.isSkipped = true) := by
  obtain ⟨hm, ho, -⟩ := step_moves h
  rw [ho]
  unfold Admitted
  constructor
  · rintro hadm ⟨hd, hskip⟩
    generalize hp : s.phase i.dispatch = p, s'.phase i.dispatch = p', o.did = did at hm hskip
    cases hm with
    | skipped hst hno =>
      have hyes := hadm hd ⟨_, hd ▸ hp⟩ hst
      rw [hno] at hyes
      cases hyes
    | refused | posts | answered | cancelled => cases hskip
  · rintro hnot hd ⟨n, hp⟩ hst
    subst hd
    rw [hp] at hm
    generalize o.did = did, s'.phase i.dispatch = p' at hm hnot
    cases hm with
    | skipped => exact absurd ⟨rfl, rfl⟩ hnot
    | refused hyes | posts hyes => exact hyes
    | cancelled hc =>
      rw [hst] at hc
      cases hc

/-- While a dispatch goes on, and when it has raised, it was neither turned
away nor delivered; when it has returned, one of the two. -/
def Settled (d : ℕ) (log : List Happened) : Phase → Prop
  | .done (.ok ()) => (TurnedAway d log ∧ ¬ Delivered d log) ∨ (¬ TurnedAway d log ∧ Delivered d log)
  | _ => ¬ TurnedAway d log ∧ ¬ Delivered d log

theorem settled_afterAttempt_error {n : ℕ} {r : Raised} (ht : ¬ TurnedAway d log) (hd : ¬ Delivered d log) :
    Settled d log (afterAttempt n (.error r)) := by
  cases r with
  | cancelledError => exact ⟨ht, hd⟩
  | exception e =>
    unfold afterAttempt
    dsimp only
    split <;> exact ⟨ht, hd⟩

theorem Settled.step (hI : Settled d log (s.phase d)) (h : step env argsOf s i = some (s', o)) :
    Settled d (log ++ [o]) (s'.phase d) := by
  obtain ⟨hm, ho, hne⟩ := step_moves h
  by_cases hd : d = i.dispatch
  · subst hd
    generalize s.phase i.dispatch = p, s'.phase i.dispatch = p', hdid : o.did = did at hm hI ⊢
    cases hm with
    | skipped =>
      exact .inl ⟨turnedAway_concat.2 (.inr ⟨ho, by rw [hdid]; rfl⟩),
        by simp [delivered_concat, hI.2, hdid, Did.delivers]⟩
    | refused =>
      exact settled_afterAttempt_error (by simp [turnedAway_concat, hI.1, hdid, Did.isSkipped])
        (by simp [delivered_concat, hI.2, hdid, Did.delivers])
    | posts =>
      exact ⟨by simp [turnedAway_concat, hI.1, hdid, Did.isSkipped],
        by simp [delivered_concat, hI.2, hdid, Did.delivers]⟩
    | @answered n url outcome r hr =>
      have hturn : ¬ TurnedAway i.dispatch (log ++ [o]) := by
        simp [turnedAway_concat, hI.1, hdid, Did.isSkipped]
      have hdel : Delivered i.dispatch (log ++ [o]) ↔ outcome.accepted = true := by
        simp [delivered_concat, hI.2, hdid, ho, Did.delivers]
      cases r with
      | ok u => exact .inr ⟨hturn, hdel.2 (hr.1 rfl)⟩
      | error x => exact settled_afterAttempt_error hturn fun hdone => by cases hr.2 (hdel.1 hdone)
    | cancelled =>
      exact ⟨by simp [turnedAway_concat, hI.1, hdid, Did.isSkipped],
        by simp [delivered_concat, hI.2, hdid, Did.delivers]⟩
  · have hother : ¬ o.dispatch = d := fun h => hd (h.symm.trans ho)
    have hturn : TurnedAway d (log ++ [o]) ↔ TurnedAway d log := by simp [turnedAway_concat, hother]
    have hdel : Delivered d (log ++ [o]) ↔ Delivered d log := by simp [delivered_concat, hother]
    rw [hne d hd]
    unfold Settled at hI ⊢
    rw [hturn, hdel]
    exact hI

theorem settled_run {b : Resilience.CircuitBreaker} {is : List Input}
    (h : run (step env argsOf) (start b) is = some (s, log)) (d : ℕ) : Settled d log (s.phase d) := by
  refine run_induction (fun _ log s => Settled d log (s.phase d)) ?_ ?_ h
  · exact ⟨by simp [TurnedAway], by simp [Delivered]⟩
  · exact fun _ _ _ _ _ _ _ hI hs => hI.step hs

/-- All attempts of a dispatch are admitted exactly when none is turned away. -/
theorem along_admitted_iff {b : Resilience.CircuitBreaker} {is : List Input}
    (h : run (step env argsOf) (start b) is = some (s, log)) (d : ℕ) :
    Along (step env argsOf) (Admitted d) (start b) is ↔ ¬ TurnedAway d log := by
  refine run_induction
    (fun is log _ => Along (step env argsOf) (Admitted d) (start b) is ↔ ¬ TurnedAway d log) ?_ ?_ h
  · simp [Along, TurnedAway]
  · intro is log s i o s' hr hI hs
    have hlast : Along (step env argsOf) (Admitted d) s [i] ↔ Admitted d s i := by
      rw [along_cons hs]
      simp [Along]
    rw [along_append hr, hI, hlast, admitted_iff hs, turnedAway_concat, not_or]

/-- **When a normal return is a delivery.** In every run of dispatches side
by side, from any state of the breaker: a dispatch that returns normally has
posted its payload and got a non-error response, exactly when the breaker
admits each of its attempts. -/
theorem delivered_iff_admitted {b : Resilience.CircuitBreaker} {is : List Input}
    (h : run (step env argsOf) (start b) is = some (s, log)) (d : ℕ) :
    (s.phase d = .done (.ok ()) → Delivered d log) ↔ Along (step env argsOf) (Admitted d) (start b) is := by
  have hset := settled_run h d
  rw [along_admitted_iff h]
  constructor
  · intro hret hturn
    generalize hp : s.phase d = p at hset
    unfold Settled at hset
    split at hset
    · rcases hset with ⟨-, hno⟩ | ⟨hno, -⟩
      · exact hno (hret hp)
      · exact hno hturn
    · exact hset.1 hturn
  · intro hturn hp
    rw [hp] at hset
    rcases hset with ⟨hyes, -⟩ | ⟨-, hdel⟩
    · exact absurd hyes hturn
    · exact hdel

end Delivery

/-- Every alert goes to one webhook. -/
def slackArgs : ℕ → AlertEvent × PyDict :=
  fun _ => (⟨"reqs", "threshold", .high, "Metric reqs breached its threshold", 0, "Instance is frozen"⟩,
    [("webhook_url_env_key", .str "SLACK_WEBHOOK_URL")])

def slackSurroundings : Surroundings where
  setting name := if name = "slack_webhook_url" then some "https://hooks.slack.com/services/T0" else none
  isoformat _ := "1970-01-01T00:00:00+00:00"

/-- Two dispatches side by side: the first one's POST fails and is tried
again, the second one's is accepted while the first waits. -/
def retriedBeside : List Input :=
  [⟨0, 0, .proceed⟩, ⟨1, 0, .proceed⟩, ⟨0, 1, .posted (.response 503 "Service Unavailable")⟩,
    ⟨1, 2, .posted (.response 200 "OK")⟩, ⟨0, 3, .proceed⟩, ⟨0, 4, .posted (.response 200 "OK")⟩]

/-- Both are delivered, the first one at its second attempt. -/
theorem delivered_iff_admitted_retriedBeside :
    ∃ s log, run (step slackSurroundings slackArgs) (start newBreaker) retriedBeside = some (s, log) ∧
      (∀ d, d < 2 → s.phase d = .done (.ok ()) ∧ Delivered d log) ∧
      Along (step slackSurroundings slackArgs) (Admitted 0) (start newBreaker) retriedBeside := by
  have h : (run (step slackSurroundings slackArgs) (start newBreaker) retriedBeside).any
      (fun p => (List.range 2).all fun d => p.1.phase d == .done (.ok ()) && decide (Delivered d p.2)) = true := by
    decide +kernel
  obtain ⟨⟨s, log⟩, hs, hq⟩ := (Option.any_eq_true _ _).1 h
  simp only [List.all_eq_true, List.mem_range, Bool.and_eq_true, beq_iff_eq, decide_eq_true_eq] at hq
  exact ⟨s, log, hs, hq, (delivered_iff_admitted hs 0).1 fun _ => (hq 0 (by decide)).2⟩

/-- Two dispatches fail three times between them; the first one's third
attempt finds the breaker open. -/
def failingTogether : List Input :=
  [⟨0, 0, .proceed⟩, ⟨1, 0, .proceed⟩, ⟨0, 1, .posted (.response 500 "Internal Server Error")⟩,
    ⟨1, 1, .posted (.response 500 "Internal Server Error")⟩, ⟨0, 2, .proceed⟩,
    ⟨0, 3, .posted (.response 500 "Internal Server Error")⟩, ⟨0, 5, .proceed⟩]

/-- It returns normally, with both its POSTs failed. -/
theorem not_delivered_failingTogether :
    ∃ s log, run (step slackSurroundings slackArgs) (start newBreaker) failingTogether = some (s, log) ∧
      s.phase 0 = .done (.ok ()) ∧ ¬ Delivered 0 log := by
  have h : (run (step slackSurroundings slackArgs) (start newBreaker) failingTogether).any
      (fun p => p.1.phase 0 == .done (.ok ()) && !decide (Delivered 0 p.2)) = true := by decide +kernel
  obtain ⟨⟨s, log⟩, hs, hq⟩ := (Option.any_eq_true _ _).1 h
  simp only [Bool.and_eq_true, beq_iff_eq, Bool.not_eq_true', decide_eq_false_iff_not] at hq
  exact ⟨s, log, hs, hq.1, hq.2⟩

end SentinelFlow.SlackHandler
