/-
Overlapping `CircuitBreaker.call` invocations, in any interleaving: a call
is admitted or rejected in one atomic step, and an admitted one later
succeeds, fails or is cancelled in another.

The breaker keeps three states and a counter that stands still in
`HALF_OPEN`. What it decides is a formula over the history alone
(`Rejects`): enough failures since the last success, and the latest of them
recent. `Agrees` relates the two, and `rejected_iff` is the equivalence.
-/
import Mathlib.Tactic.Linarith
import SentinelFlow.Lib.Machine
import SentinelFlow.Lib.Timed
import SentinelFlow.Runtime.Resilience

namespace SentinelFlow.BreakerCalls

open Machine Timed

/-- A step of the call with this id. -/
inductive CallEvent
  | enter (id : ℕ)
  | succeed (id : ℕ)
  | fail (id : ℕ)
  | cancel (id : ℕ)
  deriving DecidableEq, Repr

/-- What a call is told: to go on, that it is refused, or nothing more. -/
inductive Answer
  | admitted | rejected | finished
  deriving DecidableEq, Repr

/-- The breaker, and the calls whose coroutine is running. -/
structure Calls where
  breaker : CircuitBreaker
  inFlight : List ℕ
  deriving DecidableEq, Repr

/-- One step; a call enters once, and ends only while it is in flight. -/
def step (c : Calls) : Time × CallEvent → Option (Calls × Answer)
  | (now, .enter id) =>
    if id ∈ c.inFlight then none
    else match c.breaker.callEnter now with
      | .ok breaker => some (⟨breaker, id :: c.inFlight⟩, .admitted)
      | .error _ => some (c, .rejected)
  | (_, .succeed id) =>
    if id ∈ c.inFlight then some (⟨c.breaker.callElse, c.inFlight.erase id⟩, .finished) else none
  | (now, .fail id) =>
    if id ∈ c.inFlight then some (⟨c.breaker.callExcept now, c.inFlight.erase id⟩, .finished) else none
  | (_, .cancel id) =>
    if id ∈ c.inFlight then some (⟨c.breaker, c.inFlight.erase id⟩, .finished) else none

/-- What a step can be. -/
theorem step_cases {c c' : Calls} {now : Time} {e : CallEvent} {a : Answer}
    (h : step c (now, e) = some (c', a)) :
    (∃ id b, c.breaker.callEnter now = .ok b ∧ e = .enter id ∧ id ∉ c.inFlight ∧
      c' = ⟨b, id :: c.inFlight⟩ ∧ a = .admitted) ∨
    (∃ id, (∃ x, c.breaker.callEnter now = .error x) ∧ e = .enter id ∧ id ∉ c.inFlight ∧
      c' = c ∧ a = .rejected) ∨
    (∃ id, e = .succeed id ∧ id ∈ c.inFlight ∧
      c' = ⟨c.breaker.callElse, c.inFlight.erase id⟩ ∧ a = .finished) ∨
    (∃ id, e = .fail id ∧ id ∈ c.inFlight ∧
      c' = ⟨c.breaker.callExcept now, c.inFlight.erase id⟩ ∧ a = .finished) ∨
    (∃ id, e = .cancel id ∧ id ∈ c.inFlight ∧
      c' = ⟨c.breaker, c.inFlight.erase id⟩ ∧ a = .finished) := by
  cases e <;> simp only [step] at h <;> split at h
  case enter.isFalse id hid =>
    split at h <;> cases h
    next b hb => exact .inl ⟨id, b, hb, rfl, hid, rfl, rfl⟩
    next x hx => exact .inr (.inl ⟨id, ⟨x, hx⟩, rfl, hid, rfl, rfl⟩)
  case succeed.isTrue id hid => cases h; exact .inr (.inr (.inl ⟨id, rfl, hid, rfl, rfl⟩))
  case fail.isTrue id hid => cases h; exact .inr (.inr (.inr (.inl ⟨id, rfl, hid, rfl, rfl⟩)))
  case cancel.isTrue id hid => cases h; exact .inr (.inr (.inr (.inr ⟨id, rfl, hid, rfl, rfl⟩)))
  all_goals cases h

/-- A new breaker and no calls. -/
def fresh (failureThreshold : ℤ) (resetTimeoutSeconds : PyFloat) : Calls :=
  ⟨{ failureThreshold, resetTimeoutSeconds }, []⟩

/-! ## The history formula -/

/-- Events in their order, each with the reading of the clock. -/
abbrev Trace := List (Time × CallEvent)

def CallEvent.isSuccess : CallEvent → Bool
  | .succeed _ => true
  | _ => false

def CallEvent.isFailure : CallEvent → Bool
  | .fail _ => true
  | _ => false

/-- How many failure steps there were since the last success step. -/
def failuresSinceSuccess (tr : Trace) : ℕ :=
  (tr.reverse.takeWhile fun e => !e.2.isSuccess).countP (·.2.isFailure)

/-- When the most recent failure step was. -/
def lastFailure (tr : Trace) : Option Time := (tr.reverse.find? (·.2.isFailure)).map (·.1)

/-- The admission rule, told by the history: at least `n` failures since the
last success, the latest of them at most the timeout ago. -/
def Rejects (n : ℤ) (reset : PyFloat) (tr : Trace) (now : Time) : Prop :=
  n ≤ failuresSinceSuccess tr ∧
    ∃ t, lastFailure tr = some t ∧ PyFloat.le (.finite (now - t)) reset = true

section Formula

variable (tr : Trace) (now : Time) (id : ℕ)

@[simp] theorem failuresSinceSuccess_nil : failuresSinceSuccess [] = 0 := rfl

@[simp] theorem failuresSinceSuccess_enter :
    failuresSinceSuccess (tr ++ [(now, .enter id)]) = failuresSinceSuccess tr := by
  simp [failuresSinceSuccess, CallEvent.isSuccess, CallEvent.isFailure]

@[simp] theorem failuresSinceSuccess_cancel :
    failuresSinceSuccess (tr ++ [(now, .cancel id)]) = failuresSinceSuccess tr := by
  simp [failuresSinceSuccess, CallEvent.isSuccess, CallEvent.isFailure]

@[simp] theorem failuresSinceSuccess_succeed : failuresSinceSuccess (tr ++ [(now, .succeed id)]) = 0 := by
  simp [failuresSinceSuccess, CallEvent.isSuccess]

@[simp] theorem failuresSinceSuccess_fail :
    failuresSinceSuccess (tr ++ [(now, .fail id)]) = failuresSinceSuccess tr + 1 := by
  simp [failuresSinceSuccess, CallEvent.isSuccess, CallEvent.isFailure]

@[simp] theorem lastFailure_enter : lastFailure (tr ++ [(now, .enter id)]) = lastFailure tr := by
  simp [lastFailure, CallEvent.isFailure]

@[simp] theorem lastFailure_cancel : lastFailure (tr ++ [(now, .cancel id)]) = lastFailure tr := by
  simp [lastFailure, CallEvent.isFailure]

@[simp] theorem lastFailure_fail : lastFailure (tr ++ [(now, .fail id)]) = some now := by
  simp [lastFailure, CallEvent.isFailure]

end Formula

/-! ## The breaker against the history -/

/-- The breaker agrees with the history of its calls. -/
structure Agrees (n : ℤ) (reset : PyFloat) (tr : Trace) (b : CircuitBreaker) : Prop where
  threshold : b.failureThreshold = n
  timeout : b.resetTimeoutSeconds = reset
  /-- `CLOSED`: the counter counts, and is short of the threshold. -/
  closed : b.state = .closed → b.failures = failuresSinceSuccess tr ∧ failuresSinceSuccess tr < n
  /-- Otherwise both have reached it, and the last failure is on record. -/
  tripped : b.state ≠ .closed → n ≤ b.failures ∧ n ≤ failuresSinceSuccess tr ∧
    lastFailure tr = some b.lastFailureTime
  /-- `HALF_OPEN` was entered past the timeout. -/
  halfOpen : b.state = .halfOpen → ∃ e ∈ tr, reset.lt (.finite (e.1 - b.lastFailureTime)) = true

namespace Agrees

variable {n : ℤ} {reset : PyFloat} {tr : Trace} {b : CircuitBreaker}

theorem fresh (hn : 1 ≤ n) (reset : PyFloat) :
    Agrees n reset [] { failureThreshold := n, resetTimeoutSeconds := reset } where
  threshold := rfl
  timeout := rfl
  closed _ := ⟨rfl, by simp; omega⟩
  tripped h := absurd rfl h
  halfOpen h := by cases h

theorem enter (h : Agrees n reset tr b) {b' : CircuitBreaker} {now : Time} (id : ℕ)
    (hb : b.callEnter now = .ok b') :
    Agrees n reset (tr ++ [(now, .enter id)]) b' := by
  rcases CircuitBreaker.callEnter_ok hb with ⟨-, rfl⟩ | ⟨ho, hlt, rfl⟩
  · refine ⟨h.threshold, h.timeout, by simpa using h.closed, by simpa using h.tripped, fun hs => ?_⟩
    obtain ⟨e, he, hlt⟩ := h.halfOpen hs
    exact ⟨e, List.mem_append_left _ he, hlt⟩
  · have ht := h.tripped (by simp [ho])
    refine ⟨h.threshold, h.timeout, fun hs => (by cases hs), fun _ => by simpa using ht, fun _ => ?_⟩
    exact ⟨(now, .enter id), by simp, by rw [← h.timeout]; exact hlt⟩

/-- A step that leaves the breaker and the formula alone. -/
theorem mono (h : Agrees n reset tr b) {e : Time × CallEvent}
    (hf : failuresSinceSuccess (tr ++ [e]) = failuresSinceSuccess tr)
    (hl : lastFailure (tr ++ [e]) = lastFailure tr) :
    Agrees n reset (tr ++ [e]) b := by
  refine ⟨h.threshold, h.timeout, by simpa [hf] using h.closed, by simpa [hf, hl] using h.tripped,
    fun hs => ?_⟩
  obtain ⟨e', he, hlt⟩ := h.halfOpen hs
  exact ⟨e', List.mem_append_left _ he, hlt⟩

theorem succeed (hn : 1 ≤ n) (h : Agrees n reset tr b) (now : Time) (id : ℕ) :
    Agrees n reset (tr ++ [(now, .succeed id)]) b.callElse where
  threshold := h.threshold
  timeout := h.timeout
  closed _ := ⟨by simp, by simp; omega⟩
  tripped hs := absurd rfl hs
  halfOpen hs := by cases hs

theorem fail (h : Agrees n reset tr b) (now : Time) (id : ℕ) :
    Agrees n reset (tr ++ [(now, .fail id)]) (b.callExcept now) := by
  have hth := h.threshold
  rcases b.callExcept_cases now with ⟨hne, hlt, hb⟩ | ⟨hne, hle, hb⟩ | ⟨hs, hb⟩ <;> rw [hb]
  -- Short of the threshold: the breaker is closed and stays so.
  · have hs : b.state = .closed := by
      cases hs : b.state with
      | closed => rfl
      | opened => have := (h.tripped (by simp [hs])).1; omega
      | halfOpen => exact absurd hs hne
    obtain ⟨hf, hc⟩ := h.closed hs
    refine ⟨hth, h.timeout, fun _ => ?_, fun h' => absurd hs h', fun h' => ?_⟩
    · rw [failuresSinceSuccess_fail]
      dsimp only
      omega
    · dsimp only at h'
      rw [hs] at h'
      cases h'
  -- Opened: the history has at least as many failures as the counter.
  · have hcount : n ≤ failuresSinceSuccess tr + 1 := by
      cases hs : b.state with
      | closed => have := (h.closed hs).1; omega
      | opened => have := (h.tripped (by simp [hs])).2.1; omega
      | halfOpen => exact absurd hs hne
    refine ⟨hth, h.timeout, fun h' => ?_, fun _ => ?_, fun h' => ?_⟩
    · cases h'
    · rw [failuresSinceSuccess_fail, lastFailure_fail]
      dsimp only
      exact ⟨by omega, by omega, rfl⟩
    · cases h'
  -- A failed probe: the counter stands, and had reached the threshold.
  · obtain ⟨hf, hc, -⟩ := h.tripped (by simp [hs])
    refine ⟨hth, h.timeout, fun h' => ?_, fun _ => ?_, fun h' => ?_⟩
    · cases h'
    · rw [failuresSinceSuccess_fail, lastFailure_fail]
      exact ⟨hf, by omega, rfl⟩
    · cases h'

end Agrees

/-- Every run of calls keeps the breaker in agreement with their history. -/
theorem run_agrees {n : ℤ} {reset : PyFloat} (hn : 1 ≤ n) {tr : Trace} {c : Calls} {as : List Answer}
    (h : run step (fresh n reset) tr = some (c, as)) : Agrees n reset tr c.breaker := by
  refine run_induction (fun tr _ (c : Calls) => Agrees n reset tr c.breaker) (Agrees.fresh hn reset) ?_ h
  intro tr as c ⟨now, e⟩ a c' _ hI hs
  rcases step_cases hs with ⟨id, b, hb, rfl, -, rfl, -⟩ | ⟨id, -, rfl, -, rfl, -⟩ |
    ⟨id, rfl, -, rfl, -⟩ | ⟨id, rfl, -, rfl, -⟩ | ⟨id, rfl, -, rfl, -⟩
  · exact hI.enter id hb
  · exact hI.mono (by simp) (by simp)
  · exact hI.succeed hn now id
  · exact hI.fail now id
  · exact hI.mono (by simp) (by simp)

theorem Agrees.callEnter_error_iff {n : ℤ} {reset : PyFloat} {tr : Trace} {b : CircuitBreaker}
    (h : Agrees n reset tr b) (hr : reset ≠ .nan) {now : Time} (hnow : ∀ e ∈ tr, e.1 ≤ now) :
    (∃ e, b.callEnter now = .error e) ↔ Rejects n reset tr now := by
  simp only [CircuitBreaker.callEnter_error_iff, h.timeout, exists_and_left, exists_eq, and_true, Rejects,
    PyFloat.le_eq_not_lt (a := .finite _) (by simp) hr, Bool.not_eq_true']
  cases hs : b.state with
  | closed =>
    have hc := h.closed hs
    simp only [reduceCtorEq, false_and, false_iff, not_and]
    intro hle
    omega
  | opened =>
    obtain ⟨-, hle, hl⟩ := h.tripped (by simp [hs])
    simp [hle, hl]
  | halfOpen =>
    obtain ⟨-, hle, hl⟩ := h.tripped (by simp [hs])
    obtain ⟨e, he, hlt⟩ := h.halfOpen hs
    have := PyFloat.lt_mono (sub_le_sub_right (hnow e he) b.lastFailureTime) hlt
    simp [hl, this]

/-- **Rejection, told by the history.** In every interleaving of calls on a
clock that never goes back, an admission at `now` is rejected exactly when
at least `n` failure steps happened since the last success step, and the
most recent one is at most the timeout ago. -/
theorem rejected_iff {n : ℤ} {reset : PyFloat} (hn : 1 ≤ n) (hr : reset ≠ .nan) {tr : Trace}
    {now : Time} {id : ℕ} {c : Calls} {as : List Answer} (hmono : Nondecreasing (tr ++ [(now, .enter id)]))
    (h : run step (fresh n reset) (tr ++ [(now, .enter id)]) = some (c, as)) :
    as.getLast? = some .rejected ↔ Rejects n reset tr now := by
  obtain ⟨c₀, as', a, h₁, h₂, rfl⟩ := run_concat.1 h
  rw [← (run_agrees hn h₁).callEnter_error_iff hr hmono.le_last]
  rcases step_cases h₂ with ⟨_, b, hb, -, -, -, rfl⟩ | ⟨_, hx, -, -, -, rfl⟩ | ⟨_, he, -⟩ |
    ⟨_, he, -⟩ | ⟨_, he, -⟩
  · simp [hb]
  · simp [hx]
  all_goals cases he

/-- Two failures out of two, and a third call half a minute later. -/
def tripped : Trace := [(0, .enter 1), (1, .enter 2), (2, .fail 1), (3, .fail 2)]

theorem rejected_iff_tripped :
    (run step (fresh 2 (.finite 30)) (tripped ++ [(33, .enter 3)])).map (·.2.getLast?) =
        some (some .rejected) ∧
      Rejects 2 (.finite 30) tripped 33 := by
  have h : run step (fresh 2 (.finite 30)) (tripped ++ [(33, .enter 3)]) =
      some (⟨⟨2, .finite 30, .opened, 2, 3⟩, []⟩,
        [.admitted, .admitted, .finished, .finished, .rejected]) := by
    decide +kernel
  refine ⟨by rw [h]; rfl, (rejected_iff (by decide) (by decide) ?_ h).1 rfl⟩
  unfold Nondecreasing tripped
  decide +kernel

/-! ## Steps forward -/

theorem step_admitted {c : Calls} {now : Time} {id : ℕ} {b : CircuitBreaker} (hid : id ∉ c.inFlight)
    (hb : c.breaker.callEnter now = .ok b) :
    step c (now, .enter id) = some (⟨b, id :: c.inFlight⟩, .admitted) := by
  simp [step, hid, hb]

theorem step_rejected {c : Calls} {now : Time} {id : ℕ} {e : Exc} (hid : id ∉ c.inFlight)
    (he : c.breaker.callEnter now = .error e) : step c (now, .enter id) = some (c, .rejected) := by
  simp [step, hid, he]

/-! ## The breaker alone -/

/-- What a step does to the breaker. -/
def onCall (b : CircuitBreaker) : Time × CallEvent → CircuitBreaker
  | (now, .enter _) => ((b.callEnter now).toOption).getD b
  | (now, .fail _) => b.callExcept now
  | (_, .succeed _) => b.callElse
  | (_, .cancel _) => b

theorem step_breaker {c c' : Calls} {e : Time × CallEvent} {a : Answer} (h : step c e = some (c', a)) :
    c'.breaker = onCall c.breaker e := by
  obtain ⟨now, e⟩ := e
  rcases step_cases h with ⟨id, b, hb, rfl, -, rfl, -⟩ | ⟨id, ⟨x, hx⟩, rfl, -, rfl, -⟩ |
    ⟨id, rfl, -, rfl, -⟩ | ⟨id, rfl, -, rfl, -⟩ | ⟨id, rfl, -, rfl, -⟩
  · simp [onCall, hb, Except.toOption]
  · simp [onCall, hx, Except.toOption]
  all_goals rfl

theorem run_breaker {c c' : Calls} {tr : Trace} {as : List Answer} (h : run step c tr = some (c', as)) :
    c'.breaker = tr.foldl onCall c.breaker := by
  induction tr generalizing c as with
  | nil =>
    simp only [run_nil, Option.some.injEq, Prod.mk.injEq] at h
    rw [← h.1]
    rfl
  | cons e tr ih =>
    obtain ⟨d, a, as', hs, hr, rfl⟩ := run_cons.1 h
    rw [ih hr, step_breaker hs]
    rfl

theorem onCall_params (b : CircuitBreaker) (e : Time × CallEvent) :
    (onCall b e).failureThreshold = b.failureThreshold ∧
      (onCall b e).resetTimeoutSeconds = b.resetTimeoutSeconds := by
  obtain ⟨now, e⟩ := e
  cases e with
  | enter i =>
    simp only [onCall]
    cases hb : b.callEnter now with
    | ok b' => exact CircuitBreaker.callEnter_params hb
    | error x => exact ⟨rfl, rfl⟩
  | fail i => exact b.callExcept_params now
  | succeed | cancel => exact ⟨rfl, rfl⟩

theorem foldl_onCall_params (tr : Trace) (b : CircuitBreaker) :
    (tr.foldl onCall b).failureThreshold = b.failureThreshold ∧
      (tr.foldl onCall b).resetTimeoutSeconds = b.resetTimeoutSeconds := by
  induction tr generalizing b with
  | nil => exact ⟨rfl, rfl⟩
  | cons e tr ih =>
    have he := onCall_params b e
    exact ⟨(ih _).1.trans he.1, (ih _).2.trans he.2⟩

/-- The id of the call. -/
def CallEvent.id : CallEvent → ℕ
  | .enter i | .succeed i | .fail i | .cancel i => i

theorem step_end {c : Calls} {e : Time × CallEvent} (he : ∀ i, e.2 ≠ .enter i)
    (hid : e.2.id ∈ c.inFlight) :
    step c e = some (⟨onCall c.breaker e, c.inFlight.erase e.2.id⟩, .finished) := by
  obtain ⟨now, e⟩ := e
  cases e with
  | enter i => exact absurd rfl (he i)
  | succeed | fail | cancel => exact if_pos hid

/-! ## Calls one after another -/

def CallEvent.isEnter : CallEvent → Bool
  | .enter _ => true
  | _ => false

/-- A call enters only when no other is in flight. -/
def Serial (c : Calls) (e : Time × CallEvent) : Prop := e.2.isEnter = true → c.inFlight = []

/-- The last end of a call. -/
def lastEnd (tr : Trace) : Option (Time × CallEvent) := tr.reverse.find? fun e => !e.2.isEnter

@[simp] theorem lastEnd_enter (tr : Trace) (now : Time) (id : ℕ) :
    lastEnd (tr ++ [(now, .enter id)]) = lastEnd tr := by
  simp [lastEnd, CallEvent.isEnter]

theorem lastEnd_end (tr : Trace) {e : Time × CallEvent} (h : e.2.isEnter = false) :
    lastEnd (tr ++ [e]) = some e := by
  simp [lastEnd, h]

theorem find?_of_imp {α : Type*} {p q : α → Bool} (himp : ∀ x, q x = true → p x = true) {a : α}
    (hq : q a = true) :
    ∀ {xs : List α}, xs.find? p = some a → xs.find? q = some a
  | [], h => by cases h
  | x :: xs, h => by
    rw [List.find?_cons] at h ⊢
    by_cases hx : p x = true
    · rw [hx] at h
      cases h
      rw [hq]
    · have hqx : q x = false := by
        by_contra hne
        exact hx (himp x (by simpa using hne))
      rw [Bool.eq_false_iff.2 hx] at h
      rw [hqx]
      exact find?_of_imp himp hq h

/-- If the last end was a failure, it was the last failure. -/
theorem lastFailure_of_lastEnd {tr : Trace} {e : Time × CallEvent} (h : lastEnd tr = some e)
    (hf : e.2.isFailure = true) :
    lastFailure tr = some e.1 := by
  have himp : ∀ x : Time × CallEvent, x.2.isFailure = true → (!x.2.isEnter) = true := by
    rintro ⟨now, x⟩ hx
    cases x <;> first | rfl | cases hx
  rw [lastFailure, find?_of_imp himp hf h, Option.map_some]

/-- Of calls one after another: while one runs the breaker is not `OPEN`;
between calls it is `OPEN` exactly when the last one failed and at least
`n` failures happened since the last success. -/
structure SerialState (n : ℤ) (tr : Trace) (c : Calls) : Prop where
  atMostOne : c.inFlight.length ≤ 1
  busy : c.inFlight ≠ [] → c.breaker.state ≠ .opened
  idle : c.inFlight = [] →
    (c.breaker.state = .opened ↔ n ≤ failuresSinceSuccess tr ∧ (lastEnd tr).any (·.2.isFailure) = true)

theorem SerialState.erase {n : ℤ} {tr : Trace} {c : Calls} (h : SerialState n tr c) {id : ℕ}
    (hid : id ∈ c.inFlight) :
    c.inFlight.erase id = [] ∧ c.breaker.state ≠ .opened := by
  refine ⟨?_, h.busy (List.ne_nil_of_mem hid)⟩
  have hlen := List.length_erase_of_mem hid
  have h1 := h.atMostOne
  exact List.eq_nil_of_length_eq_zero (by omega)

theorem run_serial {n : ℤ} {reset : PyFloat} (hn : 1 ≤ n) {tr : Trace} {c : Calls} {as : List Answer}
    (hs : Along step Serial (fresh n reset) tr) (h : run step (fresh n reset) tr = some (c, as)) :
    SerialState n tr c := by
  refine run_induction_along (fun tr _ c => SerialState n tr c) ?_ ?_ hs h
  · refine ⟨by simp [fresh], fun h => absurd rfl h, fun _ => ?_⟩
    simp [fresh, lastEnd]
  · intro tr as c ⟨now, e⟩ a c' hr hI hser hst
    have hag := run_agrees hn hr
    rcases step_cases hst with ⟨id, b, hb, rfl, -, rfl, -⟩ | ⟨id, ⟨x, hx⟩, rfl, -, rfl, -⟩ |
      ⟨id, rfl, hid, rfl, -⟩ | ⟨id, rfl, hid, rfl, -⟩ | ⟨id, rfl, hid, rfl, -⟩
    -- Admitted: the breaker leaves `OPEN`.
    · have hnil : c.inFlight = [] := hser rfl
      refine ⟨by simp [hnil], fun _ => ?_, fun h => by simp at h⟩
      rcases CircuitBreaker.callEnter_ok hb with ⟨hne, rfl⟩ | ⟨-, -, rfl⟩
      · exact hne
      · simp
    · exact ⟨hI.atMostOne, hI.busy, by simpa using hI.idle⟩
    · obtain ⟨hnil, -⟩ := hI.erase hid
      refine ⟨by simp [hnil], fun h => absurd hnil h, fun _ => ?_⟩
      rw [lastEnd_end _ rfl]
      simp [CallEvent.isFailure]
    -- Failed: what the counter says, the history says.
    · obtain ⟨hnil, hop⟩ := hI.erase hid
      refine ⟨by simp [hnil], fun h => absurd hnil h, fun _ => ?_⟩
      rw [failuresSinceSuccess_fail, lastEnd_end _ rfl]
      have hth := hag.threshold
      simp only [Option.any_some, CallEvent.isFailure, and_true]
      rcases c.breaker.callExcept_cases now with ⟨hne, hlt, hb⟩ | ⟨hne, hle, hb⟩ | ⟨hh, hb⟩ <;> rw [hb]
      · have hcl : c.breaker.state = .closed := by cases hst : c.breaker.state <;> simp_all
        have hf := (hag.closed hcl).1
        simp only [hcl, reduceCtorEq, false_iff]
        omega
      · have hcl : c.breaker.state = .closed := by cases hst : c.breaker.state <;> simp_all
        have hf := (hag.closed hcl).1
        simp only [true_iff]
        omega
      · have hf := (hag.tripped (by simp [hh])).2.1
        simp only [true_iff]
        omega
    · obtain ⟨hnil, hop⟩ := hI.erase hid
      refine ⟨by simp [hnil], fun h => absurd hnil h, fun _ => ?_⟩
      rw [lastEnd_end _ rfl]
      simp [hop, CallEvent.isFailure]

end SentinelFlow.BreakerCalls
