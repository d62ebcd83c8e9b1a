/-
After the breaker has opened: which starts before the timeout get through.

A failure step opens the breaker, but up to `max_inflight` calls admitted
before are still running, and `else` closes the breaker in whatever state it
finds it. So the timeout after an opening holds up to a late success, and
again from the time the failures after that success reach the threshold
(`staysShut_iff`); late failures and cancellations do no harm.
-/
import SentinelFlow.Runtime.BreakerCalls

namespace SentinelFlow.BreakerCalls

open Machine Timed

/-! ## Thresholds below one -/

/-- The breaker with a threshold of at least one. -/
def atLeastOne (b : CircuitBreaker) : CircuitBreaker :=
  { b with failureThreshold := max b.failureThreshold 1 }

theorem atLeastOne_callEnter (b : CircuitBreaker) (now : Time) :
    (atLeastOne b).callEnter now = (b.callEnter now).map atLeastOne := by
  obtain ⟨n, reset, state, failures, last⟩ := b
  cases state with
  | closed | halfOpen => rfl
  | opened =>
    by_cases hlt : reset.lt (.finite (now - last)) = true <;>
      simp [CircuitBreaker.callEnter, atLeastOne, hlt, Except.map]

theorem atLeastOne_callExcept {b : CircuitBreaker} (hf : 0 ≤ b.failures) (now : Time) :
    (atLeastOne b).callExcept now = atLeastOne (b.callExcept now) := by
  have hiff : max b.failureThreshold 1 ≤ b.failures + 1 ↔ b.failureThreshold ≤ b.failures + 1 := by omega
  obtain ⟨n, reset, state, failures, last⟩ := b
  cases state with
  | halfOpen => rfl
  | closed | opened =>
    simp only [CircuitBreaker.callExcept, atLeastOne, hiff]
    split <;> rfl

/-- A threshold below one acts as one: the first failure reaches both. -/
theorem step_atLeastOne {c c' : Calls} {e : Time × CallEvent} {a : Answer} (hf : 0 ≤ c.breaker.failures)
    (h : step c e = some (c', a)) :
    step ⟨atLeastOne c.breaker, c.inFlight⟩ e = some (⟨atLeastOne c'.breaker, c'.inFlight⟩, a) ∧
      0 ≤ c'.breaker.failures := by
  obtain ⟨now, e⟩ := e
  rcases step_cases h with ⟨id, b, hb, rfl, hid, rfl, rfl⟩ | ⟨id, ⟨x, hx⟩, rfl, hid, rfl, rfl⟩ |
    ⟨id, rfl, hid, rfl, rfl⟩ | ⟨id, rfl, hid, rfl, rfl⟩ | ⟨id, rfl, hid, rfl, rfl⟩
  · have hb' : (atLeastOne c.breaker).callEnter now = .ok (atLeastOne b) := by
      rw [atLeastOne_callEnter, hb]
      rfl
    refine ⟨step_admitted hid hb', ?_⟩
    rcases CircuitBreaker.callEnter_ok hb with ⟨-, rfl⟩ | ⟨-, -, rfl⟩ <;> exact hf
  · refine ⟨step_rejected hid (e := x) ?_, hf⟩
    rw [atLeastOne_callEnter, hx]
    rfl
  · exact ⟨if_pos hid, le_refl _⟩
  · refine ⟨?_, ?_⟩
    · rw [← atLeastOne_callExcept hf]
      exact if_pos hid
    · rcases c.breaker.callExcept_cases now with ⟨-, -, hb⟩ | ⟨-, -, hb⟩ | ⟨-, hb⟩ <;> rw [hb] <;>
        dsimp only <;> omega
  · exact ⟨if_pos hid, hf⟩

/-- Every run is one of the breaker with a threshold of at least one. -/
theorem run_atLeastOne {n : ℤ} {reset : PyFloat} {tr : Trace} {c : Calls} {as : List Answer}
    (h : run step (fresh n reset) tr = some (c, as)) :
    run step (fresh (max n 1) reset) tr = some (⟨atLeastOne c.breaker, c.inFlight⟩, as) := by
  have hrun : run step (fresh (max n 1) reset) tr = some (⟨atLeastOne c.breaker, c.inFlight⟩, as) ∧
      0 ≤ c.breaker.failures := by
    refine run_induction (fun tr as (c : Calls) =>
      run step (fresh (max n 1) reset) tr = some (⟨atLeastOne c.breaker, c.inFlight⟩, as) ∧
        0 ≤ c.breaker.failures) ⟨rfl, le_refl _⟩ ?_ h
    intro tr as c e a c' _ hI hs
    obtain ⟨hr, hf⟩ := hI
    obtain ⟨hs', hf'⟩ := step_atLeastOne hf hs
    exact ⟨run_concat.2 ⟨_, _, _, hr, hs', rfl⟩, hf'⟩
  exact hrun.1

/-! ## The history after the opening -/

theorem failuresSinceSuccess_append_of_success (tr : Trace) {done : Trace}
    (h : ∃ e ∈ done, e.2.isSuccess = true) :
    failuresSinceSuccess (tr ++ done) = failuresSinceSuccess done := by
  induction done using List.reverseRecOn with
  | nil => simp at h
  | append_singleton done e ih =>
    rw [← List.append_assoc]
    obtain ⟨now, e⟩ := e
    cases e with
    | succeed id => simp [-List.append_assoc]
    | fail id | enter id | cancel id =>
      have hs : ∃ e ∈ done, e.2.isSuccess = true := by simpa [CallEvent.isSuccess] using h
      simp [-List.append_assoc, ih hs]

theorem failuresSinceSuccess_append_of_not_success (tr : Trace) {done : Trace}
    (h : ¬∃ e ∈ done, e.2.isSuccess = true) :
    failuresSinceSuccess tr ≤ failuresSinceSuccess (tr ++ done) := by
  induction done using List.reverseRecOn with
  | nil => simp
  | append_singleton done e ih =>
    rw [← List.append_assoc]
    obtain ⟨now, e⟩ := e
    cases e with
    | succeed id => exact absurd ⟨(now, .succeed id), by simp, rfl⟩ h
    | fail id | enter id | cancel id =>
      have hs : ¬∃ e ∈ done, e.2.isSuccess = true := by simpa [CallEvent.isSuccess] using h
      have := ih hs
      simp only [failuresSinceSuccess_fail, failuresSinceSuccess_enter, failuresSinceSuccess_cancel]
      omega

/-- The last failure is the latest. -/
theorem lastFailure_latest {tr : Trace} (hmono : Nondecreasing tr) {e : Time × CallEvent} (he : e ∈ tr)
    (hf : e.2.isFailure = true) : ∃ t, lastFailure tr = some t ∧ e.1 ≤ t := by
  induction tr using List.reverseRecOn with
  | nil => cases he
  | append_singleton tr x ih =>
    by_cases hx : x.2.isFailure = true
    · refine ⟨x.1, by simp [lastFailure, hx], ?_⟩
      rcases List.mem_append.1 he with h | h
      · exact hmono.le_last e h
      · exact le_of_eq (congrArg Prod.fst (List.mem_singleton.1 h))
    · have hmem : e ∈ tr := by
        rcases List.mem_append.1 he with h | h
        · exact h
        · exact absurd (List.mem_singleton.1 h ▸ hf) hx
      obtain ⟨t, ht, hle⟩ := ih (hmono.sublist (List.sublist_append_left tr [x])) hmem
      exact ⟨t, by simpa [lastFailure, hx] using ht, hle⟩

/-- Some call has succeeded, and fewer than `n` failures have followed. -/
def Reclosed (n : ℤ) (done : Trace) : Prop :=
  (∃ e ∈ done, e.2.isSuccess = true) ∧ failuresSinceSuccess done < n

/-- With the threshold reached before, it is still reached unless a success
has come in between. -/
theorem le_failuresSinceSuccess_append {n : ℤ} {tr : Trace} (h : n ≤ failuresSinceSuccess tr)
    (done : Trace) : n ≤ failuresSinceSuccess (tr ++ done) ↔ ¬Reclosed n done := by
  unfold Reclosed
  by_cases hs : ∃ e ∈ done, e.2.isSuccess = true
  · rw [failuresSinceSuccess_append_of_success tr hs]
    simp only [hs, true_and, not_lt]
  · have hle := failuresSinceSuccess_append_of_not_success tr hs
    simp only [hs, false_and, not_false_eq_true, iff_true]
    omega

/-! ## Starts before the timeout -/

/-- No coroutine is started at a time up to the timeout after `t`. -/
def StaysShut (reset : PyFloat) (t : Time) (rest : Trace) (as : List Answer) : Prop :=
  ∀ (i : ℕ) (now : Time) (id : ℕ), rest[i]? = some (now, .enter id) →
    PyFloat.le (.finite (now - t)) reset = true → as[i]? ≠ some .admitted

/-- **The timeout after an opening.** In every interleaving of calls on a
clock that never goes back, let a failure step at `t` leave the breaker
open. Then no coroutine is started up to the timeout after `t` exactly when
no call asks by then after a late success that failures short of the
threshold have followed. -/
theorem staysShut_iff {n : ℤ} {reset : PyFloat} {pre rest : Trace} {t : Time} {id : ℕ} {c d : Calls}
    {as bs : List Answer} (hpre : run step (fresh n reset) (pre ++ [(t, .fail id)]) = some (c, as))
    (hopen : c.breaker.state = .opened) (hrest : run step c rest = some (d, bs))
    (hmono : Nondecreasing (pre ++ [(t, .fail id)] ++ rest)) :
    StaysShut reset t rest bs ↔
      ∀ (i : ℕ) (now : Time) (id' : ℕ), rest[i]? = some (now, .enter id') →
        PyFloat.le (.finite (now - t)) reset = true → ¬Reclosed (max n 1) (rest.take i) := by
  have hreached : max n 1 ≤ failuresSinceSuccess (pre ++ [(t, .fail id)]) := by
    have hag := run_agrees (le_max_right n 1) (run_atLeastOne hpre)
    exact (hag.tripped (by simp [atLeastOne, hopen])).2.1
  unfold StaysShut
  refine forall_congr' fun i => forall_congr' fun now => forall_congr' fun id' =>
    forall_congr' fun hi => forall_congr' fun hle => ?_
  rw [← le_failuresSinceSuccess_append hreached]
  -- The run up to the start in question, and its step there.
  obtain ⟨c₁, c₂, a, hr, hs, ha⟩ := run_getElem? hrest hi
  have hfull := run_concat.2 ⟨_, _, _, run_append.2 ⟨_, _, _, hpre, hr, rfl⟩, hs, rfl⟩
  have hnan : reset ≠ .nan := by
    rintro rfl
    cases hle
  have htake : rest.take (i + 1) = rest.take i ++ [(now, .enter id')] := by
    rw [List.take_add_one, hi]
    rfl
  have hmono' : Nondecreasing (pre ++ [(t, .fail id)] ++ rest.take i ++ [(now, .enter id')]) := by
    rw [List.append_assoc, ← htake]
    exact hmono.sublist ((List.take_sublist _ _).append_left _)
  have hrej := rejected_iff (le_max_right n 1) hnan hmono' (run_atLeastOne hfull)
  -- The last failure is no sooner than `t`, so it is recent.
  have hrecent : ∃ tl, lastFailure (pre ++ [(t, .fail id)] ++ rest.take i) = some tl ∧
      PyFloat.le (.finite (now - tl)) reset = true := by
    have hmem : ((t, .fail id) : Time × CallEvent) ∈ pre ++ [(t, .fail id)] ++ rest.take i := by simp
    obtain ⟨tl, hl, hlt⟩ := lastFailure_latest (hmono'.sublist (List.sublist_append_left _ _)) hmem rfl
    exact ⟨tl, hl, PyFloat.le_antitone (sub_le_sub_left hlt now) hle⟩
  have hans : a ≠ .admitted ↔ a = .rejected := by
    rcases step_cases hs with ⟨_, _, -, -, -, -, rfl⟩ | ⟨_, -, -, -, -, rfl⟩ | ⟨_, he, -⟩ |
      ⟨_, he, -⟩ | ⟨_, he, -⟩
    · simp
    · simp
    all_goals cases he
  rw [ha, ne_eq, Option.some.injEq, ← ne_eq, hans]
  simp only [List.getLast?_concat, Option.some.injEq] at hrej
  exact hrej.trans ⟨fun h => h.1, fun h => ⟨h, hrecent⟩⟩

/-- Two calls are running; one fails and opens the breaker. -/
def lateOpening : Trace := [(0, .enter 1), (0, .enter 2), (1, .fail 1)]

/-- The other one succeeds, and a third is started two seconds after the
opening. -/
def lateSuccess : Trace := [(2, .succeed 2), (3, .enter 3)]

theorem not_staysShut_lateSuccess :
    ∃ (c d : Calls) (as bs : List Answer), run step (fresh 1 (.finite 30)) lateOpening = some (c, as) ∧
      c.breaker.state = .opened ∧ run step c lateSuccess = some (d, bs) ∧
      ¬StaysShut (.finite 30) 1 lateSuccess bs := by
  refine ⟨⟨⟨1, .finite 30, .opened, 1, 1⟩, [2]⟩, ⟨⟨1, .finite 30, .closed, 0, 1⟩, [3]⟩,
    [.admitted, .admitted, .finished], [.finished, .admitted], by decide +kernel, rfl, by decide +kernel, ?_⟩
  intro h
  exact h 1 3 3 rfl (by decide +kernel) rfl

/-- A late failure instead keeps the breaker shut. -/
theorem staysShut_iff_lateFailure :
    StaysShut (.finite 30) 1 [(2, .fail 2), (3, .enter 3)] [.finished, .rejected] := by
  have hpre : run step (fresh 1 (.finite 30)) ([(0, .enter 1), (0, .enter 2)] ++ [(1, .fail 1)]) =
      some (⟨⟨1, .finite 30, .opened, 1, 1⟩, [2]⟩, [.admitted, .admitted, .finished]) := by
    decide +kernel
  have hrest : run step ⟨⟨1, .finite 30, .opened, 1, 1⟩, [2]⟩ [(2, .fail 2), (3, .enter 3)] =
      some (⟨⟨1, .finite 30, .opened, 2, 2⟩, []⟩, [.finished, .rejected]) := by
    decide +kernel
  refine (staysShut_iff hpre rfl hrest ?_).2 ?_
  · unfold Nondecreasing
    decide +kernel
  · intro i now id hi _ hre
    obtain ⟨e, he, hs⟩ := hre.1
    have hmem := List.mem_of_mem_take he
    simp only [List.mem_cons, List.not_mem_nil, or_false] at hmem
    rcases hmem with rfl | rfl <;> cases hs

end SentinelFlow.BreakerCalls
