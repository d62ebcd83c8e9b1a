/-
Runs of the alert policy: any calls of `should_dispatch` and
`purge_old_state` on a fresh policy, each at a reading of the clock.

What the policy remembers of a fingerprint is the last time it said yes
(`lastDispatched_eq`), and with a clock that never goes back that is enough
to decide as if it had kept the whole history (`suppressed_iff`). The
cooldown takes no part in the decision (`cooldown_iff`), and a frozen event
makes a call raise after suppressed ones (`call_safe_iff`).
-/
import Mathlib.Algebra.Order.Ring.Rat
import Mathlib.Tactic.Linarith
import SentinelFlow.Lib.Machine
import SentinelFlow.Lib.Timed
import SentinelFlow.AlertPolicy

namespace SentinelFlow.PolicyRuns

open AlertPolicy Machine Timed

/-- A call on the policy. -/
inductive PolicyOp
  | shouldDispatch (a : DispatchArgs)
  | purgeOldState (maxAgeSeconds : ℤ)

/-- One call at a reading of the clock; a purge answers nothing. -/
def opStep (p : AlertPolicy) : Time × PolicyOp → AlertPolicy × Option DispatchResult
  | (now, .shouldDispatch a) => ((p.shouldDispatch now a).1, some (p.shouldDispatch now a).2)
  | (now, .purgeOldState maxAge) => (p.purgeOldState now maxAge, none)

/-- The policy after a sequence of calls. -/
def policyAfter (ops : List (Time × PolicyOp)) : AlertPolicy := exec opStep new ops

/-! ## Calls that raise -/

/-- A call is safe: it returns a boolean, and past the window it returns
`True` and records the dispatch. -/
def CallSafe (p : AlertPolicy) (now : Time) (a : DispatchArgs) : Prop :=
  (∃ b, (p.shouldDispatch now a).2.value = .ok b) ∧
    (p.windowOpen (fingerprintOf a) now a.dedupeWindowSeconds = false →
      (p.shouldDispatch now a).2.value = .ok true ∧
        (p.shouldDispatch now a).1.lastDispatched.lookup (fingerprintOf a) = some now)

/-- A call is safe exactly when it does not raise. -/
theorem callSafe_iff_raisesAt (p : AlertPolicy) (now : Time) (a : DispatchArgs) :
    CallSafe p now a ↔ p.raisesAt now a = false := by
  unfold CallSafe
  rcases shouldDispatch_cases p now a with ⟨hw, hs⟩ | ⟨hr, e, -, hs⟩ | ⟨hw, hr, ev, -, hs⟩
  · simp [hs, hw, raisesAt]
  · simp [hs, hr]
  · simp [hs, hr]

/-- **When a call with a frozen event is safe**, in every state the policy
reaches: exactly while the window is open, or when no suppressed alert is
counted. -/
theorem call_safe_iff (before : List (Time × PolicyOp)) (now : Time) (a : DispatchArgs) (e : AlertEvent) :
    CallSafe (policyAfter before) now { a with event := .alertEvent e } ↔
      (policyAfter before).windowOpen (fingerprintOf a) now a.dedupeWindowSeconds = true ∨
        (policyAfter before).failureCount (fingerprintOf a) = 0 := by
  rw [callSafe_iff_raisesAt]
  have hfp : fingerprintOf { a with event := .alertEvent e } = fingerprintOf a := rfl
  cases hw : (policyAfter before).windowOpen (fingerprintOf a) now a.dedupeWindowSeconds <;>
    simp [raisesAt, hfp, hw, EventArg.isFrozen]

/-- An alert raised by a threshold rule. -/
def breach : AlertEvent := ⟨"reqs", "threshold", .high, "Metric reqs breached its threshold", 0, "Instance is frozen"⟩

/-- The call the executor makes for `breach`, with the default policy. -/
def breachArgs : DispatchArgs := ⟨"reqs", "threshold", "high", 300, 3600, .alertEvent breach⟩

/-- Sent, suppressed a minute later, and raised again after the window: the
third call raises. -/
theorem not_callSafe_after_suppression :
    ¬ CallSafe (policyAfter [(0, .shouldDispatch breachArgs), (60, .shouldDispatch breachArgs)])
      4000 breachArgs := by
  rw [callSafe_iff_raisesAt, Bool.not_eq_false]
  decide +kernel

/-! ## The history the policy keeps -/

/-- One call of `should_dispatch` at a reading of the clock. -/
def callStep (p : AlertPolicy) (c : Time × DispatchArgs) : AlertPolicy × DispatchResult :=
  p.shouldDispatch c.1 c.2

/-- The answers of a fresh policy to a sequence of calls. -/
def answers (calls : List (Time × DispatchArgs)) : List DispatchResult := outs callStep new calls

/-- The policy after a sequence of calls. -/
def stateAfter (calls : List (Time × DispatchArgs)) : AlertPolicy := exec callStep new calls

/-- A call of this fingerprint that returned `True`. -/
def sent (fp : String) (a : DispatchArgs) (r : DispatchResult) : Bool :=
  fingerprintOf a = fp && (match r.value with | .ok b => b | .error _ => false)

theorem sent_iff {fp : String} {a : DispatchArgs} {r : DispatchResult} :
    sent fp a r = true ↔ fingerprintOf a = fp ∧ r.value = .ok true := by
  unfold sent
  cases r.value <;> simp

/-- **What is remembered of a fingerprint** is the last time a call for it
returned `True`. -/
theorem lastDispatched_eq (calls : List (Time × DispatchArgs)) (fp : String) :
    (stateAfter calls).lastDispatched.lookup fp = (hits (sent fp) calls (answers calls)).getLast? := by
  suffices h : (answers calls).length = calls.length ∧
      (stateAfter calls).lastDispatched.lookup fp = (hits (sent fp) calls (answers calls)).getLast? from h.2
  refine exec_induction (fun is os (p : AlertPolicy) => os.length = is.length ∧
    p.lastDispatched.lookup fp = (hits (sent fp) is os).getLast?) ⟨rfl, rfl⟩ ?_ calls
  intro is os p ⟨now, a⟩ ⟨hlen, hp⟩
  refine ⟨by simp [hlen], ?_⟩
  rw [hits_concat _ _ _ _ hlen]
  simp only [callStep]
  rcases shouldDispatch_cases p now a with ⟨-, hs⟩ | ⟨-, e, -, hs⟩ | ⟨-, -, ev, -, hs⟩
  -- Suppressed or raised: no dispatch is recorded, and none is in the history.
  · simp [hs, sent, hp]
  · simp [hs, sent, hp]
  -- Dispatched: the call is the latest of its own fingerprint, and none of another's.
  · by_cases he : fingerprintOf a = fp
    · subst he; simp [hs, sent]
    · simp [hs, sent, he, hp, AList.lookup_insert_ne (Ne.symm he)]

/-- The answer to the call at a position. -/
theorem answers_getElem? {calls : List (Time × DispatchArgs)} {i : Nat} {now : Time} {a : DispatchArgs}
    (hi : calls[i]? = some (now, a)) :
    (answers calls)[i]? = some ((stateAfter (calls.take i)).shouldDispatch now a).2 := by
  unfold answers stateAfter
  rw [outs_getElem? new hi]
  rfl

/-- The earlier calls of a fingerprint that returned `True`, as times. -/
theorem mem_sent_before {calls : List (Time × DispatchArgs)} {i : Nat} {fp : String} {t : Time} :
    t ∈ hits (sent fp) (calls.take i) (answers (calls.take i)) ↔
      ∃ j < i, ∃ a r, calls[j]? = some (t, a) ∧ (answers calls)[j]? = some r ∧ fingerprintOf a = fp ∧
        r.value = .ok true := by
  have htake : answers (calls.take i) = (answers calls).take i := (outs_take _ _ _).symm
  rw [mem_hits, htake]
  constructor
  · rintro ⟨j, a, r, hj, hr, hs⟩
    simp only [List.getElem?_take, Option.ite_none_right_eq_some] at hj hr
    exact ⟨j, hj.1, a, r, hj.2, hr.2, sent_iff.1 hs⟩
  · rintro ⟨j, hji, a, r, hj, hr, hs⟩
    exact ⟨j, a, r, by rw [List.getElem?_take_of_lt hji, hj],
      by rw [List.getElem?_take_of_lt hji, hr], sent_iff.2 hs⟩

/-! ## Suppression over whole histories -/

/-- A call is suppressed exactly when its window is open. -/
theorem value_eq_false_iff {p : AlertPolicy} {now : Time} {a : DispatchArgs} :
    (p.shouldDispatch now a).2.value = .ok false ↔
      p.windowOpen (fingerprintOf a) now a.dedupeWindowSeconds = true := by
  rcases shouldDispatch_cases p now a with ⟨hw, hs⟩ | ⟨hr, e, -, hs⟩ | ⟨hw, -, ev, -, hs⟩
  · simp [hs, hw]
  · simp only [raisesAt, Bool.and_eq_true, Bool.not_eq_true'] at hr
    simp [hs, hr.1.1]
  · simp [hs, hw]

/-- The window is open exactly when some earlier call of the fingerprint
returned `True` inside it. -/
theorem windowOpen_history {calls : List (Time × DispatchArgs)} (hmono : Nondecreasing calls)
    (i : Nat) (fp : String) (now : Time) (w : ℤ) :
    (stateAfter (calls.take i)).windowOpen fp now w = true ↔
      ∃ t ∈ hits (sent fp) (calls.take i) (answers (calls.take i)), now - t < w := by
  rw [windowOpen_iff, lastDispatched_eq, within_iff_latest ((hmono.take i).hits _)]

/-- The three parts that make a fingerprint. -/
def triple (a : DispatchArgs) : String × String × String := (a.metricId, a.evaluatorType, a.severity)

/-- The evaluator type and the severity have no colon. -/
def ColonFree (a : DispatchArgs) : Prop := ':' ∉ a.evaluatorType.toList ∧ ':' ∉ a.severity.toList

theorem fingerprintOf_inj {a b : DispatchArgs} (ha : ColonFree a) (hb : ColonFree b) :
    fingerprintOf a = fingerprintOf b ↔ triple a = triple b := by
  simp only [fingerprintOf, generateFingerprint_inj ha.1 hb.1 ha.2 hb.2, triple, Prod.mk.injEq]

/-- **Suppression, told by the history.** On a clock that never goes back, a
call returns `False` exactly when an earlier call of the same metric id,
evaluator type and severity returned `True` less than this call's window
ago; and the calls of one triple are answered as if there were no others. -/
theorem suppressed_iff (calls : List (Time × DispatchArgs)) (hmono : Nondecreasing calls)
    (hfree : ∀ c ∈ calls, ColonFree c.2) (i : Nat) (now : Time) (a : DispatchArgs)
    (hi : calls[i]? = some (now, a)) :
    ((∃ r, (answers calls)[i]? = some r ∧ r.value = .ok false) ↔
      ∃ j < i, ∃ t b r, calls[j]? = some (t, b) ∧ (answers calls)[j]? = some r ∧ triple b = triple a ∧
        r.value = .ok true ∧ now - t < a.dedupeWindowSeconds) ∧
    answers (calls.filter fun c => triple c.2 = triple a) =
      outputsOf (fun c => triple c.2 = triple a) calls (answers calls) := by
  have ha : ColonFree a := hfree _ (List.mem_of_getElem? hi)
  constructor
  · rw [answers_getElem? hi]
    simp only [Option.some.injEq, exists_eq_left', value_eq_false_iff, windowOpen_history hmono]
    constructor
    · rintro ⟨t, ht, hw⟩
      obtain ⟨j, hj, b, r, hb, hr, hfp, hv⟩ := mem_sent_before.1 ht
      exact ⟨j, hj, t, b, r, hb, hr, (fingerprintOf_inj (hfree _ (List.mem_of_getElem? hb)) ha).1 hfp, hv, hw⟩
    · rintro ⟨j, hj, t, b, r, hb, hr, htr, hv, hw⟩
      have hfp := (fingerprintOf_inj (hfree _ (List.mem_of_getElem? hb)) ha).2 htr
      exact ⟨t, mem_sent_before.2 ⟨j, hj, b, r, hb, hr, hfp, hv⟩, hw⟩
  · refine outs_project _ (fun c => ColonFree c.2)
      (fun p q => p.entry (fingerprintOf a) = q.entry (fingerprintOf a)) ?_ ?_ hfree rfl
    · intro p q ⟨now', b⟩ hb hR hne
      have hne' : fingerprintOf a ≠ fingerprintOf b := fun h => by
        simp [(fingerprintOf_inj ha hb).1 h] at hne
      exact (shouldDispatch_entry_ne p now' hne').trans hR
    · intro p q ⟨now', b⟩ hb hR he
      have hfp : fingerprintOf b = fingerprintOf a := (fingerprintOf_inj hb ha).2 (by simpa using he)
      rw [← hfp] at hR ⊢
      exact shouldDispatch_congr now' hR

/-- A sequence with one suppressed call. -/
def threeCalls : List (Time × DispatchArgs) :=
  [(0, ⟨"reqs:eu", "threshold", "high", 300, 3600, .plain⟩),
   (10, ⟨"reqs:eu", "freshness", "high", 300, 3600, .plain⟩),
   (20, ⟨"reqs:eu", "threshold", "high", 300, 3600, .plain⟩)]

/-- The third call is suppressed by the first, and not by the second. -/
theorem suppressed_iff_threeCalls : ∃ r, (answers threeCalls)[2]? = some r ∧ r.value = .ok false :=
  (suppressed_iff threeCalls (by unfold Nondecreasing threeCalls; decide +kernel)
    (by unfold ColonFree threeCalls; decide +kernel) 2 20 _ rfl).1.2
    ⟨0, by decide, 0, _, ⟨.ok true, .plain⟩, rfl, by decide +kernel, rfl, rfl, by norm_num⟩

/-! ## The cooldown -/

/-- Over a sequence of calls, none returns `True` sooner than its cooldown
after an earlier `True` of its fingerprint. -/
def CooldownHonoured (calls : List (Time × DispatchArgs)) : Prop :=
  ∀ (i j : Nat) (now t : Time) (a b : DispatchArgs) (r q : DispatchResult), j < i →
    calls[i]? = some (now, a) → (answers calls)[i]? = some r →
    calls[j]? = some (t, b) → (answers calls)[j]? = some q →
    fingerprintOf b = fingerprintOf a → q.value = .ok true → now < t + a.cooldownSeconds → r.value ≠ .ok true

/-- A call finds its fingerprint never sent, sent inside the dedupe window,
or sent at least its cooldown ago (or it raises). -/
def CooldownCovered (p : AlertPolicy) (now : Time) (a : DispatchArgs) : Prop :=
  ∀ last, p.lastDispatched.lookup (fingerprintOf a) = some last →
    now - last < a.dedupeWindowSeconds ∨ a.cooldownSeconds ≤ now - last ∨ p.raisesAt now a = true

/-- The cooldown argument takes no part in the decision. -/
theorem value_eq_true_iff {p : AlertPolicy} {now : Time} {a : DispatchArgs} :
    (p.shouldDispatch now a).2.value = .ok true ↔
      p.windowOpen (fingerprintOf a) now a.dedupeWindowSeconds = false ∧ p.raisesAt now a = false := by
  rcases shouldDispatch_cases p now a with ⟨hw, hs⟩ | ⟨hr, e, -, hs⟩ | ⟨hw, hr, ev, -, hs⟩
  · simp [hs, hw]
  · simp [hs, hr]
  · simp [hs, hw, hr]

/-- A cooldown no longer than the window: what it forbids is suppressed. -/
theorem cooldownCovered_of_le {p : AlertPolicy} {now : Time} {a : DispatchArgs}
    (h : a.cooldownSeconds ≤ a.dedupeWindowSeconds) : CooldownCovered p now a := by
  intro last _
  have hle : (a.cooldownSeconds : Time) ≤ a.dedupeWindowSeconds := by exact_mod_cast h
  by_cases hin : now - last < a.dedupeWindowSeconds
  · exact .inl hin
  · exact .inr (.inl (hle.trans (not_lt.1 hin)))

/-- **When the cooldown is honoured**: over a whole sequence, exactly when
each call meets its fingerprint's last dispatch covered. A cooldown no
longer than the window always is (`cooldownCovered_of_le`). -/
theorem cooldown_iff (calls : List (Time × DispatchArgs)) (hmono : Nondecreasing calls) :
    CooldownHonoured calls ↔
      ∀ i now a, calls[i]? = some (now, a) → CooldownCovered (stateAfter (calls.take i)) now a := by
  constructor
  · intro h i now a hi last hl
    by_contra hc
    simp only [not_or, not_lt, not_le, Bool.not_eq_true] at hc
    obtain ⟨hw, hcd, hr⟩ := hc
    have hl' := hl
    rw [lastDispatched_eq] at hl'
    obtain ⟨j, hj, b, q, hb, hq, hfp, hv⟩ := mem_sent_before.1 (List.mem_of_getLast? hl')
    have hopen : (stateAfter (calls.take i)).windowOpen (fingerprintOf a) now a.dedupeWindowSeconds =
        false := by
      rw [Bool.eq_false_iff, ne_eq, windowOpen_iff]
      rintro ⟨last', hl', hlt⟩
      rw [hl, Option.some.injEq] at hl'
      subst hl'
      linarith
    have hsent := value_eq_true_iff.2 ⟨hopen, hr⟩
    exact h i j now last a b _ q hj hi (answers_getElem? hi) hb hq hfp hv (by linarith) hsent
  · intro h i j now t a b r q hji hi hr hb hq hfp hv hlt hrv
    rw [answers_getElem? hi, Option.some.injEq] at hr
    subst hr
    obtain ⟨hw, hra⟩ := value_eq_true_iff.1 hrv
    have ht : t ∈ hits (sent (fingerprintOf a)) (calls.take i) (answers (calls.take i)) :=
      mem_sent_before.2 ⟨j, hji, b, q, hb, hq, hfp, hv⟩
    have hl := List.getLast?_eq_some_getLast (List.ne_nil_of_mem ht)
    have hle := le_getLast ((hmono.take i).hits _) ht hl
    rw [← lastDispatched_eq] at hl
    rcases h i now a hi _ hl with hin | hout | hraise
    · have hopen := windowOpen_iff.2 ⟨_, hl, hin⟩
      rw [hw] at hopen
      cases hopen
    · linarith
    · rw [hra] at hraise
      cases hraise

/-- A cooldown of 300 with a window of 60. -/
def hastyCalls : List (Time × DispatchArgs) :=
  [(0, ⟨"reqs", "threshold", "high", 300, 60, .plain⟩),
   (100, ⟨"reqs", "threshold", "high", 300, 60, .plain⟩)]

/-- Cooldowns of 300 with windows of 3600. -/
theorem cooldown_iff_threeCalls : CooldownHonoured threeCalls := by
  have hle : ∀ c ∈ threeCalls, c.2.cooldownSeconds ≤ c.2.dedupeWindowSeconds := by
    unfold threeCalls
    decide
  exact (cooldown_iff threeCalls (by unfold Nondecreasing threeCalls; decide +kernel)).2
    fun i now a hi => cooldownCovered_of_le (hle _ (List.mem_of_getElem? hi))

/-- Sent again after 100 of the 300 seconds. -/
theorem not_cooldownHonoured_hastyCalls : ¬ CooldownHonoured hastyCalls := fun h =>
  h 1 0 100 0 _ _ ⟨.ok true, .plain⟩ ⟨.ok true, .plain⟩ (by decide) rfl (by decide +kernel) rfl
    (by decide +kernel) rfl rfl (by norm_num) rfl

end SentinelFlow.PolicyRuns
