/-
The three maps of the alert policy, told by the calls and purges so far.

A count is that of the calls suppressed since the last one that was not
(`counts_suppressed`): nothing but a call touches it, and a call that is not
suppressed takes it away, whether it returns or raises. The other two maps go
together: what was dispatched has been seen since (`dispatched_seen`), and a
purge takes the later time only with the earlier one.
-/
import Mathlib.Data.List.DropRight
import SentinelFlow.PolicyPurges

namespace SentinelFlow.PolicyRuns

open AlertPolicy Machine Timed

/-! ## Counts -/

/-- How many calls of the fingerprint were suppressed since its last one that was not. -/
def suppressedSince (fp : String) (ops : List (Time × PolicyOp)) : ℕ :=
  ((passes fp ops).rtakeWhile fun c => decide (c.2.value = .ok false)).length

theorem failureCount_eq (fp : String) (ops : List (Time × PolicyOp)) :
    (policyAfter ops).failureCount fp = suppressedSince fp ops := by
  induction ops using List.reverseRecOn with
  | nil => rfl
  | append_singleton ops op ih =>
    obtain ⟨now, op⟩ := op
    unfold suppressedSince at ih ⊢
    rw [policyAfter_concat]
    cases op with
    | purgeOldState m =>
      rw [passes_purge, ← ih]
      rfl
    | shouldDispatch a =>
      by_cases hfp : fingerprintOf a = fp
      · subst hfp
        rw [passes_call rfl]
        simp only [opStep]
        rcases shouldDispatch_cases (policyAfter ops) now a with ⟨-, hs⟩ | ⟨-, e, -, hs⟩ | ⟨-, -, ev, -, hs⟩ <;> rw [hs]
        -- Suppressed: one more.
        · rw [List.rtakeWhile_concat_pos _ _ _ (by simp), List.length_append, ← ih]
          simp [failureCount]
        -- Raised or dispatched: none any more.
        · rw [List.rtakeWhile_concat_neg _ _ _ (by simp)]
          simp [failureCount]
        · rw [List.rtakeWhile_concat_neg _ _ _ (by simp)]
          simp [failureCount]
      · rw [passes_other hfp, ← ih]
        have hentry := shouldDispatch_entry_ne (policyAfter ops) now (Ne.symm hfp)
        exact failureCount_congr hentry

/-- **Counts and what is told of them.** After any calls and purges a
fingerprint's count is the number of its calls suppressed since its last one
that was not; and a call that returns `True` appends that number to a message
that can be assigned, unless it is zero. -/
theorem counts_suppressed (ops : List (Time × PolicyOp)) :
    (∀ fp, (policyAfter ops).failureCount fp = suppressedSince fp ops) ∧
      ∀ (i : ℕ) (now : Time) (a : DispatchArgs) (message : String) (r : DispatchResult),
        ops[i]? = some (now, .shouldDispatch a) → a.event = .assignable message →
        (outs opStep new ops)[i]? = some (some r) → r.value = .ok true →
        r.event = .assignable (if suppressedSince (fingerprintOf a) (ops.take i) = 0 then message
          else message ++ occurredText (suppressedSince (fingerprintOf a) (ops.take i))) := by
  refine ⟨fun fp => failureCount_eq fp ops, fun i now a message r hi ha hr htrue => ?_⟩
  rw [outs_getElem? new hi] at hr
  have hres : r = ((policyAfter (ops.take i)).shouldDispatch now a).2 := by
    simpa [opStep, policyAfter, eq_comm] using hr
  rw [← failureCount_eq]
  rcases shouldDispatch_cases (policyAfter (ops.take i)) now a with ⟨-, hs⟩ | ⟨-, e, -, hs⟩ | ⟨-, -, ev, hev, hs⟩ <;>
    rw [hres, hs] at htrue <;> cases htrue
  rw [hres, hs]
  rw [ha] at hev
  unfold tellOccurred at hev
  split at hev
  next hpos =>
    rw [if_neg (by omega)]
    exact (Except.ok.inj hev).symm
  next hzero =>
    rw [if_pos (by omega)]
    exact (Except.ok.inj hev).symm

/-- Sent, suppressed twice, purged of everything, and sent with the count. -/
def purgedInBetween : List (Time × PolicyOp) :=
  [(0, .shouldDispatch reqsArgs), (60, .shouldDispatch reqsArgs), (120, .shouldDispatch reqsArgs),
    (180, .purgeOldState 0), (240, .shouldDispatch reqsArgs)]

theorem counts_suppressed_purgedInBetween :
    (outs opStep new purgedInBetween)[4]? =
      some (some ⟨.ok true, .assignable "Metric reqs breached (Occurred 2 times in last window)"⟩) := by
  have h : ((outs opStep new purgedInBetween)[4]?.join.any fun r => r.value == .ok true) = true := by decide +kernel
  obtain ⟨r, hr, htrue⟩ := (Option.any_eq_true _ _).1 h
  have hr' := Option.join_eq_some_iff.1 hr
  have hevent := (counts_suppressed purgedInBetween).2 4 240 reqsArgs "Metric reqs breached" r rfl rfl hr'
    (beq_iff_eq.1 htrue)
  rw [show suppressedSince (fingerprintOf reqsArgs) (purgedInBetween.take 4) = 2 by decide +kernel] at hevent
  rw [hr']
  obtain ⟨value, event⟩ := r
  obtain rfl := beq_iff_eq.1 htrue
  obtain rfl := hevent
  decide

/-! ## Dispatched and seen -/

/-- A dispatch that is remembered is no later than the call to come. -/
theorem dispatched_le {ops : List (Time × PolicyOp)} {op : Time × PolicyOp} (hmono : Nondecreasing (ops ++ [op]))
    {fp : String} {t : Time} (h : (policyAfter ops).lastDispatched.lookup fp = some t) : t ≤ op.1 := by
  obtain ⟨r, hr⟩ := (remembers fp ops).dispatched t h
  obtain ⟨e, he, rfl⟩ := List.mem_map.1 ((passes_sublist fp ops _).subset (List.mem_map_of_mem hr))
  exact hmono.le_last e he

/-- **Dispatched, so seen.** With a clock that never goes back, and whatever
is purged in between, a fingerprint with a dispatch time has been seen, and
not before it. -/
theorem dispatched_seen (ops : List (Time × PolicyOp)) (hmono : Nondecreasing ops) (fp : String) (t : Time)
    (h : (policyAfter ops).lastDispatched.lookup fp = some t) :
    ∃ seen, (policyAfter ops).lastSeen.lookup fp = some seen ∧ t ≤ seen := by
  induction ops using List.reverseRecOn generalizing t with
  | nil => cases h
  | append_singleton ops op ih =>
    have ih := ih (hmono.sublist (List.sublist_append_left _ _))
    have hle := fun t => @dispatched_le ops op hmono fp t
    obtain ⟨now, op⟩ := op
    rw [policyAfter_concat] at h ⊢
    cases op with
    | purgeOldState m =>
      simp only [opStep, purgeOldState, Dict.lookup_delWhere, Option.filter_eq_some_iff, Bool.not_eq_true',
        decide_eq_false_iff_not, gt_iff_lt, not_lt] at h ⊢
      -- What is left of a dispatch is recent, and it was seen more recently still.
      obtain ⟨seen, hseen, hts⟩ := ih t h.1
      exact ⟨seen, ⟨hseen, by linarith [h.2]⟩, hts⟩
    | shouldDispatch a =>
      simp only [opStep] at h ⊢
      by_cases hfp : fp = fingerprintOf a
      · subst hfp
        rcases shouldDispatch_cases (policyAfter ops) now a with ⟨-, hs⟩ | ⟨-, e, -, hs⟩ | ⟨-, -, ev, -, hs⟩ <;>
          rw [hs] at h ⊢
        · exact ⟨now, AList.lookup_insert _, hle t h⟩
        · exact ⟨now, AList.lookup_insert _, hle t h⟩
        · rw [AList.lookup_insert] at h
          exact ⟨now, AList.lookup_insert _, (Option.some.inj h).ge⟩
      · have hentry := shouldDispatch_entry_ne (policyAfter ops) now hfp
        simp only [entry, Entry.mk.injEq] at hentry
        rw [hentry.2.1] at h
        rw [hentry.1]
        exact ih t h

theorem dispatched_seen_purgedCalls :
    ∃ seen, (policyAfter purgedCalls).lastSeen.lookup (fingerprintOf reqsArgs) = some seen ∧ 4001 ≤ seen :=
  dispatched_seen purgedCalls (by unfold Nondecreasing purgedCalls; decide +kernel) _ 4001 (by decide +kernel)

end SentinelFlow.PolicyRuns
