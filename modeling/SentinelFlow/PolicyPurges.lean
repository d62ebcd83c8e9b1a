/-
Purging the alert policy: what `purge_old_state` takes away, and what that
does to the calls of `should_dispatch` before and after it.

A purge removes times only, and only those older than every window in use,
so no decision changes (`purges_unnoticed`): what it removed of a dispatch
could not have suppressed anything. The suppressed counts stay. That is why
the count reported later is the same, and also why a purge does not forget a
fingerprint whose last call was suppressed (`purge_forgets_iff`).
-/
import SentinelFlow.PolicyRuns

namespace SentinelFlow.PolicyRuns

open AlertPolicy Machine Timed

/-- The calls of `should_dispatch` in a sequence, without the purges. -/
def PolicyOp.call? : Time × PolicyOp → Option (Time × DispatchArgs)
  | (now, .shouldDispatch a) => some (now, a)
  | (_, .purgeOldState _) => none

/-! ## Decisions under purges -/

/-- Every purge keeps what is no older than any window in the sequence. -/
def PurgesCover (ops : List (Time × PolicyOp)) : Prop :=
  ∀ t t' m a, (t, .purgeOldState m) ∈ ops → (t', .shouldDispatch a) ∈ ops → a.dedupeWindowSeconds ≤ m

/-- For the calls to come, a dispatch at this time is out of every window. -/
def Expired (fp : String) (t : Time) (ops : List (Time × PolicyOp)) : Prop :=
  ∀ now a, (now, .shouldDispatch a) ∈ ops → fingerprintOf a = fp → (a.dedupeWindowSeconds : Time) ≤ now - t

/-- A policy that was purged, against one that was not: the same counts, and
of each fingerprint the same dispatch or one that has expired. -/
structure AsGood (ops : List (Time × PolicyOp)) (p q : AlertPolicy) : Prop where
  mono : Nondecreasing ops
  cover : PurgesCover ops
  counts : p.failureCounts = q.failureCounts
  dispatched : ∀ fp, p.lastDispatched.lookup fp = q.lastDispatched.lookup fp ∨
    (p.lastDispatched.lookup fp = none ∧ ∃ t, q.lastDispatched.lookup fp = some t ∧ Expired fp t ops)

section AsGood

variable {p q : AlertPolicy} {now : Time} {a : DispatchArgs} {m : ℤ} {ops : List (Time × PolicyOp)}

theorem AsGood.failureCount (h : AsGood ops p q) (fp : String) : p.failureCount fp = q.failureCount fp := by
  simp only [AlertPolicy.failureCount, h.counts]

/-- The call to come finds the same window, open or not. -/
theorem AsGood.windowOpen (h : AsGood ((now, .shouldDispatch a) :: ops) p q) :
    p.windowOpen (fingerprintOf a) now a.dedupeWindowSeconds =
      q.windowOpen (fingerprintOf a) now a.dedupeWindowSeconds := by
  rcases h.dispatched (fingerprintOf a) with heq | ⟨hp, t, hq, hexp⟩
  · simp only [AlertPolicy.windowOpen, heq]
  · have hout : ¬ now - t < a.dedupeWindowSeconds := not_lt.2 (hexp now a List.mem_cons_self rfl)
    simp only [AlertPolicy.windowOpen, hp, hq, hout, decide_false]

theorem AsGood.tail {i : Time × PolicyOp} (h : AsGood (i :: ops) p q) : AsGood ops p q where
  mono := h.mono.sublist (List.sublist_cons_self i ops)
  cover t t' m a hm ha := h.cover t t' m a (List.mem_cons_of_mem _ hm) (List.mem_cons_of_mem _ ha)
  counts := h.counts
  dispatched fp := by
    rcases h.dispatched fp with heq | ⟨hp, t, hq, hexp⟩
    · exact .inl heq
    · exact .inr ⟨hp, t, hq, fun now a ha => hexp now a (List.mem_cons_of_mem _ ha)⟩

/-- A call is answered alike, and leaves the two as good as each other. -/
theorem AsGood.call (h : AsGood ((now, .shouldDispatch a) :: ops) p q) :
    (p.shouldDispatch now a).2 = (q.shouldDispatch now a).2 ∧
      AsGood ops (p.shouldDispatch now a).1 (q.shouldDispatch now a).1 := by
  have hw := h.windowOpen
  have hc := h.failureCount (fingerprintOf a)
  have htail := h.tail
  simp only [shouldDispatch, hw, hc]
  split
  · exact ⟨rfl, htail.mono, htail.cover, by rw [h.counts], htail.dispatched⟩
  · split
    · exact ⟨rfl, htail.mono, htail.cover, by rw [h.counts], htail.dispatched⟩
    · refine ⟨rfl, htail.mono, htail.cover, by rw [h.counts], fun fp => ?_⟩
      -- Both have just dispatched this fingerprint; of the others nothing changed.
      by_cases hfp : fp = fingerprintOf a
      · subst hfp
        exact .inl (by simp)
      · simpa [hfp] using htail.dispatched fp

/-- A purge of the one changes nothing for the calls to come. -/
theorem AsGood.purge (h : AsGood ((now, .purgeOldState m) :: ops) p q) : AsGood ops (p.purgeOldState now m) q := by
  have htail := h.tail
  refine ⟨htail.mono, htail.cover, htail.counts, fun fp => ?_⟩
  simp only [purgeOldState, Dict.lookup_delWhere]
  rcases htail.dispatched fp with heq | ⟨hp, t, hq, hexp⟩
  · rw [heq]
    cases hq : q.lastDispatched.lookup fp with
    | none => exact .inl rfl
    | some t =>
      by_cases hold : now - t > (m : Time)
      · refine .inr ⟨by simp only [Option.filter, decide_eq_true hold]; rfl, t, rfl, fun now' a ha _ => ?_⟩
        have hlater : now ≤ now' := by
          have hmono := h.mono
          simp only [Nondecreasing, List.map_cons, List.pairwise_cons] at hmono
          exact hmono.1 now' (List.mem_map_of_mem (f := Prod.fst) ha)
        have hwin : (a.dedupeWindowSeconds : Time) ≤ m := by
          exact_mod_cast h.cover now now' m a List.mem_cons_self (List.mem_cons_of_mem _ ha)
        linarith
      · exact .inl (by simp only [Option.filter, decide_eq_false hold]; rfl)
  · rw [hp]
    exact .inr ⟨rfl, t, hq, hexp⟩

end AsGood

/-- **Purges go unnoticed.** With purges inserted anywhere into a sequence
of calls, none with an age below a window in use, each call has the outcome
and leaves the event that it has without them. -/
theorem purges_unnoticed (p : AlertPolicy) (ops : List (Time × PolicyOp)) (hmono : Nondecreasing ops)
    (hcover : PurgesCover ops) :
    (outs opStep p ops).filterMap id = outs callStep p (ops.filterMap PolicyOp.call?) := by
  refine outs_filterMap PolicyOp.call? id AsGood ?_ ?_ ⟨hmono, hcover, rfl, fun fp => .inl rfl⟩
  · intro p q ⟨now, op⟩ ops hR hf
    cases op with
    | shouldDispatch a => cases hf
    | purgeOldState m => exact ⟨rfl, hR.purge⟩
  · intro p q ⟨now, op⟩ j ops hR hf
    cases op with
    | shouldDispatch a =>
      cases hf
      exact ⟨congrArg some hR.call.1, hR.call.2⟩
    | purgeOldState m => cases hf

/-- A call for one fingerprint, with an event that can tell its count. -/
def reqsArgs : DispatchArgs := ⟨"reqs", "threshold", "high", 300, 3600, .assignable "Metric reqs breached"⟩

/-- Sent, suppressed, purged after the window, and sent with the count. -/
def purgedCalls : List (Time × PolicyOp) :=
  [(0, .shouldDispatch reqsArgs), (60, .shouldDispatch reqsArgs), (4000, .purgeOldState 3600),
    (4001, .shouldDispatch reqsArgs)]

theorem purges_unnoticed_purgedCalls :
    (outs opStep new purgedCalls).filterMap id =
      outs callStep new [(0, reqsArgs), (60, reqsArgs), (4001, reqsArgs)] := by
  refine purges_unnoticed new purgedCalls (by unfold Nondecreasing purgedCalls; decide +kernel) ?_
  intro t t' m a hm ha
  simp only [purgedCalls, List.mem_cons, Prod.mk.injEq, reduceCtorEq, and_false, PolicyOp.purgeOldState.injEq,
    PolicyOp.shouldDispatch.injEq, List.not_mem_nil, or_false, false_or] at hm ha
  obtain ⟨-, rfl⟩ := hm
  rcases ha with ⟨-, rfl⟩ | ⟨-, rfl⟩ | ⟨-, rfl⟩ <;> exact le_rfl

/-! ## What a purge leaves -/

/-- A call for the fingerprint, and what it answered. -/
def pass? (fp : String) : (Time × PolicyOp) × Option DispatchResult → Option (Time × DispatchResult)
  | ((now, .shouldDispatch a), some r) => if fingerprintOf a = fp then some (now, r) else none
  | _ => none

/-- The times the fingerprint was passed to `should_dispatch`, with the answers. -/
def passes (fp : String) (ops : List (Time × PolicyOp)) : List (Time × DispatchResult) :=
  (ops.zip (outs opStep new ops)).filterMap (pass? fp)

theorem passes_sublist (fp : String) (ops : List (Time × PolicyOp)) (os : List (Option DispatchResult)) :
    (((ops.zip os).filterMap (pass? fp)).map Prod.fst).Sublist (ops.map Prod.fst) := by
  induction ops generalizing os with
  | nil => simp
  | cons op ops ih =>
    obtain ⟨now, op⟩ := op
    cases os with
    | nil => simp
    | cons o os =>
      rw [List.zip_cons_cons, List.map_cons]
      cases hp : pass? fp ((now, op), o) with
      | none =>
        rw [List.filterMap_cons_none hp]
        exact (ih os).cons now
      | some tr =>
        have ht : tr.1 = now := by
          unfold pass? at hp
          split at hp
          next heq =>
            split at hp <;> cases hp
            cases heq
            rfl
          next => cases hp
        rw [List.filterMap_cons_some hp, List.map_cons, ht]
        exact (ih os).cons_cons now

theorem policyAfter_concat (ops : List (Time × PolicyOp)) (op : Time × PolicyOp) :
    policyAfter (ops ++ [op]) = (opStep (policyAfter ops) op).1 := exec_append _ _ _

theorem passes_concat (fp : String) (ops : List (Time × PolicyOp)) (op : Time × PolicyOp) :
    passes fp (ops ++ [op]) = passes fp ops ++ (pass? fp (op, (opStep (policyAfter ops) op).2)).toList := by
  have houts : outs opStep new (ops ++ [op]) = outs opStep new ops ++ [(opStep (policyAfter ops) op).2] :=
    outs_append _ _ _
  rw [passes, houts, List.zip_append (outs_length _ _).symm, List.filterMap_append]
  congr 1

/-- A call for the fingerprint is passed, with its answer. -/
theorem passes_call {fp : String} {ops : List (Time × PolicyOp)} {now : Time} {a : DispatchArgs}
    (h : fingerprintOf a = fp) : passes fp (ops ++ [(now, .shouldDispatch a)]) =
      passes fp ops ++ [(now, ((policyAfter ops).shouldDispatch now a).2)] := by
  rw [passes_concat]
  simp [pass?, opStep, h]

theorem passes_other {fp : String} {ops : List (Time × PolicyOp)} {now : Time} {a : DispatchArgs}
    (h : fingerprintOf a ≠ fp) : passes fp (ops ++ [(now, .shouldDispatch a)]) = passes fp ops := by
  rw [passes_concat]
  simp [pass?, opStep, h]

theorem passes_purge {fp : String} {ops : List (Time × PolicyOp)} {now : Time} {m : ℤ} :
    passes fp (ops ++ [(now, .purgeOldState m)]) = passes fp ops := by
  rw [passes_concat]
  exact List.append_nil _

/-- What the maps hold of a fingerprint, told by its calls: the last of them
is the one seen, one of them the one dispatched, and a count is kept exactly
when the last was suppressed. -/
structure Remembers (fp : String) (ps : List (Time × DispatchResult)) (p : AlertPolicy) : Prop where
  seen : ∀ t, p.lastSeen.lookup fp = some t → ∃ r, ps.getLast? = some (t, r)
  dispatched : ∀ t, p.lastDispatched.lookup fp = some t → ∃ r, (t, r) ∈ ps
  counted : p.failureCounts.lookup fp ≠ none ↔ ∃ t r, ps.getLast? = some (t, r) ∧ r.value = .ok false

section Remembers

variable {fp : String} {ps : List (Time × DispatchResult)} {p : AlertPolicy}

theorem Remembers.purge (h : Remembers fp ps p) (now : Time) (m : ℤ) : Remembers fp ps (p.purgeOldState now m) where
  seen t ht := by
    simp only [purgeOldState, Dict.lookup_delWhere, Option.filter_eq_some_iff] at ht
    exact h.seen t ht.1
  dispatched t ht := by
    simp only [purgeOldState, Dict.lookup_delWhere, Option.filter_eq_some_iff] at ht
    exact h.dispatched t ht.1
  counted := h.counted

theorem Remembers.call (h : Remembers fp ps p) (now : Time) {a : DispatchArgs} (ha : fingerprintOf a = fp) :
    Remembers fp (ps ++ [(now, (p.shouldDispatch now a).2)]) (p.shouldDispatch now a).1 := by
  subst ha
  have hlast : ∀ r, (ps ++ [(now, r)]).getLast? = some (now, r) := fun r => List.getLast?_concat
  have hold : ∀ r t, p.lastDispatched.lookup (fingerprintOf a) = some t → ∃ r', (t, r') ∈ ps ++ [(now, r)] := by
    intro r t ht
    obtain ⟨r', hr'⟩ := h.dispatched t ht
    exact ⟨r', List.mem_append_left _ hr'⟩
  rcases shouldDispatch_cases p now a with ⟨-, hs⟩ | ⟨-, e, -, hs⟩ | ⟨-, -, ev, -, hs⟩ <;> rw [hs]
  -- Suppressed: seen and counted.
  · exact ⟨by simp, hold _, by simp⟩
  -- Raised: seen, and the count is gone.
  · exact ⟨by simp, hold _, by simp⟩
  -- Dispatched: both times are this call's.
  · exact ⟨by simp, by simp, by simp⟩

theorem Remembers.other (h : Remembers fp ps p) (now : Time) {a : DispatchArgs} (ha : fingerprintOf a ≠ fp) :
    Remembers fp ps (p.shouldDispatch now a).1 := by
  have hentry := shouldDispatch_entry_ne p now (Ne.symm ha)
  simp only [entry, Entry.mk.injEq] at hentry
  exact ⟨by rw [hentry.1]; exact h.seen, by rw [hentry.2.1]; exact h.dispatched,
    by rw [hentry.2.2]; exact h.counted⟩

end Remembers

theorem remembers (fp : String) (ops : List (Time × PolicyOp)) : Remembers fp (passes fp ops) (policyAfter ops) := by
  induction ops using List.reverseRecOn with
  | nil => constructor <;> simp [passes, policyAfter, exec, new]
  | append_singleton ops op ih =>
    obtain ⟨now, op⟩ := op
    rw [policyAfter_concat]
    cases op with
    | purgeOldState m =>
      rw [passes_purge]
      exact ih.purge now m
    | shouldDispatch a =>
      by_cases ha : fingerprintOf a = fp
      · rw [passes_call ha]
        exact ih.call now ha
      · rw [passes_other ha]
        exact ih.other now ha

/-- **What a purge should do**: forget each fingerprint last passed too long
ago, and keep each whose times are all recent. -/
def PurgeForgets (ops : List (Time × PolicyOp)) (now : Time) (maxAgeSeconds : ℤ) : Prop :=
  (∀ fp t r, (passes fp ops).getLast? = some (t, r) → maxAgeSeconds < now - t →
    ((policyAfter ops).purgeOldState now maxAgeSeconds).entry fp = ⟨none, none, none⟩) ∧
  ∀ fp, (∀ t, (policyAfter ops).lastSeen.lookup fp = some t ∨ (policyAfter ops).lastDispatched.lookup fp = some t →
      now - t ≤ maxAgeSeconds) →
    ((policyAfter ops).purgeOldState now maxAgeSeconds).entry fp = (policyAfter ops).entry fp

/-- Recent times are kept, in any state. -/
theorem purge_entry_recent {p : AlertPolicy} {fp : String} {now : Time} {m : ℤ}
    (h : ∀ t, p.lastSeen.lookup fp = some t ∨ p.lastDispatched.lookup fp = some t → now - t ≤ m) :
    (p.purgeOldState now m).entry fp = p.entry fp := by
  have hkeep : ∀ d : Dict String Time, (∀ t, d.lookup fp = some t → now - t ≤ m) →
      (d.lookup fp).filter (fun t => !decide (now - t > (m : Time))) = d.lookup fp := by
    intro d hd
    cases hl : d.lookup fp with
    | none => rfl
    | some t => simp only [Option.filter, decide_eq_false (not_lt.2 (hd t hl)), Bool.not_false, if_true]
  simp only [entry, purgeOldState, Dict.lookup_delWhere, Entry.mk.injEq, and_true]
  exact ⟨hkeep _ fun t ht => h t (.inl ht), hkeep _ fun t ht => h t (.inr ht)⟩

/-- Of a fingerprint not passed for too long, a purge takes both times. -/
theorem purge_entry_old {ops : List (Time × PolicyOp)} (hmono : Nondecreasing ops) {fp : String} {now t : Time}
    {r : DispatchResult} {m : ℤ} (hl : (passes fp ops).getLast? = some (t, r)) (hold : m < now - t) :
    ((policyAfter ops).purgeOldState now m).entry fp = ⟨none, none, (policyAfter ops).failureCounts.lookup fp⟩ := by
  obtain ⟨hseen, hdisp, -⟩ := remembers fp ops
  have htimes : ((passes fp ops).map Prod.fst).Pairwise (· ≤ ·) :=
    List.Pairwise.sublist (passes_sublist fp ops _) hmono
  have hgone : ∀ d : Dict String Time, (∀ t', d.lookup fp = some t' → t' ≤ t) →
      (d.lookup fp).filter (fun t => !decide (now - t > (m : Time))) = none := by
    intro d hd
    cases hd' : d.lookup fp with
    | none => rfl
    | some t' =>
      have hle := hd t' hd'
      have hgt : now - t' > (m : Time) := by linarith
      simp only [Option.filter, decide_eq_true hgt]
      rfl
  simp only [entry, purgeOldState, Dict.lookup_delWhere, Entry.mk.injEq, and_true]
  refine ⟨hgone _ fun t' ht' => ?_, hgone _ fun t' ht' => ?_⟩
  · obtain ⟨r', hr'⟩ := hseen t' ht'
    rw [hl, Option.some.injEq, Prod.mk.injEq] at hr'
    exact le_of_eq hr'.1.symm
  · obtain ⟨r', hr'⟩ := hdisp t' ht'
    exact le_getLast htimes (List.mem_map_of_mem hr') (by rw [List.getLast?_map, hl]; rfl)

/-- **What a purge forgets.** In every state the policy reaches, purging does
what it should exactly when no fingerprint last passed too long ago was
suppressed at that last call: of those the count stays behind. -/
theorem purge_forgets_iff (ops : List (Time × PolicyOp)) (hmono : Nondecreasing ops) (now : Time)
    (maxAgeSeconds : ℤ) :
    PurgeForgets ops now maxAgeSeconds ↔
      ∀ fp t r, (passes fp ops).getLast? = some (t, r) → maxAgeSeconds < now - t → r.value ≠ .ok false := by
  constructor
  · intro h fp t r hl hold hv
    have hgone := h.1 fp t r hl hold
    rw [purge_entry_old hmono hl hold, Entry.mk.injEq] at hgone
    exact (remembers fp ops).counted.2 ⟨t, r, hl, hv⟩ hgone.2.2
  · refine fun h => ⟨fun fp t r hl hold => ?_, fun fp hrecent => purge_entry_recent hrecent⟩
    have hcount : (policyAfter ops).failureCounts.lookup fp = none := by
      by_contra hne
      obtain ⟨t', r', hl', hv⟩ := (remembers fp ops).counted.1 hne
      rw [hl, Option.some.injEq, Prod.mk.injEq] at hl'
      exact h fp t r hl hold (hl'.2 ▸ hv)
    rw [purge_entry_old hmono hl hold, hcount]

/-- Sent and suppressed a minute later; purged two days after. -/
theorem not_purgeForgets_suppressed :
    ¬ PurgeForgets [(0, .shouldDispatch reqsArgs), (60, .shouldDispatch reqsArgs)] 172800 86400 := by
  intro h
  have hgone := h.1 (fingerprintOf reqsArgs) 60 ⟨.ok false, reqsArgs.event⟩ (by decide +kernel) (by norm_num)
  revert hgone
  decide +kernel

theorem purge_forgets_iff_sent :
    PurgeForgets [(0, .shouldDispatch reqsArgs)] 172800 86400 ↔
      ∀ fp t r, (passes fp [(0, .shouldDispatch reqsArgs)]).getLast? = some (t, r) → (86400 : ℤ) < (172800 : Time) - t →
        r.value ≠ .ok false :=
  purge_forgets_iff [(0, .shouldDispatch reqsArgs)] (by unfold Nondecreasing; decide +kernel) 172800 86400

end SentinelFlow.PolicyRuns
