/-
How long an alert that keeps firing can stay silent. Inside its dedupe window
it is suppressed; the first call past it raises when suppressed ones are
counted, since the event is frozen, but takes the count with it, and so the
call after that is let through. Two calls past the window are enough
(`sent_after`), and in a prompt world two cycles bring them (`reminded`).
-/
import SentinelFlow.Engine.Delivery
import SentinelFlow.Engine.Timeline

namespace SentinelFlow

open Machine Engine AlertPolicy PolicyRuns Timed

/-! ## Two calls past the window -/

namespace PolicyRuns

/-- A count stands only after a call of the fingerprint that found its window
open and was the latest one. -/
theorem suppressed_of_counted {calls : List (Time × DispatchArgs)} {fp : String}
    (h : (stateAfter calls).failureCounts.lookup fp ≠ none) :
    ∃ before now a after, calls = before ++ (now, a) :: after ∧ fingerprintOf a = fp ∧
      (stateAfter before).windowOpen fp now a.dedupeWindowSeconds = true ∧ ∀ c ∈ after, fingerprintOf c.2 ≠ fp := by
  induction calls using List.reverseRecOn with
  | nil => exact absurd rfl h
  | append_singleton calls c ih =>
    obtain ⟨now, a⟩ := c
    rw [stateAfter, exec_append] at h
    change ((stateAfter calls).shouldDispatch now a).1.failureCounts.lookup fp ≠ none at h
    by_cases ha : fingerprintOf a = fp
    · subst ha
      rcases shouldDispatch_cases (stateAfter calls) now a with ⟨hw, -⟩ | ⟨-, e, -, hs⟩ | ⟨-, -, ev, -, hs⟩
      · exact ⟨calls, now, a, [], rfl, rfl, hw, by simp⟩
      -- Raised or dispatched: the count is gone.
      · simp [hs] at h
      · simp [hs] at h
    · have hentry := shouldDispatch_entry_ne (stateAfter calls) now (Ne.symm ha)
      simp only [entry, Entry.mk.injEq] at hentry
      rw [hentry.2.2] at h
      obtain ⟨before, t, b, after, rfl, hb, hw, hafter⟩ := ih h
      refine ⟨before, t, b, after ++ [(now, a)], by simp, hb, hw, fun c hc => ?_⟩
      rcases List.mem_append.1 hc with hc | hc
      · exact hafter c hc
      · rw [List.mem_singleton.1 hc]
        exact ha

/-- **Two calls past the window.** Of a fingerprint whose windows are no
longer than `w`, two calls no sooner than `w` after a moment: between the
moment and the second one, a call was let through. -/
theorem sent_after {calls : List (Time × DispatchArgs)} (hmono : Nondecreasing calls) {fp : String} {w : ℤ}
    (hwin : ∀ c ∈ calls, fingerprintOf c.2 = fp → c.2.dedupeWindowSeconds ≤ w) {x u v : Time} {b c : DispatchArgs}
    {j k : ℕ} (hjk : j < k) (hj : calls[j]? = some (u, b)) (hb : fingerprintOf b = fp)
    (hk : calls[k]? = some (v, c)) (hc : fingerprintOf c = fp) (hx : x < u) (hxw : x + w ≤ u) :
    ∃ (l : ℕ) (t : Time) (a : DispatchArgs) (r : DispatchResult), calls[l]? = some (t, a) ∧ fingerprintOf a = fp ∧
      (answers calls)[l]? = some r ∧ r.value = .ok true ∧ x < t ∧ t ≤ v := by
  by_contra hno
  have hold : ∀ n ≤ k, ∀ t ∈ hits (sent fp) (calls.take n) (answers (calls.take n)), t ≤ x := by
    intro n hn t ht
    obtain ⟨l, hl, a, r, ha, hr, hfp, hv⟩ := mem_sent_before.1 ht
    by_contra hlt
    exact hno ⟨l, t, a, r, ha, hfp, hr, hv, not_le.1 hlt, hmono.getElem?_le (by omega) ha hk⟩
  -- From the first of the two on, no window is open.
  have hclosed : ∀ n t a, j ≤ n → n ≤ k → calls[n]? = some (t, a) → fingerprintOf a = fp →
      (stateAfter (calls.take n)).windowOpen fp t a.dedupeWindowSeconds = false := by
    intro n t a hjn hnk hn ha
    rw [Bool.eq_false_iff, ne_eq, windowOpen_history hmono]
    rintro ⟨t', ht', hlt⟩
    have hle := hold n hnk t' ht'
    have hshort : (a.dedupeWindowSeconds : Time) ≤ w := by exact_mod_cast hwin _ (List.mem_of_getElem? hn) ha
    have hut : u ≤ t := hmono.getElem?_le hjn hj hn
    linarith
  -- So the latest call before the second one was not suppressed.
  have hnone : (stateAfter (calls.take k)).failureCounts.lookup fp = none := by
    by_contra hne
    obtain ⟨before, t, a, after, hsplit, ha, hopen, hafter⟩ := suppressed_of_counted hne
    have hlen : before.length < k := by
      have := congrArg List.length hsplit
      simp only [List.length_take, List.length_append, List.length_cons] at this
      omega
    have hget : calls[before.length]? = some (t, a) := by
      rw [← List.getElem?_take_of_lt hlen, hsplit]
      simp
    have htake : calls.take before.length = before := by
      rw [← Nat.min_eq_left hlen.le, ← List.take_take, hsplit, List.take_left]
    by_cases hjn : j ≤ before.length
    · have hshut := hclosed _ t a hjn hlen.le hget ha
      rw [htake, hopen] at hshut
      cases hshut
    · refine hafter (u, b) (List.mem_of_getElem? (i := j - before.length - 1) ?_) hb
      have hj' : (calls.take k)[j]? = some (u, b) := by rw [List.getElem?_take_of_lt hjk, hj]
      rw [hsplit, List.getElem?_append_right (by omega), List.getElem?_cons, if_neg (by omega)] at hj'
      exact hj'
  have huv : u ≤ v := hmono.getElem?_le hjk.le hj hk
  subst hc
  refine hno ⟨k, v, c, _, hk, rfl, answers_getElem? hk, value_eq_true_iff.2 ⟨?_, ?_⟩, hx.trans_le huv, le_rfl⟩
  · exact hclosed k v c hjk.le le_rfl hk rfl
  · simp [raisesAt, failureCount, hnone]

end PolicyRuns

/-- What a step asks the policy is asked by the clock of the step. -/
theorem now_of_policyCalls {reg : Registry} {cfgOf : ℕ → PyDict} {x₀ : Executor} {is : List Input}
    {log : List Happened} {s : Engine} (h : run (Engine.step reg cfgOf) (Engine.start x₀) is = some (s, log)) :
    ∀ o ∈ log, ∀ c ∈ policyCallsIn o.effects, c.now = o.clock.wall := by
  refine run_induction (fun _ log _ => ∀ o ∈ log, ∀ c ∈ policyCallsIn o.effects, c.now = o.clock.wall)
    (by simp) (fun is log s i o s' _ hI hs => ?_) h
  obtain ⟨hr, -, -, -, -, hclock⟩ := step_resumes hs
  refine List.forall_mem_append.2 ⟨hI, List.forall_mem_singleton.2 fun c hc => ?_⟩
  rcases hr.policyCalls with hnil | ⟨-, -, event, -, -, hone⟩
  · rw [hnil] at hc
    cases hc
  · rw [hone, List.mem_singleton] at hc
    rw [hc, hclock]

namespace Service

/-! ## The calls of a batch -/

/-- The calls of the policy, each with the batch it is made in. -/
def batchCalls (config : AppConfig) (log : List Seen) : List (ℕ × PolicyCall) :=
  (checkLog log).flatMap fun o => (policyCallsIn o.effects).map (batchOf config o.task, ·)

/-- The clock of the policy runs with that of the executor. -/
def SameClock (δ : Time) (log : List Seen) : Prop := ∀ o ∈ checkLog log, o.clock.wall = o.clock.perf + δ

/-- Each complete cycle that starts at the moment or later asks the policy
about the fingerprint. -/
def KeepsFiring (config : AppConfig) (fp : String) (moment : Time) (s : Service) (log : List Seen) : Prop :=
  ∀ m < s.daemon.starts.length - 1, ∀ a ∈ s.daemon.starts[m]?, moment ≤ a →
    ∃ d ∈ batchCalls config log, d.1 = m ∧ fingerprintOf d.2.args = fp

instance (δ : Time) (log : List Seen) : Decidable (SameClock δ log) := by
  unfold SameClock
  infer_instance

instance (config : AppConfig) (fp : String) (moment : Time) (s : Service) (log : List Seen) :
    Decidable (KeepsFiring config fp moment s log) := by
  unfold KeepsFiring
  infer_instance

theorem map_batchCalls (config : AppConfig) (log : List Seen) :
    (batchCalls config log).map Prod.snd = policyCalls (checkLog log) := by
  rw [batchCalls, List.map_flatMap]
  simp only [List.map_map, Function.comp_def, List.map_id']
  rfl

section Reminders

variable {reg : Registry} {config : AppConfig} {s : Service} {t₀ T τ δ : Time} {es : List Event} {log : List Seen}

theorem mem_batchCalls {d : ℕ × PolicyCall} (hd : d ∈ batchCalls config log) :
    ∃ o ∈ checkLog log, d.1 = batchOf config o.task ∧ d.2 ∈ policyCallsIn o.effects := by
  obtain ⟨o, ho, hd⟩ := List.mem_flatMap.1 hd
  obtain ⟨c, hc, rfl⟩ := List.mem_map.1 hd
  exact ⟨o, ho, rfl, hc⟩

/-- The calls of the batches, as the inputs of a run of the policy. -/
def timedCalls (config : AppConfig) (log : List Seen) : List (Time × DispatchArgs) :=
  (batchCalls config log).map fun d => (d.2.now, d.2.args)

theorem replays_batchCalls (h : run (Service.step reg config) (start config t₀) es = some (s, log)) :
    (batchCalls config log).map (·.2.result) = (answers (timedCalls config log)).map (·.value) := by
  have hrep : Replays (policyCalls (checkLog log)) s.engine.executor.policy :=
    replays_run rfl ((isPart_engine reg config).run h)
  have hresults := hrep.results
  rw [← map_batchCalls config, asked, List.map_map, List.map_map] at hresults
  exact hresults

/-- `sent_after`, for calls at two places in a log. -/
theorem letThrough_after (h : run (Service.step reg config) (start config t₀) es = some (s, log))
    (hmono : Nondecreasing (timedCalls config log)) {fp : String} {w : ℤ} (hw : 0 < w)
    (hwin : ∀ d ∈ batchCalls config log, fingerprintOf d.2.args = fp → d.2.args.dedupeWindowSeconds ≤ w) {x : Time}
    {d e : ℕ × PolicyCall} {j k : ℕ} (hjk : j < k) (hj : (batchCalls config log)[j]? = some d)
    (hk : (batchCalls config log)[k]? = some e) (hd : fingerprintOf d.2.args = fp) (he : fingerprintOf e.2.args = fp)
    (hx : x + w ≤ d.2.now) :
    ∃ c ∈ batchCalls config log, fingerprintOf c.2.args = fp ∧ c.2.result = .ok true ∧ x < c.2.now ∧
      c.2.now ≤ e.2.now := by
  have hget : ∀ {n : ℕ} {f : ℕ × PolicyCall}, (batchCalls config log)[n]? = some f →
      (timedCalls config log)[n]? = some (f.2.now, f.2.args) := by
    intro n f hf
    rw [timedCalls, List.getElem?_map, hf]
    rfl
  have hwin' : ∀ c ∈ timedCalls config log, fingerprintOf c.2 = fp → c.2.dedupeWindowSeconds ≤ w := by
    intro c hc hcfp
    obtain ⟨f, hf, rfl⟩ := List.mem_map.1 hc
    exact hwin f hf hcfp
  have hpos : (0 : Time) < w := by exact_mod_cast hw
  obtain ⟨l, t, a, r, hl, ha, hr, hv, hxt, hte⟩ := sent_after hmono hwin' hjk (hget hj) hd (hget hk) he (by linarith) hx
  rw [timedCalls, List.getElem?_map, Option.map_eq_some_iff] at hl
  obtain ⟨c, hc, hpair⟩ := hl
  obtain ⟨rfl, rfl⟩ := Prod.mk.inj hpair
  refine ⟨c, List.mem_of_getElem? hc, ha, ?_, hxt, hte⟩
  have hres := congrArg (·[l]?) (replays_batchCalls h)
  simp only [List.getElem?_map, hc, hr, Option.map_some, Option.some.injEq] at hres
  rw [hres, hv]

/-- Two calls of different batches are two calls. -/
theorem letThrough_of_two (h : run (Service.step reg config) (start config t₀) es = some (s, log))
    (hmono : Nondecreasing (timedCalls config log)) {fp : String} {w : ℤ} (hw : 0 < w)
    (hwin : ∀ d ∈ batchCalls config log, fingerprintOf d.2.args = fp → d.2.args.dedupeWindowSeconds ≤ w) {x y : Time}
    {d e : ℕ × PolicyCall} (hd : d ∈ batchCalls config log) (he : e ∈ batchCalls config log) (hne : d.1 ≠ e.1)
    (hdfp : fingerprintOf d.2.args = fp) (hefp : fingerprintOf e.2.args = fp) (hdx : x + w ≤ d.2.now)
    (hex : x + w ≤ e.2.now) (hdy : d.2.now ≤ y) (hey : e.2.now ≤ y) :
    ∃ c ∈ batchCalls config log, fingerprintOf c.2.args = fp ∧ c.2.result = .ok true ∧ x < c.2.now ∧ c.2.now ≤ y := by
  obtain ⟨j, hj⟩ := List.getElem?_of_mem hd
  obtain ⟨k, hk⟩ := List.getElem?_of_mem he
  rcases lt_trichotomy j k with hlt | rfl | hgt
  · obtain ⟨c, hc, hfp, hres, hxc, hce⟩ := letThrough_after h hmono hw hwin hlt hj hk hdfp hefp hdx
    exact ⟨c, hc, hfp, hres, hxc, hce.trans hey⟩
  · rw [hj, Option.some.injEq] at hk
    exact absurd (congrArg Prod.fst hk) hne
  · obtain ⟨c, hc, hfp, hres, hxc, hcd⟩ := letThrough_after h hmono hw hwin hgt hk hj hefp hdfp hex
    exact ⟨c, hc, hfp, hres, hxc, hcd.trans hdy⟩

/-- The calls of a batch, by the policy's clock. -/
theorem Timeline.calls (hTL : Timeline config t₀ T log s τ)
    (h : run (Service.step reg config) (start config t₀) es = some (s, log)) (hclock : SameClock δ log) :
    Nondecreasing (timedCalls config log) ∧
      ∀ d ∈ batchCalls config log, ∃ a, s.daemon.starts[d.1]? = some a ∧ a + δ ≤ d.2.now ∧
        d.2.now ≤ a + config.waves * T + δ := by
  have hnow : ∀ o ∈ checkLog log, ∀ c ∈ policyCallsIn o.effects, c.now = o.clock.perf + δ := fun o ho c hc =>
    (now_of_policyCalls ((isPart_engine reg config).run h) o ho c hc).trans (hclock o ho)
  refine ⟨?_, fun d hd => ?_⟩
  · rw [Nondecreasing, timedCalls, batchCalls, List.map_map, List.pairwise_map, List.pairwise_flatMap]
    refine ⟨fun o ho => ?_, hTL.mono.imp_of_mem fun ho ho' hle => ?_⟩
    · refine List.pairwise_map.2 (List.pairwise_of_forall_mem_list fun c hc c' hc' => ?_)
      exact ((hnow o ho c hc).trans (hnow o ho c' hc').symm).le
    · intro d hd d' hd'
      obtain ⟨c, hc, rfl⟩ := List.mem_map.1 hd
      obtain ⟨c', hc', rfl⟩ := List.mem_map.1 hd'
      show c.now ≤ c'.now
      rw [hnow _ ho c hc, hnow _ ho' c' hc']
      exact add_le_add_left hle δ
  · obtain ⟨o, ho, hbatch, hc⟩ := mem_batchCalls hd
    obtain ⟨a, ha, hfrom, hto⟩ := hTL.placed o ho
    rw [hbatch, hnow o ho _ hc]
    exact ⟨a, ha, add_le_add_left hfrom δ, add_le_add_left hto δ⟩

/-- **Reminders.** In a prompt world, of an alert that keeps firing: however
often it was suppressed, and whatever its frozen event made raise, in any
stretch as long as its window, two periods and the waves of a batch that the
run lasts, the policy lets it through. -/
theorem reminded (hT : TimeoutsWithin config T)
    (h : run (clocked Event.time? (Service.step reg config)) (start config t₀, t₀) es = some ((s, τ), log))
    (hp : Along (clocked Event.time? (Service.step reg config)) (Prompt config) (start config t₀, t₀) es)
    (hclock : SameClock δ log) {fp : String} {w : ℤ} (hw : 0 < w)
    (hwin : ∀ d ∈ batchCalls config log, fingerprintOf d.2.args = fp → d.2.args.dedupeWindowSeconds ≤ w) {x : Time}
    (hx : t₀ ≤ x) (hfires : KeepsFiring config fp (x + w) s log)
    (hlasts : RunsPast config T s τ (x + w + 2 * period config T)) :
    ∃ c ∈ batchCalls config log, fingerprintOf c.2.args = fp ∧ c.2.result = .ok true ∧ x + δ < c.2.now ∧
      c.2.now ≤ x + δ + w + 2 * period config T + config.waves * T := by
  have hTL := timeline_run hT h hp
  have hrun : run (Service.step reg config) (start config t₀) es = some (s, log) := run_of_clocked h
  have hpos : (0 : Time) < w := by exact_mod_cast hw
  have hper := period_pos config T
  obtain ⟨z, hz, hlate⟩ := hTL.begun (batched_run hrun) hlasts
  obtain ⟨n, hn⟩ := List.getElem?_of_mem hz
  have hlen := (List.getElem?_eq_some_iff.1 hn).1
  -- Two complete cycles past the window.
  obtain ⟨m, a, ha, hxa, hax⟩ := hTL.first_cycle (y := x + w) (by linarith) ⟨z, hz, by linarith⟩
  have hmn := hTL.lt_of_lt ha hn (by linarith)
  have hb : s.daemon.starts[m + 1]? = some s.daemon.starts[m + 1] := List.getElem?_eq_getElem (by omega)
  obtain ⟨hab, hba⟩ := hTL.gaps m a _ ha hb
  have hmn' := hTL.lt_of_lt hb hn (by linarith)
  obtain ⟨d, hd, hdm, hdfp⟩ := hfires m (by omega) a ha hxa
  obtain ⟨e, he, hem, hefp⟩ := hfires (m + 1) (by omega) _ hb (hxa.trans hab)
  obtain ⟨hmono, hplaced⟩ := hTL.calls hrun hclock
  obtain ⟨a', ha', hda, hdy⟩ := hplaced d hd
  obtain ⟨b', hb', heb, hey⟩ := hplaced e he
  rw [hdm, ha, Option.some.injEq] at ha'
  rw [hem, hb, Option.some.injEq] at hb'
  subst ha' hb'
  exact letThrough_of_two hrun hmono hw hwin hd he (by omega) hdfp hefp (by linarith) (by linarith) (by linarith)
    (by linarith)

end Reminders

/-- A window longer than the interval. -/
def shortPolicy : AlertPolicyConfig :=
  { (default : AlertPolicyConfig) with dedupeWindowSeconds := 90, dedupeNonneg := Int.natCast_nonneg 90 }

def shortWindow : AppConfig := plainConfig { plainCheck "reqs" with alertPolicy := shortPolicy } []

/-- Four cycles: sent, suppressed, raised and sent. -/
def remindingRun : List Event :=
  (breachRun 0 0).map .check ++ [.check ⟨0, ⟨0, 0⟩, .gathered [.ok ()]⟩, .woken 0 .batchDone, .woken 60 .slept] ++
    (breachRun 1 60).map .check ++ [.woken 60 .batchDone, .woken 120 .slept] ++
    (breachRun 2 120).map .check ++ [.woken 120 .batchDone, .woken 180 .slept] ++
    (breachRun 3 180).map .check ++ [.check ⟨3, ⟨180, 180⟩, .gathered [.ok ()]⟩, .woken 180 .batchDone, .woken 240 .slept]

theorem reminded_remindingRun :
    ∃ s τ log, run (clocked Event.time? (Service.step .builtin shortWindow)) (start shortWindow 0, 0) remindingRun =
        some ((s, τ), log) ∧
      ∃ c ∈ batchCalls shortWindow log, c.2.result = .ok true ∧ 0 < c.2.now ∧ c.2.now ≤ 0 + 90 + 2 * 60 + 1 * 15 := by
  have h : (run (clocked Event.time? (Service.step .builtin shortWindow)) (start shortWindow 0, 0) remindingRun).any
      (fun p : (Service × Time) × List Seen => decide (
        SameClock 0 p.2 ∧ KeepsFiring shortWindow "reqs:threshold:high" (0 + (90 : ℤ)) p.1.1 p.2 ∧
        (∀ d ∈ batchCalls shortWindow p.2, fingerprintOf d.2.args = "reqs:threshold:high" →
          d.2.args.dedupeWindowSeconds ≤ 90) ∧
        p.1.1.daemon.starts = [0, 60, 120, 180, 240])) = true := by decide +kernel
  have hp : Along (clocked Event.time? (Service.step .builtin shortWindow))
      (Prompt shortWindow) (start shortWindow 0, 0) remindingRun := by decide +kernel
  have hT : TimeoutsWithin shortWindow 15 := by
    intro c hc
    obtain rfl := List.mem_singleton.1 hc
    rfl
  obtain ⟨⟨⟨s, τ⟩, log⟩, hs, hq⟩ := (Option.any_eq_true _ _).1 h
  obtain ⟨hclock, hfires, hwin, hstarts⟩ := of_decide_eq_true hq
  have hperiod : period shortWindow 15 = 60 := by decide +kernel
  have hwaves : shortWindow.waves = 1 := by decide +kernel
  obtain ⟨c, hc, -, hres, hpos, hle⟩ := reminded hT hs hp hclock (by decide) hwin le_rfl hfires
    (.inl ⟨240, by rw [hstarts]; simp, by rw [hperiod]; norm_num⟩)
  rw [add_zero] at hpos
  rw [hperiod, hwaves, add_zero] at hle
  exact ⟨s, τ, log, hs, c, hc, hres, hpos, by exact_mod_cast hle⟩

end Service

end SentinelFlow
