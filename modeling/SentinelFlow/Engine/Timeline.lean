/-
When the steps of a daemon run take place. In a prompt world two cycles start
no further apart than a period, the longer of the interval and what a batch
can take, and the steps of a batch lie in the time it can take (`Timeline`).
So however long the daemon runs, no check goes unexecuted for longer than a
period and a batch (`executed_within`).
-/
import SentinelFlow.Engine.Capacity

namespace SentinelFlow

open Machine Engine

/-- An invocation that is finished took a step that finished it. -/
theorem exists_finishing {reg : Registry} {cfgOf : ℕ → PyDict} {x₀ : Executor} {is : List Input}
    {log : List Happened} {s : Engine} (h : run (Engine.step reg cfgOf) (Engine.start x₀) is = some (s, log)) {t : ℕ}
    (ht : (s.point t).isFinished = true) : ∃ o ∈ log, o.task = t ∧ o.point.isFinished = true := by
  revert ht
  refine run_induction (fun _ log (s : Engine) => (s.point t).isFinished = true →
    ∃ o ∈ log, o.task = t ∧ o.point.isFinished = true) (fun ht => ?_) (fun is log s i o s' _ hI hs ht => ?_) h
  · rw [point_start] at ht
    cases ht
  obtain ⟨-, -, hpoint, hother, htask, -⟩ := step_resumes hs
  by_cases hi : t = i.task
  · rw [hi, hpoint] at ht
    exact ⟨o, by simp, htask.trans hi.symm, ht⟩
  · rw [hother t hi] at ht
    obtain ⟨o', ho', hrest⟩ := hI ht
    exact ⟨o', List.mem_append_left _ ho', hrest⟩

namespace Service

/-- Two cycles start no further apart. -/
def period (config : AppConfig) (T : Time) : Time := max (config.globalConfig.intervalSeconds : Time) (config.waves * T)

theorem period_pos (config : AppConfig) (T : Time) : 0 < period config T := by
  have hint : (1 : Time) ≤ config.globalConfig.intervalSeconds := by exact_mod_cast config.globalConfig.intervalPos
  exact zero_lt_one.trans_le (hint.trans (le_max_left _ _))

/-- The steps of the checks. -/
def checkLog (log : List Seen) : List Happened := log.filterMap Seen.check?

theorem checkLog_concat (log : List Seen) (o : Seen) : checkLog (log ++ [o]) = checkLog log ++ o.check?.toList := by
  rw [checkLog, List.filterMap_append, checkLog]
  cases ho : o.check? <;> simp [ho]

section Timeline

variable {reg : Registry} {config : AppConfig} {s s' : Service} {t₀ T τ : Time} {es : List Event} {log : List Seen}

/-- The starts lie no further apart than a period, and the steps of a batch
in the time it can take. -/
structure Timeline (config : AppConfig) (t₀ T : Time) (log : List Seen) (s : Service) (τ : Time) : Prop where
  inTime : InTime config t₀ T s τ
  started : ∀ a ∈ s.daemon.starts, a ≤ τ
  gaps : ∀ (m : ℕ) a b, s.daemon.starts[m]? = some a → s.daemon.starts[m + 1]? = some b →
    a ≤ b ∧ b ≤ a + period config T
  upTo : ∀ o ∈ checkLog log, o.clock.perf ≤ τ
  mono : (checkLog log).Pairwise fun o o' => o.clock.perf ≤ o'.clock.perf
  placed : ∀ o ∈ checkLog log, ∃ a, s.daemon.starts[batchOf config o.task]? = some a ∧ a ≤ o.clock.perf ∧
    o.clock.perf ≤ a + config.waves * T
  atWork : s.daemon.phase ≠ .stopped → ∀ a ∈ s.daemon.starts.getLast?, τ ≤ a + config.waves * T

/-- The run lasts a batch longer than to the moment: a cycle has begun since,
or the daemon has not stopped and its clock has come so far. -/
def RunsPast (config : AppConfig) (T : Time) (s : Service) (τ moment : Time) : Prop :=
  (∃ a ∈ s.daemon.starts, moment ≤ a) ∨ s.daemon.phase ≠ .stopped ∧ moment + config.waves * T ≤ τ

/-- Either way a cycle has begun. -/
theorem Timeline.begun (h : Timeline config t₀ T log s τ) (hB : Batched config s) {moment : Time}
    (hpast : RunsPast config T s τ moment) : ∃ a ∈ s.daemon.starts, moment ≤ a := by
  rcases hpast with hbegun | ⟨hlive, hτ⟩
  · exact hbegun
  · have hne : s.daemon.starts ≠ [] := List.ne_nil_of_length_pos hB.begun
    have hle := h.atWork hlive _ (List.getLast?_eq_some_getLast hne)
    exact ⟨_, List.getLast_mem hne, by linarith⟩

theorem getElem?_concat_succ {α : Type*} {xs : List α} {x a b : α} {m : ℕ} (ha : (xs ++ [x])[m]? = some a)
    (hb : (xs ++ [x])[m + 1]? = some b) :
    xs[m]? = some a ∧ xs[m + 1]? = some b ∨ xs.getLast? = some a ∧ b = x := by
  have hlt := (List.getElem?_eq_some_iff.1 hb).1
  rw [List.length_append, List.length_singleton] at hlt
  rw [List.getElem?_append_left (by omega)] at ha
  by_cases hm : m + 1 < xs.length
  · rw [List.getElem?_append_left hm] at hb
    exact .inl ⟨ha, hb⟩
  · obtain rfl : m = xs.length - 1 := by omega
    have hsucc : xs.length - 1 + 1 = xs.length := by omega
    rw [hsucc, List.getElem?_concat_length, Option.some.injEq] at hb
    exact .inr ⟨by rw [List.getLast?_eq_getElem?, ha], hb.symm⟩

/-- Time passes, and no cycle starts. -/
theorem Timeline.wait (h : Timeline config t₀ T log s τ) {τ' : Time} (hle : τ ≤ τ')
    (hI : InTime config t₀ T s' τ') (hstarts : s'.daemon.starts = s.daemon.starts)
    (hwork : s'.daemon.phase ≠ .stopped → ∀ a ∈ s.daemon.starts.getLast?, τ' ≤ a + config.waves * T) :
    Timeline config t₀ T log s' τ' := by
  refine ⟨hI, ?_, ?_, fun o ho => (h.upTo o ho).trans hle, h.mono, ?_, ?_⟩ <;> rw [hstarts]
  · exact fun a ha => (h.started a ha).trans hle
  · exact h.gaps
  · exact h.placed
  · exact hwork

/-- No check takes a step. -/
theorem Timeline.quiet (h : Timeline config t₀ T log s τ) {o : Seen} (ho : o.check? = none) :
    Timeline config t₀ T (log ++ [o]) s τ := by
  refine ⟨h.inTime, h.started, h.gaps, ?_, ?_, ?_, h.atWork⟩ <;>
    rw [checkLog_concat, ho, Option.toList_none, List.append_nil]
  · exact h.upTo
  · exact h.mono
  · exact h.placed

/-- The next cycle starts within a period of the one before. -/
theorem Timeline.nextCycle (h : Timeline config t₀ T log s τ) {now : Time} (hle : τ ≤ now)
    (hI : InTime config t₀ T { s with daemon := Scheduler.nextCycle config s.daemon now } now)
    (hlast : ∀ a, s.daemon.starts.getLast? = some a → now ≤ a + period config T) :
    Timeline config t₀ T log { s with daemon := Scheduler.nextCycle config s.daemon now } now := by
  have hupTo : ∀ o ∈ checkLog log, o.clock.perf ≤ now := fun o ho => (h.upTo o ho).trans hle
  unfold Scheduler.nextCycle at hI ⊢
  split
  next hrun =>
    rw [if_pos hrun] at hI
    refine ⟨hI, fun a ha => ?_, fun m a b ha hb => ?_, hupTo, h.mono, fun o ho => ?_, fun _ a ha => ?_⟩
    · rcases List.mem_append.1 ha with ha | ha
      · exact (h.started a ha).trans hle
      · exact (List.mem_singleton.1 ha).le
    · rcases getElem?_concat_succ ha hb with ⟨ha', hb'⟩ | ⟨ha', rfl⟩
      · exact h.gaps m a b ha' hb'
      · exact ⟨(h.started a (List.mem_of_getLast? ha')).trans hle, hlast a ha'⟩
    · obtain ⟨a, ha, hrest⟩ := h.placed o ho
      exact ⟨a, by rw [List.getElem?_append_left (List.getElem?_eq_some_iff.1 ha).1]; exact ha, hrest⟩
    · exact hI.batch_le (by rw [List.getLast?_concat] at ha; cases ha; rfl)
  next hrun =>
    rw [if_neg hrun] at hI
    exact ⟨hI, fun a ha => (h.started a ha).trans hle, h.gaps, hupTo, h.mono, h.placed, fun hne => absurd rfl hne⟩

theorem timeline_start (config : AppConfig) (t₀ : Time) (hT : 0 ≤ T) :
    Timeline config t₀ T [] (start config t₀) t₀ := by
  have hI := inTime_start config t₀ hT
  refine ⟨hI, fun a ha => ?_, fun m a b _ hb => ?_, by simp [checkLog], .nil, by simp [checkLog], fun _ a ha => ?_⟩
  · exact (List.mem_singleton.1 ha).le
  · have hlt := (List.getElem?_eq_some_iff.1 hb).1
    simp [start, Scheduler.runDaemon, Scheduler.nextCycle] at hlt
  · cases ha
    exact hI.batch_le rfl

/-- A step of a check is one of the batch under way. -/
theorem Timeline.check (h : Timeline config t₀ T log s τ) {i : Input} {x : Engine} {o : Happened}
    (hle : τ ≤ i.clock.perf) (hI : InTime config t₀ T { s with engine := x } i.clock.perf)
    (hb : s.daemon.phase.isBatch = true) (hcur : batchOf config i.task + 1 = s.daemon.starts.length)
    (hs : Engine.step reg (cfgOf config) s.engine i = some (x, o)) :
    Timeline config t₀ T (log ++ [.check o]) { s with engine := x } i.clock.perf := by
  obtain ⟨-, -, -, -, htask, hclock⟩ := step_resumes hs
  obtain ⟨a, ha⟩ : ∃ a, s.daemon.phase = .batch a := by
    cases hphase : s.daemon.phase with
    | batch a => exact ⟨a, rfl⟩
    | sleeping | stopped =>
      rw [hphase] at hb
      cases hb
  have hlast : s.daemon.starts[batchOf config i.task]? = some a := by
    have hget := (h.inTime.waves a ha).2
    rw [List.getLast?_eq_getElem?, ← hcur] at hget
    exact hget
  have hlog : checkLog (log ++ [.check o]) = checkLog log ++ [o] := checkLog_concat log _
  refine ⟨hI, fun b hb => (h.started b hb).trans hle, h.gaps, ?_, ?_, ?_, fun _ b hb => ?_⟩
  · rw [hlog]
    refine List.forall_mem_append.2 ⟨fun o' ho' => (h.upTo o' ho').trans hle, ?_⟩
    rw [List.forall_mem_singleton, hclock]
  · rw [hlog]
    refine List.pairwise_append.2 ⟨h.mono, List.pairwise_singleton _ _, fun o' ho' => ?_⟩
    rw [List.forall_mem_singleton, hclock]
    exact (h.upTo o' ho').trans hle
  · rw [hlog]
    refine List.forall_mem_append.2 ⟨h.placed, ?_⟩
    rw [List.forall_mem_singleton, htask, hclock]
    exact ⟨a, hlast, (h.started a (List.mem_of_getElem? hlast)).trans hle, hI.batch_le ha⟩
  · have hget := (h.inTime.waves a ha).2
    rw [show s.daemon.starts.getLast? = some b from hb, Option.some.injEq] at hget
    rw [hget]
    exact hI.batch_le ha

theorem Timeline.step (hT : TimeoutsWithin config T) (h : Timeline config t₀ T log s τ)
    (hr : run (Service.step reg config) (start config t₀) es = some (s, log)) {e : Event} {o : Seen}
    (hp : Prompt config (s, τ) e) (hs : Service.step reg config s e = some (s', o)) :
    Timeline config t₀ T (log ++ [o]) s' (e.time?.getD τ) := by
  have hI := h.inTime.step hT hr hp hs
  have hB := batched_run hr
  rcases step_cases hs with ⟨i, x, o', rfl, hb, hcur, -, hx, rfl, rfl⟩ | ⟨now, w, d, l, rfl, hw, hd, rfl, rfl⟩ |
    ⟨rfl, -, rfl, rfl⟩
  · exact h.check hp.clock hI hb hcur hx
  · have hle : τ ≤ now := hp.clock
    refine Timeline.quiet ?_ rfl
    rcases Scheduler.step_cases config hd with ⟨t, ht, rfl, -, rfl⟩ | ⟨t, ht, rfl, -, rfl⟩ | ⟨t, ρ, ht, rfl, rfl⟩ |
      ⟨rfl, rfl⟩
    · obtain rfl := hp.handedBack ht hw
      refine h.wait hle hI rfl fun _ => h.atWork (by rw [ht]; simp)
    -- A batch that takes longer than the interval is followed at once.
    · refine h.nextCycle hle hI fun a ha => ?_
      obtain rfl := hp.handedBack ht hw
      rw [(h.inTime.waves t ht).2, Option.some.injEq] at ha
      rw [← ha]
      exact (h.inTime.batch_le ht).trans (add_le_add_right (le_max_right _ _) t)
    -- The sleep ends when the interval of the latest start does.
    · refine h.nextCycle hle hI fun a ha => ?_
      have hnow : now = t + ρ := by
        have hasked := hp.sleep
        simpa only [SleepsAsAsked, ht] using hasked
      have hbegun := hB.begun
      rw [List.getLast?_eq_getElem?] at ha
      have hfrom := (h.inTime.starts _ a ha).1
      rw [Nat.cast_sub hbegun, Nat.cast_one] at hfrom
      rw [hnow, h.inTime.sleeping t ρ ht, h.inTime.nextRun]
      have hmax := le_max_left (config.globalConfig.intervalSeconds : Time) (config.waves * T)
      rw [period]
      linarith
    · exact h.wait hle hI rfl fun hne => absurd rfl hne
  · exact (h.wait le_rfl hI rfl h.atWork).quiet rfl

theorem timeline_run (hT : TimeoutsWithin config T)
    (h : run (clocked Event.time? (Service.step reg config)) (start config t₀, t₀) es = some ((s, τ), log))
    (hp : Along (clocked Event.time? (Service.step reg config)) (Prompt config) (start config t₀, t₀) es) :
    Timeline config t₀ T log s τ := by
  refine run_induction_along (fun _ log s => Timeline config t₀ T log s.1 s.2) (timeline_start config t₀ hT.nonneg)
    (fun es log s e o s' hr hI he hs => ?_) hp h
  obtain ⟨hstep, hτ⟩ := clocked_eq_some.1 hs
  rw [hτ]
  exact hI.step hT (run_of_clocked hr) he hstep

/-! ## Cycles from a moment on -/

theorem Timeline.starts_le (h : Timeline config t₀ T log s τ) {m n : ℕ} (hmn : m ≤ n) {a b : Time}
    (ha : s.daemon.starts[m]? = some a) (hb : s.daemon.starts[n]? = some b) : a ≤ b := by
  induction n, hmn using Nat.le_induction generalizing b with
  | base =>
    rw [ha, Option.some.injEq] at hb
    exact hb.le
  | succ n _ ih =>
    have hlt := (List.getElem?_eq_some_iff.1 hb).1
    have hget : s.daemon.starts[n]? = some s.daemon.starts[n] := List.getElem?_eq_getElem (by omega)
    exact (ih hget).trans (h.gaps n _ b hget hb).1

theorem Timeline.lt_of_lt (h : Timeline config t₀ T log s τ) {m n : ℕ} {a b : Time}
    (ha : s.daemon.starts[m]? = some a) (hb : s.daemon.starts[n]? = some b) (hab : a < b) : m < n := by
  by_contra hle
  exact absurd hab (not_lt.2 (h.starts_le (not_lt.1 hle) hb ha))

/-- The first cycle from a moment on starts within a period of it. -/
theorem Timeline.first_cycle (h : Timeline config t₀ T log s τ) {y : Time} (hy : t₀ < y + period config T)
    (hlong : ∃ a ∈ s.daemon.starts, y ≤ a) :
    ∃ (m : ℕ) (a : Time), s.daemon.starts[m]? = some a ∧ y ≤ a ∧ a < y + period config T := by
  classical
  obtain ⟨c, hc, hlate⟩ := hlong
  obtain ⟨n, hn⟩ := List.getElem?_of_mem hc
  have hex : ∃ m : ℕ, ∃ a, s.daemon.starts[m]? = some a ∧ y ≤ a := ⟨n, c, hn, hlate⟩
  obtain ⟨a, ha, hya⟩ := Nat.find_spec hex
  refine ⟨Nat.find hex, a, ha, hya, ?_⟩
  cases hm : Nat.find hex with
  | zero =>
    rw [hm] at ha
    have hfirst := (h.inTime.starts 0 a ha).2
    rw [Nat.cast_zero, zero_mul, add_zero] at hfirst
    exact hfirst.trans_lt hy
  | succ m =>
    rw [hm] at ha
    have hlt := (List.getElem?_eq_some_iff.1 ha).1
    have hget : s.daemon.starts[m]? = some s.daemon.starts[m] := List.getElem?_eq_getElem (by omega)
    have hearly : ¬ y ≤ s.daemon.starts[m] := fun hle => Nat.find_min hex (m := m) (by omega) ⟨_, hget, hle⟩
    have hgap := (h.gaps m _ a hget ha).2
    linarith

/-- **No check goes unexecuted for long.** In a prompt world, whatever the
checks do: in any stretch as long as a period and the waves of a batch that
the run lasts, each entry of the configuration is executed from start to end. -/
theorem executed_within (hT : TimeoutsWithin config T)
    (h : run (clocked Event.time? (Service.step reg config)) (start config t₀, t₀) es = some ((s, τ), log))
    (hp : Along (clocked Event.time? (Service.step reg config)) (Prompt config) (start config t₀, t₀) es) {x : Time}
    (hx : t₀ ≤ x) (hlasts : RunsPast config T s τ (x + period config T)) (i : Fin config.checks.length) :
    ∃ t, checkOf config t = i ∧ (∃ o ∈ checkLog log, o.task = t ∧ o.point.isFinished = true) ∧
      ∀ o ∈ checkLog log, o.task = t → x ≤ o.clock.perf ∧ o.clock.perf ≤ x + period config T + config.waves * T := by
  have hTL := timeline_run hT h hp
  have hrun : run (Service.step reg config) (start config t₀) es = some (s, log) := run_of_clocked h
  have hper := period_pos config T
  obtain ⟨c, hc, hlate⟩ := hTL.begun (batched_run hrun) hlasts
  obtain ⟨m, a, ha, hxa, hax⟩ := hTL.first_cycle (y := x) (by linarith) ⟨c, hc, by linarith⟩
  obtain ⟨n, hn⟩ := List.getElem?_of_mem hc
  have hmn := hTL.lt_of_lt ha hn (by linarith)
  have hlen := (List.getElem?_eq_some_iff.1 hn).1
  refine ⟨taskOf config i m, checkOf_taskOf config i m, ?_, fun o ho htask => ?_⟩
  -- The batch is not the latest one, so it is through.
  · have hdone := (batched_run hrun).past (taskOf config i m) (by rw [batchOf_taskOf]; omega)
    exact exists_finishing ((isPart_engine reg config).run hrun) hdone
  · obtain ⟨b, hb, hfrom, hto⟩ := hTL.placed o ho
    rw [htask, batchOf_taskOf, ha, Option.some.injEq] at hb
    subst hb
    exact ⟨hxa.trans hfrom, by linarith⟩

end Timeline

theorem executed_within_promptCycle :
    ∃ s τ log, run (clocked Event.time? (Service.step .builtin oneCheck)) (start oneCheck 0, 0) promptCycle =
        some ((s, τ), log) ∧
      ∃ t, (∃ o ∈ checkLog log, o.task = t ∧ o.point.isFinished = true) ∧
        ∀ o ∈ checkLog log, o.task = t → 0 ≤ o.clock.perf ∧ o.clock.perf ≤ 0 + 60 + 1 * 15 := by
  have h : (run (clocked Event.time? (Service.step .builtin oneCheck)) (start oneCheck 0, 0) promptCycle).any
      (fun p => p.1.1.daemon.starts == [0, 60]) = true := by decide +kernel
  have hp : Along (clocked Event.time? (Service.step .builtin oneCheck)) (Prompt oneCheck) (start oneCheck 0, 0)
      promptCycle := by decide +kernel
  have hT : TimeoutsWithin oneCheck 15 := by
    intro c hc
    obtain rfl := List.mem_singleton.1 hc
    rfl
  obtain ⟨⟨⟨s, τ⟩, log⟩, hs, hq⟩ := (Option.any_eq_true _ _).1 h
  have hstarts : s.daemon.starts = [0, 60] := beq_iff_eq.1 hq
  have hperiod : period oneCheck 15 = 60 := by decide +kernel
  have hwaves : oneCheck.waves = 1 := by decide +kernel
  obtain ⟨t, -, hdone, hall⟩ := executed_within hT hs hp le_rfl
    (.inl ⟨60, by rw [hstarts]; simp, by rw [hperiod]; norm_num⟩) ⟨0, by decide⟩
  rw [hperiod, hwaves] at hall
  exact ⟨s, τ, log, hs, t, hdone, by exact_mod_cast hall⟩

end Service

end SentinelFlow
