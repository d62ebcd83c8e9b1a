/-
How long a batch takes, and whether the interval has room for it.

The shared semaphore lets `concurrency_limit` checks in at once, and `wait_for`
has each of them out within its timeout. So where no permit lies idle while
a check waits for it and no timer is late, the checks of a batch go in waves
(`Lib.Waves`), and it takes no more than a timeout for each wave. When that
fits the interval, every cycle starts in its slot, whatever the checks do.
-/
import Mathlib.Tactic.MkIffOfInductiveProp
import SentinelFlow.Engine.Stopping
import SentinelFlow.Lib.Clocked
import SentinelFlow.Lib.Waves

namespace SentinelFlow

open Machine Waves

/-! ## An invocation as a job -/

def Point.stage : Point → Stage Time
  | .queued => .waiting
  | .waiting f | .running f _ _ => .since f.startOuter
  | .finished _ _ => .through

theorem Point.stage_eq_since {p : Point} {a : Time} :
    p.stage = .since a ↔ ∃ f, p.frame? = some f ∧ f.startOuter = a := by
  cases p <;> simp [stage, frame?]

theorem Point.inService_stage (p : Point) : p.stage.inService = p.holds := by cases p <;> rfl

theorem Point.stage_ne_through {p : Point} : p.stage ≠ .through ↔ p.isFinished = false := by
  cases p <;> simp [stage, isFinished]

theorem stage_settle (f : Frame) (id : String) (st now : Time) (prog : Progress) :
    (settle f id st now prog).1.stage = .since f.startOuter ∨ (settle f id st now prog).1.stage = .through := by
  cases prog with
  | paused p => exact .inl rfl
  | ended e => exact .inr rfl

/-- A job waits, is begun when there is a permit, stays in service, or is through. -/
theorem Resumes.stage {reg : Registry} {x : Executor} {cfg : PyDict} {clk : Clock} {p p' : Point} {reply : Reply}
    {es : List Effect} (h : Resumes reg x cfg clk p reply p' es) :
    p'.stage = p.stage ∨ p'.stage = .through ∨ p.stage = .waiting ∧ p'.stage = .since clk.perf ∧ x.semaphore ≠ 0 := by
  cases h with
  | entered hs => exact .inr (.inr ⟨rfl, rfl, hs⟩)
  | started | body => exact (stage_settle _ _ _ _ _).imp_right .inl
  | refused | cancelledQueued | cancelledWaiting | timedOutWaiting | rejected | timedOut | cancelled =>
    exact .inr (.inl rfl)

namespace Service

/-! ## A prompt world -/

/-- When the loop gets to an event; a signal comes at any time. -/
def Event.time? : Event → Option Time
  | .check i => some i.clock.perf
  | .woken now _ => some now
  | .cancel => none

def stages (s : Service) (t : ℕ) : Stage Time := (s.engine.point t).stage

/-- A sleep takes what was asked for. -/
def SleepsAsAsked (d : Scheduler.Daemon) (e : Event) : Prop :=
  match d.phase, e with
  | .sleeping t sleepTime, .woken now .slept => now = t + sleepTime
  | _, _ => True

/-- The event loop does not lag: the clock never goes back, no timer is
overdue, and no time passes while a check could be let in or a batch be
handed back. -/
@[mk_iff]
structure Prompt (config : AppConfig) (s : Service × Time) (e : Event) : Prop where
  clock : s.2 ≤ e.time?.getD s.2
  timers : ∀ t ∈ latest config s.1, ∀ f ∈ (s.1.engine.point t).frame?,
    f.timeoutSeconds.lt (.finite (e.time?.getD s.2 - f.startOuter)) = false
  permits : s.2 < e.time?.getD s.2 → (∃ t ∈ latest config s.1, s.1.stages t = .waiting) →
    s.1.engine.executor.semaphore = 0
  gather : s.2 < e.time?.getD s.2 → s.1.daemon.phase.isBatch = true → s.1.gathered config = false
  sleep : SleepsAsAsked s.1.daemon e

instance (d : Scheduler.Daemon) (e : Event) : Decidable (SleepsAsAsked d e) := by
  unfold SleepsAsAsked
  split <;> infer_instance

instance (config : AppConfig) (s : Service × Time) (e : Event) : Decidable (Prompt config s e) :=
  decidable_of_iff _ (prompt_iff config s e).symm

/-- Every check is out within so long. -/
def TimeoutsWithin (config : AppConfig) (T : Time) : Prop :=
  ∀ c ∈ config.checks, c.resilience.timeoutSeconds.le (.finite T) = true

end Service

/-- How many waves the checks of a batch make: `⌈checks / concurrency_limit⌉`. -/
def AppConfig.waves (config : AppConfig) : ℕ := (config.checks.length - 1) / config.executor.semaphore + 1

theorem AppConfig.length_le_waves (config : AppConfig) :
    config.checks.length ≤ config.executor.semaphore * config.waves := by
  have hlt := Nat.lt_mul_div_succ (config.checks.length - 1) (Nat.pos_of_ne_zero config.executor_semaphore_ne_zero)
  show _ ≤ config.executor.semaphore * ((config.checks.length - 1) / config.executor.semaphore + 1)
  omega

namespace Service

section Timeouts

variable {reg : Registry} {config : AppConfig} {s : Service} {t₀ T : Time} {es : List Event} {log : List Seen}

theorem TimeoutsWithin.nonneg (hT : TimeoutsWithin config T) : 0 ≤ T := by
  obtain ⟨c, hc⟩ := List.exists_mem_of_ne_nil _ config.checksNonempty
  have hle := hT c hc
  have hpos := c.resilience.timeoutPos
  revert hle hpos
  cases c.resilience.timeoutSeconds with
  | finite x =>
    simp only [PyFloat.le_finite, PyFloat.lt_finite, decide_eq_true_eq]
    intro hle hpos
    exact (hpos.trans_le hle).le
  | inf | nan | negInf => simp [PyFloat.le, PyFloat.lt]

/-- Every execution is under the timeout of some entry. -/
theorem frame_within (hT : TimeoutsWithin config T)
    (h : run (Service.step reg config) (start config t₀) es = some (s, log)) {t : ℕ} {f : Frame}
    (hf : (s.engine.point t).frame? = some f) : f.timeoutSeconds.le (.finite T) = true := by
  have hK := keeps_run rfl ((isPart_engine reg config).run h)
  obtain ⟨r, hl, htimeout, -⟩ := hK.frames t f hf
  obtain ⟨u, -, -, hpar, -⟩ := (hK.built _ r hl).entry
  rw [htimeout, hpar.timeout]
  exact hT _ (List.get_mem config.checks _)

theorem frame_out {f : Frame} {now : Time} (hle : f.timeoutSeconds.le (.finite T) = true)
    (hlt : f.timeoutSeconds.lt (.finite (now - f.startOuter)) = false) : now ≤ f.startOuter + T := by
  revert hle hlt
  cases f.timeoutSeconds with
  | finite x =>
    simp only [PyFloat.le_finite, PyFloat.lt_finite, decide_eq_true_eq, decide_eq_false_iff_not, not_lt]
    intro hle hlt
    linarith
  | inf | nan | negInf => simp [PyFloat.le, PyFloat.lt]

end Timeouts

/-! ## A batch as jobs on the permits -/

section Batch

variable {reg : Registry} {config : AppConfig} {s s' : Service} {t₀ T τ : Time} {es : List Event} {log : List Seen}

theorem card_latest (config : AppConfig) (s : Service) : (latest config s).card = config.checks.length := by
  rw [latest, Finset.card_image_of_injective, Finset.card_univ, Fintype.card_fin]
  intro i j hij
  rw [← checkOf_taskOf config i, ← checkOf_taskOf config j]
  exact congrArg _ hij

/-- The permits that are taken are those of the latest batch's checks. -/
theorem serving_latest (h : run (Service.step reg config) (start config t₀) es = some (s, log)) :
    s.engine.executor.semaphore + (serving (latest config s) s.stages).card = config.executor.semaphore := by
  have hB := batched_run h
  have hslots := (conserved_run rfl ((isPart_engine reg config).run h)).slots
  have hsame : serving (latest config s) s.stages = s.engine.inside := by
    ext t
    rw [serving, Finset.mem_filter, mem_inside, stages, Point.inService_stage, mem_latest, and_iff_right_iff_imp]
    intro ht
    have hcur := hB.current ht
    omega
  rw [hsame]
  exact hslots

/-- In a prompt world a step of a check is a step of its batch. -/
theorem passes_check (hT : TimeoutsWithin config T)
    (h : run (Service.step reg config) (start config t₀) es = some (s, log)) {i : Input} {x : Engine} {o : Happened}
    (hp : Prompt config (s, τ) (.check i)) (hb : s.daemon.phase.isBatch = true)
    (hs : Engine.step reg (cfgOf config) s.engine i = some (x, o)) :
    Passes config.executor.semaphore T (latest config s) τ i.clock.perf s.stages
      (Service.stages { s with engine := x }) := by
  have hfree := serving_latest h
  refine ⟨hp.clock, fun hlt hw => ?_, fun t ht a ha => ?_, fun hlt => ?_, fun t ht => ?_⟩
  · have hnone : s.engine.executor.semaphore = 0 := hp.permits hlt hw
    omega
  · obtain ⟨f, hf, rfl⟩ := Point.stage_eq_since.1 ha
    exact frame_out (frame_within hT h hf) (hp.timers t ht f hf)
  · have hng := hp.gather hlt hb
    by_contra hall
    simp only [not_exists, not_and, ne_eq, not_not] at hall
    rw [show s.gathered config = true from gathered_iff.2 fun t ht => ?_] at hng
    · cases hng
    · by_contra hun
      exact Point.stage_ne_through.2 (Bool.eq_false_iff.2 hun) (hall t (mem_latest.2 ht))
  · obtain ⟨hr, -, hpoint, hother, -⟩ := Engine.step_resumes hs
    by_cases hi : t = i.task
    · subst hi
      simp only [stages, hpoint]
      rcases hr.stage with he | he | ⟨hq, he, hsem⟩
      · exact .inl he
      · exact .inr (.inl he)
      · exact .inr (.inr ⟨hq, he, by omega⟩)
    · exact .inl (congrArg Point.stage (hother t hi))

end Batch

/-! ## Cycles in time -/

section Cycles

variable {reg : Registry} {config : AppConfig} {s s' : Service} {t₀ T τ : Time} {es : List Event} {log : List Seen}

/-- Batches one after another, by the clock: the cycle number `m` starts
within what `m` intervals or `m` batches take, whichever is longer. -/
structure InTime (config : AppConfig) (t₀ T : Time) (s : Service) (τ : Time) : Prop where
  waves : ∀ t, s.daemon.phase = .batch t →
    InWaves config.executor.semaphore T (latest config s) t τ s.stages ∧ s.daemon.starts.getLast? = some t
  starts : ∀ (m : ℕ) t, s.daemon.starts[m]? = some t →
    t₀ + m * config.globalConfig.intervalSeconds ≤ t ∧
      t ≤ t₀ + m * max (config.globalConfig.intervalSeconds : Time) (config.waves * T)
  nextRun : s.daemon.nextRun = t₀ + s.daemon.starts.length * config.globalConfig.intervalSeconds
  sleeping : ∀ t sleepTime, s.daemon.phase = .sleeping t sleepTime → t + sleepTime = s.daemon.nextRun

/-- The batch under way takes no more than a timeout for each wave. -/
theorem InTime.batch_le (h : InTime config t₀ T s τ) {t : Time} (hp : s.daemon.phase = .batch t) :
    τ ≤ t + config.waves * T := by
  have hle := (h.waves t hp).1.time_le ((config.checks.length - 1) / config.executor.semaphore)
    (by rw [card_latest]; exact config.length_le_waves)
  have hwaves : (config.waves : Time) = ((config.checks.length - 1) / config.executor.semaphore : ℕ) + 1 := by
    rw [AppConfig.waves]
    push_cast
    rfl
  rw [hwaves]
  exact hle

/-- The next cycle starts, at a time within its bounds. -/
theorem InTime.nextCycle (h : InTime config t₀ T s τ) (hT : 0 ≤ T) (hB : Batched config s) {now : Time}
    (hfrom : t₀ + s.daemon.starts.length * config.globalConfig.intervalSeconds ≤ now)
    (hto : now ≤ t₀ + s.daemon.starts.length * max (config.globalConfig.intervalSeconds : Time) (config.waves * T)) :
    InTime config t₀ T { s with daemon := Scheduler.nextCycle config s.daemon now } now := by
  unfold Scheduler.nextCycle
  split
  · refine ⟨fun t ht => ?_, fun m t hm => ?_, ?_, fun t ρ ht => (by cases ht)⟩
    · cases ht
      refine ⟨inWaves_start hT fun t ht => ?_, List.getLast?_concat⟩
      have hnew : s.daemon.starts.length ≤ batchOf config t := by
        rw [mem_latest.1 ht]
        simp
      rw [stages, show s.engine.point t = .queued from hB.future t hnew]
      rfl
    · rw [List.getElem?_append] at hm
      split at hm
      · exact h.starts m t hm
      · obtain ⟨hlt, rfl⟩ := List.getElem?_eq_some_iff.1 hm
        obtain rfl : m = s.daemon.starts.length := by
          rw [List.length_singleton] at hlt
          omega
        rw [List.getElem_singleton]
        exact ⟨hfrom, hto⟩
    · show s.daemon.nextRun + _ = _
      rw [h.nextRun, List.length_append, List.length_singleton]
      push_cast
      ring
  · exact ⟨fun t ht => (by cases ht), h.starts, h.nextRun, fun t ρ ht => (by cases ht)⟩

theorem inTime_start (config : AppConfig) (t₀ : Time) (hT : 0 ≤ T) : InTime config t₀ T (start config t₀) t₀ := by
  refine ⟨fun t ht => ?_, fun m t hm => ?_, ?_, fun t ρ ht => (by cases ht)⟩
  · cases ht
    exact ⟨inWaves_start hT fun t _ => rfl, rfl⟩
  · obtain ⟨hlt, rfl⟩ := List.getElem?_eq_some_iff.1 hm
    obtain rfl : m = 0 := Nat.lt_one_iff.1 hlt
    simp [start, Scheduler.runDaemon, Scheduler.nextCycle]
  · simp [start, Scheduler.runDaemon, Scheduler.nextCycle]

/-- The bounds of the cycle after a batch that is done in time. -/
theorem InTime.batchDone (h : InTime config t₀ T s τ) {t : Time} (hp : s.daemon.phase = .batch t) :
    τ ≤ t₀ + s.daemon.starts.length * max (config.globalConfig.intervalSeconds : Time) (config.waves * T) := by
  have hle := h.batch_le hp
  obtain ⟨ys, hys⟩ := List.getLast?_eq_some_iff.1 (h.waves t hp).2
  have hlast : s.daemon.starts[ys.length]? = some t := by rw [hys]; simp
  have hstart := (h.starts ys.length t hlast).2
  have hmax := le_max_right (config.globalConfig.intervalSeconds : Time) (config.waves * T)
  rw [hys, List.length_append, List.length_singleton]
  push_cast
  linarith

/-- A batch that is done is handed back at once. -/
theorem Prompt.handedBack {now t : Time} (h : Prompt config (s, τ) (.woken now .batchDone))
    (hp : s.daemon.phase = .batch t) (hw : s.wakes config .batchDone = true) : now = τ := by
  simp only [wakes, Bool.and_eq_true] at hw
  refine le_antisymm (not_lt.1 fun hlt => ?_) h.clock
  have hng := h.gather hlt (by rw [hp]; rfl)
  rw [hw.2] at hng
  cases hng

theorem InTime.step (hT : TimeoutsWithin config T) (h : InTime config t₀ T s τ)
    (hr : run (Service.step reg config) (start config t₀) es = some (s, log)) {e : Event} {o : Seen}
    (hp : Prompt config (s, τ) e) (hs : Service.step reg config s e = some (s', o)) :
    InTime config t₀ T s' (e.time?.getD τ) := by
  have hB := batched_run hr
  rcases step_cases hs with ⟨i, x, o', rfl, hb, -, -, hx, rfl, -⟩ | ⟨now, w, d, l, rfl, hw, hd, rfl, -⟩ |
    ⟨rfl, -, rfl, -⟩
  · have hpass := passes_check hT hr hp hb hx
    refine ⟨fun t ht => ⟨?_, (h.waves t ht).2⟩, h.starts, h.nextRun, h.sleeping⟩
    exact (h.waves t ht).1.passes (Nat.pos_of_ne_zero config.executor_semaphore_ne_zero) hpass
  · have hnextRun := h.nextRun
    have hmax := le_max_left (config.globalConfig.intervalSeconds : Time) (config.waves * T)
    rcases Scheduler.step_cases config hd with ⟨t, ht, hwake, hlt, rfl⟩ | ⟨t, ht, hwake, hle, rfl⟩ |
      ⟨t, ρ, ht, rfl, rfl⟩ | ⟨rfl, rfl⟩
    · refine ⟨fun t ht => (by cases ht), h.starts, h.nextRun, fun t ρ ht => ?_⟩
      cases ht
      exact add_sub_cancel _ _
    · subst hwake
      obtain rfl := hp.handedBack ht hw
      exact h.nextCycle hT.nonneg hB (hnextRun ▸ hle) (h.batchDone ht)
    · have hnow : now = t + ρ := by
        have hasked := hp.sleep
        simpa only [SleepsAsAsked, ht] using hasked
      subst hnow
      have hend := h.sleeping t ρ ht
      refine h.nextCycle hT.nonneg hB (by rw [hend, hnextRun]) ?_
      rw [hend, hnextRun]
      have hmul := mul_le_mul_of_nonneg_left hmax (Nat.cast_nonneg (α := Time) s.daemon.starts.length)
      linarith
    · exact ⟨fun t ht => (by cases ht), h.starts, h.nextRun, fun t ρ ht => (by cases ht)⟩
  · exact ⟨h.waves, h.starts, h.nextRun, h.sleeping⟩

/-- **On schedule.** In a prompt world, whatever the checks do: the batch
under way takes no more than a timeout for each of its waves, and the cycle
number `m` starts no later than `m` intervals or `m` such batches take. So
where a batch fits the interval every cycle starts in its slot. -/
theorem on_schedule (hT : TimeoutsWithin config T)
    (h : run (clocked Event.time? (Service.step reg config)) (start config t₀, t₀) es = some ((s, τ), log))
    (hp : Along (clocked Event.time? (Service.step reg config)) (Prompt config) (start config t₀, t₀) es) :
    (∀ t, s.daemon.phase = .batch t → τ ≤ t + config.waves * T) ∧
    (∀ (m : ℕ) t, s.daemon.starts[m]? = some t →
      t₀ + m * config.globalConfig.intervalSeconds ≤ t ∧
        t ≤ t₀ + m * max (config.globalConfig.intervalSeconds : Time) (config.waves * T)) ∧
    (config.waves * T ≤ config.globalConfig.intervalSeconds → ∀ (m : ℕ) t, s.daemon.starts[m]? = some t →
      t = t₀ + m * config.globalConfig.intervalSeconds) := by
  have hI : InTime config t₀ T s τ :=
    run_induction_clocked (InTime config t₀ T) (inTime_start config t₀ hT.nonneg)
      (fun _ _ _ _ _ _ _ hr hI hi hs => hI.step hT hr hi hs) hp h
  refine ⟨fun t ht => hI.batch_le ht, hI.starts, fun hfits m t hm => ?_⟩
  obtain ⟨hfrom, hto⟩ := hI.starts m t hm
  rw [max_eq_left hfits] at hto
  exact le_antisymm hto hfrom

end Cycles

/-- A check that fails to fetch, the sleep after it, and the next cycle. -/
def promptCycle : List Event :=
  [.check ⟨0, ⟨0, 0⟩, .granted⟩, .check ⟨0, ⟨0, 0⟩, .granted⟩,
    .check ⟨0, ⟨1, 1⟩, .fetched (.error (valueError "no route"))⟩, .woken 1 .batchDone, .woken 60 .slept]

theorem on_schedule_promptCycle :
    ∃ s τ log, run (clocked Event.time? (Service.step .builtin oneCheck)) (start oneCheck 0, 0) promptCycle =
        some ((s, τ), log) ∧ s.daemon.starts.length = 2 ∧ ∀ t, s.daemon.starts[1]? = some t → t = 60 := by
  have h : (run (clocked Event.time? (Service.step .builtin oneCheck)) (start oneCheck 0, 0) promptCycle).any
      (fun p => p.1.1.daemon.starts.length == 2) = true := by decide +kernel
  have hp : Along (clocked Event.time? (Service.step .builtin oneCheck)) (Prompt oneCheck) (start oneCheck 0, 0)
      promptCycle := by decide +kernel
  have hT : TimeoutsWithin oneCheck 15 := by
    intro c hc
    obtain rfl := List.mem_singleton.1 hc
    rfl
  obtain ⟨⟨⟨s, τ⟩, log⟩, hs, hq⟩ := (Option.any_eq_true _ _).1 h
  refine ⟨s, τ, log, hs, by simpa using hq, fun t ht => ?_⟩
  exact ((on_schedule hT hs hp).2.2 (by decide +kernel) 1 t ht).trans (by decide +kernel)

end Service

end SentinelFlow
