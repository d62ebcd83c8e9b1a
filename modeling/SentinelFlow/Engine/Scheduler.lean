/-
`Scheduler.run_daemon` (`src/engine/scheduler.py`): a batch in every slot of
the interval, as a coroutine with two suspensions, `execute_batch` and
`asyncio.sleep`. Its own lines take no time of their own, and the executor
has no `maintenance`.

The loop keeps one deadline and moves it on before each batch, so how late a
cycle starts is a backlog: what the batches before it took beyond their
intervals (`lateness`).
-/
import Mathlib.Tactic.Linarith
import Mathlib.Tactic.Ring
import SentinelFlow.Config.Parser
import SentinelFlow.Lib.Backlog
import SentinelFlow.Lib.Machine

namespace SentinelFlow

open Machine Backlog

namespace Scheduler

/-- What `run_daemon` awaits. -/
inductive Phase
  /-- In `execute_batch`, called at this reading of the clock. -/
  | batch (calledAt : Time)
  /-- In `asyncio.sleep`, called at a reading of the clock for so long. -/
  | sleeping (calledAt sleepTime : Time)
  | stopped
  deriving DecidableEq

/-- The loop of `run_daemon`. -/
structure Daemon where
  running : Bool := true
  nextRun : Time
  phase : Phase
  /-- When `execute_batch` was called so far; no step reads it. -/
  starts : List Time := []

/-- What ends a suspension. -/
inductive Wake
  | batchDone | slept | cancelled
  deriving DecidableEq

/-- What the scheduler logs. -/
inductive Logged
  | sleeping (sleepTime : Time)
  | overran (byTime : Time)
  | woke
  | stopped
  deriving DecidableEq

variable (config : AppConfig)

/-- `while self._running:` up to `execute_batch`. -/
def nextCycle (s : Daemon) (now : Time) : Daemon :=
  if s.running then
    { s with nextRun := s.nextRun + config.globalConfig.intervalSeconds, phase := .batch now, starts := s.starts ++ [now] }
  else { s with phase := .stopped }

theorem nextCycle_phase {s : Daemon} (hrun : s.running = true) (now : Time) :
    (nextCycle config s now).phase = .batch now := by
  simp only [nextCycle, hrun, if_true]

/-- `run_daemon`, up to its first batch. -/
def runDaemon (t₀ : Time) : Daemon := nextCycle config { nextRun := t₀, phase := .stopped } t₀

def step (s : Daemon) : Time × Wake → Option (Daemon × Logged)
  | (now, .batchDone) => match s.phase with
    | .batch _ =>
      let sleepTime := s.nextRun - now
      if 0 < sleepTime then some ({ s with phase := .sleeping now sleepTime }, .sleeping sleepTime)
      else some (nextCycle config s now, .overran (-sleepTime))
    | _ => none
  | (now, .slept) => match s.phase with
    | .sleeping _ _ => some (nextCycle config s now, .woke)
    | _ => none
  | (_, .cancelled) => match s.phase with
    | .stopped => none
    | _ => some ({ s with running := false, phase := .stopped }, .stopped)

/-- What a step can be. -/
theorem step_cases {s s' : Daemon} {now : Time} {w : Wake} {o : Logged}
    (h : step config s (now, w) = some (s', o)) :
    (∃ t, s.phase = .batch t ∧ w = .batchDone ∧ now < s.nextRun ∧
      s' = { s with phase := .sleeping now (s.nextRun - now) }) ∨
    (∃ t, s.phase = .batch t ∧ w = .batchDone ∧ s.nextRun ≤ now ∧ s' = nextCycle config s now) ∨
    (∃ t τ, s.phase = .sleeping t τ ∧ w = .slept ∧ s' = nextCycle config s now) ∨
    (w = .cancelled ∧ s' = { s with running := false, phase := .stopped }) := by
  cases w with
  | batchDone =>
    simp only [step] at h
    split at h
    next t hp =>
      split at h <;> cases h
      next hlt => exact .inl ⟨t, hp, rfl, sub_pos.1 hlt, rfl⟩
      next hle => exact .inr (.inl ⟨t, hp, rfl, by linarith, rfl⟩)
    next => cases h
  | slept =>
    simp only [step] at h
    split at h <;> cases h
    next t τ hp => exact .inr (.inr (.inl ⟨t, τ, hp, rfl, rfl⟩))
  | cancelled =>
    simp only [step] at h
    split at h <;> cases h
    exact .inr (.inr (.inr ⟨rfl, rfl⟩))

/-! ## A punctual world -/

/-- Batch number `n` takes `d n`, and a sleep exactly what was asked for. -/
def Punctual (d : ℕ → Time) (s : Daemon) (i : Time × Wake) : Prop :=
  match s.phase, i.2 with
  | .batch t, .batchDone => i.1 = t + d (s.starts.length - 1)
  | .sleeping t sleepTime, .slept => i.1 = t + sleepTime
  | _, _ => True

/-- When the cycle number `n` starts: its slot, and the backlog before it. -/
def startOf (t₀ : Time) (d : ℕ → Time) (n : ℕ) : Time :=
  t₀ + n * config.globalConfig.intervalSeconds + backlog (fun j => d j - config.globalConfig.intervalSeconds) n

section Punctual

variable {config : AppConfig} {t₀ : Time} {d : ℕ → Time} {s s' : Daemon}

theorem startOf_zero : startOf config t₀ d 0 = t₀ := by simp [startOf]

/-- A cycle starts when its slot has come and the batch before it is done. -/
theorem startOf_succ (n : ℕ) :
    startOf config t₀ d (n + 1) =
      max (t₀ + (n + 1) * config.globalConfig.intervalSeconds) (startOf config t₀ d n + d n) := by
  rw [startOf, startOf, backlog_succ, ← max_add_add_left]
  congr 1
  · push_cast
    ring
  · push_cast
    ring

/-- After so many cycles: each has started when it should, and the deadline
is the next slot. -/
structure OnSchedule (config : AppConfig) (t₀ : Time) (d : ℕ → Time) (n : ℕ) (s : Daemon) : Prop where
  starts : s.starts = (List.range (n + 1)).map (startOf config t₀ d)
  nextRun : s.nextRun = t₀ + (n + 1) * config.globalConfig.intervalSeconds
  batch : ∀ t, s.phase = .batch t → t = startOf config t₀ d n ∧ s.running = true
  sleeping : ∀ t sleepTime, s.phase = .sleeping t sleepTime →
    t + sleepTime = startOf config t₀ d (n + 1) ∧ s.running = true

theorem OnSchedule.nextCycle {n : ℕ} (h : OnSchedule config t₀ d n s) (hrun : s.running = true) {now : Time}
    (hnow : now = startOf config t₀ d (n + 1)) : OnSchedule config t₀ d (n + 1) (nextCycle config s now) := by
  simp only [Scheduler.nextCycle, hrun, if_true]
  refine ⟨?_, ?_, fun t ht => ?_, fun t τ ht => (by cases ht)⟩
  · rw [h.starts, List.range_succ (n := n + 1), List.map_append, hnow]
    rfl
  · rw [h.nextRun]
    push_cast
    ring
  · cases ht
    exact ⟨hnow, rfl⟩

theorem onSchedule_runDaemon (config : AppConfig) (t₀ : Time) (d : ℕ → Time) :
    OnSchedule config t₀ d 0 (runDaemon config t₀) := by
  refine ⟨by simp [runDaemon, nextCycle, startOf_zero], by simp [runDaemon, nextCycle], fun t ht => ?_,
    fun t τ ht => (by cases ht)⟩
  cases ht
  exact ⟨startOf_zero.symm, rfl⟩

theorem OnSchedule.step {n : ℕ} (h : OnSchedule config t₀ d n s) {i : Time × Wake} {o : Logged}
    (hi : Punctual d s i) (hs : Scheduler.step config s i = some (s', o)) :
    ∃ m, OnSchedule config t₀ d m s' := by
  obtain ⟨now, w⟩ := i
  have hlast : s.starts.length - 1 = n := by rw [h.starts]; simp
  rcases step_cases config hs with ⟨t, hp, rfl, hlt, rfl⟩ | ⟨t, hp, rfl, hle, rfl⟩ | ⟨t, τ, hp, rfl, rfl⟩ | ⟨rfl, rfl⟩
  -- The batch is done before the deadline: the sleep ends at it.
  · simp only [Punctual, hp, hlast] at hi
    obtain ⟨ht, hrun⟩ := h.batch t hp
    refine ⟨n, h.starts, h.nextRun, fun t' ht' => (by cases ht'), fun t' τ ht' => ?_⟩
    cases ht'
    refine ⟨?_, hrun⟩
    rw [add_sub_cancel, startOf_succ, ← h.nextRun, ← ht, ← hi, max_eq_left hlt.le]
  -- It overran: the next one starts at once.
  · simp only [Punctual, hp, hlast] at hi
    obtain ⟨ht, hrun⟩ := h.batch t hp
    refine ⟨n + 1, h.nextCycle hrun ?_⟩
    rw [startOf_succ, ← h.nextRun, ← ht, ← hi, max_eq_right hle]
  · simp only [Punctual, hp] at hi
    obtain ⟨ht, hrun⟩ := h.sleeping t τ hp
    exact ⟨n + 1, h.nextCycle hrun (hi.trans ht)⟩
  · exact ⟨n, h.starts, h.nextRun, fun t ht => (by cases ht), fun t τ ht => (by cases ht)⟩

theorem onSchedule_run {is : List (Time × Wake)} {log : List Logged}
    (hd : Along (Scheduler.step config) (Punctual d) (runDaemon config t₀) is)
    (h : run (Scheduler.step config) (runDaemon config t₀) is = some (s, log)) :
    ∃ n, OnSchedule config t₀ d n s :=
  run_induction_along (fun _ _ s => ∃ n, OnSchedule config t₀ d n s) ⟨0, onSchedule_runDaemon config t₀ d⟩
    (fun _ _ _ _ _ _ _ ⟨_, hI⟩ hP hs => hI.step hP hs) hd h

/-- In a punctual world a cycle is followed by the next. -/
theorem OnSchedule.next {n : ℕ} (h : OnSchedule config t₀ d n s) {t : Time} (hp : s.phase = .batch t) :
    ∃ is s' log t', run (Scheduler.step config) s is = some (s', log) ∧
      Along (Scheduler.step config) (Punctual d) s is ∧ OnSchedule config t₀ d (n + 1) s' ∧ s'.phase = .batch t' := by
  obtain ⟨ht, hrun⟩ := h.batch t hp
  have hlast : s.starts.length - 1 = n := by rw [h.starts]; simp
  have hdone : Punctual d s (t + d n, .batchDone) := by simp only [Punctual, hp, hlast]
  by_cases hlt : t + d n < s.nextRun
  · have hs : Scheduler.step config s (t + d n, .batchDone) =
        some ({ s with phase := .sleeping (t + d n) (s.nextRun - (t + d n)) }, .sleeping (s.nextRun - (t + d n))) := by
      simp only [Scheduler.step, hp, sub_pos, hlt, if_true]
    have hend : t + d n + (s.nextRun - (t + d n)) = startOf config t₀ d (n + 1) := by
      rw [add_sub_cancel, startOf_succ, ← h.nextRun, ← ht, max_eq_left hlt.le]
    have hsleep : OnSchedule config t₀ d n { s with phase := .sleeping (t + d n) (s.nextRun - (t + d n)) } :=
      ⟨h.starts, h.nextRun, fun t ht => (by cases ht), fun t' τ ht' => by cases ht'; exact ⟨hend, hrun⟩⟩
    exact ⟨[(t + d n, .batchDone), (t + d n + (s.nextRun - (t + d n)), .slept)], _, _,
      t + d n + (s.nextRun - (t + d n)), run_cons.2 ⟨_, _, _, hs, run_cons.2 ⟨_, _, _, rfl, rfl, rfl⟩, rfl⟩,
      (along_cons hs).2 ⟨hdone, rfl, trivial⟩, hsleep.nextCycle hrun hend, nextCycle_phase config hrun _⟩
  · have hs : Scheduler.step config s (t + d n, .batchDone) =
        some (Scheduler.nextCycle config s (t + d n), .overran (-(s.nextRun - (t + d n)))) := by
      simp only [Scheduler.step, hp, sub_pos, hlt, if_false]
    have hstart : t + d n = startOf config t₀ d (n + 1) := by
      rw [startOf_succ, ← h.nextRun, ← ht, max_eq_right (not_lt.1 hlt)]
    exact ⟨[(t + d n, .batchDone)], _, _, t + d n, run_cons.2 ⟨_, _, _, hs, rfl, rfl⟩,
      (along_cons hs).2 ⟨hdone, trivial⟩, h.nextCycle hrun hstart, nextCycle_phase config hrun _⟩

/-- No cycle is dropped: a punctual world reaches each one. -/
theorem exists_cycle (config : AppConfig) (t₀ : Time) (d : ℕ → Time) (n : ℕ) :
    ∃ is s log, run (Scheduler.step config) (runDaemon config t₀) is = some (s, log) ∧
      Along (Scheduler.step config) (Punctual d) (runDaemon config t₀) is ∧ n < s.starts.length := by
  suffices h : ∃ is s log t, run (Scheduler.step config) (runDaemon config t₀) is = some (s, log) ∧
      Along (Scheduler.step config) (Punctual d) (runDaemon config t₀) is ∧ OnSchedule config t₀ d n s ∧
      s.phase = .batch t by
    obtain ⟨is, s, log, t, hr, hd, hn, -⟩ := h
    exact ⟨is, s, log, hr, hd, by rw [hn.starts]; simp⟩
  induction n with
  | zero => exact ⟨[], _, [], t₀, rfl, trivial, onSchedule_runDaemon config t₀ d, rfl⟩
  | succ n ih =>
    obtain ⟨is, s, log, t, hr, hd, hn, hp⟩ := ih
    obtain ⟨js, s', log', t', hr', hd', hn', hp'⟩ := hn.next hp
    exact ⟨is ++ js, s', log ++ log', t', run_append.2 ⟨s, log, log', hr, hr', rfl⟩,
      (along_append hr).2 ⟨hd, hd'⟩, hn', hp'⟩

end Punctual

/-- **Lateness.** In a punctual world every cycle is reached, and in every
run of it the cycle number `n` starts late, against its slot, by the largest
sum of what the latest batches before it took beyond their intervals. So it
never starts early, it starts in its slot when no batch is longer than the
interval, and a cycle that is late starts when the one before it is done. -/
theorem lateness (config : AppConfig) (t₀ : Time) (d : ℕ → Time) (n : ℕ) :
    (∃ is s log, run (step config) (runDaemon config t₀) is = some (s, log) ∧
      Along (step config) (Punctual d) (runDaemon config t₀) is ∧ n < s.starts.length) ∧
    ∀ is s log, run (step config) (runDaemon config t₀) is = some (s, log) →
      Along (step config) (Punctual d) (runDaemon config t₀) is → ∀ t, s.starts[n]? = some t →
        t - (t₀ + n * config.globalConfig.intervalSeconds) =
            (Finset.range (n + 1)).sup' Finset.nonempty_range_add_one
              (fun k => ∑ j ∈ Finset.Ico k n, (d j - config.globalConfig.intervalSeconds)) ∧
          t₀ + n * config.globalConfig.intervalSeconds ≤ t ∧
          ((∀ j < n, d j ≤ config.globalConfig.intervalSeconds) → t = t₀ + n * config.globalConfig.intervalSeconds) ∧
          ∀ t', s.starts[n + 1]? = some t' → t₀ + (n + 1) * config.globalConfig.intervalSeconds < t' → t' = t + d n := by
  refine ⟨exists_cycle config t₀ d n, fun is s log h hd t ht => ?_⟩
  obtain ⟨N, hN⟩ := onSchedule_run hd h
  have hstart : ∀ m t, s.starts[m]? = some t → t = startOf config t₀ d m := by
    intro m t hm
    rw [hN.starts, List.getElem?_map, Option.map_eq_some_iff] at hm
    obtain ⟨m', hm', rfl⟩ := hm
    rw [List.getElem?_eq_some_iff] at hm'
    obtain ⟨-, rfl⟩ := hm'
    rw [List.getElem_range]
  obtain rfl := hstart n t ht
  refine ⟨?_, ?_, fun hle => ?_, fun t' ht' hlate => ?_⟩
  · rw [startOf, add_sub_cancel_left]
    exact backlog_eq_sup' _ n
  · rw [startOf]
    exact le_add_of_nonneg_right backlog_nonneg
  · rw [startOf, backlog_eq_zero fun j hj => sub_nonpos.2 (hle j hj), add_zero]
  · obtain rfl := hstart (n + 1) t' ht'
    rw [startOf_succ] at hlate ⊢
    exact max_eq_right (lt_max_iff.1 hlate |>.resolve_left (lt_irrefl _)).le

end Scheduler

end SentinelFlow
