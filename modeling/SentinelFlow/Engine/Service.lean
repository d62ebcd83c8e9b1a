/-
The service in daemon mode: `run_daemon`, and the checks of the batches it
awaits (`Executor.execute_batch`).

A batch has an invocation for each entry of the configuration, in order, and
the invocations of all batches are numbered on. `gather` hands a batch back
when each of its invocations is finished, and passes `daemon_task.cancel()`
on to those that are not; nothing else cancels one. So the batches follow
each other, and the executions of one entry never overlap (`batched_run`).
-/
import SentinelFlow.Engine.Progress
import SentinelFlow.Engine.Scheduler
import SentinelFlow.Lib.Parts

namespace SentinelFlow

open Machine

def Scheduler.Phase.isBatch : Scheduler.Phase → Bool
  | .batch _ => true
  | _ => false

def Reply.isCancel : Reply → Bool
  | .cancel _ => true
  | _ => false

theorem Point.frame_of_isFinished {p : Point} (h : p.isFinished = true) : p.frame? = none := by
  cases p with
  | finished => rfl
  | queued | waiting | running => cases h

/-- `run_daemon` and the checks of its batches. -/
structure Service where
  daemon : Scheduler.Daemon
  engine : Engine
  /-- `daemon_task.cancel()` was called. -/
  cancelling : Bool := false

namespace Service

/-- A step of a check, the end of what `run_daemon` awaits, or its cancellation. -/
inductive Event
  /-- An invocation is resumed. -/
  | check (i : Input)
  /-- `run_daemon` is resumed. -/
  | woken (now : Time) (w : Scheduler.Wake)
  | cancel

/-- What an event comes to. -/
inductive Seen
  | check (o : Happened)
  | logged (l : Scheduler.Logged)
  | cancelRequested

section Service

variable (reg : Registry) (config : AppConfig)

theorem length_checks_pos : 0 < config.checks.length := List.length_pos_iff.2 config.checksNonempty

/-- The entry an invocation is for. -/
def checkOf (t : ℕ) : Fin config.checks.length :=
  ⟨t % config.checks.length, Nat.mod_lt _ (length_checks_pos config)⟩

/-- The batch an invocation belongs to. -/
def batchOf (t : ℕ) : ℕ := t / config.checks.length

def cfgOf (t : ℕ) : PyDict := (config.entry (checkOf config) t).modelDump

/-- `run_daemon` up to its first batch, on a new executor. -/
def start (t₀ : Time) : Service :=
  { daemon := Scheduler.runDaemon config t₀, engine := Engine.start config.executor }

/-- Every invocation of the latest batch is finished. -/
def gathered (s : Service) : Bool :=
  (List.range config.checks.length).all fun k =>
    (s.engine.point ((s.daemon.starts.length - 1) * config.checks.length + k)).isFinished

/-- The invocation belongs to the batch that `run_daemon` awaits. -/
def awaited (s : Service) (t : ℕ) : Bool :=
  s.daemon.phase.isBatch && batchOf config t + 1 == s.daemon.starts.length

/-- The suspension of `run_daemon` can end so. -/
def wakes (s : Service) : Scheduler.Wake → Bool
  | .batchDone => !s.cancelling && s.gathered config
  | .slept => !s.cancelling
  | .cancelled => s.cancelling && (!s.daemon.phase.isBatch || s.gathered config)

/-- One event. -/
def step (s : Service) : Event → Option (Service × Seen)
  | .check i =>
    if s.awaited config i.task && (!i.reply.isCancel || s.cancelling) then
      (Engine.step reg (cfgOf config) s.engine i).map fun r => ({ s with engine := r.1 }, .check r.2)
    else none
  | .woken now w =>
    if s.wakes config w then
      (Scheduler.step config s.daemon (now, w)).map fun r => ({ s with daemon := r.1 }, .logged r.2)
    else none
  | .cancel => if s.cancelling then none else some ({ s with cancelling := true }, .cancelRequested)

end Service

/-! ## Its steps -/

section Steps

variable {reg : Registry} {config : AppConfig} {s s' : Service} {o : Seen}

/-- What a step can be. -/
theorem step_cases {e : Event} (h : step reg config s e = some (s', o)) :
    (∃ i x h', e = .check i ∧ s.daemon.phase.isBatch = true ∧ batchOf config i.task + 1 = s.daemon.starts.length ∧
      (i.reply.isCancel = true → s.cancelling = true) ∧
      Engine.step reg (cfgOf config) s.engine i = some (x, h') ∧ s' = { s with engine := x } ∧ o = .check h') ∨
    (∃ now w d l, e = .woken now w ∧ s.wakes config w = true ∧
      Scheduler.step config s.daemon (now, w) = some (d, l) ∧ s' = { s with daemon := d } ∧ o = .logged l) ∨
    (e = .cancel ∧ s.cancelling = false ∧ s' = { s with cancelling := true } ∧ o = .cancelRequested) := by
  cases e with
  | check i =>
    simp only [step] at h
    split at h
    next hc =>
      obtain ⟨⟨x, h'⟩, hs, he⟩ := Option.map_eq_some_iff.1 h
      cases he
      simp only [awaited, Bool.and_eq_true, beq_iff_eq, Bool.or_eq_true, Bool.not_eq_true'] at hc
      refine .inl ⟨i, x, h', rfl, hc.1.1, hc.1.2, fun hi => ?_, hs, rfl, rfl⟩
      rcases hc.2 with hn | hy
      · rw [hi] at hn
        cases hn
      · exact hy
    next => cases h
  | woken now w =>
    simp only [step] at h
    split at h
    next hw =>
      obtain ⟨⟨d, l⟩, hs, he⟩ := Option.map_eq_some_iff.1 h
      cases he
      exact .inr (.inl ⟨now, w, d, l, rfl, hw, hs, rfl, rfl⟩)
    next => cases h
  | cancel =>
    simp only [step] at h
    split at h <;> cases h
    next hc => exact .inr (.inr ⟨rfl, Bool.eq_false_iff.2 hc, rfl, rfl⟩)

def Event.check? : Event → Option Input
  | .check i => some i
  | _ => none

def Seen.check? : Seen → Option Happened
  | .check o => some o
  | _ => none

/-- The executor's part. -/
theorem isPart_engine (reg : Registry) (config : AppConfig) :
    IsPart Service.engine Event.check? Seen.check? (step reg config) (Engine.step reg (cfgOf config)) := by
  refine ⟨fun s e s' o h he => ?_, fun s e s' o j h he => ?_⟩
  · rcases step_cases h with ⟨i, x, h', rfl, -⟩ | ⟨now, w, d, l, -, -, -, rfl, rfl⟩ | ⟨-, -, rfl, rfl⟩
    · cases he
    · exact ⟨rfl, rfl⟩
    · exact ⟨rfl, rfl⟩
  · rcases step_cases h with ⟨i, x, h', rfl, -, -, -, hs, rfl, rfl⟩ | ⟨now, w, d, l, rfl, -⟩ | ⟨rfl, -⟩
    · cases he
      exact ⟨h', hs, rfl⟩
    · cases he
    · cases he

end Steps

/-! ## Batch after batch -/

section Numbers

variable (config : AppConfig)

theorem batchOf_add_checkOf (t : ℕ) :
    batchOf config t * config.checks.length + (checkOf config t).val = t := by
  rw [mul_comm]
  exact Nat.div_add_mod t config.checks.length

theorem eq_of_batchOf_checkOf {t u : ℕ} (hb : batchOf config t = batchOf config u)
    (hc : checkOf config t = checkOf config u) : t = u := by
  rw [← batchOf_add_checkOf config t, ← batchOf_add_checkOf config u, hb, hc]

/-- The invocation for an entry in a batch. -/
def taskOf (i : Fin config.checks.length) (b : ℕ) : ℕ := b * config.checks.length + i.val

theorem batchOf_taskOf (i : Fin config.checks.length) (b : ℕ) : batchOf config (taskOf config i b) = b := by
  rw [batchOf, taskOf, mul_comm, Nat.mul_add_div (length_checks_pos config), Nat.div_eq_of_lt i.isLt, Nat.add_zero]

theorem checkOf_taskOf (i : Fin config.checks.length) (b : ℕ) : checkOf config (taskOf config i b) = i := by
  refine Fin.ext ?_
  show (b * config.checks.length + i.val) % config.checks.length = i.val
  rw [Nat.mul_comm, Nat.mul_add_mod]
  exact Nat.mod_eq_of_lt i.isLt

end Numbers

section Batched

variable {reg : Registry} {config : AppConfig} {s s' : Service}

/-- Every invocation of the batches begun is finished. -/
def Through (config : AppConfig) (s : Service) : Prop :=
  ∀ t, batchOf config t < s.daemon.starts.length → (s.engine.point t).isFinished = true

/-- The batches come one after another. -/
structure Batched (config : AppConfig) (s : Service) : Prop where
  begun : 0 < s.daemon.starts.length
  past : ∀ t, batchOf config t + 1 < s.daemon.starts.length → (s.engine.point t).isFinished = true
  future : ∀ t, s.daemon.starts.length ≤ batchOf config t → s.engine.point t = .queued
  between : s.daemon.phase.isBatch = false → s.Through config

theorem gathered_iff : s.gathered config = true ↔
    ∀ t, batchOf config t = s.daemon.starts.length - 1 → (s.engine.point t).isFinished = true := by
  simp only [gathered, List.all_eq_true, List.mem_range]
  constructor
  · intro h t ht
    have hk := h (checkOf config t).val (checkOf config t).isLt
    rwa [← ht, batchOf_add_checkOf] at hk
  · intro h k hk
    exact h _ (batchOf_taskOf config ⟨k, hk⟩ _)

theorem Batched.through (h : Batched config s) (hg : s.gathered config = true) : s.Through config := by
  intro t ht
  by_cases hlast : batchOf config t = s.daemon.starts.length - 1
  · exact gathered_iff.1 hg t hlast
  · have hbegun := h.begun
    exact h.past t (by omega)

theorem Batched.nextCycle (h : Batched config s) (hth : s.Through config) (now : Time) :
    Batched config { s with daemon := Scheduler.nextCycle config s.daemon now } := by
  unfold Scheduler.nextCycle
  split
  · refine ⟨by simp, fun t ht => hth t ?_, fun t ht => h.future t ?_, fun hb => by cases hb⟩
    · simpa using ht
    · simp only [List.length_append, List.length_singleton] at ht
      omega
  · exact ⟨h.begun, h.past, h.future, fun _ => hth⟩

theorem batched_start (t₀ : Time) : Batched config (start config t₀) := by
  refine ⟨by simp [start, Scheduler.runDaemon, Scheduler.nextCycle], fun t ht => ?_, fun t _ => rfl, fun hb => ?_⟩
  · simp [start, Scheduler.runDaemon, Scheduler.nextCycle] at ht
  · cases hb

theorem Batched.step (h : Batched config s) {e : Event} {o : Seen} (hs : Service.step reg config s e = some (s', o)) :
    Batched config s' := by
  rcases step_cases hs with ⟨i, x, o', -, hphase, hcur, -, hx, rfl, -⟩ | ⟨now, w, d, l, -, hw, hd, rfl, -⟩ |
    ⟨-, -, rfl, -⟩
  -- A step of the batch awaited touches no other batch.
  · obtain ⟨-, -, -, hother, -⟩ := Engine.step_resumes hx
    refine ⟨h.begun, fun t ht => ?_, fun t ht => ?_, fun hb => ?_⟩
    · have hne : t ≠ i.task := by
        rintro rfl
        exact absurd ht (by simp [hcur])
      rw [show x.point t = s.engine.point t from hother t hne]
      exact h.past t ht
    · have hne : t ≠ i.task := by
        rintro rfl
        have : s.daemon.starts.length ≤ batchOf config i.task := ht
        omega
      rw [show x.point t = s.engine.point t from hother t hne]
      exact h.future t ht
    · rw [show s.daemon.phase.isBatch = false from hb] at hphase
      cases hphase
  · rcases Scheduler.step_cases config hd with ⟨t, hp, rfl, -, rfl⟩ | ⟨t, hp, rfl, -, rfl⟩ | ⟨t, τ, hp, rfl, rfl⟩ |
      ⟨rfl, rfl⟩
    · simp only [wakes, Bool.and_eq_true] at hw
      exact ⟨h.begun, h.past, h.future, fun _ => h.through hw.2⟩
    · simp only [wakes, Bool.and_eq_true] at hw
      exact h.nextCycle (h.through hw.2) now
    · exact h.nextCycle (h.between (by rw [hp]; rfl)) now
    · refine ⟨h.begun, h.past, h.future, fun _ => ?_⟩
      simp only [wakes, Bool.and_eq_true, Bool.or_eq_true, Bool.not_eq_true'] at hw
      rcases hw.2 with hb | hg
      · exact h.between hb
      · exact h.through hg
  · exact ⟨h.begun, h.past, h.future, h.between⟩

theorem batched_run {t₀ : Time} {es : List Event} {log : List Seen}
    (h : run (Service.step reg config) (start config t₀) es = some (s, log)) : Batched config s :=
  run_invariant (fun _ _ _ _ hI hs => Batched.step hI hs) (batched_start t₀) h

theorem Batched.at_rest (h : Batched config s) (hth : s.Through config) (t : ℕ) :
    s.engine.point t = .queued ∨ (s.engine.point t).isFinished = true := by
  by_cases ht : batchOf config t < s.daemon.starts.length
  · exact .inr (hth t ht)
  · exact .inl (h.future t (not_lt.1 ht))

/-- An invocation that is under way belongs to the batch that is. -/
theorem Batched.current (h : Batched config s) {t : ℕ} (ht : (s.engine.point t).frame?.isSome = true) :
    batchOf config t + 1 = s.daemon.starts.length := by
  by_contra hne
  by_cases hlt : batchOf config t + 1 < s.daemon.starts.length
  · rw [Point.frame_of_isFinished (h.past t hlt)] at ht
    cases ht
  · rw [h.future t (by omega)] at ht
    cases ht

end Batched

/-! ## Executions of an entry -/

/-- The executions of an entry in a batch that are finished. -/
def finishedIn (config : AppConfig) (s : Service) (i : Fin config.checks.length) (b : ℕ) : Finset ℕ :=
  s.engine.tasks.keys.toFinset.filter fun t =>
    checkOf config t = i ∧ batchOf config t = b ∧ (s.engine.point t).isFinished = true

/-- Every permit is free: those of the executor, and those of each check's object. -/
def AllFree (config : AppConfig) (s : Service) (log : List Seen) : Prop :=
  s.engine.executor.semaphore = config.executor.semaphore ∧
    ∀ id, s.engine.freeInflight id = maxInflight (cfgOf config) id (log.filterMap Seen.check?)

section Executions

variable {reg : Registry} {config : AppConfig} {s : Service} {t₀ : Time} {es : List Event} {log : List Seen}

theorem mem_finishedIn {i : Fin config.checks.length} {b t : ℕ} :
    t ∈ finishedIn config s i b ↔ t = taskOf config i b ∧ (s.engine.point t).isFinished = true := by
  simp only [finishedIn, Finset.mem_filter, List.mem_toFinset]
  constructor
  · rintro ⟨-, rfl, rfl, hfin⟩
    exact ⟨(batchOf_add_checkOf config t).symm, hfin⟩
  · rintro ⟨rfl, hfin⟩
    refine ⟨Engine.mem_keys_of_ne_queued fun hq => ?_, checkOf_taskOf config i b, batchOf_taskOf config i b, hfin⟩
    rw [hq] at hfin
    cases hfin

/-- A batch has one invocation for an entry. -/
theorem card_finishedIn_le (i : Fin config.checks.length) (b : ℕ) : (finishedIn config s i b).card ≤ 1 :=
  Finset.card_le_one_iff.2 fun ht hu => (mem_finishedIn.1 ht).1.trans (mem_finishedIn.1 hu).1.symm

theorem card_finishedIn {i : Fin config.checks.length} {b : ℕ}
    (h : (s.engine.point (taskOf config i b)).isFinished = true) : (finishedIn config s i b).card = 1 :=
  le_antisymm (card_finishedIn_le i b) (Finset.card_pos.2 ⟨_, mem_finishedIn.2 ⟨rfl, h⟩⟩)

/-- Where every invocation begun is finished, every permit is free. -/
theorem allFree_of_through (h : run (Service.step reg config) (start config t₀) es = some (s, log))
    (hth : s.Through config) : AllFree config s log := by
  refine free_of_idle rfl ((isPart_engine reg config).run h) fun t => ?_
  rcases (batched_run h).at_rest hth t with hq | hfin
  · rw [hq]
    rfl
  · exact Point.frame_of_isFinished hfin

/-- **One execution of each check in each batch.** In every state a daemon
run reaches, whatever its batches take and however their checks interleave:
no two executions of an entry are under way at once; in every batch before
the latest each entry has had exactly one execution come to its end, in the
latest at most one, and in a later one none has begun; and between batches
exactly one in the latest as well, with every permit free. -/
theorem executions_once (h : run (Service.step reg config) (start config t₀) es = some (s, log)) :
    (∀ t u, (s.engine.point t).frame?.isSome = true → (s.engine.point u).frame?.isSome = true →
      checkOf config t = checkOf config u → t = u) ∧
    (∀ i b, b + 1 < s.daemon.starts.length → (finishedIn config s i b).card = 1) ∧
    (∀ i b, (finishedIn config s i b).card ≤ 1) ∧
    (∀ i b, s.daemon.starts.length ≤ b → s.engine.point (taskOf config i b) = .queued) ∧
    (s.daemon.phase.isBatch = false →
      (∀ i b, b < s.daemon.starts.length → (finishedIn config s i b).card = 1) ∧ AllFree config s log) := by
  have hB := batched_run h
  refine ⟨fun t u ht hu hc => ?_, fun i b hb => card_finishedIn (hB.past _ ?_), card_finishedIn_le,
    fun i b hb => hB.future _ ?_, fun hbetween => ⟨fun i b hb => card_finishedIn (hB.between hbetween _ ?_),
      allFree_of_through h (hB.between hbetween)⟩⟩
  · have hcur := hB.current ht
    rw [← hB.current hu] at hcur
    exact eq_of_batchOf_checkOf config (Nat.succ_injective hcur) hc
  all_goals rwa [batchOf_taskOf]

end Executions

/-- A service of one check. -/
def oneCheck : AppConfig := plainConfig (plainCheck "orders") []

/-- A batch whose only check fails to fetch, and the sleep after it. -/
def oneBatch : List Event :=
  [.check ⟨0, ⟨0, 0⟩, .granted⟩, .check ⟨0, ⟨0, 0⟩, .granted⟩,
    .check ⟨0, ⟨1, 1⟩, .fetched (.error (valueError "no route"))⟩, .woken 2 .batchDone]

theorem executions_once_oneBatch :
    ∃ s log, run (Service.step .builtin oneCheck) (start oneCheck 0) oneBatch = some (s, log) ∧
      s.daemon.phase = .sleeping 2 58 ∧ (finishedIn oneCheck s ⟨0, by decide⟩ 0).card = 1 ∧
      AllFree oneCheck s log := by
  have h : (run (Service.step .builtin oneCheck) (start oneCheck 0) oneBatch).any
      (fun p => p.1.daemon.phase == .sleeping 2 58) = true := by decide +kernel
  obtain ⟨⟨s, log⟩, hs, hq⟩ := (Option.any_eq_true _ _).1 h
  have hp : s.daemon.phase = .sleeping 2 58 := by simpa using hq
  have hB := batched_run hs
  obtain ⟨honce, hfree⟩ := (executions_once hs).2.2.2.2 (by rw [hp]; rfl)
  exact ⟨s, log, hs, hp, honce _ 0 hB.begun, hfree⟩

end Service

end SentinelFlow
