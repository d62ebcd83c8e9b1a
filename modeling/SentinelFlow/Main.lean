/-
`src/main.py`: `async_main` from the admin server on, as a coroutine beside
the checks it has started. It awaits the admin server, the startup hooks, a
batch (`run_once`) or the shutdown signal and then `daemon_task`, the shutdown
hooks, and the clean-up of the admin server.

`run_once` is the first batch of a daemon that nobody wakes for a second one.
Of the hooks only that they return or raise is told, and an exception by its
text: what is logged of one can be printed. The registry's classes stand
still, and a type name means one class in it, so a hook is told by its kind
and name. Cancelling the main task (`cancelMain`) happens where no signal handler
could be installed; `asyncio.run` does it once.
-/
import SentinelFlow.Config.Dump
import SentinelFlow.Engine.Stopping

namespace SentinelFlow

open Machine

/-! ## `runtime/readiness.py` -/

/-- `Readiness`, without its lock. -/
structure Readiness where
  isReady : Bool := false
  reason : String := "Initializing"
  deriving DecidableEq, Repr

namespace Readiness

/-- `set_ready`. -/
def setReady (_ : Readiness) : Readiness := { isReady := true, reason := "" }

/-- `set_not_ready`. -/
def setNotReady (_ : Readiness) (reason : String) : Readiness := { isReady := false, reason := reason }

/-- `snapshot`: `ready`, and `reason`. -/
def snapshot (r : Readiness) : Bool × Option String := (r.isReady, if r.isReady then none else some r.reason)

/-- The status of `/readyz` (`runtime/admin_server.py`). -/
def readyz (r : Readiness) : ℕ := if r.snapshot.1 then 200 else 503

end Readiness

/-! ## The hooks of a configuration -/

/-- An ingestor or a handler whose `startup` or `shutdown` is called. -/
abbrev Hook := Kind × String

/-- What `Executor.startup` and `Executor.shutdown` find in a list of checks. -/
def hooksOf : List PyVal → List Hook
  | [] => []
  | .dict chk :: rest =>
    (typedEntry (.dict (dictAt chk "ingestor"))).toList.map (fun e => (.ingestor, e.1)) ++
      (listAt chk "handlers").filterMap (fun h => (typedEntry h).map fun e => (.handler, e.1)) ++ hooksOf rest
  | _ :: rest => hooksOf rest

namespace AppConfig

/-- The hooks of a configuration, in the order they are called. -/
def hooks (config : AppConfig) : List Hook := hooksOf (config.checks.map fun c => .dict c.modelDump)

theorem hooks_eq (config : AppConfig) :
    config.hooks = config.checks.flatMap fun c =>
      (.ingestor, "http_api") :: c.handlers.map fun _ => (.handler, "slack_webhook") := by
  unfold hooks
  induction config.checks with
  | nil => rfl
  | cons c cs ih =>
    have hhandlers : (listAt c.modelDump "handlers").filterMap
        (fun h => (typedEntry h).map fun e => ((.handler, e.1) : Hook)) =
          c.handlers.map fun _ => (.handler, "slack_webhook") := by
      rw [listAt_handlers, List.filterMap_map]
      exact List.filterMap_eq_map_iff_forall_eq_some.2 fun h _ => rfl
    rw [List.map_cons, hooksOf, hhandlers, ih]
    rfl

end AppConfig

namespace Main

/-! ## The coroutine -/

/-- What `async_main` awaits. -/
inductive Await
  | startAdminServer
  /-- The startup hook at hand, and the list still to go through. -/
  | startup (hook : Hook) (todo : List Hook)
  | runOnce
  | shutdownEvent
  | daemonTask
  | shutdown (hook : Hook) (todo : List Hook)
  | cleanup
  | exited

/-- The checks at work: the batch of `run_once`, or `daemon_task`. -/
inductive Work
  | idle
  /-- `daemon_task`, before its first step. -/
  | created
  /-- Cancelled before its first step. -/
  | dropped
  | begun (s : Service)

/-- The state of `async_main`, with the checks beside it. -/
structure App where
  await : Await := .startAdminServer
  shutdownEvent : Bool := false
  readiness : Readiness := {}
  adminRunner : Bool := false
  work : Work := .idle

/-- A hook called, or the clean-up of the admin server. -/
inductive Call
  | startup (hook : Hook)
  | shutdown (hook : Hook)
  | cleanup
  deriving DecidableEq

/-- What happens to `async_main`, or beside it. -/
inductive Event
  /-- What `async_main` awaits is there; `r` is what a hook, or the admin server, gave. -/
  | resumed (now : Time) (r : Except String Unit)
  | cancelMain
  | signal
  /-- The first step of `daemon_task`. -/
  | begin (now : Time)
  /-- A step of the checks or of `run_daemon`. -/
  | service (e : Service.Event)

section App

variable (reg : Registry) (config : AppConfig)

/-- The registry has the hook's class, and the instance has the method. -/
def callable (hook : Hook) : Bool :=
  match reg.getInstance hook.1 hook.2 with
  | .ok (_, inst) => inst.bases.any (· != .evaluator)
  | .error _ => false

/-- The loop over the hooks, up to the next one that can be called. -/
def nextHook : List Hook → Option (Hook × List Hook)
  | [] => none
  | hook :: rest => if callable reg hook then some (hook, rest) else nextHook rest

/-- `await admin_runner.cleanup()`, and the end. -/
def afterHooks (a : App) : App × List Call :=
  if a.adminRunner then ({ a with await := .cleanup }, [.cleanup]) else ({ a with await := .exited }, [])

/-- `executor.shutdown`, from a place in its list. -/
def shutdownFrom (a : App) (todo : List Hook) : App × List Call :=
  match nextHook reg todo with
  | some (hook, rest) => ({ a with await := .shutdown hook rest }, [.shutdown hook])
  | none => afterHooks a

/-- `daemon_task.cancel()`. -/
def cancelDaemon : Work → Work
  | .created => .dropped
  | .begun s => .begun { s with cancelling := true }
  | w => w

/-- From the shutdown signal to `await daemon_task`. -/
def cancelling (a : App) : App :=
  { a with work := cancelDaemon a.work, readiness := a.readiness.setNotReady "Shutting down", await := .daemonTask }

/-- `readiness.set_ready()`, and what the scheduler mode asks for. `wait()`
does not suspend when the signal has come. -/
def ready (a : App) (now : Time) : App :=
  let a := { a with readiness := a.readiness.setReady }
  match config.globalConfig.schedulerMode with
  | .runOnce => { a with work := .begun (Service.start config now), await := .runOnce }
  | .daemon =>
    let a := { a with work := .created }
    if a.shutdownEvent then cancelling a else { a with await := .shutdownEvent }

/-- `executor.startup`, from a place in its list. -/
def startupFrom (a : App) (now : Time) (todo : List Hook) : App × List Call :=
  match nextHook reg todo with
  | some (hook, rest) => ({ a with await := .startup hook rest }, [.startup hook])
  | none => (ready config a now, [])

/-- What `async_main` awaits is done. -/
def done (a : App) : Bool :=
  match a.await, a.work with
  | .runOnce, .begun s => s.gathered config
  | .shutdownEvent, _ => a.shutdownEvent
  | .daemonTask, .dropped => true
  | .daemonTask, .begun s => s.daemon.phase == .stopped
  | .startAdminServer, _ | .startup _ _, _ | .shutdown _ _, _ | .cleanup, _ => true
  | _, _ => false

/-- `async_main`, from one suspension to the next. -/
def resume (a : App) (now : Time) (r : Except String Unit) : App × List Call :=
  match a.await with
  | .startAdminServer => startupFrom reg config { a with adminRunner := r.isOk } now config.hooks
  | .startup _ todo => startupFrom reg config a now todo
  | .runOnce => shutdownFrom reg a config.hooks
  | .shutdownEvent => (cancelling a, [])
  | .daemonTask => shutdownFrom reg a config.hooks
  | .shutdown _ todo => shutdownFrom reg a todo
  | .cleanup | .exited => ({ a with await := .exited }, [])

/-- `CancelledError` into `async_main`. `gather` passes it on first, and
`daemon_task` is cancelled already. -/
def cancelMain (a : App) : App × List Call :=
  match a.await with
  | .startup _ _ | .shutdownEvent => shutdownFrom reg a config.hooks
  | .runOnce => ({ a with work := cancelDaemon a.work }, [])
  | .daemonTask => (a, [])
  | .startAdminServer | .shutdown _ _ | .cleanup | .exited => ({ a with await := .exited }, [])

/-- The steps beside `async_main`: `run_once` has nobody to wake. -/
def serves : Service.Event → Bool
  | .check _ => true
  | .woken _ _ => config.globalConfig.schedulerMode == .daemon
  | .cancel => false

/-- One event. -/
def step (a : App) : Event → Option (App × List Call)
  | .resumed now r => if done config a then some (resume reg config a now r) else none
  | .cancelMain => some (cancelMain reg config a)
  | .signal => match a.await with
    | .startAdminServer => none
    | _ => some ({ a with shutdownEvent := true }, [])
  | .begin now => match a.work with
    | .created => some ({ a with work := .begun (Service.start config now) }, [])
    | _ => none
  | .service e => match a.work with
    | .begun s =>
      if serves config e then (Service.step reg config s e).map fun p => ({ a with work := .begun p.1 }, []) else none
    | _ => none

end App

def Event.isCancelMain : Event → Bool
  | .cancelMain => true
  | _ => false

/-- The shutdown hooks are under way, or through. -/
def Await.isLate : Await → Bool
  | .shutdown _ _ | .cleanup | .exited => true
  | _ => false

/-! ## What a run keeps -/

section Orderly

variable {reg : Registry} {config : AppConfig} {a a' : App}

/-- The state of a service that was begun. -/
def Served (reg : Registry) (config : AppConfig) (s : Service) : Prop :=
  ∃ t₀ es log, run (Service.step reg config) (Service.start config t₀) es = some (s, log)

theorem served_start (t₀ : Time) : Served reg config (Service.start config t₀) := ⟨t₀, [], [], rfl⟩

theorem Served.step {s s' : Service} {e : Service.Event} {o : Service.Seen} (h : Served reg config s)
    (hs : Service.step reg config s e = some (s', o)) : Served reg config s' := by
  obtain ⟨t₀, es, log, hr⟩ := h
  exact ⟨t₀, es ++ [e], log ++ [o], run_concat.2 ⟨s, log, o, hr, hs, rfl⟩⟩

theorem Served.cancelling {s : Service} (h : Served reg config s) :
    Served reg config { s with cancelling := true } := by
  by_cases hc : s.cancelling = true
  · rw [← hc]
    exact h
  · exact h.step (e := .cancel) (o := .cancelRequested) (if_neg hc)

theorem Served.batched {s : Service} (h : Served reg config s) : Service.Batched config s := by
  obtain ⟨t₀, es, log, hr⟩ := h
  exact Service.batched_run hr

/-- Nothing is under way, and nothing follows. -/
structure AtRest (config : AppConfig) (s : Service) : Prop where
  through : s.Through config
  stopped : config.globalConfig.schedulerMode = .daemon → s.daemon.phase = .stopped

theorem AtRest.step_eq_none {s : Service} (h : AtRest config s) {e : Service.Event} (he : serves config e = true) :
    Service.step reg config s e = none := by
  rw [Option.eq_none_iff_forall_ne_some]
  intro ⟨s', o⟩ hs
  rcases Service.step_cases hs with ⟨i, x, o', -, -, hcur, -, hx, -⟩ | ⟨now, w, d, l, rfl, -, hd, -⟩ | ⟨rfl, -⟩
  · have hfin := h.through i.task (by omega)
    obtain ⟨hr, -⟩ := Engine.step_resumes hx
    have hlt := hr.stepsLeft_lt
    cases hp : s.engine.point i.task with
    | finished => rw [hp] at hlt; exact Nat.not_lt_zero _ hlt
    | queued | waiting | running => rw [hp] at hfin; cases hfin
  · have hmode : config.globalConfig.schedulerMode = .daemon := by simpa [serves] using he
    have hnone : Scheduler.step config s.daemon (now, w) = none := by
      cases w <;> simp [Scheduler.step, h.stopped hmode]
    rw [hnone] at hd
    cases hd
  · cases he

/-- Where the checks are while `async_main` awaits something. -/
def Orderly (reg : Registry) (config : AppConfig) (a : App) : Prop :=
  (∀ s, a.work = .begun s → Served reg config s) ∧
  match a.await with
  | .startAdminServer | .startup _ _ => a.work = .idle ∧ a.readiness.isReady = false
  | .runOnce => config.globalConfig.schedulerMode = .runOnce ∧ (∃ s, a.work = .begun s) ∧ a.readiness.isReady = true
  | .shutdownEvent => config.globalConfig.schedulerMode = .daemon ∧ (a.work = .created ∨ ∃ s, a.work = .begun s) ∧
      a.readiness.isReady = true
  | .daemonTask => config.globalConfig.schedulerMode = .daemon ∧
      (a.work = .dropped ∨ ∃ s, a.work = .begun s ∧ s.cancelling = true) ∧ a.readiness.isReady = false
  | .shutdown _ _ | .cleanup | .exited =>
      (a.work = .dropped ∨ ∃ s, a.work = .begun s ∧ AtRest config s) ∧
        (a.readiness.isReady = true ↔ config.globalConfig.schedulerMode = .runOnce)

/-- The list of hooks only moves `async_main` on. -/
theorem shutdownFrom_late (a : App) (todo : List Hook) :
    ∃ w, (shutdownFrom reg a todo).1 = { a with await := w } ∧ w.isLate = true := by
  unfold shutdownFrom
  split
  next hook rest _ => exact ⟨.shutdown hook rest, rfl, rfl⟩
  next =>
    unfold afterHooks
    split
    · exact ⟨.cleanup, rfl, rfl⟩
    · exact ⟨.exited, rfl, rfl⟩

theorem orderly_late (hs : ∀ s, a.work = .begun s → Served reg config s)
    (hrest : a.work = .dropped ∨ ∃ s, a.work = .begun s ∧ AtRest config s)
    (hready : a.readiness.isReady = true ↔ config.globalConfig.schedulerMode = .runOnce) (todo : List Hook) :
    Orderly reg config (shutdownFrom reg a todo).1 := by
  obtain ⟨w, hw, hlate⟩ := @shutdownFrom_late reg a todo
  rw [hw]
  cases w with
  | shutdown | cleanup | exited => exact ⟨hs, hrest, hready⟩
  | startAdminServer | startup | runOnce | shutdownEvent | daemonTask => cases hlate

theorem orderly_cancelling (hmode : config.globalConfig.schedulerMode = .daemon)
    (hs : ∀ s, a.work = .begun s → Served reg config s) (hwork : a.work = .created ∨ ∃ s, a.work = .begun s) :
    Orderly reg config (cancelling a) := by
  rcases hwork with hw | ⟨s, hw⟩
  · refine ⟨fun s hb => ?_, hmode, .inl ?_, rfl⟩
    · simp [cancelling, hw, cancelDaemon] at hb
    · simp [cancelling, hw, cancelDaemon]
  · refine ⟨fun s' hb => ?_, hmode, .inr ⟨{ s with cancelling := true }, ?_, rfl⟩, rfl⟩
    · simp only [cancelling, hw, cancelDaemon, Work.begun.injEq] at hb
      rw [← hb]
      exact (hs s hw).cancelling
    · simp [cancelling, hw, cancelDaemon]

theorem orderly_startupFrom (hwork : a.work = .idle) (hready : a.readiness.isReady = false) (now : Time)
    (todo : List Hook) : Orderly reg config (startupFrom reg config a now todo).1 := by
  unfold startupFrom
  split
  next hook rest _ =>
    refine ⟨fun s hb => ?_, hwork, hready⟩
    rw [show a.work = .begun s from hb] at hwork
    cases hwork
  next =>
    dsimp only
    unfold ready
    cases hmode : config.globalConfig.schedulerMode with
    | runOnce =>
      refine ⟨fun s hb => ?_, hmode, ⟨_, rfl⟩, rfl⟩
      cases hb
      exact served_start now
    | daemon =>
      dsimp only
      split
      · exact orderly_cancelling hmode (fun s hb => (by cases hb)) (.inl rfl)
      · exact ⟨fun s hb => (by cases hb), hmode, .inl rfl, rfl⟩

theorem Orderly.resume (h : Orderly reg config a) (hdone : done config a = true) (now : Time) (r : Except String Unit) :
    Orderly reg config (resume reg config a now r).1 := by
  obtain ⟨hs, hat⟩ := h
  unfold Main.resume
  cases hw : a.await with
  | startAdminServer =>
    rw [hw] at hat
    exact @orderly_startupFrom reg config { a with adminRunner := r.isOk } hat.1 hat.2 now _
  | startup hook todo =>
    rw [hw] at hat
    exact orderly_startupFrom hat.1 hat.2 now todo
  | runOnce =>
    rw [hw] at hat
    obtain ⟨hmode, ⟨s, hwork⟩, hready⟩ := hat
    have hg : s.gathered config = true := by simpa [done, hw, hwork] using hdone
    have hrest : AtRest config s :=
      ⟨(hs s hwork).batched.through hg, fun hd => by rw [hmode] at hd; cases hd⟩
    exact orderly_late hs (.inr ⟨s, hwork, hrest⟩) (by simp [hready, hmode]) _
  | shutdownEvent =>
    rw [hw] at hat
    exact orderly_cancelling hat.1 hs hat.2.1
  | daemonTask =>
    rw [hw] at hat
    obtain ⟨hmode, hwork, hready⟩ := hat
    refine orderly_late hs ?_ (by simp [hready, hmode]) _
    rcases hwork with hwork | ⟨s, hwork, -⟩
    · exact .inl hwork
    · have hp : s.daemon.phase = .stopped := by simpa [done, hw, hwork] using hdone
      exact .inr ⟨s, hwork, (hs s hwork).batched.between (by rw [hp]; rfl), fun _ => hp⟩
  | shutdown hook todo =>
    rw [hw] at hat
    exact orderly_late hs hat.1 hat.2 todo
  | cleanup | exited =>
    rw [hw] at hat
    exact ⟨hs, hat⟩

theorem Orderly.step {e : Event} {o : List Call} (h : Orderly reg config a) (he : e.isCancelMain = false)
    (hs : Main.step reg config a e = some (a', o)) : Orderly reg config a' := by
  cases e with
  | cancelMain => cases he
  | resumed now r =>
    simp only [Main.step] at hs
    split at hs
    next hdone =>
      have ha : (Main.resume reg config a now r).1 = a' := congrArg Prod.fst (Option.some.inj hs)
      rw [← ha]
      exact h.resume hdone now r
    next => cases hs
  | signal =>
    simp only [Main.step] at hs
    split at hs <;> cases hs
    exact h
  | begin now =>
    simp only [Main.step] at hs
    split at hs <;> cases hs
    next hwork =>
      obtain ⟨-, hat⟩ := h
      refine ⟨fun s hb => ?_, ?_⟩
      · cases hb
        exact served_start now
      · -- Only before the signal is a task created.
        cases hw : a.await <;> rw [hw, hwork] at hat
        case shutdownEvent => exact ⟨hat.1, .inr ⟨_, rfl⟩, hat.2.2⟩
        all_goals simp at hat
  | service e =>
    simp only [Main.step] at hs
    split at hs
    next s hwork =>
      split at hs
      next hserves =>
        obtain ⟨⟨s', o'⟩, hst, hp⟩ := Option.map_eq_some_iff.1 hs
        cases hp
        obtain ⟨hserved, hat⟩ := h
        refine ⟨fun t hb => ?_, ?_⟩
        · cases hb
          exact (hserved s hwork).step hst
        · have hnot : ¬AtRest config s := by
            intro hrest
            rw [hrest.step_eq_none hserves] at hst
            cases hst
          cases hw : a.await <;> rw [hw, hwork] at hat
          case runOnce => exact ⟨hat.1, ⟨s', rfl⟩, hat.2.2⟩
          case shutdownEvent => exact ⟨hat.1, .inr ⟨s', rfl⟩, hat.2.2⟩
          case daemonTask =>
            obtain ⟨hmode, hc, hready⟩ := hat
            refine ⟨hmode, .inr ⟨s', rfl, ?_⟩, hready⟩
            rcases hc with hc | ⟨t, ht, hc⟩
            · cases hc
            · cases ht
              exact (Service.step_cancelling hc hst).1
          all_goals
            simp at hat
            try exact absurd hat.1 hnot
      next => cases hs
    next => cases hs

theorem orderly_run {es : List Event} {log : List (List Call)} (hes : ∀ e ∈ es, e.isCancelMain = false)
    (h : run (Main.step reg config) {} es = some (a, log)) : Orderly reg config a := by
  revert hes
  refine run_induction (fun es _ a => (∀ e ∈ es, e.isCancelMain = false) → Orderly reg config a) ?_ ?_ h
  · exact fun _ => ⟨fun s hb => (by cases hb), rfl, rfl⟩
  · intro es log a e o a' _ hI hs hes
    exact (hI fun f hf => hes f (by simp [hf])).step (hes e (by simp)) hs

/-- **A quiet shutdown.** In every run in which the main task is not
cancelled, whatever the signals, the hooks and the checks do: from the first
shutdown hook on no check is under way, none can take a step and none can
begin, and every permit of both levels is free. -/
theorem quiet_shutdown {es : List Event} {log : List (List Call)} (hes : ∀ e ∈ es, e.isCancelMain = false)
    (h : run (Main.step reg config) {} es = some (a, log)) (hlate : a.await.isLate = true) :
    (∀ e, Main.step reg config a (.service e) = none) ∧ (∀ now, Main.step reg config a (.begin now) = none) ∧
    ∀ s, a.work = .begun s → (∀ t, s.engine.point t = .queued ∨ (s.engine.point t).isFinished = true) ∧
      ∃ t₀ fs served, run (Service.step reg config) (Service.start config t₀) fs = some (s, served) ∧
        Service.AllFree config s served := by
  obtain ⟨hserved, hat⟩ := orderly_run hes h
  have hrest : a.work = .dropped ∨ ∃ s, a.work = .begun s ∧ AtRest config s := by
    cases hw : a.await <;> rw [hw] at hat hlate <;> first | exact hat.1 | cases hlate
  rcases hrest with hwork | ⟨s, hwork, hs⟩
  · simp [Main.step, hwork]
  · refine ⟨fun e => ?_, fun now => by simp [Main.step, hwork], fun s' hb => ?_⟩
    · simp only [Main.step, hwork]
      split
      next he => rw [hs.step_eq_none he, Option.map_none]
      next => rfl
    · rw [hwork] at hb
      cases hb
      have hB := (hserved s hwork).batched
      obtain ⟨t₀, fs, served, hr⟩ := hserved s hwork
      exact ⟨hB.at_rest hs.through, t₀, fs, served, hr, Service.allFree_of_through hr hs.through⟩

end Orderly

/-- `run_once` with one check, which fails to fetch, up to its first shutdown hook. -/
def onceRun : List Event :=
  [.resumed 0 (.ok ()), .resumed 0 (.ok ()), .resumed 0 (.ok ()),
    .service (.check ⟨0, ⟨0, 0⟩, .granted⟩), .service (.check ⟨0, ⟨0, 0⟩, .granted⟩),
    .service (.check ⟨0, ⟨1, 1⟩, .fetched (.error (valueError "no route"))⟩), .resumed 1 (.ok ())]

theorem quiet_shutdown_onceRun :
    ∃ a log s, run (Main.step .builtin Service.oneCheck) {} onceRun = some (a, log) ∧ a.work = .begun s ∧
      (∀ e, Main.step .builtin Service.oneCheck a (.service e) = none) ∧ s.engine.executor.semaphore = 10 := by
  have h : (run (Main.step .builtin Service.oneCheck) {} onceRun).any (fun p =>
      p.1.await.isLate && match p.1.work with | .begun _ => true | _ => false) = true := by decide +kernel
  obtain ⟨⟨a, log⟩, ha, hq⟩ := (Option.any_eq_true _ _).1 h
  rw [Bool.and_eq_true] at hq
  obtain ⟨hlate, hw⟩ := hq
  have hquiet := quiet_shutdown (by decide) ha hlate
  cases hwork : a.work with
  | begun s =>
    obtain ⟨-, t₀, fs, served, -, hfree⟩ := hquiet.2.2 s hwork
    exact ⟨a, log, s, ha, hwork, hquiet.1, hfree.1⟩
  | idle | created | dropped => rw [hwork] at hw; cases hw

/-- The same service as a daemon. -/
def daemonMode : AppConfig :=
  { Service.oneCheck with globalConfig := { (default : GlobalConfig) with schedulerMode := .daemon } }

/-- Up to the first batch of a daemon. -/
def daemonRun : List Event :=
  [.resumed 0 (.ok ()), .resumed 0 (.ok ()), .resumed 0 (.ok ()), .begin 0, .service (.check ⟨0, ⟨0, 0⟩, .granted⟩)]

/-- A main task cancelled while it waits for the signal shuts the hooks down under a check. -/
example : (run (Main.step .builtin daemonMode) {} (daemonRun ++ [.cancelMain])).any (fun p =>
    p.1.await.isLate && match p.1.work with
      | .begun s => (s.engine.point 0).frame?.isSome
      | _ => false) = true := by decide +kernel

/-! ## The calls of a run -/

section Calls

variable (reg : Registry) (config : AppConfig)

/-- The hooks that are called. -/
def called : List Hook := config.hooks.filter (callable reg)

def cleanups (runner : Bool) : List Call := if runner then [.cleanup] else []

/-- Every hook's startup, in the order of the configuration, every hook's
shutdown in the same order, and the clean-up. -/
def plan (runner : Bool) : List Call :=
  (called reg config).map .startup ++ ((called reg config).map .shutdown ++ cleanups runner)

/-- The calls still to come. -/
def remaining (a : App) : List Call :=
  match a.await with
  | .startAdminServer => plan reg config a.adminRunner
  | .startup _ todo =>
    (todo.filter (callable reg)).map .startup ++ ((called reg config).map .shutdown ++ cleanups a.adminRunner)
  | .runOnce | .shutdownEvent | .daemonTask => (called reg config).map .shutdown ++ cleanups a.adminRunner
  | .shutdown _ todo => (todo.filter (callable reg)).map .shutdown ++ cleanups a.adminRunner
  | .cleanup | .exited => []

variable {reg config}

theorem nextHook_some {todo rest : List Hook} {hook : Hook} (h : nextHook reg todo = some (hook, rest)) :
    todo.filter (callable reg) = hook :: rest.filter (callable reg) ∧ rest.length < todo.length := by
  induction todo with
  | nil => cases h
  | cons x todo ih =>
    unfold nextHook at h
    split at h
    next hx =>
      cases h
      exact ⟨List.filter_cons_of_pos hx, Nat.lt_succ_self _⟩
    next hx =>
      obtain ⟨hf, hlt⟩ := ih h
      exact ⟨(List.filter_cons_of_neg hx).trans hf, Nat.lt_succ_of_lt hlt⟩

theorem nextHook_none {todo : List Hook} (h : nextHook reg todo = none) : todo.filter (callable reg) = [] := by
  induction todo with
  | nil => rfl
  | cons x todo ih =>
    unfold nextHook at h
    split at h
    next => cases h
    next hx => exact (List.filter_cons_of_neg hx).trans (ih h)

theorem shutdownFrom_calls (a : App) (todo : List Hook) :
    (shutdownFrom reg a todo).2 ++ remaining reg config (shutdownFrom reg a todo).1 =
      (todo.filter (callable reg)).map .shutdown ++ cleanups a.adminRunner := by
  unfold shutdownFrom
  split
  next hook rest hn =>
    rw [(nextHook_some hn).1]
    rfl
  next hn =>
    rw [nextHook_none hn]
    unfold afterHooks
    split
    next hr => simp [remaining, cleanups, hr]
    next hr => simp [remaining, cleanups, hr]

theorem startupFrom_calls (a : App) (now : Time) (todo : List Hook) :
    (startupFrom reg config a now todo).2 ++ remaining reg config (startupFrom reg config a now todo).1 =
      (todo.filter (callable reg)).map .startup ++
        ((called reg config).map .shutdown ++ cleanups a.adminRunner) := by
  unfold startupFrom
  split
  next hook rest hn =>
    rw [(nextHook_some hn).1]
    rfl
  next hn =>
    rw [nextHook_none hn]
    unfold ready
    dsimp only
    split
    · rfl
    · split <;> rfl

theorem resume_calls {a : App} (h : a.await ≠ .startAdminServer) (now : Time) (r : Except String Unit) :
    (resume reg config a now r).2 ++ remaining reg config (resume reg config a now r).1 =
      remaining reg config a := by
  unfold resume
  cases hw : a.await with
  | startAdminServer => exact absurd hw h
  | startup hook todo =>
    simp only [remaining, hw]
    exact startupFrom_calls a now todo
  | runOnce | daemonTask =>
    simp only [remaining, hw]
    exact shutdownFrom_calls a config.hooks
  | shutdownEvent =>
    simp only [remaining, hw]
    rfl
  | shutdown hook todo =>
    simp only [remaining, hw]
    exact shutdownFrom_calls a todo
  | cleanup | exited =>
    simp only [remaining, hw]
    rfl

theorem shutdownFrom_kept (a : App) (todo : List Hook) :
    (shutdownFrom reg a todo).1.adminRunner = a.adminRunner ∧ (shutdownFrom reg a todo).1.await ≠ .startAdminServer := by
  obtain ⟨w, hw, hlate⟩ := @shutdownFrom_late reg a todo
  rw [hw]
  refine ⟨rfl, fun h => ?_⟩
  rw [show w = .startAdminServer from h] at hlate
  cases hlate

theorem startupFrom_kept (a : App) (now : Time) (todo : List Hook) :
    (startupFrom reg config a now todo).1.adminRunner = a.adminRunner ∧
      (startupFrom reg config a now todo).1.await ≠ .startAdminServer := by
  unfold startupFrom
  split
  next => exact ⟨rfl, by simp⟩
  next =>
    unfold ready
    dsimp only
    split
    · exact ⟨rfl, by simp⟩
    · split
      · exact ⟨rfl, by simp [cancelling]⟩
      · exact ⟨rfl, by simp⟩

theorem resume_kept {a : App} (h : a.await ≠ .startAdminServer) (now : Time) (r : Except String Unit) :
    (resume reg config a now r).1.adminRunner = a.adminRunner ∧
      (resume reg config a now r).1.await ≠ .startAdminServer := by
  unfold resume
  cases hw : a.await with
  | startAdminServer => exact absurd hw h
  | startup hook todo => exact startupFrom_kept a now todo
  | runOnce | daemonTask => exact shutdownFrom_kept a config.hooks
  | shutdownEvent => exact ⟨rfl, by simp [cancelling]⟩
  | shutdown hook todo => exact shutdownFrom_kept a todo
  | cleanup | exited => exact ⟨rfl, by simp⟩

/-- A step beside `async_main` calls nothing. -/
theorem step_beside {a a' : App} {e : Event} {o : List Call} (he : e.isCancelMain = false)
    (hs : Main.step reg config a e = some (a', o)) :
    (∃ now r, e = .resumed now r ∧ done config a = true ∧ a' = (resume reg config a now r).1 ∧
      o = (resume reg config a now r).2) ∨
    (a'.await = a.await ∧ a'.adminRunner = a.adminRunner ∧ a'.readiness = a.readiness ∧ o = []) := by
  cases e with
  | cancelMain => cases he
  | resumed now r =>
    simp only [Main.step] at hs
    split at hs
    next hdone =>
      have hres := Option.some.inj hs
      exact .inl ⟨now, r, rfl, hdone, (congrArg Prod.fst hres).symm, (congrArg Prod.snd hres).symm⟩
    next => cases hs
  | signal | begin =>
    simp only [Main.step] at hs
    split at hs <;> cases hs
    exact .inr ⟨rfl, rfl, rfl, rfl⟩
  | service e =>
    simp only [Main.step] at hs
    split at hs
    next =>
      split at hs
      next =>
        obtain ⟨⟨s', o'⟩, -, hp⟩ := Option.map_eq_some_iff.1 hs
        cases hp
        exact .inr ⟨rfl, rfl, rfl, rfl⟩
      next => cases hs
    next => cases hs

/-- What was called, and what remains. -/
theorem calls_run {a : App} {es : List Event} {log : List (List Call)} (hes : ∀ e ∈ es, e.isCancelMain = false)
    (h : run (Main.step reg config) {} es = some (a, log)) :
    log.flatten ++ remaining reg config a = plan reg config a.adminRunner ∧
      (a.await = .startAdminServer → log.flatten = []) := by
  revert hes
  refine run_induction (fun es log a => (∀ e ∈ es, e.isCancelMain = false) →
    log.flatten ++ remaining reg config a = plan reg config a.adminRunner ∧
      (a.await = .startAdminServer → log.flatten = [])) (fun _ => ⟨rfl, fun _ => rfl⟩) ?_ h
  intro es log a e o a' _ hI hs hes
  obtain ⟨hplan, hnil⟩ := hI fun f hf => hes f (by simp [hf])
  rw [List.flatten_concat]
  rcases step_beside (hes e (by simp)) hs with ⟨now, r, rfl, -, rfl, rfl⟩ | ⟨hw, hr, -, rfl⟩
  · by_cases hw : a.await = .startAdminServer
    -- The first hooks: only now is it told whether there is a server to clean up.
    · have hstart : resume reg config a now r =
          startupFrom reg config { a with adminRunner := r.isOk } now config.hooks := by
        unfold resume
        rw [hw]
      obtain ⟨hrunner, hne⟩ := @startupFrom_kept reg config
        { a with adminRunner := r.isOk } now config.hooks
      rw [hstart, hnil hw, List.nil_append, startupFrom_calls, hrunner]
      exact ⟨rfl, fun h => absurd h hne⟩
    · obtain ⟨hrunner, hne⟩ := @resume_kept reg config _ hw now r
      rw [List.append_assoc, resume_calls hw, hrunner]
      exact ⟨hplan, fun h => absurd h hne⟩
  · have hsame : remaining reg config a' = remaining reg config a := by
      unfold remaining
      rw [hw, hr]
    rw [List.append_nil, hsame, hr, hw]
    exact ⟨hplan, hnil⟩

/-- `/readyz` answers 200 there. -/
def serving (config : AppConfig) : Await → Bool
  | .runOnce | .shutdownEvent => true
  | .shutdown _ _ | .cleanup | .exited => config.globalConfig.schedulerMode == .runOnce
  | .startAdminServer | .startup _ _ | .daemonTask => false

/-- **The life of the service.** In every run in which the main task is not
cancelled, whichever hooks raise and whenever a signal comes: what is called
is the plan, in its order, so far as the run got; all of it when
`async_main` returns. And `/readyz` answers 200 exactly from the last startup
hook to the shutdown signal, or in `run_once` mode to the end. -/
theorem lifecycle {a : App} {es : List Event} {log : List (List Call)} (hes : ∀ e ∈ es, e.isCancelMain = false)
    (h : run (Main.step reg config) {} es = some (a, log)) :
    log.flatten <+: plan reg config a.adminRunner ∧
    (a.await = .exited → log.flatten = plan reg config a.adminRunner) ∧
    a.readiness.readyz = if serving config a.await then 200 else 503 := by
  obtain ⟨hplan, -⟩ := calls_run hes h
  refine ⟨⟨_, hplan⟩, fun hw => ?_, ?_⟩
  · rw [← hplan]
    simp [remaining, hw]
  · obtain ⟨-, hat⟩ := orderly_run hes h
    have hready : a.readiness.isReady = serving config a.await := by
      cases hw : a.await <;> rw [hw] at hat
      case startAdminServer | startup => exact hat.2
      case runOnce | shutdownEvent | daemonTask => exact hat.2.2
      all_goals exact Bool.eq_iff_iff.2 (hat.2.trans beq_iff_eq.symm)
    rw [Readiness.readyz, Readiness.snapshot, hready]

/-- The built-in registry has every hook of an accepted configuration. -/
theorem called_builtin (config : AppConfig) : called .builtin config = config.hooks := by
  rw [called, List.filter_eq_self, AppConfig.hooks_eq]
  intro hook hh
  obtain ⟨c, -, hc⟩ := List.mem_flatMap.1 hh
  rcases List.mem_cons.1 hc with rfl | hc
  · rfl
  · obtain ⟨-, -, rfl⟩ := List.mem_map.1 hc
    rfl

/-- With the built-in classes no hook is left out. -/
theorem lifecycle_onceRun :
    ∃ a log, run (Main.step .builtin Service.oneCheck) {}
        (onceRun ++ [.resumed 1 (.error "no route"), .resumed 1 (.ok ()), .resumed 1 (.ok ())]) = some (a, log) ∧
      log.flatten = Service.oneCheck.hooks.map .startup ++
        (Service.oneCheck.hooks.map .shutdown ++ cleanups a.adminRunner) := by
  have h : (run (Main.step .builtin Service.oneCheck) {}
      (onceRun ++ [.resumed 1 (.error "no route"), .resumed 1 (.ok ()), .resumed 1 (.ok ())])).any (fun p =>
        match p.1.await with | .exited => true | _ => false) = true := by decide +kernel
  obtain ⟨⟨a, log⟩, ha, hq⟩ := (Option.any_eq_true _ _).1 h
  have hw : a.await = .exited := by
    cases hw : a.await <;> rw [hw] at hq <;> first | rfl | cases hq
  refine ⟨a, log, ha, ?_⟩
  rw [(lifecycle (by decide) ha).2.1 hw, plan, called_builtin]

end Calls

/-! ## The end -/

section End

variable {reg : Registry} {config : AppConfig} {a a' : App}

/-- `async_main` has taken the signal, or, as `run_once` has it, waits for none. -/
def Await.isPast : Await → Bool
  | .runOnce | .daemonTask => true
  | w => w.isLate

theorem Orderly.past (h : Orderly reg config a) (hpast : a.await.isPast = true) :
    a.work = .dropped ∨ ∃ s, a.work = .begun s ∧ Served reg config s ∧
      (s.cancelling = true ∨ AtRest config s ∨ config.globalConfig.schedulerMode = .runOnce) := by
  obtain ⟨hserved, hat⟩ := h
  cases hw : a.await <;> rw [hw] at hat
  case runOnce =>
    obtain ⟨hmode, ⟨s, hwork⟩, -⟩ := hat
    exact .inr ⟨s, hwork, hserved s hwork, .inr (.inr hmode)⟩
  case daemonTask =>
    rcases hat.2.1 with hwork | ⟨s, hwork, hc⟩
    · exact .inl hwork
    · exact .inr ⟨s, hwork, hserved s hwork, .inl hc⟩
  case shutdown | cleanup | exited =>
    rcases hat.1 with hwork | ⟨s, hwork, hs⟩
    · exact .inl hwork
    · exact .inr ⟨s, hwork, hserved s hwork, .inr (.inl hs)⟩
  all_goals
    rw [hw] at hpast
    cases hpast

/-- What `async_main` itself still does. -/
def mainLeft (config : AppConfig) (a : App) : ℕ :=
  match a.await with
  | .runOnce | .daemonTask => config.hooks.length + 2
  | .shutdown _ todo => todo.length + 2
  | .cleanup => 1
  | _ => 0

def workLeft (config : AppConfig) : Work → ℕ
  | .begun s => s.stepsLeft config
  | _ => 0

/-- A step that only time, the checks or the hooks can bring. -/
def Event.isSignal : Event → Bool
  | .signal => true
  | _ => false

theorem shutdownFrom_left (a : App) {todo : List Hook} {n : ℕ} (hn : todo.length ≤ n) :
    mainLeft config (shutdownFrom reg a todo).1 < n + 2 ∧ (shutdownFrom reg a todo).1.await.isLate = true := by
  unfold shutdownFrom
  split
  next hook rest h =>
    have hlt := (nextHook_some h).2
    exact ⟨show rest.length + 2 < n + 2 by omega, rfl⟩
  next =>
    unfold afterHooks
    split
    · exact ⟨show 1 < n + 2 by omega, rfl⟩
    · exact ⟨show 0 < n + 2 by omega, rfl⟩

theorem startupFrom_left (a : App) (now : Time) (todo : List Hook) :
    mainLeft config (startupFrom reg config a now todo).1 ≤ config.hooks.length + 2 := by
  unfold startupFrom
  split
  next => exact Nat.zero_le _
  next =>
    unfold ready
    dsimp only
    split
    · exact le_rfl
    · split
      · exact le_rfl
      · exact Nat.zero_le _

/-- What is left of `async_main` past the signal is no more than the list of hooks and the clean-up. -/
theorem mainLeft_le {es : List Event} {log : List (List Call)} (hes : ∀ e ∈ es, e.isCancelMain = false)
    (h : run (Main.step reg config) {} es = some (a, log)) (hpast : a.await.isPast = true) :
    mainLeft config a ≤ config.hooks.length + 2 := by
  revert hes hpast
  refine run_induction (fun es log a => (∀ e ∈ es, e.isCancelMain = false) → a.await.isPast = true →
    mainLeft config a ≤ config.hooks.length + 2) (fun _ hp => by cases hp) ?_ h
  intro es log a e o a' hr hI hs hes hpast
  rcases step_beside (hes e (by simp)) hs with ⟨now, r, rfl, -, rfl, -⟩ | ⟨hw, -, -, -⟩
  · have hlast : ∀ {todo : List Hook}, todo.length ≤ config.hooks.length →
        mainLeft config (shutdownFrom reg a todo).1 ≤ config.hooks.length + 2 :=
      fun hn => (shutdownFrom_left a hn).1.le
    unfold resume
    cases hw : a.await with
    | startAdminServer | startup => exact startupFrom_left _ _ _
    | runOnce | daemonTask => exact hlast le_rfl
    | shutdownEvent => exact le_rfl
    | shutdown hook todo =>
      have hleft := hI (fun f hf => hes f (by simp [hf])) (by rw [hw]; rfl)
      simp only [mainLeft, hw] at hleft
      exact hlast (by omega)
    | cleanup | exited => exact Nat.zero_le _
  · have hsame : mainLeft config a' = mainLeft config a := by
      unfold mainLeft
      rw [hw]
    rw [hsame]
    exact hI (fun f hf => hes f (by simp [hf])) (hw ▸ hpast)

/-- Past the signal the checks take the steps of one batch, and the daemon its cancellation. -/
theorem stepsLeft_service {s s' : Service} {e : Service.Event} {o : Service.Seen}
    (hhow : s.cancelling = true ∨ AtRest config s ∨ config.globalConfig.schedulerMode = .runOnce)
    (he : serves config e = true) (hs : Service.step reg config s e = some (s', o)) :
    s'.stepsLeft config < s.stepsLeft config := by
  rcases hhow with hc | hrest | hmode
  · exact (Service.step_cancelling hc hs).2.2
  · rw [hrest.step_eq_none he] at hs
    cases hs
  · cases e with
    | check i => exact (Service.step_check hs).2.2
    | woken now w => simp [serves, hmode] at he
    | cancel => cases he

/-- Past the signal every step is one of the last. -/
theorem step_left {e : Event} {o : List Call} (hI : Orderly reg config a) (hpast : a.await.isPast = true)
    (he : e.isCancelMain = false ∧ e.isSignal = false) (hs : Main.step reg config a e = some (a', o)) :
    a'.await.isPast = true ∧
      mainLeft config a' + workLeft config a'.work < mainLeft config a + workLeft config a.work := by
  have hbegun := hI.past hpast
  cases e with
  | cancelMain => cases he.1
  | signal => cases he.2
  | begin now =>
    simp only [Main.step] at hs
    split at hs <;> cases hs
    next hwork =>
      rw [hwork] at hbegun
      simp at hbegun
  | resumed now r =>
    simp only [Main.step] at hs
    split at hs
    next hdone =>
      have ha : (resume reg config a now r).1 = a' := congrArg Prod.fst (Option.some.inj hs)
      have hlater : ∀ {todo : List Hook} {n : ℕ}, todo.length ≤ n → (shutdownFrom reg a todo).1 = a' →
          a'.await.isPast = true ∧ mainLeft config a' + workLeft config a'.work < n + 2 + workLeft config a.work := by
        intro todo n hn ha
        obtain ⟨hlt, hlate⟩ := @shutdownFrom_left reg config a todo n hn
        obtain ⟨w, hw, -⟩ := @shutdownFrom_late reg a todo
        rw [← ha]
        refine ⟨?_, ?_⟩
        · cases hw' : (shutdownFrom reg a todo).1.await <;> rw [hw'] at hlate <;> first | rfl | cases hlate
        · have hwork : (shutdownFrom reg a todo).1.work = a.work := by rw [hw]
          rw [hwork]
          omega
      unfold resume at ha
      cases hw : a.await with
      | runOnce | daemonTask =>
        rw [hw] at ha
        have hleft : mainLeft config a = config.hooks.length + 2 := by simp [mainLeft, hw]
        rw [hleft]
        exact hlater le_rfl ha
      | shutdown hook todo =>
        rw [hw] at ha
        have hleft : mainLeft config a = todo.length + 2 := by simp [mainLeft, hw]
        rw [hleft]
        exact hlater le_rfl ha
      | cleanup =>
        rw [hw] at ha
        have hleft : mainLeft config a = 1 := by simp [mainLeft, hw]
        rw [hleft, ← ha]
        exact ⟨rfl, by simp [mainLeft]⟩
      | exited => simp [done, hw] at hdone
      | startAdminServer | startup | shutdownEvent => rw [hw] at hpast; cases hpast
    next => cases hs
  | service e =>
    simp only [Main.step] at hs
    split at hs
    next s hwork =>
      split at hs
      next hserves =>
        obtain ⟨⟨s', o'⟩, hst, hp⟩ := Option.map_eq_some_iff.1 hs
        cases hp
        refine ⟨hpast, Nat.add_lt_add_left ?_ _⟩
        rw [hwork] at hbegun ⊢
        rcases hbegun with hd | ⟨t, ht, -, hhow⟩
        · cases hd
        · cases ht
          exact stepsLeft_service hhow hserves hst
      next => cases hs
    next => cases hs

/-- Past the signal and before the end, something can be done. -/
theorem exists_step (hI : Orderly reg config a) (hpast : a.await.isPast = true) (hne : a.await ≠ .exited) :
    ∃ e a' o, (e.isCancelMain = false ∧ e.isSignal = false) ∧ Main.step reg config a e = some (a', o) := by
  have hresume : done config a = true → ∃ e a' o, (e.isCancelMain = false ∧ e.isSignal = false) ∧
      Main.step reg config a e = some (a', o) :=
    fun hd => ⟨.resumed 0 (.ok ()), _, _, ⟨rfl, rfl⟩, if_pos hd⟩
  have hserve : ∀ {s : Service}, a.work = .begun s → ∀ e, serves config e = true →
      (Service.step reg config s e).isSome = true →
        ∃ e a' o, (e.isCancelMain = false ∧ e.isSignal = false) ∧ Main.step reg config a e = some (a', o) := by
    intro s hwork e he hsome
    obtain ⟨⟨s', o⟩, hs⟩ := Option.isSome_iff_exists.1 hsome
    refine ⟨.service e, { a with work := .begun s' }, [], ⟨rfl, rfl⟩, ?_⟩
    simp only [Main.step, hwork, he, if_true, hs]
    rfl
  have hcheck : ∀ {s : Service}, a.work = .begun s →
      (∃ t, s.awaited config t = true ∧ s.engine.CanGoOn reg (Service.cfgOf config) t) →
        ∃ e a' o, (e.isCancelMain = false ∧ e.isSignal = false) ∧ Main.step reg config a e = some (a', o) := by
    rintro s hwork ⟨t, haw, hun, hcan⟩
    obtain ⟨reply, hreply⟩ := Point.exists_awaits hun
    have hno : reply.isCancel = false := by
      have := hreply.not_cuts
      cases reply <;> first | rfl | cases this
    refine hserve hwork (.check ⟨t, ⟨0, 0⟩, reply⟩) rfl ?_
    simp only [Service.step, haw, hno, Bool.not_false, Bool.true_or, Bool.and_self, if_true, Option.isSome_map]
    exact hcan _ reply hreply
  obtain ⟨hserved, hat⟩ := hI
  cases hw : a.await with
  | startAdminServer | startup | shutdownEvent => rw [hw] at hpast; cases hpast
  | exited => exact absurd hw hne
  | runOnce =>
    rw [hw] at hat
    obtain ⟨hmode, ⟨s, hwork⟩, -⟩ := hat
    obtain ⟨t₀, es, log, hr⟩ := hserved s hwork
    by_cases hg : s.gathered config = true
    · exact hresume (by simp [done, hw, hwork, hg])
    -- A batch that is not through is awaited.
    · have hbatch : s.daemon.phase.isBatch = true := by
        by_contra hb
        refine hg (Service.gathered_iff.2 fun t ht => ?_)
        have hB := Service.batched_run hr
        have hbegun := hB.begun
        exact hB.between (Bool.eq_false_iff.2 hb) t (by omega)
      exact hcheck hwork (Service.batch_enabled hr hbatch hg)
  | shutdown hook todo => exact hresume (by simp [done, hw])
  | cleanup => exact hresume (by simp [done, hw])
  | daemonTask =>
    rw [hw] at hat
    obtain ⟨hmode, hwork | ⟨s, hwork, hc⟩, -⟩ := hat
    · exact hresume (by simp [done, hw, hwork])
    · by_cases hp : s.daemon.phase = .stopped
      · exact hresume (by simp [done, hw, hwork, hp])
      · obtain ⟨t₀, es, log, hr⟩ := hserved s hwork
        rcases Service.stop_enabled hr hc hp with hgo | hwoken
        · exact hcheck hwork hgo
        · exact hserve hwork (.woken 0 .cancelled) (by simp [serves, hmode]) (hwoken 0)

/-- **The service ends.** Once `async_main` has taken the shutdown signal, or
awaits the batch of `run_once`, in every run in which the main task is not
cancelled: it takes no more steps than a batch, the list of hooks and three,
whatever the checks and the hooks answer, and it never gets stuck before
`async_main` has returned. -/
theorem shutdown_ends {es : List Event} {log : List (List Call)} (hes : ∀ e ∈ es, e.isCancelMain = false)
    (h : run (Main.step reg config) {} es = some (a, log)) (hpast : a.await.isPast = true) :
    (∀ fs a' log', (∀ e ∈ fs, e.isCancelMain = false ∧ e.isSignal = false) →
      run (Main.step reg config) a fs = some (a', log') →
      fs.length ≤ config.batchSteps + config.hooks.length + 3) ∧
    (a.await = .exited ∨ ∃ e a' o, (e.isCancelMain = false ∧ e.isSignal = false) ∧
      Main.step reg config a e = some (a', o)) := by
  have hI := orderly_run hes h
  refine ⟨fun fs a' log' hfs hr => ?_, Classical.or_iff_not_imp_left.2 (exists_step hI hpast)⟩
  have hlen := run_rank (fun a => mainLeft config a + workLeft config a.work)
    (fun e => e.isCancelMain = false ∧ e.isSignal = false)
    (fun a => Orderly reg config a ∧ a.await.isPast = true)
    (fun a e a' o hI he hs => ⟨⟨hI.1.step he.1 hs, (step_left hI.1 hI.2 he hs).1⟩, (step_left hI.1 hI.2 he hs).2⟩)
    ⟨hI, hpast⟩ hfs hr
  have hmain := mainLeft_le hes h hpast
  have hwork : workLeft config a.work ≤ config.batchSteps + 1 := by
    rcases hI.past hpast with hw | ⟨s, hw, ⟨t₀, es, log, hs⟩, -⟩
    · rw [hw]
      exact Nat.zero_le _
    · rw [hw]
      exact Service.stepsLeft_le hs
  omega

end End

/-- A daemon whose signal comes in its first batch. -/
theorem shutdown_ends_daemonRun :
    ∃ a log, run (Main.step .builtin daemonMode) {} (daemonRun ++ [.signal, .resumed 0 (.ok ())]) = some (a, log) ∧
      ∀ fs a' log', (∀ e ∈ fs, e.isCancelMain = false ∧ e.isSignal = false) →
        run (Main.step .builtin daemonMode) a fs = some (a', log') → fs.length ≤ 6 + 2 + 3 := by
  have h : (run (Main.step .builtin daemonMode) {} (daemonRun ++ [.signal, .resumed 0 (.ok ())])).any (fun p =>
      p.1.await.isPast) = true := by decide +kernel
  obtain ⟨⟨a, log⟩, ha, hq⟩ := (Option.any_eq_true _ _).1 h
  exact ⟨a, log, ha, (shutdown_ends (by decide) ha hq).1⟩

end Main

end SentinelFlow
