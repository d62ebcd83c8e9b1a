/-
The executor at work: any number of invocations, over any number of
batches, resumed in any order. `cfgOf` names the check each invocation is
for. One not yet resumed stands at `queued`, so starting a batch is no step.

Two rules carry what is proved of runs: `task_run`, for what one
invocation's own steps show whatever the others do, and the frame of a
step, which touches one check only.
-/
import SentinelFlow.Lib.Machine
import SentinelFlow.Engine.Resumes

namespace SentinelFlow

open Machine

/-- All invocations. The registry's cache of instances is shared with all of
the program: `instances` are those that lookups have added to it. -/
structure Engine where
  executor : Executor
  tasks : Dict ℕ Point := ∅
  instances : Dict String PyClass := ∅

/-- What an invocation is resumed with. -/
structure Input where
  task : ℕ
  clock : Clock
  reply : Reply

/-- The instances added after an effect: a lookup that answers leaves its
instance in the cache. -/
def Effect.cached (instances : Dict String PyClass) : Effect → Dict String PyClass
  | .lookedUp _ name (.ok inst) => instances.insert name inst
  | _ => instances

/-- What a step did, and where it left its task. -/
structure Happened where
  task : ℕ
  clock : Clock
  effects : List Effect
  point : Point

namespace Engine

def point (s : Engine) (task : ℕ) : Point := (s.tasks.lookup task).getD .queued

/-- Nothing resumed yet. -/
def start (x : Executor) : Engine := { executor := x }

/-- The registry as it is now, when it was `reg` at the start. -/
def registry (s : Engine) (reg : Registry) : Registry := reg.caching s.instances

/-- One invocation goes on to its next point. -/
def step (reg : Registry) (cfgOf : ℕ → PyDict) (s : Engine) (i : Input) : Option (Engine × Happened) :=
  (resume (s.registry reg) s.executor (cfgOf i.task) i.clock (s.point i.task) i.reply).map fun r =>
    (⟨s.executor.applyAll r.2, s.tasks.insert i.task r.1, r.2.foldl Effect.cached s.instances⟩,
      ⟨i.task, i.clock, r.2, r.1⟩)

@[simp] theorem point_start (x : Executor) (task : ℕ) : (start x).point task = .queued := rfl

@[simp] theorem point_insert_self (x : Executor) (tasks : Dict ℕ Point) (instances : Dict String PyClass)
    (task : ℕ) (p : Point) : (⟨x, tasks.insert task p, instances⟩ : Engine).point task = p := by
  simp [point]

theorem point_insert_ne (x : Executor) (tasks : Dict ℕ Point) (instances : Dict String PyClass) {task other : ℕ}
    (p : Point) (h : other ≠ task) :
    (⟨x, tasks.insert task p, instances⟩ : Engine).point other = ((tasks.lookup other).getD .queued) := by
  simp [point, h]

@[simp] theorem registry_classes (s : Engine) (reg : Registry) : (s.registry reg).classes = reg.classes :=
  reg.classes_caching s.instances

/-- A task that never took a step is queued. -/
theorem mem_keys_of_ne_queued {s : Engine} {task : ℕ} (h : s.point task ≠ .queued) : task ∈ s.tasks.keys := by
  by_contra hk
  have hnone : s.tasks.lookup task = none := AList.lookup_eq_none.2 fun hm => hk (AList.mem_keys.1 hm)
  exact h (by rw [point, hnone]; rfl)

section Steps

variable {reg : Registry} {cfgOf : ℕ → PyDict} {s s' : Engine} {i : Input} {o : Happened}

/-- A step resumes its task, and touches nothing but the shared state and that task. -/
theorem step_resumes (h : step reg cfgOf s i = some (s', o)) :
    Resumes (s.registry reg) s.executor (cfgOf i.task) i.clock (s.point i.task) i.reply o.point o.effects ∧
      s'.executor = s.executor.applyAll o.effects ∧ s'.point i.task = o.point ∧
      (∀ t, t ≠ i.task → s'.point t = s.point t) ∧ o.task = i.task ∧ o.clock = i.clock := by
  unfold step at h
  simp only [Option.map_eq_some_iff] at h
  obtain ⟨⟨p', es⟩, hr, he⟩ := h
  cases he
  refine ⟨resumes_of_resume hr, rfl, by simp, fun t ht => ?_, rfl, rfl⟩
  exact point_insert_ne _ _ _ _ ht

/-- A step adds to the cache what its lookups answered. -/
theorem step_instances (h : step reg cfgOf s i = some (s', o)) :
    s'.instances = o.effects.foldl Effect.cached s.instances := by
  obtain ⟨r, -, he⟩ := Option.map_eq_some_iff.1 h
  cases he
  rfl

theorem step_of_resume {p : Point} {es : List Effect}
    (h : resume (s.registry reg) s.executor (cfgOf i.task) i.clock (s.point i.task) i.reply = some (p, es)) :
    step reg cfgOf s i =
      some (⟨s.executor.applyAll es, s.tasks.insert i.task p, es.foldl Effect.cached s.instances⟩,
        ⟨i.task, i.clock, es, p⟩) := by
  unfold step
  rw [h]
  rfl

/-- What the task's new point meets, and every other task's point, all points meet. -/
theorem forall_point (h : step reg cfgOf s i = some (s', o)) {P : ℕ → Point → Prop} (own : P i.task o.point)
    (others : ∀ t, t ≠ i.task → P t (s.point t)) (t : ℕ) : P t (s'.point t) := by
  obtain ⟨-, -, hp, hne, -, -⟩ := step_resumes h
  by_cases ht : t = i.task
  · rw [ht, hp]
    exact own
  · rw [hne t ht]
    exact others t ht

end Steps

/-! ## One task's own history -/

/-- The inputs of a task. -/
def inputsOf (task : ℕ) (is : List Input) : List Input := is.filter (·.task = task)

/-- The effects of a task's steps, in order. -/
def effectsOf (task : ℕ) (log : List Happened) : List Effect := (log.filter (·.task = task)).flatMap (·.effects)

theorem effectsOf_concat {task : ℕ} {log : List Happened} {o : Happened} (h : o.task = task) :
    effectsOf task (log ++ [o]) = effectsOf task log ++ o.effects := by
  simp [effectsOf, h]

theorem effectsOf_concat_ne {task : ℕ} {log : List Happened} {o : Happened} (h : o.task ≠ task) :
    effectsOf task (log ++ [o]) = effectsOf task log := by
  simp [effectsOf, h]

/-- **The rule for one task.** What its own steps keep, on whatever shared
state the others have made and whatever instances they have had cached, holds
of its inputs and effects in every run. -/
theorem task_run {reg : Registry} {cfgOf : ℕ → PyDict} {x₀ : Executor} {task : ℕ}
    (I : List Input → List Effect → Point → Prop) (init : I [] [] .queued)
    (next : ∀ ins es p i now x p' es', i.task = task → now.classes = reg.classes → I ins es p →
      Resumes now x (cfgOf task) i.clock p i.reply p' es' → I (ins ++ [i]) (es ++ es') p')
    {is : List Input} {log : List Happened} {s : Engine}
    (h : run (step reg cfgOf) (start x₀) is = some (s, log)) :
    I (inputsOf task is) (effectsOf task log) (s.point task) := by
  refine run_induction
    (fun is log (s : Engine) => I (inputsOf task is) (effectsOf task log) (s.point task)) ?_ ?_ h
  · exact init
  · intro is log s i o s' _ hI hs
    obtain ⟨hr, -, hp, hne, ho, -⟩ := step_resumes hs
    by_cases hi : i.task = task
    · subst hi
      rw [effectsOf_concat ho, hp]
      simpa [inputsOf] using next _ _ _ i _ _ _ _ rfl (s.registry_classes reg) hI hr
    · rw [effectsOf_concat_ne (ho ▸ hi), hne task (Ne.symm hi)]
      simpa [inputsOf, hi] using hI

end Engine

/-- A check with an evaluator and a handler, for examples. -/
def exampleCheck (metricId : String) (resilience : PyDict) : PyDict :=
  [("metric_id", .str metricId), ("ingestor", .dict [("type", .str "http_api")]),
    ("evaluators", .list [.dict [("type", .str "threshold")]]),
    ("handlers", .list [.dict [("type", .str "slack_webhook")]]), ("resilience", .dict resilience)]

/-! ## The frame of a step -/

/-- The check whose resilience object, history or counters an effect is on. -/
def Effect.checkId? : Effect → Option String
  | .acquire | .release | .shouldDispatch _ _ _ | .handed _ _ _ _ | .lookedUp _ _ _ => none
  | .forCheck id _ | .acquireInflight id | .releaseInflight id | .callEnter id _ | .callExcept id _
  | .callElse id => some id
  | .incCheck id _ | .inflightInc id | .inflightDec id | .addResult id _ _ | .incAlert id _ _ _ => some id

/-- The effect is on no check other than this one. -/
def Effect.Within (id : String) (e : Effect) : Prop := ∀ id', e.checkId? = some id' → id' = id

/-- What leaving the layers does: the reports, the breaker's `except` and
`else`, and the permits returned. -/
def Effect.OfExit (id : String) : Effect → Prop
  | .release => True
  | .releaseInflight i | .callExcept i _ | .callElse i | .incCheck i _ | .inflightDec i | .addResult i _ _ => i = id
  | _ => False

section Exit

variable {id : String} {es : List Effect}

theorem Effect.OfBody.within {e : Effect} (h : e.OfBody id) : e.Within id := by
  cases e <;> simp_all [Effect.OfBody, Effect.Within, Effect.checkId?]

theorem Effect.OfExit.within {e : Effect} (h : e.OfExit id) : e.Within id := by
  cases e <;> simp_all [Effect.OfExit, Effect.Within, Effect.checkId?]

theorem ofExit_exceptTimeout {d : Time} {r : Except Raised Unit} :
    ∀ e ∈ (exceptTimeout id d r).2, e.OfExit id := by
  unfold exceptTimeout
  split
  · split <;> simp [Effect.OfExit]
  · simp

theorem ofExit_leaveUnstarted {f : Frame} {now : Time} {x : Exc} :
    ∀ e ∈ (leaveUnstarted f id now x).2, e.OfExit id := by
  intro e he
  simp only [leaveUnstarted, List.mem_append, List.mem_singleton] at he
  rcases he with he | rfl
  · exact ofExit_exceptTimeout e he
  · trivial

theorem ofExit_closeBody {d : Time} {x : PipelineEnd} : ∀ e ∈ (closeBody id d x).2, e.OfExit id := by
  unfold closeBody
  split
  case h_4 =>
    split
    · simp [Effect.OfExit]
    · split <;> simp [Effect.OfExit]
  all_goals simp [Effect.OfExit]

theorem ofExit_exitCall {cb : Bool} {now : Time} {r : Except Raised Unit} :
    ∀ e ∈ exitCall cb id now r, e.OfExit id := by
  unfold exitCall
  split
  case h_3 => simp
  all_goals split <;> simp [Effect.OfExit]

theorem ofExit_leave {f : Frame} {st now : Time} {x : PipelineEnd} :
    ∀ e ∈ (leave f id st now x).2, e.OfExit id := by
  intro e he
  simp only [leave, List.mem_append, List.mem_singleton, or_assoc] at he
  rcases he with he | rfl | he | rfl | he | rfl
  · exact ofExit_closeBody e he
  · rfl
  · exact ofExit_exitCall e he
  · rfl
  · exact ofExit_exceptTimeout e he
  · trivial

theorem ofExit_settle {f : Frame} {st now : Time} {prog : Progress} :
    ∀ e ∈ (settle f id st now prog).2, e.OfExit id := by
  cases prog with
  | paused p => intro e he; cases he
  | ended x => exact ofExit_leave

/-- Every effect of a step is on the check the step is for. -/
theorem Resumes.within {reg : Registry} {x : Executor} {cfg : PyDict} {clk : Clock} {p p' : Point}
    {reply : Reply} (h : Resumes reg x cfg clk p reply p' es) : ∀ e ∈ es, e.Within (metricIdOf cfg) := by
  cases h with
  | refused | cancelledQueued | cancelledWaiting | entered => simp [Effect.Within, Effect.checkId?]
  | timedOutWaiting => exact fun e he => (ofExit_leaveUnstarted e he).within
  | rejected =>
    rw [List.forall_mem_append]
    exact ⟨by simp [rejectEffects, Effect.Within, Effect.checkId?],
      fun e he => (ofExit_leaveUnstarted e he).within⟩
  | @started f =>
    rw [List.forall_mem_append, List.forall_mem_append]
    refine ⟨?_, fun e he => (ofBody_startBody e he).within,
      fun e he => (ofExit_settle e he).within⟩
    unfold startEffects
    split <;> simp [Effect.Within, Effect.checkId?]
  | body hb =>
    rw [List.forall_mem_append]
    exact ⟨fun e he => (ofBody_resumeBody hb e he).within, fun e he => (ofExit_settle e he).within⟩
  | timedOut | cancelled =>
    rw [List.forall_mem_append]
    exact ⟨fun e he => (ofBody_dispatched e he).within, fun e he => (ofExit_leave e he).within⟩

end Exit

namespace Executor

theorem onCheck_lookup_self (x : Executor) (id : String) (f : CheckResilience → CheckResilience) :
    (x.onCheck id f).resilience.lookup id = (x.resilience.lookup id).map f := by
  unfold onCheck
  cases h : x.resilience.lookup id <;> simp [h]

theorem onCheck_lookup_ne (x : Executor) {id id' : String} (f : CheckResilience → CheckResilience)
    (h : id' ≠ id) :
    (x.onCheck id f).resilience.lookup id' = x.resilience.lookup id' := by
  unfold onCheck
  cases x.resilience.lookup id <;> simp [h]

theorem forCheck_lookup_ne {m m' : ResilienceManager} {id id' : String} {cfg : PyDict} {r : CheckResilience}
    (h : ResilienceManager.forCheck m id cfg = .ok (m', r)) (hne : id' ≠ id) :
    m'.lookup id' = m.lookup id' := by
  unfold ResilienceManager.forCheck at h
  split at h
  · cases h; rfl
  · cases hb : ResilienceManager.build cfg <;> rw [hb] at h <;> cases h
    simp [hne]

/-- An effect on another check leaves a check's resilience object and history alone. -/
theorem apply_frame (x : Executor) {e : Effect} {id id' : String} (he : e.Within id) (hne : id' ≠ id) :
    (x.apply e).resilience.lookup id' = x.resilience.lookup id' ∧
      (x.apply e).history.getRecent id' = x.history.getRecent id' := by
  have key : ∀ i, e.checkId? = some i → id' ≠ i := fun i hi h => hne (h.trans (he i hi))
  cases e with
  | forCheck i cfg =>
    have hi := key i rfl
    simp only [apply]
    split
    next m r hm => exact ⟨forCheck_lookup_ne hm hi, rfl⟩
    next => exact ⟨rfl, rfl⟩
  | addResult i b d => exact ⟨rfl, ExecutionHistory.getRecent_addResult_ne _ _ _ (key i rfl)⟩
  | acquireInflight i | releaseInflight i | callEnter i | callExcept i | callElse i =>
    refine ⟨onCheck_lookup_ne _ _ (key i rfl), ?_⟩
    simp only [apply, onBreaker, onCheck]
    split <;> rfl
  | _ => exact ⟨rfl, rfl⟩

theorem applyAll_frame {es : List Effect} {id id' : String} (he : ∀ e ∈ es, e.Within id) (hne : id' ≠ id) :
    ∀ x : Executor, (x.applyAll es).resilience.lookup id' = x.resilience.lookup id' ∧
      (x.applyAll es).history.getRecent id' = x.history.getRecent id' := by
  induction es with
  | nil => exact fun x => ⟨rfl, rfl⟩
  | cons e es ih =>
    intro x
    rw [List.forall_mem_cons] at he
    have h₁ := apply_frame x he.1 hne
    have h₂ := ih he.2 (x.apply e)
    exact ⟨h₂.1.trans h₁.1, h₂.2.trans h₁.2⟩

end Executor

end SentinelFlow
