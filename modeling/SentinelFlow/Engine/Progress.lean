/-
A batch comes to its end.

Every step of an invocation lowers `stepsLeft`: the alerts are at most one
for each rule, and each takes a decision and a dispatch. And no two
invocations can wait for each other: the shared permit is taken first, then
the check's own, and a pipeline that runs waits for no permit at all
(`unfinished_enabled`). Nobody need time out for that, or be cancelled.
-/
import Mathlib.Algebra.Order.BigOperators.Group.Finset
import SentinelFlow.Engine.OwnResilience
import SentinelFlow.Engine.Permits
import SentinelFlow.Lib.Ranked

namespace SentinelFlow

open Machine Engine

/-! ## How many steps are left -/

/-- The steps a body still takes at most, from a point of it. -/
def PipePoint.stepsLeft (cfg : PyDict) : PipePoint → ℕ
  | .fetching => 1 + 3 * (listAt cfg "evaluators").length
  | .evaluating _ _ _ todo validEvents => 3 + 3 * todo.length + 2 * validEvents.length
  | .deciding _ todo => 2 + 2 * todo.length
  | .dispatching _ _ todo => 1 + 2 * todo.length

def Progress.stepsLeft (cfg : PyDict) : Progress → ℕ
  | .paused p => p.stepsLeft cfg
  | .ended _ => 0

def Point.stepsLeft (cfg : PyDict) : Point → ℕ
  | .queued => 3 + 3 * (listAt cfg "evaluators").length
  | .waiting _ => 2 + 3 * (listAt cfg "evaluators").length
  | .running _ _ p => p.stepsLeft cfg
  | .finished _ _ => 0

def Point.isFinished : Point → Bool
  | .finished _ _ => true
  | _ => false

section StepsLeft

variable {reg : Registry} {cfg : PyDict}

theorem stepsLeft_settle (f : Frame) (id : String) (st now : Time) (prog : Progress) :
    (settle f id st now prog).1.stepsLeft cfg = prog.stepsLeft cfg := by
  cases prog with
  | paused p => rfl
  | ended e => rfl

theorem stepsLeft_nextEvent (todo : List AlertEvent) : (nextEvent todo).stepsLeft cfg ≤ 2 * todo.length := by
  cases todo with
  | nil => exact Nat.zero_le _
  | cons e todo =>
    show 2 + 2 * todo.length ≤ 2 * (todo.length + 1)
    omega

theorem stepsLeft_callOn (inst : PyClass) (kind : Kind) (p : PipePoint) :
    (callOn inst kind p).stepsLeft cfg ≤ p.stepsLeft cfg := by
  unfold callOn
  split
  · exact le_rfl
  · exact Nat.zero_le _

theorem stepsLeft_afterEvaluators (valid : List AlertEvent) :
    (afterEvaluators cfg valid).stepsLeft cfg ≤ 2 * valid.length := by
  unfold afterEvaluators
  split
  · exact Nat.zero_le _
  · split
    · exact stepsLeft_nextEvent valid
    · exact Nat.zero_le _

theorem stepsLeft_nextEvaluator (payload : MetricPayload) (valid : List AlertEvent) (todo : List PyVal) :
    (nextEvaluator reg cfg payload valid todo).1.stepsLeft cfg ≤ 3 * todo.length + 2 * valid.length := by
  induction todo with
  | nil => exact (stepsLeft_afterEvaluators valid).trans (Nat.le_add_left _ _)
  | cons v todo ih =>
    unfold nextEvaluator
    rw [List.length_cons]
    split
    · omega
    · split
      next evaluator _ =>
        refine (stepsLeft_callOn evaluator _ _).trans ?_
        show 3 + 3 * todo.length + 2 * valid.length ≤ _
        omega
      next => exact Nat.zero_le _

theorem stepsLeft_startBody : (startBody reg cfg).1.stepsLeft cfg ≤ 1 + 3 * (listAt cfg "evaluators").length := by
  unfold startBody
  split
  · split
    · split
      · exact stepsLeft_callOn _ _ _
      · exact Nat.zero_le _
    · exact Nat.zero_le _
  · exact Nat.zero_le _

theorem stepsLeft_afterDispatches (todo : List AlertEvent) (rs : List (Except Raised Unit)) :
    (afterDispatches todo rs).stepsLeft cfg ≤ 2 * todo.length := by
  unfold afterDispatches
  split
  · exact Nat.zero_le _
  · exact stepsLeft_nextEvent todo

theorem stepsLeft_decideEvent (policy : AlertPolicy) (now : Time) (event : AlertEvent) (todo : List AlertEvent) :
    (decideEvent reg cfg policy now event todo).1.stepsLeft cfg ≤ 1 + 2 * todo.length := by
  unfold decideEvent
  dsimp only
  split
  · exact Nat.zero_le _
  · exact (stepsLeft_nextEvent todo).trans (Nat.le_add_left _ _)
  · dsimp only
    split
    · exact Nat.zero_le _
    · exact le_rfl

theorem resumeBody_stepsLeft {policy : AlertPolicy} {now : Time} {p : PipePoint} {reply : Reply} {prog : Progress}
    {es : List Effect} (h : resumeBody reg cfg policy now p reply = some (prog, es)) :
    prog.stepsLeft cfg < p.stepsLeft cfg := by
  cases continues_of_resumeBody h with
  | fetchRaised =>
    show 0 < 1 + _
    omega
  | @fetched payload =>
    have hle : (nextEvaluator reg cfg payload [] (listAt cfg "evaluators")).1.stepsLeft cfg ≤
        3 * (listAt cfg "evaluators").length := stepsLeft_nextEvaluator payload [] _
    show _ < 1 + 3 * (listAt cfg "evaluators").length
    omega
  | evaluatorRaised =>
    show 0 < 3 + _ + _
    omega
  | @evaluated payload ty c todo valid event =>
    have hle : (nextEvaluator reg cfg payload (valid ++ event.toList) todo).1.stepsLeft cfg ≤
        3 * todo.length + 2 * (valid ++ event.toList).length := stepsLeft_nextEvaluator payload _ todo
    have hone : event.toList.length ≤ 1 := by cases event <;> simp
    rw [List.length_append] at hle
    show _ < 3 + 3 * todo.length + 2 * valid.length
    omega
  | @decided event todo =>
    have hle : (decideEvent reg cfg policy now event todo).1.stepsLeft cfg ≤ 1 + 2 * todo.length :=
      stepsLeft_decideEvent policy now event todo
    show _ < 2 + 2 * todo.length
    omega
  | @gathered event ts todo rs =>
    have hle : (afterDispatches todo rs).stepsLeft cfg ≤ 2 * todo.length := stepsLeft_afterDispatches todo rs
    show _ < 1 + 2 * todo.length
    omega

theorem PipePoint.stepsLeft_pos (p : PipePoint) : 0 < p.stepsLeft cfg := by
  cases p <;> simp only [PipePoint.stepsLeft] <;> omega

/-- **Every step is one of the last.** -/
theorem Resumes.stepsLeft_lt {x : Executor} {clk : Clock} {p p' : Point} {reply : Reply} {es : List Effect}
    (h : Resumes reg x cfg clk p reply p' es) : p'.stepsLeft cfg < p.stepsLeft cfg := by
  cases h with
  | refused | cancelledQueued =>
    show 0 < 3 + _
    omega
  | entered =>
    show 2 + _ < 3 + _
    omega
  | cancelledWaiting | timedOutWaiting | rejected =>
    show 0 < 2 + _
    omega
  | started =>
    have hle : (startBody reg cfg).1.stepsLeft cfg ≤ 1 + 3 * (listAt cfg "evaluators").length := stepsLeft_startBody
    rw [stepsLeft_settle]
    show _ < 2 + _
    omega
  | body hb =>
    rw [stepsLeft_settle]
    exact resumeBody_stepsLeft hb
  | timedOut | cancelled => exact PipePoint.stepsLeft_pos _

end StepsLeft

/-! ## What a point waits for -/

/-- An answer to what the coroutine awaits at the point. -/
def Point.Awaits : Point → Reply → Prop
  | .queued, .granted | .waiting _, .granted => True
  | .running _ _ .fetching, .fetched _ => True
  | .running _ _ (.evaluating _ _ _ _ _), .evaluated _ => True
  | .running _ _ (.deciding _ _), .proceed => True
  | .running _ _ (.dispatching _ ts _), .gathered rs => rs.length = ts.length
  | _, _ => False

/-- A timer or a cancellation. -/
def Reply.cuts : Reply → Bool
  | .timeout _ | .cancel _ => true
  | _ => false

theorem Point.Awaits.not_cuts {p : Point} {reply : Reply} (h : p.Awaits reply) : reply.cuts = false := by
  cases reply with
  | timeout | cancel =>
    cases p with
    | queued | waiting | finished => cases h
    | running f st q => cases q <;> cases h
  | _ => rfl

theorem Point.exists_awaits {p : Point} (h : p.isFinished = false) : ∃ reply, p.Awaits reply := by
  cases p with
  | queued | waiting => exact ⟨.granted, trivial⟩
  | running f st q =>
    cases q with
    | fetching => exact ⟨.fetched (.error timeoutError), trivial⟩
    | evaluating => exact ⟨.evaluated (.ok none), trivial⟩
    | deciding => exact ⟨.proceed, trivial⟩
    | dispatching e ts todo => exact ⟨.gathered (ts.map fun _ => .ok ()), by simp [Awaits]⟩
  | finished => cases h

section Enabled

variable {reg : Registry} {x : Executor} {cfg : PyDict} {clk : Clock} {reply : Reply}

theorem resume_queued (hsem : x.semaphore ≠ 0) (ha : Point.queued.Awaits reply) :
    (resume reg x cfg clk .queued reply).isSome = true := by
  cases reply with
  | granted =>
    simp only [resume, enterCheck, if_neg hsem]
    split <;> rfl
  | _ => cases ha

theorem resume_waiting {f : Frame} {r : CheckResilience} (hl : x.resilience.lookup (metricIdOf cfg) = some r)
    (hsem : r.semaphore ≠ 0) (hpos : PyFloat.lt (.finite 0) f.timeoutSeconds = true)
    (ha : (Point.waiting f).Awaits reply) : (resume reg x cfg clk (.waiting f) reply).isSome = true := by
  cases reply with
  | granted =>
    have hle : f.timeoutSeconds.le (.finite 0) = false := by
      cases ht : f.timeoutSeconds <;> rw [ht] at hpos <;> first | rfl | cases hpos | skip
      rw [PyFloat.lt_finite, decide_eq_true_eq] at hpos
      rw [PyFloat.le_finite, decide_eq_false_iff_not, not_le]
      exact hpos
    simp only [resume, enterPipeline, hl, hle, Bool.or_false, decide_eq_true_eq, if_neg hsem]
    split
    · split <;> rfl
    · rfl
  | _ => cases ha

/-- A pipeline that runs takes whatever answer comes. -/
theorem resume_running {f : Frame} {st : Time} {p : PipePoint} (ha : (Point.running f st p).Awaits reply) :
    (resume reg x cfg clk (.running f st p) reply).isSome = true := by
  have hbody : ∀ {b}, resumeBody reg cfg x.policy clk.wall p reply = some b → reply.cuts = false →
      (resume reg x cfg clk (.running f st p) reply).isSome = true := by
    intro b hb hc
    cases reply with
    | timeout | cancel => cases hc
    | _ =>
      simp only [resume, hb]
      rfl
  cases p with
  | fetching =>
    cases reply with
    | fetched r => cases r <;> exact hbody rfl rfl
    | _ => cases ha
  | evaluating =>
    cases reply with
    | evaluated r => cases r <;> exact hbody rfl rfl
    | _ => cases ha
  | deciding =>
    cases reply with
    | proceed => exact hbody rfl rfl
    | _ => cases ha
  | dispatching e ts todo =>
    cases reply with
    | gathered rs => exact hbody (if_pos ha) rfl
    | _ => cases ha

end Enabled

theorem Engine.step_isSome {reg : Registry} {cfgOf : ℕ → PyDict} {s : Engine} {i : Input}
    (h : (resume (s.registry reg) s.executor (cfgOf i.task) i.clock (s.point i.task) i.reply).isSome = true) :
    (Engine.step reg cfgOf s i).isSome = true := by
  rw [Engine.step, Option.isSome_map]
  exact h

/-! ## No deadlock -/

section Batch

variable {reg : Registry} {config : AppConfig} {entryOf : ℕ → Fin config.checks.length}

/-- The task is not finished, and goes on whatever the answer to what it awaits. -/
def Engine.CanGoOn (reg : Registry) (cfgOf : ℕ → PyDict) (s : Engine) (t : ℕ) : Prop :=
  (s.point t).isFinished = false ∧
    ∀ clk reply, (s.point t).Awaits reply → (Engine.step reg cfgOf s ⟨t, clk, reply⟩).isSome = true

theorem Point.ne_queued_of_running {p : Point} (h : p.isRunning = true) : p ≠ .queued := by
  intro hq
  rw [hq] at h
  cases h

/-- Where one task is not finished, that task or another that is under way can go on. -/
theorem unfinished_enabled {is : List Input} {log : List Happened} {s : Engine}
    (h : run (Engine.step reg fun t => (config.entry entryOf t).modelDump) (start config.executor) is = some (s, log))
    {t : ℕ} (ht : (s.point t).isFinished = false) :
    ∃ u, (u = t ∨ s.point u ≠ .queued) ∧ s.CanGoOn reg (fun t => (config.entry entryOf t).modelDump) u := by
  have hfresh : config.executor.resilience = ∅ := rfl
  have hK := keeps_run hfresh h
  have hrunning : ∀ u, (s.point u).isRunning = true →
      s.CanGoOn reg (fun t => (config.entry entryOf t).modelDump) u := by
    intro u hu
    cases hp : s.point u with
    | running f st p =>
      refine ⟨by rw [hp]; rfl, fun clk reply ha => step_isSome ?_⟩
      rw [hp] at ha ⊢
      exact resume_running ha
    | queued | waiting | finished => rw [hp] at hu; cases hu
  -- A check whose permits are all out has a pipeline running.
  have hwaiting : ∀ u f, s.point u = .waiting f →
      ∃ v, s.point v ≠ .queued ∧ s.CanGoOn reg (fun t => (config.entry entryOf t).modelDump) v := by
    intro u f hu
    obtain ⟨r, hl, hft, -⟩ := hK.frames u f (by rw [hu]; rfl)
    obtain ⟨w, -, -, hpar, hsum⟩ := (hK.built _ r hl).entry
    by_cases hfree : r.semaphore = 0
    · have hinflight := (config.entry entryOf w).resilience.inflightPos
      rw [hfree] at hsum
      have hcard : 0 < (s.runningTasks (fun t => (config.entry entryOf t).modelDump)
          (metricIdOf (config.entry entryOf u).modelDump)).card := by omega
      obtain ⟨v, hv⟩ := Finset.card_pos.1 hcard
      have hrun := (mem_runningTasks.1 hv).1
      exact ⟨v, Point.ne_queued_of_running hrun, hrunning v hrun⟩
    · refine ⟨u, by rw [hu]; simp, by rw [hu]; rfl, fun clk reply ha => step_isSome ?_⟩
      have hpos : PyFloat.lt (.finite 0) f.timeoutSeconds = true := by
        rw [hft, hpar.timeout]
        exact (config.entry entryOf w).resilience.timeoutPos
      rw [hu] at ha ⊢
      exact resume_waiting hl hfree hpos ha
  cases hp : s.point t with
  | finished => rw [hp] at ht; cases ht
  | running f st p =>
    have hrun : (s.point t).isRunning = true := by rw [hp]; rfl
    exact ⟨t, .inl rfl, hrunning t hrun⟩
  | waiting f =>
    obtain ⟨v, hv, hgo⟩ := hwaiting t f hp
    exact ⟨v, .inr hv, hgo⟩
  | queued =>
    by_cases hfree : s.executor.semaphore = 0
    · have hslots := (conserved_run hfresh h).slots
      have hlimit := config.executor_semaphore_ne_zero
      obtain ⟨u, hu⟩ := Finset.card_pos.1 (show 0 < s.inside.card by omega)
      have hin := mem_inside.1 hu
      cases hpu : s.point u with
      | queued | finished => rw [hpu] at hin; cases hin
      | waiting f =>
        obtain ⟨v, hv, hgo⟩ := hwaiting u f hpu
        exact ⟨v, .inr hv, hgo⟩
      | running f st p =>
        have hrun : (s.point u).isRunning = true := by rw [hpu]; rfl
        exact ⟨u, .inr (Point.ne_queued_of_running hrun), hrunning u hrun⟩
    · refine ⟨t, .inl rfl, ht, fun clk reply ha => step_isSome ?_⟩
      rw [hp] at ha ⊢
      exact resume_queued hfree ha

/-! ## The end of a batch -/

/-- The steps that the tasks of a batch still take at most. -/
def Engine.stepsLeft (cfgOf : ℕ → PyDict) (batch : Finset ℕ) (s : Engine) : ℕ :=
  ∑ t ∈ batch, (s.point t).stepsLeft (cfgOf t)

theorem stepsLeft_start (x : Executor) (batch : Finset ℕ) :
    (start x).stepsLeft (fun t => (config.entry entryOf t).modelDump) batch =
      ∑ t ∈ batch, 3 * ((config.entry entryOf t).evaluators.length + 1) := by
  refine Finset.sum_congr rfl fun t _ => ?_
  show 3 + 3 * (listAt (config.entry entryOf t).modelDump "evaluators").length = _
  rw [listAt_evaluators, List.length_map]
  omega

theorem stepsLeft_step {cfgOf : ℕ → PyDict} {batch : Finset ℕ} {s s' : Engine} {i : Input} {o : Happened}
    (hi : i.task ∈ batch) (h : Engine.step reg cfgOf s i = some (s', o)) :
    s'.stepsLeft cfgOf batch < s.stepsLeft cfgOf batch := by
  obtain ⟨hr, -, hp, hne, -⟩ := step_resumes h
  have hlt : (s'.point i.task).stepsLeft (cfgOf i.task) < (s.point i.task).stepsLeft (cfgOf i.task) := by
    rw [hp]
    exact hr.stepsLeft_lt
  refine Finset.sum_lt_sum (fun t _ => ?_) ⟨i.task, hi, hlt⟩
  by_cases ht : t = i.task
  · rw [ht]
    exact hlt.le
  · rw [hne t ht]

/-- A task that is not queued has taken a step. -/
theorem exists_input {cfgOf : ℕ → PyDict} {x₀ : Executor} {is : List Input} {log : List Happened} {s : Engine}
    (h : run (Engine.step reg cfgOf) (start x₀) is = some (s, log)) :
    ∀ t, s.point t ≠ .queued → ∃ i ∈ is, i.task = t := by
  refine run_induction (fun is _ s => ∀ t, Engine.point s t ≠ .queued → ∃ i ∈ is, i.task = t) ?_ ?_ h
  · exact fun t ht => absurd rfl ht
  · intro is log s i o s' _ hI hs t
    refine forall_point hs (P := fun t p => p ≠ .queued → ∃ j ∈ is ++ [i], j.task = t)
      (fun _ => ⟨i, by simp, rfl⟩) (fun t _ ht => ?_) t
    obtain ⟨j, hj, hjt⟩ := hI t ht
    exact ⟨j, by simp [hj], hjt⟩

/-- However far it is, an invocation takes no more than all its steps. -/
theorem stepsLeft_le {cfgOf : ℕ → PyDict} {x₀ : Executor} {is : List Input} {log : List Happened} {s : Engine}
    (h : run (Engine.step reg cfgOf) (start x₀) is = some (s, log)) :
    ∀ t, (s.point t).stepsLeft (cfgOf t) ≤ 3 + 3 * (listAt (cfgOf t) "evaluators").length := by
  refine run_induction (fun _ _ s => ∀ t, (Engine.point s t).stepsLeft (cfgOf t) ≤
    3 + 3 * (listAt (cfgOf t) "evaluators").length) (fun t => le_rfl) ?_ h
  intro is log s i o s' _ hI hs
  have hlt := (step_resumes hs).1.stepsLeft_lt
  exact forall_point hs (P := fun t p => p.stepsLeft (cfgOf t) ≤ 3 + 3 * (listAt (cfgOf t) "evaluators").length)
    (hlt.le.trans (hI i.task)) fun t _ => hI t

/-- The invocations of the batch, and no others, can reach the state. -/
def AppConfig.Reaches (reg : Registry) (config : AppConfig) (entryOf : ℕ → Fin config.checks.length)
    (batch : Finset ℕ) (s : Engine) : Prop :=
  ∃ is log, (∀ i ∈ is, i.task ∈ batch) ∧
    run (Engine.step reg fun t => (config.entry entryOf t).modelDump) (start config.executor) is = some (s, log)

section Reaches

variable {batch : Finset ℕ} {s : Engine}

theorem AppConfig.Reaches.canGoOn (h : config.Reaches reg entryOf batch s)
    (hnot : ¬∀ t ∈ batch, (s.point t).isFinished = true) :
    ∃ t ∈ batch, s.CanGoOn reg (fun t => (config.entry entryOf t).modelDump) t := by
  obtain ⟨is, log, hb, hr⟩ := h
  simp only [not_forall, Bool.not_eq_true] at hnot
  obtain ⟨t, ht, hun⟩ := hnot
  obtain ⟨u, hu, hcan⟩ := unfinished_enabled hr hun
  refine ⟨u, ?_, hcan⟩
  rcases hu with rfl | hu
  · exact ht
  · obtain ⟨i, hi, rfl⟩ := exists_input hr u hu
    exact hb i hi

theorem AppConfig.Reaches.step {s' : Engine} {i : Input} {o : Happened} (h : config.Reaches reg entryOf batch s)
    (hi : i.task ∈ batch)
    (hs : Engine.step reg (fun t => (config.entry entryOf t).modelDump) s i = some (s', o)) :
    config.Reaches reg entryOf batch s' := by
  obtain ⟨is, log, hb, hr⟩ := h
  refine ⟨is ++ [i], log ++ [o], fun j hj => ?_, run_concat.2 ⟨s, log, o, hr, hs, rfl⟩⟩
  rcases List.mem_append.1 hj with hj | hj
  · exact hb j hj
  · rw [List.mem_singleton.1 hj]
    exact hi

theorem AppConfig.Reaches.next (h : config.Reaches reg entryOf batch s)
    (hnot : ¬∀ t ∈ batch, (s.point t).isFinished = true) :
    ∃ i s' o, (i.task ∈ batch ∧ i.reply.cuts = false) ∧
      Engine.step reg (fun t => (config.entry entryOf t).modelDump) s i = some (s', o) ∧
      config.Reaches reg entryOf batch s' ∧
      s'.stepsLeft (fun t => (config.entry entryOf t).modelDump) batch <
        s.stepsLeft (fun t => (config.entry entryOf t).modelDump) batch := by
  obtain ⟨t, ht, hun, hcan⟩ := h.canGoOn hnot
  obtain ⟨reply, ha⟩ := Point.exists_awaits hun
  obtain ⟨⟨s', o⟩, hs⟩ := Option.isSome_iff_exists.1 (hcan ⟨0, 0⟩ reply ha)
  exact ⟨⟨t, ⟨0, 0⟩, reply⟩, s', o, ⟨ht, ha.not_cuts⟩, hs, h.step ht hs, stepsLeft_step ht hs⟩

end Reaches

/-- **A batch ends.** For every accepted configuration, whatever its checks
are answered and however their steps interleave: the steps of a batch are no
more than three for each rule and three for each check, and as long as a
check is not through, one of them can go on with whatever answers what it
awaits. So from every state the batch can be run to its end without a timer
or a cancellation. -/
theorem batch_ends (batch : Finset ℕ) {is : List Input} {log : List Happened} {s : Engine}
    (hb : ∀ i ∈ is, i.task ∈ batch)
    (h : run (Engine.step reg fun t => (config.entry entryOf t).modelDump) (start config.executor) is = some (s, log)) :
    is.length ≤ ∑ t ∈ batch, 3 * ((config.entry entryOf t).evaluators.length + 1) ∧
    ((∀ t ∈ batch, (s.point t).isFinished = true) ∨
      ∃ t ∈ batch, s.CanGoOn reg (fun t => (config.entry entryOf t).modelDump) t) ∧
    ∃ js s' log', run (Engine.step reg fun t => (config.entry entryOf t).modelDump) s js = some (s', log') ∧
      (∀ j ∈ js, j.task ∈ batch ∧ j.reply.cuts = false) ∧ ∀ t ∈ batch, (s'.point t).isFinished = true := by
  have hreached : config.Reaches reg entryOf batch s := ⟨is, log, hb, h⟩
  refine ⟨?_, Classical.or_iff_not_imp_left.2 hreached.canGoOn, ?_⟩
  · have hlen := run_rank (Engine.stepsLeft _ batch) (fun i => i.task ∈ batch) (fun _ => True)
      (fun _ _ _ _ _ hi hs => ⟨trivial, stepsLeft_step hi hs⟩) trivial hb h
    rw [← stepsLeft_start config.executor]
    omega
  · obtain ⟨js, s', log', hr, hP, -, hdone⟩ := exists_run_done
      (Engine.stepsLeft (fun t => (config.entry entryOf t).modelDump) batch)
      (fun j : Input => j.task ∈ batch ∧ j.reply.cuts = false) (config.Reaches reg entryOf batch)
      (fun s => ∀ t ∈ batch, (Engine.point s t).isFinished = true) (fun s hs hnot => hs.next hnot) s hreached
    exact ⟨js, s', log', hr, hP, hdone⟩

end Batch

/-- Two executions of one check, the first of them entered. -/
theorem batch_ends_entered :
    ∃ s log, run (Engine.step .builtin fun _ => (plainCheck "orders").modelDump)
        (start (plainConfig (plainCheck "orders") []).executor) [⟨0, ⟨0, 0⟩, .granted⟩] = some (s, log) ∧
      ∃ js s' log', run (Engine.step .builtin fun _ => (plainCheck "orders").modelDump) s js = some (s', log') ∧
        (∀ j ∈ js, j.task ∈ ({0, 1} : Finset ℕ) ∧ j.reply.cuts = false) ∧
        (s'.point 0).isFinished = true ∧ (s'.point 1).isFinished = true := by
  have h : (run (Engine.step .builtin fun _ => (plainCheck "orders").modelDump)
      (start (plainConfig (plainCheck "orders") []).executor) [⟨0, ⟨0, 0⟩, .granted⟩]).isSome = true := by decide +kernel
  obtain ⟨⟨s, log⟩, hs⟩ := Option.isSome_iff_exists.1 h
  obtain ⟨-, -, js, s', log', hr, hjs, hdone⟩ := @batch_ends .builtin (plainConfig (plainCheck "orders") [])
    (fun _ => ⟨0, by decide⟩) {0, 1} _ log s (by simp) hs
  exact ⟨s, log, hs, js, s', log', hr, hjs, hdone 0 (by simp), hdone 1 (by simp)⟩

end SentinelFlow
