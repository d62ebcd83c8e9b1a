/-
The counters of a check against its running pipelines: a conservation law.

Every effect has a weight on the counters (+1 for `started`, -1 for each of
the five statuses that close a pipeline, 0 for `timeout`, which is counted
outside) and one on the inflight gauge. Over one step either weight adds up
to what the step did to the number of running pipelines, but for the counters
of a pipeline whose exception cannot be read: no status closes it. So the
gauge is right after every run (`gauge_right`), and the counters balance
until such an exception is raised (`counters_balance_iff`).
-/
import Mathlib.Data.Finset.Card
import Mathlib.Tactic.NormNum.Basic
import SentinelFlow.Engine.Tripping

namespace SentinelFlow

open Machine Engine

/-! ## Weights -/

/-- Started pipelines less closed ones. -/
def Metrics.unsettled (m : Metrics) (id : String) : ℤ :=
  m.checksTotal id .started - (m.checksTotal id .passed + m.checksTotal id .alerted +
    m.checksTotal id .failed + m.checksTotal id .skipped + m.checksTotal id .cancelled)

def CheckStatus.weight : CheckStatus → ℤ
  | .started => 1
  | .timeout => 0
  | .passed | .alerted | .failed | .skipped | .cancelled => -1

def Effect.weight (id : String) : Effect → ℤ
  | .incCheck i status => if i = id then status.weight else 0
  | _ => 0

def Effect.gaugeWeight (id : String) : Effect → ℤ
  | .inflightInc i => if i = id then 1 else 0
  | .inflightDec i => if i = id then -1 else 0
  | _ => 0

/-- The weights of a list of effects, added up. -/
def net (w : Effect → ℤ) (es : List Effect) : ℤ := (es.map w).sum

@[simp] theorem net_nil (w : Effect → ℤ) : net w [] = 0 := rfl

@[simp] theorem net_cons (w : Effect → ℤ) (e : Effect) (es : List Effect) : net w (e :: es) = w e + net w es := by
  simp [net]

@[simp] theorem net_append (w : Effect → ℤ) (es fs : List Effect) : net w (es ++ fs) = net w es + net w fs := by
  simp [net]

theorem net_eq_zero {w : Effect → ℤ} {es : List Effect} (h : ∀ e ∈ es, w e = 0) : net w es = 0 := by
  induction es with
  | nil => rfl
  | cons e es ih =>
    rw [List.forall_mem_cons] at h
    rw [net_cons, h.1, ih h.2, add_zero]

theorem Metrics.unsettled_incCheck (m : Metrics) (i id : String) (status : CheckStatus) :
    (m.incCheck i status).unsettled id = m.unsettled id + if i = id then status.weight else 0 := by
  by_cases hi : i = id
  · subst hi
    cases status <;> simp [unsettled, incCheck, CheckStatus.weight] <;> omega
  · have hne : ¬id = i := fun h => hi h.symm
    simp [unsettled, incCheck, hi, hne]

namespace Executor

theorem onCheck_metrics (x : Executor) (id : String) (f : CheckResilience → CheckResilience) :
    (x.onCheck id f).metrics = x.metrics := by
  unfold onCheck
  split <;> rfl

theorem apply_unsettled (x : Executor) (e : Effect) (id : String) :
    (x.apply e).metrics.unsettled id = x.metrics.unsettled id + e.weight id := by
  cases e with
  | incCheck i status => exact Metrics.unsettled_incCheck x.metrics i id status
  | forCheck i cfg =>
    simp only [apply, Effect.weight, add_zero]
    split <;> rfl
  | acquireInflight | releaseInflight | callEnter | callExcept | callElse =>
    simp only [apply, onBreaker, onCheck_metrics, Effect.weight, add_zero]
  | _ => exact (add_zero _).symm

theorem apply_inflight (x : Executor) (e : Effect) (id : String) :
    (x.apply e).metrics.inflightRequests id = x.metrics.inflightRequests id + e.gaugeWeight id := by
  cases e with
  | inflightInc i | inflightDec i =>
    by_cases hi : i = id
    · simp [apply, Metrics.inflightInc, Metrics.inflightDec, Metrics.inflightAdd, Effect.gaugeWeight, hi]
    · have hne : ¬id = i := fun h => hi h.symm
      simp [apply, Metrics.inflightInc, Metrics.inflightDec, Metrics.inflightAdd, Effect.gaugeWeight, hi, hne]
  | forCheck i cfg =>
    simp only [apply, Effect.gaugeWeight, add_zero]
    split <;> rfl
  | acquireInflight | releaseInflight | callEnter | callExcept | callElse =>
    simp only [apply, onBreaker, onCheck_metrics, Effect.gaugeWeight, add_zero]
  | _ => exact (add_zero _).symm

/-- The counters and the gauge after a list of effects. -/
theorem applyAll_counters (es : List Effect) (id : String) :
    ∀ x : Executor,
      (x.applyAll es).metrics.unsettled id = x.metrics.unsettled id + net (Effect.weight id) es ∧
      (x.applyAll es).metrics.inflightRequests id =
        x.metrics.inflightRequests id + net (Effect.gaugeWeight id) es := by
  induction es with
  | nil => exact fun x => ⟨(add_zero _).symm, (add_zero _).symm⟩
  | cons e es ih =>
    intro x
    obtain ⟨h₁, h₂⟩ := ih (x.apply e)
    rw [x.apply_unsettled] at h₁
    rw [x.apply_inflight] at h₂
    exact ⟨by rw [net_cons, ← add_assoc]; exact h₁, by rw [net_cons, ← add_assoc]; exact h₂⟩

end Executor

/-! ## The weight of a step -/

theorem Effect.Within.weights {e : Effect} {i id : String} (h : e.Within i) (hne : i ≠ id) :
    e.weight id = 0 ∧ e.gaugeWeight id = 0 := by
  cases e with
  | incCheck j status | inflightInc j | inflightDec j =>
    have hj : j = i := h j rfl
    simp [Effect.weight, Effect.gaugeWeight, hj, hne]
  | _ => exact ⟨rfl, rfl⟩

/-- The pipeline ended in an exception that cannot be read. -/
def PipelineEnd.isUnread : PipelineEnd → Bool
  | .raised e => e.unread?.isSome
  | _ => false

def Point.isUnread (p : Point) : Bool := p.ending?.any PipelineEnd.isUnread

/-- 1 for a running pipeline. -/
def Point.running01 (p : Point) : ℤ := if p.isRunning then 1 else 0

/-- 1 for a pipeline that ended in an exception that cannot be read. -/
def PipelineEnd.unread01 (e : PipelineEnd) : ℤ := if e.isUnread then 1 else 0
def Point.unread01 (p : Point) : ℤ := if p.isUnread then 1 else 0

/-- A weight that is `c` over the start of a pipeline of the check, `-c` over
its end, or `u - c` where no status closes it, and nothing over any other part
of a step. -/
structure Balances (w : Effect → ℤ) (id : String) (c u : ℤ) : Prop where
  admission : w .acquire = 0 ∧ w .release = 0 ∧ ∀ cfg, w (.forCheck id cfg) = 0
  breaker : w (.callElse id) = 0 ∧ ∀ now, w (.callEnter id now) = 0 ∧ w (.callExcept id now) = 0
  report : w (.incCheck id .timeout) = 0 ∧ ∀ success d, w (.addResult id success d) = 0
  permit : w (.acquireInflight id) + w (.releaseInflight id) = 0
  opens : w (.acquireInflight id) + w (.incCheck id .started) + w (.inflightInc id) = c
  closes : ∀ status, status ≠ .started → status ≠ .timeout →
    w (.incCheck id status) + w (.inflightDec id) + w (.releaseInflight id) = -c
  unread : w (.inflightDec id) + w (.releaseInflight id) = u - c
  body : ∀ e : Effect, e.OfBody id → w e = 0

namespace Balances

variable {w : Effect → ℤ} {id : String} {c u : ℤ} (hw : Balances w id c u)

include hw

/-- A pipeline's end is counted once, or not at all. -/
theorem net_closeBody (d : Time) (e : PipelineEnd) :
    net w (closeBody id d e).2 + w (.inflightDec id) + w (.releaseInflight id) = u * e.unread01 - c := by
  have hresult := hw.report.2
  have hread : ∀ {e : PipelineEnd}, e.isUnread = false → u * e.unread01 = 0 := by
    intro e he
    rw [PipelineEnd.unread01, he]
    simp
  cases e with
  | passed =>
    have := hw.closes .passed (by decide) (by decide)
    simp only [closeBody, net_cons, net_nil, hresult, hread (e := .passed) rfl]
    omega
  | alerted =>
    have := hw.closes .alerted (by decide) (by decide)
    simp only [closeBody, net_cons, net_nil, hresult, hread (e := .alerted) rfl]
    omega
  | cut byTimer =>
    have := hw.closes .cancelled (by decide) (by decide)
    simp only [closeBody, net_cons, net_nil, hread (e := .cut byTimer) rfl]
    omega
  | raised e =>
    have hskipped := hw.closes .skipped (by decide) (by decide)
    have hfailed := hw.closes .failed (by decide) (by decide)
    have hunread := hw.unread
    rcases closeBody_raised id d e with ⟨-, hu, hb⟩ | ⟨-, hu, hb⟩ | ⟨e', -, hu, hb⟩ <;>
      simp only [hb, PipelineEnd.unread01, PipelineEnd.isUnread, hu, net_cons, net_nil, hresult, Option.isSome_none,
        Option.isSome_some, Bool.false_eq_true, if_false, if_true, mul_zero, mul_one] <;> omega

theorem net_exitCall (cb : Bool) (now : Time) (r : Except Raised Unit) : net w (exitCall cb id now r) = 0 := by
  unfold exitCall
  split
  case h_3 => rfl
  all_goals split <;> simp [hw.breaker]

theorem net_exceptTimeout (d : Time) (r : Except Raised Unit) : net w (exceptTimeout id d r).2 = 0 := by
  unfold exceptTimeout
  split
  · split <;> simp [hw.report]
  · rfl

theorem net_leave (f : Frame) (st now : Time) (e : PipelineEnd) :
    net w (leave f id st now e).2 = u * e.unread01 - c := by
  have hclose := hw.net_closeBody ((now - st) * 1000) e
  simp only [leave, net_append, net_cons, net_nil, hw.net_exitCall, hw.net_exceptTimeout, hw.admission.2.1]
  omega

theorem net_leaveUnstarted (f : Frame) (now : Time) (e : Exc) : net w (leaveUnstarted f id now e).2 = 0 := by
  simp only [leaveUnstarted, net_append, net_cons, net_nil, hw.net_exceptTimeout, hw.admission.2.1, add_zero]

theorem net_start (cb : Bool) (now : Time) : net w (startEffects cb id now) = c := by
  have hopens := hw.opens
  cases cb <;> simp only [startEffects, Bool.false_eq_true, if_false, if_true, List.cons_append,
    List.nil_append, net_cons, net_nil, hw.breaker.2] <;> omega

theorem net_settle (f : Frame) (st now : Time) (prog : Progress) :
    c + net w (settle f id st now prog).2 =
      c * (settle f id st now prog).1.running01 + u * (settle f id st now prog).1.unread01 := by
  cases prog with
  | paused p =>
    show c + 0 = c * 1 + u * 0
    omega
  | ended e =>
    have hleave := hw.net_leave f st now e
    show c + net w (leave f id st now e).2 = c * 0 + u * e.unread01
    rw [hleave]
    omega

end Balances

/-- **The step lemma.** Over one step, a balanced weight on the effects of
its check adds up to what became of its pipeline. -/
theorem Resumes.balance {reg : Registry} {x : Executor} {cfg : PyDict} {clk : Clock} {p p' : Point}
    {reply : Reply} {es : List Effect} {w : Effect → ℤ} {c u : ℤ} (hw : Balances w (metricIdOf cfg) c u)
    (h : Resumes reg x cfg clk p reply p' es) :
    c * p.running01 + net w es = c * p'.running01 + u * p'.unread01 := by
  have hbody : ∀ {bs : List Effect}, (∀ e ∈ bs, e.OfBody (metricIdOf cfg)) → net w bs = 0 := fun hb =>
    net_eq_zero fun e he => hw.body e (hb e he)
  have hidle : ∀ p p' : Point, p.running01 = 0 → p'.running01 = 0 → p'.unread01 = 0 →
      c * p.running01 + 0 = c * p'.running01 + u * p'.unread01 := by
    intro p p' hp hp' hunread
    rw [hp, hp', hunread, mul_zero, mul_zero]
  have hwaiting : ∀ f, (Point.waiting f).running01 = 0 := fun _ => rfl
  have hrunning : ∀ f st q, (Point.running f st q).running01 = 1 := fun _ _ _ => rfl
  cases h with
  | refused | entered | cancelledQueued | cancelledWaiting =>
    simp only [net_cons, net_nil, hw.admission, zero_add]
    exact hidle _ _ rfl rfl rfl
  | @timedOutWaiting f =>
    rw [hw.net_leaveUnstarted]
    exact hidle _ _ rfl rfl rfl
  | @rejected f r e =>
    have hpermit := hw.permit
    have hreject : net w (rejectEffects (metricIdOf cfg) clk.perf) = 0 := by
      simp only [rejectEffects, net_cons, net_nil, hw.breaker.2]
      omega
    rw [net_append, hw.net_leaveUnstarted, hreject, add_zero]
    exact hidle _ _ rfl rfl rfl
  | @started f =>
    have hset := hw.net_settle f clk.perf clk.perf (startBody reg cfg).1
    rw [net_append, net_append, hw.net_start, hbody ofBody_startBody, zero_add, hset, hwaiting, mul_zero, zero_add]
  | @body f st p reply prog bs hb =>
    have hset := hw.net_settle f st clk.perf prog
    rw [net_append, hbody (ofBody_resumeBody hb), zero_add, hrunning, mul_one, hset]
  | @timedOut f st p rs =>
    have hset := hw.net_settle f st clk.perf (.ended (.cut true))
    rw [net_append, hbody ofBody_dispatched, zero_add, hrunning, mul_one]
    exact hset
  | @cancelled f st p rs =>
    have hset := hw.net_settle f st clk.perf (.ended (.cut false))
    rw [net_append, hbody ofBody_dispatched, zero_add, hrunning, mul_one]
    exact hset

theorem balances_weight (id : String) : Balances (Effect.weight id) id 1 1 where
  admission := ⟨rfl, rfl, fun _ => rfl⟩
  breaker := ⟨rfl, fun _ => ⟨rfl, rfl⟩⟩
  report := ⟨by simp [Effect.weight, CheckStatus.weight], fun _ _ => rfl⟩
  permit := rfl
  opens := by simp [Effect.weight, CheckStatus.weight]
  closes status hs ht := by cases status <;> simp_all [Effect.weight, CheckStatus.weight]
  unread := rfl
  body e he := by cases e <;> first | rfl | cases he

theorem balances_gaugeWeight (id : String) : Balances (Effect.gaugeWeight id) id 1 0 where
  admission := ⟨rfl, rfl, fun _ => rfl⟩
  breaker := ⟨rfl, fun _ => ⟨rfl, rfl⟩⟩
  report := ⟨rfl, fun _ _ => rfl⟩
  permit := rfl
  opens := by simp [Effect.gaugeWeight]
  closes status hs ht := by simp [Effect.gaugeWeight]
  unread := by simp [Effect.gaugeWeight]
  body e he := by cases e <;> first | rfl | cases he

/-! ## Running pipelines -/

/-- The tasks of a check that stand at such a point. -/
def Engine.tasksAt (P : Point → Bool) (cfgOf : ℕ → PyDict) (s : Engine) (id : String) : Finset ℕ :=
  s.tasks.keys.toFinset.filter fun t => P (s.point t) = true ∧ metricIdOf (cfgOf t) = id

/-- The tasks of a check whose pipeline is running. -/
def Engine.runningTasks : (ℕ → PyDict) → Engine → String → Finset ℕ := tasksAt Point.isRunning

section Running

variable {reg : Registry} {cfgOf : ℕ → PyDict} {s s' : Engine} {i : Input} {o : Happened}

theorem mem_tasksAt {P : Point → Bool} (hP : P .queued = false) {id : String} {t : ℕ} :
    t ∈ s.tasksAt P cfgOf id ↔ P (s.point t) = true ∧ metricIdOf (cfgOf t) = id := by
  simp only [tasksAt, Finset.mem_filter, List.mem_toFinset, and_iff_right_iff_imp]
  intro h
  refine mem_keys_of_ne_queued fun hq => ?_
  rw [hq, hP] at h
  cases h.1

theorem mem_runningTasks {id : String} {t : ℕ} :
    t ∈ s.runningTasks cfgOf id ↔ (s.point t).isRunning = true ∧ metricIdOf (cfgOf t) = id := mem_tasksAt rfl

/-- A step moves the pipelines of its own check only. -/
theorem tasksAt_step_ne {P : Point → Bool} (hP : P .queued = false)
    (h : Engine.step reg cfgOf s i = some (s', o)) {id : String} (hne : metricIdOf (cfgOf i.task) ≠ id) :
    s'.tasksAt P cfgOf id = s.tasksAt P cfgOf id := by
  obtain ⟨-, -, -, hother, -⟩ := step_resumes h
  ext t
  rw [mem_tasksAt hP, mem_tasksAt hP]
  refine and_congr_left fun ht => ?_
  have htask : t ≠ i.task := fun he => hne (he ▸ ht)
  rw [hother t htask]

theorem runningTasks_step_ne (h : Engine.step reg cfgOf s i = some (s', o)) {id : String}
    (hne : metricIdOf (cfgOf i.task) ≠ id) : s'.runningTasks cfgOf id = s.runningTasks cfgOf id :=
  tasksAt_step_ne rfl h hne

/-- Two sets that agree but for one element: either is the other, less the
element there and with the element here. -/
theorem card_of_erase_eq {A B : Finset ℕ} {a : ℕ} (h : A.erase a = B.erase a) :
    (if a ∈ B then 1 else 0 : ℤ) + A.card = (if a ∈ A then 1 else 0) + B.card := by
  have hcard : ∀ C : Finset ℕ, (C.card : ℤ) = (C.erase a).card + if a ∈ C then 1 else 0 := by
    intro C
    by_cases ha : a ∈ C
    · rw [← Finset.card_erase_add_one ha, if_pos ha]
      push_cast
      rfl
    · rw [Finset.erase_eq_of_notMem ha, if_neg ha, add_zero]
  rw [hcard A, hcard B, h]
  omega

theorem card_tasksAt_step {P : Point → Bool} (hP : P .queued = false)
    (h : Engine.step reg cfgOf s i = some (s', o)) :
    (if P (s.point i.task) then 1 else 0 : ℤ) + (s'.tasksAt P cfgOf (metricIdOf (cfgOf i.task))).card =
      (if P (s'.point i.task) then 1 else 0) + (s.tasksAt P cfgOf (metricIdOf (cfgOf i.task))).card := by
  obtain ⟨-, -, -, hother, -⟩ := step_resumes h
  have herase : (s'.tasksAt P cfgOf (metricIdOf (cfgOf i.task))).erase i.task =
      (s.tasksAt P cfgOf (metricIdOf (cfgOf i.task))).erase i.task := by
    ext t
    simp only [Finset.mem_erase, mem_tasksAt hP]
    refine and_congr_right fun ht => ?_
    rw [hother t ht]
  have hmem : ∀ u : Engine, (if i.task ∈ u.tasksAt P cfgOf (metricIdOf (cfgOf i.task)) then 1 else 0 : ℤ) =
      if P (u.point i.task) then 1 else 0 := by
    intro u
    simp only [mem_tasksAt hP, and_true]
  have hcard := card_of_erase_eq herase
  rwa [hmem s, hmem s'] at hcard

theorem card_runningTasks_step (h : Engine.step reg cfgOf s i = some (s', o)) :
    (s.point i.task).running01 + ((s'.runningTasks cfgOf (metricIdOf (cfgOf i.task))).card : ℤ) =
      (s'.point i.task).running01 + ((s.runningTasks cfgOf (metricIdOf (cfgOf i.task))).card : ℤ) :=
  card_tasksAt_step rfl h

/-! ## What the counters show -/

/-- The tasks of a check whose exception could not be read. -/
def Engine.unreadTasks : (ℕ → PyDict) → Engine → String → Finset ℕ := tasksAt Point.isUnread

/-- The gauge shows the running pipelines, and the counters those and the ones
that ended in an exception that cannot be read. -/
def CountersAgree (cfgOf : ℕ → PyDict) (s : Engine) : Prop :=
  ∀ id, s.executor.metrics.unsettled id = (s.runningTasks cfgOf id).card + (s.unreadTasks cfgOf id).card ∧
    s.executor.metrics.inflightRequests id = (s.runningTasks cfgOf id).card

theorem CountersAgree.step (hI : CountersAgree cfgOf s) (h : Engine.step reg cfgOf s i = some (s', o)) :
    CountersAgree cfgOf s' := by
  obtain ⟨hr, hx, hp, -⟩ := step_resumes h
  intro id
  obtain ⟨hu, hg⟩ := hI id
  obtain ⟨hu', hg'⟩ := Executor.applyAll_counters o.effects id s.executor
  rw [hx, hu', hg', hu, hg]
  by_cases hid : metricIdOf (cfgOf i.task) = id
  · subst hid
    have hw := hr.balance (balances_weight _)
    have hgw := hr.balance (balances_gaugeWeight _)
    have hcard := card_runningTasks_step h
    have hunread : (s.point i.task).unread01 + ((s'.unreadTasks cfgOf (metricIdOf (cfgOf i.task))).card : ℤ) =
        (s'.point i.task).unread01 + (s.unreadTasks cfgOf (metricIdOf (cfgOf i.task))).card :=
      card_tasksAt_step rfl h
    -- What has ended takes no step.
    have hbefore : (s.point i.task).unread01 = 0 := by
      rw [Point.unread01, Point.isUnread, hr.ending?_eq_none]
      rfl
    rw [hp] at hcard hunread
    omega
  · have hw : ∀ e ∈ o.effects, e.weight id = 0 ∧ e.gaugeWeight id = 0 := fun e he =>
      (hr.within e he).weights hid
    have hkept : s'.unreadTasks cfgOf id = s.unreadTasks cfgOf id := tasksAt_step_ne rfl h hid
    rw [runningTasks_step_ne h hid, hkept, net_eq_zero fun e he => (hw e he).1,
      net_eq_zero fun e he => (hw e he).2, add_zero, add_zero]
    exact ⟨rfl, rfl⟩

theorem countersAgree_run {x₀ : Executor} (hx : x₀.metrics = {}) {is : List Input} {log : List Happened}
    (h : run (Engine.step reg cfgOf) (start x₀) is = some (s, log)) : CountersAgree cfgOf s := by
  refine run_invariant (fun _ _ _ _ hI hs => hI.step hs) ?_ h
  intro id
  have hrunning : (start x₀).runningTasks cfgOf id = ∅ := rfl
  have hunread : (start x₀).unreadTasks cfgOf id = ∅ := rfl
  rw [hrunning, hunread]
  simp [start, hx, Metrics.unsettled]

/-- The inflight gauge shows the running pipelines, whatever is raised. -/
theorem gauge_right {x₀ : Executor} (hx : x₀.metrics = {}) {is : List Input} {log : List Happened}
    (h : run (Engine.step reg cfgOf) (start x₀) is = some (s, log)) (id : String) :
    s.executor.metrics.inflightRequests id = (s.runningTasks cfgOf id).card :=
  (countersAgree_run hx h id).2

/-- An invocation does not end unread as long as what it is raised can be read. -/
theorem isUnread_eq_false_iff {x₀ : Executor} {is : List Input} {log : List Happened}
    (h : run (Engine.step reg cfgOf) (start x₀) is = some (s, log)) (t : ℕ) :
    (s.point t).isUnread = false ↔ ∀ e ∈ outside (inputsOf t is) (effectsOf t log), e.unread? = none := by
  rcases answers_run h t with ⟨e, hraised, hend⟩ | ⟨hnil, hown⟩
  · rw [Point.isUnread, hend, hraised]
    simp [PipelineEnd.isUnread]
  · rw [hnil, Point.isUnread]
    refine iff_of_true ?_ (by simp)
    cases hend : (s.point t).ending? with
    | none => simp
    | some x =>
      cases x with
      | raised e => simp [PipelineEnd.isUnread, (hown e hend).1]
      | passed | alerted | cut => simp [PipelineEnd.isUnread]

/-- The started pipelines of a check are those it has passed, alerted, failed,
skipped or cancelled and those that are running, and the inflight gauge shows
the running ones. -/
def Balanced (cfgOf : ℕ → PyDict) (s : Engine) (id : String) : Prop :=
  s.executor.metrics.checksTotal id .started =
      s.executor.metrics.checksTotal id .passed + s.executor.metrics.checksTotal id .alerted +
        s.executor.metrics.checksTotal id .failed + s.executor.metrics.checksTotal id .skipped +
        s.executor.metrics.checksTotal id .cancelled + (s.runningTasks cfgOf id).card ∧
    s.executor.metrics.inflightRequests id = (s.runningTasks cfgOf id).card

/-- **The counters balance.** In every state that any number of concurrent
executions reach, from counters that start at zero, those of a check balance
if and only if every exception raised to its executions so far can be read. -/
theorem counters_balance_iff {x₀ : Executor} (hx : x₀.metrics = {}) {is : List Input} {log : List Happened}
    (h : run (Engine.step reg cfgOf) (start x₀) is = some (s, log)) (id : String) :
    Balanced cfgOf s id ↔ ∀ t, metricIdOf (cfgOf t) = id →
      ∀ e ∈ outside (inputsOf t is) (effectsOf t log), e.unread? = none := by
  obtain ⟨hu, hg⟩ := countersAgree_run hx h id
  have hempty : Balanced cfgOf s id ↔ s.unreadTasks cfgOf id = ∅ := by
    rw [← Finset.card_eq_zero, Balanced, and_iff_left hg]
    unfold Metrics.unsettled at hu
    omega
  rw [hempty, Finset.eq_empty_iff_forall_notMem]
  refine forall_congr' fun t => ?_
  have hmem : t ∈ s.unreadTasks cfgOf id ↔ _ := mem_tasksAt rfl
  rw [hmem, ← isUnread_eq_false_iff h]
  cases (s.point t).isUnread <;> simp

end Running

/-- One invocation has failed, and another is fetching. -/
def overlapping : List Input :=
  [⟨0, ⟨0, 0⟩, .granted⟩, ⟨1, ⟨0, 0⟩, .granted⟩, ⟨0, ⟨0, 0⟩, .granted⟩, ⟨1, ⟨0, 0⟩, .granted⟩,
    ⟨0, ⟨1, 1⟩, .fetched (.error (valueError "no route"))⟩]

/-- Its counters balance: one failed, one runs. -/
theorem counters_balance_overlapping :
    ∃ s log, run (Engine.step .builtin fun _ => exampleCheck "m" []) (start { semaphore := 2 })
        overlapping = some (s, log) ∧
      s.executor.metrics.checksTotal "m" .started = 2 ∧ s.executor.metrics.checksTotal "m" .failed = 1 ∧
      Balanced (fun _ => exampleCheck "m" []) s "m" := by
  have h : (run (Engine.step .builtin fun _ => exampleCheck "m" []) (start { semaphore := 2 })
      overlapping).any (fun p => p.1.executor.metrics.checksTotal "m" .started == 2 &&
        p.1.executor.metrics.checksTotal "m" .failed == 1 &&
        (outside overlapping (p.2.flatMap (·.effects))).all (·.unread? == none)) = true := by decide +kernel
  obtain ⟨⟨s, log⟩, hs, hq⟩ := (Option.any_eq_true _ _).1 h
  simp only [Bool.and_eq_true, beq_iff_eq, List.all_eq_true] at hq
  exact ⟨s, log, hs, hq.1.1, hq.1.2, (counters_balance_iff rfl hs "m").2 fun t _ e he =>
    hq.2 e (outside_subset t he)⟩

/-- An exception whose class returns no text for its `__str__`. -/
def textlessError : Exc where
  typeStr := "<class 'driver.QueryError'>"
  bases := []
  str := .error (typeError "__str__ returned non-string (type NoneType)")

/-- A fetch fails so: the pipeline is counted as started, and never as closed. -/
theorem not_balanced_of_textlessError :
    ∃ s log, run (Engine.step .builtin fun _ => exampleCheck "m" []) (start { semaphore := 1 })
        (fetchRun (.error textlessError)) = some (s, log) ∧
      ¬ Balanced (fun _ => exampleCheck "m" []) s "m" := by
  have h : (run (Engine.step .builtin fun _ => exampleCheck "m" []) (start { semaphore := 1 })
      (fetchRun (.error textlessError))).any (fun p => p.1.executor.metrics.checksTotal "m" .started == 1 &&
        p.1.executor.metrics.checksTotal "m" .passed == 0 && p.1.executor.metrics.checksTotal "m" .alerted == 0 &&
        p.1.executor.metrics.checksTotal "m" .failed == 0 && p.1.executor.metrics.checksTotal "m" .skipped == 0 &&
        p.1.executor.metrics.checksTotal "m" .cancelled == 0 &&
        p.1.executor.metrics.inflightRequests "m" == 0) = true := by decide +kernel
  obtain ⟨⟨s, log⟩, hs, hq⟩ := (Option.any_eq_true _ _).1 h
  simp only [Bool.and_eq_true, beq_iff_eq] at hq
  obtain ⟨⟨⟨⟨⟨⟨hstarted, hpassed⟩, halerted⟩, hfailed⟩, hskipped⟩, hcancelled⟩, hgauge⟩ := hq
  refine ⟨s, log, hs, ?_⟩
  rintro ⟨hcount, hinflight⟩
  omega

end SentinelFlow
