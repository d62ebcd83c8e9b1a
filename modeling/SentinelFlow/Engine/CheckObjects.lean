/-
The resilience object of a metric id, over whole runs.

`for_check` keeps one object for each id, built for whichever execution of
that id came first. From then on its parameters stand still, and every
permit it was built with is free or held by a running pipeline of the id
(`keeps_run`).
-/
import SentinelFlow.Engine.Counters

namespace SentinelFlow

open Machine Engine

/-! ## The object of a check, effect by effect -/

/-- The parameters that stay with an object. -/
structure SameParams (r r' : CheckResilience) : Prop where
  timeout : r'.timeoutSeconds = r.timeoutSeconds
  enabled : r'.cbEnabled = r.cbEnabled
  threshold : r'.circuitBreaker.failureThreshold = r.circuitBreaker.failureThreshold
  reset : r'.circuitBreaker.resetTimeoutSeconds = r.circuitBreaker.resetTimeoutSeconds

theorem SameParams.refl (r : CheckResilience) : SameParams r r := ⟨rfl, rfl, rfl, rfl⟩

theorem SameParams.trans {r₁ r₂ r₃ : CheckResilience} (h : SameParams r₁ r₂) (h' : SameParams r₂ r₃) :
    SameParams r₁ r₃ :=
  ⟨h'.timeout.trans h.timeout, h'.enabled.trans h.enabled, h'.threshold.trans h.threshold, h'.reset.trans h.reset⟩

/-- What an effect adds to the free permits of a check's semaphore. -/
def Effect.permitWeight (id : String) : Effect → ℤ
  | .acquireInflight i => if i = id then -1 else 0
  | .releaseInflight i => if i = id then 1 else 0
  | _ => 0

def Effect.acquires (id : String) : Effect → Bool
  | .acquireInflight i => i = id
  | _ => false

theorem Effect.permitWeight_ge (id : String) (e : Effect) :
    -(if e.acquires id = true then 1 else 0) ≤ e.permitWeight id := by
  cases e with
  | acquireInflight i | releaseInflight i => by_cases hi : i = id <;> simp [permitWeight, acquires, hi]
  | _ => simp [permitWeight, acquires]

namespace Executor

theorem apply_object (x : Executor) {e : Effect} (he : e.isForCheck = false) {id : String}
    {r : CheckResilience} (hl : x.resilience.lookup id = some r) (ha : e.acquires id = true → r.semaphore ≠ 0) :
    ∃ r', (x.apply e).resilience.lookup id = some r' ∧ SameParams r r' ∧
      (r'.semaphore : ℤ) = r.semaphore + e.permitWeight id := by
  have hcheck : ∀ (i : String) (f : CheckResilience → CheckResilience), (x.onCheck i f).resilience.lookup id =
      some (if i = id then f r else r) := by
    intro i f
    by_cases hi : i = id
    · subst hi
      rw [onCheck_lookup_self, hl, if_pos rfl]
      rfl
    · rw [onCheck_lookup_ne _ _ (Ne.symm hi), hl, if_neg hi]
  have hbreaker : ∀ (i : String) (ev : Time × BreakerCalls.CallEvent),
      SameParams r (if i = id then { r with circuitBreaker := BreakerCalls.onCall r.circuitBreaker ev } else r) ∧
        ((if i = id then { r with circuitBreaker := BreakerCalls.onCall r.circuitBreaker ev } else r).semaphore : ℤ) =
          r.semaphore + 0 := by
    intro i ev
    have hp := BreakerCalls.onCall_params r.circuitBreaker ev
    split
    · exact ⟨⟨rfl, rfl, hp.1, hp.2⟩, (add_zero _).symm⟩
    · exact ⟨SameParams.refl r, (add_zero _).symm⟩
  cases e with
  | forCheck i cfg => cases he
  | acquireInflight i =>
    refine ⟨_, hcheck i _, ?_⟩
    by_cases hi : i = id
    · have hpos := ha (by simp [Effect.acquires, hi])
      simp only [hi, if_true, Effect.permitWeight]
      exact ⟨⟨rfl, rfl, rfl, rfl⟩, by omega⟩
    · simp only [hi, if_false, Effect.permitWeight]
      exact ⟨SameParams.refl r, (add_zero _).symm⟩
  | releaseInflight i =>
    refine ⟨_, hcheck i _, ?_⟩
    by_cases hi : i = id
    · simp only [hi, if_true, Effect.permitWeight]
      exact ⟨⟨rfl, rfl, rfl, rfl⟩, by omega⟩
    · simp only [hi, if_false, Effect.permitWeight]
      exact ⟨SameParams.refl r, (add_zero _).symm⟩
  | callEnter i t => exact ⟨_, hcheck i _, hbreaker i (t, .enter 0)⟩
  | callExcept i t => exact ⟨_, hcheck i _, hbreaker i (t, .fail 0)⟩
  | callElse i => exact ⟨_, hcheck i _, hbreaker i (0, .succeed 0)⟩
  | _ => exact ⟨r, hl, SameParams.refl r, (add_zero _).symm⟩

/-- With a free permit for each one acquired, permits add up. -/
theorem applyAll_object {es : List Effect} {id : String} (hes : ∀ e ∈ es, e.isForCheck = false) :
    ∀ {x : Executor} {r : CheckResilience}, x.resilience.lookup id = some r →
      es.countP (Effect.acquires id) ≤ r.semaphore →
      ∃ r', (x.applyAll es).resilience.lookup id = some r' ∧ SameParams r r' ∧
        (r'.semaphore : ℤ) = r.semaphore + net (Effect.permitWeight id) es := by
  induction es with
  | nil => exact fun {x r} hl _ => ⟨r, hl, SameParams.refl r, (add_zero _).symm⟩
  | cons e es ih =>
    intro x r hl hn
    rw [List.forall_mem_cons] at hes
    rw [List.countP_cons] at hn
    have ha : e.acquires id = true → r.semaphore ≠ 0 := by
      intro h
      rw [if_pos h] at hn
      omega
    obtain ⟨r₁, hl₁, hp₁, hs₁⟩ := x.apply_object hes.1 hl ha
    have hn₁ : es.countP (Effect.acquires id) ≤ r₁.semaphore := by
      have := e.permitWeight_ge id
      split at hn <;> simp_all <;> omega
    obtain ⟨r₂, hl₂, hp₂, hs₂⟩ := ih hes.2 hl₁ hn₁
    exact ⟨r₂, hl₂, hp₁.trans hp₂, by rw [hs₂, hs₁, net_cons, add_assoc]⟩

end Executor

/-! ## The permits of a step -/

section Permits

variable {id : String} {es : List Effect}

theorem Effect.OfBody.noPermit {e : Effect} {i : String} (h : e.OfBody i) (id : String) :
    e.acquires id = false ∧ e.permitWeight id = 0 := by
  cases e <;> first | exact ⟨rfl, rfl⟩ | cases h

theorem Effect.OfExit.acquires {e : Effect} {i : String} (h : e.OfExit i) (id : String) :
    e.acquires id = false := by
  cases e <;> first | rfl | cases h

theorem countP_acquires_eq_zero (h : ∀ e ∈ es, e.acquires id = false) : es.countP (Effect.acquires id) = 0 := by
  rw [List.countP_eq_zero]
  intro e he
  rw [h e he]
  simp

/-- A pipeline takes a permit of its check and gives it back. -/
theorem balances_permitWeight (id : String) : Balances (Effect.permitWeight id) id (-1) 0 where
  admission := ⟨rfl, rfl, fun _ => rfl⟩
  breaker := ⟨rfl, fun _ => ⟨rfl, rfl⟩⟩
  report := ⟨rfl, fun _ _ => rfl⟩
  permit := by simp [Effect.permitWeight]
  opens := by simp [Effect.permitWeight]
  closes status hs ht := by simp [Effect.permitWeight]
  unread := by simp [Effect.permitWeight]
  body e he := (he.noPermit id).2

/-- A step takes a permit of its check where one is free. -/
theorem Resumes.countP_acquires {reg : Registry} {x : Executor} {cfg : PyDict} {clk : Clock} {p p' : Point}
    {reply : Reply} (h : Resumes reg x cfg clk p reply p' es) {r : CheckResilience}
    (hl : x.resilience.lookup (metricIdOf cfg) = some r) :
    es.countP (Effect.acquires (metricIdOf cfg)) ≤ r.semaphore := by
  have hexit : ∀ {bs : List Effect}, (∀ e ∈ bs, e.OfExit (metricIdOf cfg)) →
      bs.countP (Effect.acquires (metricIdOf cfg)) = 0 := fun hb =>
    countP_acquires_eq_zero fun e he => (hb e he).acquires _
  have hbody : ∀ {bs : List Effect}, (∀ e ∈ bs, e.OfBody (metricIdOf cfg)) →
      bs.countP (Effect.acquires (metricIdOf cfg)) = 0 := fun hb =>
    countP_acquires_eq_zero fun e he => ((hb e he).noPermit _).1
  cases h with
  | refused | entered | cancelledQueued | cancelledWaiting => exact Nat.zero_le _
  | timedOutWaiting =>
    rw [hexit ofExit_leaveUnstarted]
    exact Nat.zero_le _
  | @rejected f r' e hl' hs =>
    rw [hl] at hl'
    cases hl'
    have hone : (rejectEffects (metricIdOf cfg) clk.perf).countP (Effect.acquires (metricIdOf cfg)) = 1 := by
      simp [rejectEffects, Effect.acquires]
    rw [List.countP_append, hone, hexit ofExit_leaveUnstarted]
    omega
  | @started f r' hl' hs =>
    rw [hl] at hl'
    cases hl'
    have hone : (startEffects f.cbEnabled (metricIdOf cfg) clk.perf).countP (Effect.acquires (metricIdOf cfg)) =
        1 := by
      cases hcb : f.cbEnabled <;> simp [startEffects, Effect.acquires]
    rw [List.countP_append, List.countP_append, hone, hbody ofBody_startBody, hexit ofExit_settle]
    omega
  | @body f st q reply prog bs hb =>
    rw [List.countP_append, hbody (ofBody_resumeBody hb), hexit ofExit_settle]
    exact Nat.zero_le _
  | timedOut | cancelled =>
    rw [List.countP_append, hbody ofBody_dispatched, hexit ofExit_leave]
    exact Nat.zero_le _

end Permits

/-! ## What a run keeps -/

/-- The execution has been through `for_check`. -/
def Entered (log : List Happened) (task : ℕ) : Prop := ∃ o ∈ log, o.task = task ∧ o.point.frame?.isSome = true

/-- The object of an id was built for some execution of the id, and all the
permits it was built with are free or held by a running pipeline. -/
def BuiltFor (cfgOf : ℕ → PyDict) (s : Engine) (id : String) (r : CheckResilience) : Prop :=
  ∃ t r₀, metricIdOf (cfgOf t) = id ∧ ResilienceManager.build (dictAt (cfgOf t) "resilience") = .ok r₀ ∧
    SameParams r₀ r ∧ (r.semaphore : ℤ) + (s.runningTasks cfgOf id).card = r₀.semaphore

structure Keeps (cfgOf : ℕ → PyDict) (s : Engine) (log : List Happened) : Prop where
  built : ∀ id r, s.executor.resilience.lookup id = some r → BuiltFor cfgOf s id r
  entered : ∀ t, Entered log t → ∃ r, s.executor.resilience.lookup (metricIdOf (cfgOf t)) = some r
  frames : ∀ t f, (s.point t).frame? = some f → ∃ r,
    s.executor.resilience.lookup (metricIdOf (cfgOf t)) = some r ∧
      f.timeoutSeconds = r.timeoutSeconds ∧ f.cbEnabled = r.cbEnabled

theorem entered_concat {log : List Happened} {o : Happened} {t : ℕ} :
    Entered (log ++ [o]) t ↔ Entered log t ∨ (o.task = t ∧ o.point.frame?.isSome = true) := by
  simp only [Entered, List.mem_append, List.mem_singleton, or_and_right, exists_or, exists_eq_left]

section Step

variable {reg : Registry} {cfgOf : ℕ → PyDict} {s s' : Engine} {i : Input} {o : Happened}
  {log : List Happened}

/-- A step of a task changes the objects of no other id. -/
theorem lookup_step_ne (hs : Engine.step reg cfgOf s i = some (s', o)) {id : String}
    (hne : id ≠ metricIdOf (cfgOf i.task)) :
    s'.executor.resilience.lookup id = s.executor.resilience.lookup id := by
  obtain ⟨hr, hx, -⟩ := step_resumes hs
  rw [hx]
  exact (Executor.applyAll_frame hr.within hne _).1

/-- Entering the check leaves the objects alone, or does what `for_check` does. -/
theorem Resumes.arrives_object {x : Executor} {cfg : PyDict} {clk : Clock} {p' : Point} {reply : Reply}
    {es : List Effect} (h : Resumes reg x cfg clk .queued reply p' es) :
    (p'.frame? = none ∧ (x.applyAll es).resilience = x.resilience) ∨
      ∃ m r, ResilienceManager.forCheck x.resilience (metricIdOf cfg) (dictAt cfg "resilience") = .ok (m, r) ∧
        (x.applyAll es).resilience = m ∧ p'.frame? = some ⟨clk.perf, r.timeoutSeconds, r.cbEnabled⟩ := by
  cases h with
  | refused | cancelledQueued => exact .inl ⟨rfl, rfl⟩
  | @entered m r hsem hok =>
    refine .inr ⟨m, r, hok, ?_, rfl⟩
    simp only [Executor.applyAll, List.foldl_cons, List.foldl_nil, Executor.apply, hok]

/-- An object stays, with its parameters and with the permits it has out. -/
theorem object_kept (hs : Engine.step reg cfgOf s i = some (s', o)) {id : String} {r : CheckResilience}
    (hl : s.executor.resilience.lookup id = some r) :
    ∃ r', s'.executor.resilience.lookup id = some r' ∧ SameParams r r' ∧
      (r'.semaphore : ℤ) + (s'.runningTasks cfgOf id).card = r.semaphore + (s.runningTasks cfgOf id).card := by
  obtain ⟨hr, hx, hp, -⟩ := step_resumes hs
  by_cases hid : id = metricIdOf (cfgOf i.task)
  · subst hid
    have hcard := card_runningTasks_step hs
    rw [hp] at hcard
    by_cases hq : s.point i.task = .queued
    · rw [hq] at hr hcard
      refine ⟨r, ?_, SameParams.refl r, ?_⟩
      · rw [hx]
        exact hr.arrives_lookup hl
      · obtain ⟨-, hidle, -⟩ := hr.arrives (metricIdOf (cfgOf i.task)) i.task i.clock.perf
        have hzero : o.point.running01 = 0 := by rw [Point.running01, hidle]; rfl
        have hqueued : Point.queued.running01 = 0 := rfl
        omega
    · have hnet := hr.balance (balances_permitWeight _)
      obtain ⟨r', hl', hpar, hsem⟩ := Executor.applyAll_object (hr.notForCheck hq) hl (hr.countP_acquires hl)
      rw [← hx] at hl'
      exact ⟨r', hl', hpar, by omega⟩
  · refine ⟨r, (lookup_step_ne hs hid).trans hl, SameParams.refl r, ?_⟩
    rw [runningTasks_step_ne hs (Ne.symm hid)]

/-- An execution that is in has an object, with the parameters of its frame. -/
theorem frame_object (hI : Keeps cfgOf s log) (hs : Engine.step reg cfgOf s i = some (s', o)) {f : Frame}
    (hf : o.point.frame? = some f) :
    ∃ r, s'.executor.resilience.lookup (metricIdOf (cfgOf i.task)) = some r ∧
      f.timeoutSeconds = r.timeoutSeconds ∧ f.cbEnabled = r.cbEnabled := by
  obtain ⟨hr, hx, -⟩ := step_resumes hs
  by_cases hq : s.point i.task = .queued
  · rw [hq] at hr
    rcases hr.arrives_object with ⟨hnone, -⟩ | ⟨m, r, hok, hres, hframe⟩
    · rw [hnone] at hf
      cases hf
    · rw [hframe] at hf
      cases hf
      rw [hx, hres]
      rcases forCheck_lookup hok with ⟨hl, rfl⟩ | ⟨-, -, hl⟩
      · exact ⟨r, hl, rfl, rfl⟩
      · exact ⟨r, hl, rfl, rfl⟩
  · rcases hr.frame hq with hnone | hsame
    · rw [hnone] at hf
      cases hf
    · rw [hsame] at hf
      obtain ⟨r, hl, hft, hfc⟩ := hI.frames i.task f hf
      obtain ⟨r', hl', hpar, -⟩ := object_kept hs hl
      exact ⟨r', hl', hft.trans hpar.timeout.symm, hfc.trans hpar.enabled.symm⟩

/-- A running pipeline has an object. -/
theorem Keeps.idle (hI : Keeps cfgOf s log) {id : String} (hnone : s.executor.resilience.lookup id = none) :
    s.runningTasks cfgOf id = ∅ := by
  ext t
  rw [mem_runningTasks]
  simp only [Finset.notMem_empty, iff_false, not_and]
  rintro hrun rfl
  have hf : (s.point t).frame? ≠ none := by
    intro hf
    rw [Point.notRunning_of_frame hf] at hrun
    cases hrun
  obtain ⟨f, hf⟩ := Option.ne_none_iff_exists'.1 hf
  obtain ⟨r, hl, -⟩ := hI.frames t f hf
  rw [hnone] at hl
  cases hl

/-- An object is built by an execution of its id that gets in, when no
execution of the id has been in before. -/
theorem object_new (hI : Keeps cfgOf s log) (hs : Engine.step reg cfgOf s i = some (s', o)) {id : String}
    {r : CheckResilience} (hnone : s.executor.resilience.lookup id = none)
    (hl : s'.executor.resilience.lookup id = some r) :
    metricIdOf (cfgOf i.task) = id ∧ o.point.frame?.isSome = true ∧
      ResilienceManager.build (dictAt (cfgOf i.task) "resilience") = .ok r ∧ s'.runningTasks cfgOf id = ∅ := by
  obtain ⟨hr, hx, hp, hne, -⟩ := step_resumes hs
  have hid : id = metricIdOf (cfgOf i.task) := by
    by_contra hid
    rw [lookup_step_ne hs hid, hnone] at hl
    cases hl
  subst hid
  have hq : s.point i.task = .queued := by
    by_contra hq
    obtain ⟨f, hf⟩ := Option.ne_none_iff_exists'.1 (hr.frame_ne_none hq)
    obtain ⟨r', hl', -⟩ := hI.frames i.task f hf
    rw [hnone] at hl'
    cases hl'
  rw [hq] at hr
  rcases hr.arrives_object with ⟨-, hres⟩ | ⟨m, r', hok, hres, hframe⟩
  · rw [hx, hres, hnone] at hl
    cases hl
  rw [hx, hres] at hl
  rcases forCheck_lookup hok with ⟨hl', -⟩ | ⟨-, hb, hl'⟩
  · rw [hnone] at hl'
    cases hl'
  · rw [hl] at hl'
    cases hl'
    have hcard := card_runningTasks_step hs
    obtain ⟨-, hidle, -⟩ := hr.arrives (metricIdOf (cfgOf i.task)) i.task i.clock.perf
    have hzero : (s'.point i.task).running01 = 0 := by rw [hp, Point.running01, hidle]; rfl
    have hqueued : (s.point i.task).running01 = 0 := by rw [hq]; rfl
    rw [hzero, hqueued, hI.idle hnone, Finset.card_empty] at hcard
    refine ⟨rfl, by rw [hframe]; rfl, hb, Finset.card_eq_zero.1 ?_⟩
    omega

theorem Keeps.step (hI : Keeps cfgOf s log) (hs : Engine.step reg cfgOf s i = some (s', o)) :
    Keeps cfgOf s' (log ++ [o]) := by
  obtain ⟨-, -, -, -, ho, -⟩ := step_resumes hs
  have hframes := forall_point hs (P := fun t p => ∀ f, p.frame? = some f → ∃ r,
    s'.executor.resilience.lookup (metricIdOf (cfgOf t)) = some r ∧
      f.timeoutSeconds = r.timeoutSeconds ∧ f.cbEnabled = r.cbEnabled)
  refine ⟨fun id r' hl' => ?_, fun t ht => ?_, fun t => hframes (fun f hf => frame_object hI hs hf) ?_ t⟩
  · cases hl : s.executor.resilience.lookup id with
    | some r =>
      obtain ⟨r'', hl'', hpar, hsum⟩ := object_kept hs hl
      rw [hl'] at hl''
      cases hl''
      obtain ⟨t, r₀, ht, hb, hpar₀, hsum₀⟩ := hI.built id r hl
      exact ⟨t, r₀, ht, hb, hpar₀.trans hpar, hsum.trans hsum₀⟩
    | none =>
      obtain ⟨hid, -, hb, hidle⟩ := object_new hI hs hl hl'
      exact ⟨i.task, r', hid, hb, SameParams.refl r', by rw [hidle]; simp⟩
  · rcases entered_concat.1 ht with hold | ⟨rfl, hframe⟩
    · obtain ⟨r, hl⟩ := hI.entered t hold
      obtain ⟨r', hl', -⟩ := object_kept hs hl
      exact ⟨r', hl'⟩
    · obtain ⟨f, hf⟩ := Option.isSome_iff_exists.1 hframe
      obtain ⟨r, hl, -⟩ := frame_object hI hs hf
      exact ⟨r, by rw [ho]; exact hl⟩
  · intro t _ f hf
    obtain ⟨r, hl, hft, hfc⟩ := hI.frames t f hf
    obtain ⟨r', hl', hpar, -⟩ := object_kept hs hl
    exact ⟨r', hl', hft.trans hpar.timeout.symm, hfc.trans hpar.enabled.symm⟩

end Step

theorem keeps_run {reg : Registry} {cfgOf : ℕ → PyDict} {x₀ : Executor} (hx : x₀.resilience = ∅)
    {is : List Input} {log : List Happened} {s : Engine}
    (h : run (Engine.step reg cfgOf) (start x₀) is = some (s, log)) : Keeps cfgOf s log := by
  refine run_induction (fun _ log s => Keeps cfgOf s log) ?_ (fun _ _ _ _ _ _ _ hI hs => hI.step hs) h
  refine ⟨fun id r hr => ?_, fun t ht => ?_, fun t f hf => by cases hf⟩
  · rw [show (start x₀).executor.resilience = ∅ from hx, AList.lookup_empty] at hr
    cases hr
  · obtain ⟨o, ho, -⟩ := ht
    cases ho

end SentinelFlow
