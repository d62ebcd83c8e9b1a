/-
The two levels of permits of a batch: `_semaphore`, which all checks share,
and the semaphore of each metric id. Every permit is free or held, whatever
is started, answered, timed out or cancelled in whatever order, so neither
bound is ever exceeded, and when nothing is under way every permit is back.

A step takes a shared permit when an invocation gets in and returns it when
the invocation is through (`Resumes.permits`). The permits of an id are those
of its object (`object_kept`), which was built for the execution of the id
that got in first.
-/
import SentinelFlow.Engine.CheckObjects

namespace SentinelFlow

open Machine Engine

/-! ## The shared semaphore -/

def Effect.isPermit : Effect → Bool
  | .acquire | .release => true
  | _ => false

/-- The invocation holds a permit of the executor's semaphore. -/
def Point.holds (p : Point) : Bool := p.frame?.isSome

section Permits

variable {x : Executor} {id : String} {es : List Effect}

theorem Executor.applyAll_semaphore : ∀ {es : List Effect} (x : Executor), (∀ e ∈ es, e.isPermit = false) →
    (x.applyAll es).semaphore = x.semaphore
  | [], _, _ => rfl
  | e :: es, x, h => by
    rw [List.forall_mem_cons] at h
    have hone : (x.apply e).semaphore = x.semaphore := by
      cases e with
      | acquire | release => cases h.1
      | forCheck i cfg =>
        simp only [apply]
        split <;> rfl
      | acquireInflight | releaseInflight | callEnter | callExcept | callElse =>
        simp only [apply, onBreaker, onCheck]
        split <;> rfl
      | _ => rfl
    exact (applyAll_semaphore (x.apply e) h.2).trans hone

theorem Executor.applyAll_append (x : Executor) (es fs : List Effect) :
    x.applyAll (es ++ fs) = (x.applyAll es).applyAll fs := List.foldl_append

theorem Effect.OfBody.notPermit {e : Effect} (h : e.OfBody id) : e.isPermit = false := by
  cases e <;> first | rfl | cases h

theorem notPermit_exceptTimeout {d : Time} {r : Except Raised Unit} :
    ∀ e ∈ (exceptTimeout id d r).2, e.isPermit = false := by
  unfold exceptTimeout
  split
  · split <;> simp [Effect.isPermit]
  · simp

theorem semaphore_leave {f : Frame} {st now : Time} {e : PipelineEnd} :
    (x.applyAll (leave f id st now e).2).semaphore = x.semaphore + 1 := by
  have hbody : ∀ ev ∈ (closeBody id ((now - st) * 1000) e).2, ev.isPermit = false := by
    cases e with
    | raised e =>
      rcases closeBody_raised id ((now - st) * 1000) e with ⟨-, -, hb⟩ | ⟨-, -, hb⟩ | ⟨e', -, -, hb⟩ <;>
        rw [hb] <;> simp [Effect.isPermit]
    | passed | alerted | cut => simp [closeBody, Effect.isPermit]
  have hexit : ∀ ev ∈ exitCall f.cbEnabled id now (closeBody id ((now - st) * 1000) e).1,
      ev.isPermit = false := by
    unfold exitCall
    split
    case h_3 => simp
    all_goals split <;> simp [Effect.isPermit]
  simp only [leave]
  rw [Executor.applyAll_append]
  refine congrArg (· + 1) (Executor.applyAll_semaphore x fun ev hev => ?_)
  simp only [List.mem_append, List.mem_singleton, or_assoc] at hev
  rcases hev with hev | rfl | hev | rfl | hev
  · exact hbody ev hev
  · rfl
  · exact hexit ev hev
  · rfl
  · exact notPermit_exceptTimeout ev hev

theorem semaphore_leaveUnstarted {f : Frame} {now : Time} {e : Exc} :
    (x.applyAll (leaveUnstarted f id now e).2).semaphore = x.semaphore + 1 := by
  simp only [leaveUnstarted]
  rw [Executor.applyAll_append]
  exact congrArg (· + 1) (Executor.applyAll_semaphore x notPermit_exceptTimeout)

theorem semaphore_settle {f : Frame} {st now : Time} {prog : Progress} :
    (x.applyAll (settle f id st now prog).2).semaphore +
      (settle f id st now prog).1.holds.toNat = x.semaphore + 1 := by
  cases prog with
  | paused p => rfl
  | ended e => exact semaphore_leave

/-- A permit goes with the frame. -/
theorem Resumes.permits {reg : Registry} {cfg : PyDict} {clk : Clock} {p p' : Point} {reply : Reply}
    (h : Resumes reg x cfg clk p reply p' es) :
    (x.applyAll es).semaphore + p'.holds.toNat = x.semaphore + p.holds.toNat := by
  have hbefore : ∀ {fs gs : List Effect}, (∀ e ∈ fs, e.isPermit = false) →
      (x.applyAll (fs ++ gs)).semaphore = ((x.applyAll fs).applyAll gs).semaphore ∧
        (x.applyAll fs).semaphore = x.semaphore :=
    fun hfs => ⟨by rw [Executor.applyAll_append], x.applyAll_semaphore hfs⟩
  cases h with
  | refused hs =>
    have hx : (x.applyAll [.acquire, .release]).semaphore = x.semaphore - 1 + 1 := rfl
    rw [hx, Nat.sub_add_cancel (Nat.pos_of_ne_zero hs)]
    rfl
  | entered hs =>
    rw [show ∀ e : Effect, [Effect.acquire, e] = [.acquire] ++ [e] from fun _ => rfl, Executor.applyAll_append,
      Executor.applyAll_semaphore _ (by simp [Effect.isPermit])]
    exact Nat.sub_add_cancel (Nat.pos_of_ne_zero hs)
  | cancelledQueued => rfl
  | cancelledWaiting => rfl
  | timedOutWaiting => exact semaphore_leaveUnstarted
  | rejected =>
    obtain ⟨h₁, h₂⟩ :=
      @hbefore (rejectEffects (metricIdOf cfg) clk.perf) _ (by simp [rejectEffects, Effect.isPermit])
    rw [h₁, semaphore_leaveUnstarted, h₂]
    rfl
  | @started f =>
    have hstart : ∀ e ∈ startEffects f.cbEnabled (metricIdOf cfg) clk.perf ++ (startBody reg cfg).2,
        e.isPermit = false := by
      rw [List.forall_mem_append]
      refine ⟨?_, fun e he => (ofBody_startBody e he).notPermit⟩
      unfold startEffects
      split <;> simp [Effect.isPermit]
    obtain ⟨h₁, h₂⟩ := hbefore hstart
    rw [← List.append_assoc, h₁, semaphore_settle, h₂]
    rfl
  | body hb =>
    obtain ⟨h₁, h₂⟩ := hbefore fun e he => (ofBody_resumeBody hb e he).notPermit
    rw [h₁, semaphore_settle, h₂]
    rfl
  | timedOut | cancelled =>
    obtain ⟨h₁, h₂⟩ := hbefore fun e he => (ofBody_dispatched e he).notPermit
    rw [h₁, semaphore_leave, h₂]
    rfl

end Permits

/-- The tasks that hold one. -/
def Engine.inside (s : Engine) : Finset ℕ := s.tasks.keys.toFinset.filter fun t => (s.point t).holds = true

/-! ## Whose bound it is -/

/-- The execution of an id that got in first: the object of the id is built
from its configuration. -/
def firstIn (cfgOf : ℕ → PyDict) (id : String) (log : List Happened) : Option ℕ :=
  (log.find? fun o => decide (metricIdOf (cfgOf o.task) = id) && o.point.frame?.isSome).map (·.task)

/-- `int(max_inflight)` of that configuration; 0 while no execution of the
id has got in. -/
def maxInflight (cfgOf : ℕ → PyDict) (id : String) (log : List Happened) : ℕ :=
  match (firstIn cfgOf id log).map fun t => ResilienceManager.build (dictAt (cfgOf t) "resilience") with
  | some (.ok r) => r.semaphore
  | _ => 0

/-- The free permits of an id; none before its object is built. -/
def Engine.freeInflight (s : Engine) (id : String) : ℕ :=
  match s.executor.resilience.lookup id with
  | some r => r.semaphore
  | none => 0

section Runs

variable {reg : Registry} {cfgOf : ℕ → PyDict} {s s' : Engine} {i : Input} {o : Happened} {log : List Happened}

theorem mem_inside {t : ℕ} : t ∈ s.inside ↔ (s.point t).holds = true := by
  simp only [inside, Finset.mem_filter, List.mem_toFinset, and_iff_right_iff_imp]
  intro h
  refine mem_keys_of_ne_queued fun hq => ?_
  rw [hq] at h
  cases h

/-- The permits free and the permits held stand still together. -/
theorem slots_step (h : Engine.step reg cfgOf s i = some (s', o)) :
    s'.executor.semaphore + s'.inside.card = s.executor.semaphore + s.inside.card := by
  obtain ⟨hr, hx, hp, hother, -⟩ := step_resumes h
  have herase : s'.inside.erase i.task = s.inside.erase i.task := by
    ext t
    simp only [Finset.mem_erase, mem_inside]
    refine and_congr_right fun ht => ?_
    rw [hother t ht]
  have hcard := card_of_erase_eq herase
  have hpermits := hr.permits
  rw [← hx, ← hp] at hpermits
  simp only [mem_inside] at hcard
  have htoNat : ∀ b : Bool, (b.toNat : ℤ) = if b = true then 1 else 0 := by decide
  rw [← htoNat, ← htoNat] at hcard
  omega

theorem firstIn_concat {id : String} :
    firstIn cfgOf id (log ++ [o]) = (firstIn cfgOf id log).or
      (if metricIdOf (cfgOf o.task) = id ∧ o.point.frame?.isSome = true then some o.task else none) := by
  unfold firstIn
  rw [List.find?_append, Option.map_or]
  congr 1
  by_cases h : metricIdOf (cfgOf o.task) = id ∧ o.point.frame?.isSome = true
  · simp [h]
  · rw [if_neg h]
    simp only [Option.map_eq_none_iff, List.find?_eq_none, List.mem_singleton, forall_eq]
    simpa using h

theorem entered_of_firstIn {id : String} {t : ℕ} (h : firstIn cfgOf id log = some t) :
    Entered log t ∧ metricIdOf (cfgOf t) = id := by
  obtain ⟨o, ho, rfl⟩ := Option.map_eq_some_iff.1 h
  have hp := List.find?_some ho
  simp only [Bool.and_eq_true, decide_eq_true_eq] at hp
  exact ⟨⟨o, List.mem_of_find?_eq_some ho, rfl, hp.2⟩, hp.1⟩

/-- Every permit of either level is free or held, and the object of an id is
the one its first execution asks for. -/
structure Conserved (cfgOf : ℕ → PyDict) (limit : ℕ) (s : Engine) (log : List Happened) : Prop where
  slots : s.executor.semaphore + s.inside.card = limit
  inflight : ∀ id r, s.executor.resilience.lookup id = some r → ∃ t r₀, firstIn cfgOf id log = some t ∧
    ResilienceManager.build (dictAt (cfgOf t) "resilience") = .ok r₀ ∧
    (r.semaphore : ℤ) + (s.runningTasks cfgOf id).card = r₀.semaphore

/-- No execution of an id without an object has been in. -/
theorem firstIn_eq_none (hK : Keeps cfgOf s log) {id : String} (hl : s.executor.resilience.lookup id = none) :
    firstIn cfgOf id log = none := by
  cases hf : firstIn cfgOf id log with
  | none => rfl
  | some t =>
    obtain ⟨hent, rfl⟩ := entered_of_firstIn hf
    obtain ⟨r, hr⟩ := hK.entered t hent
    rw [hl] at hr
    cases hr

theorem Conserved.step {limit : ℕ} (hK : Keeps cfgOf s log) (hI : Conserved cfgOf limit s log)
    (hs : Engine.step reg cfgOf s i = some (s', o)) : Conserved cfgOf limit s' (log ++ [o]) := by
  obtain ⟨-, -, -, -, ho, -⟩ := step_resumes hs
  refine ⟨(slots_step hs).trans hI.slots, fun id r' hl' => ?_⟩
  rw [firstIn_concat]
  cases hl : s.executor.resilience.lookup id with
  | some r =>
    obtain ⟨r'', hl'', -, hsum⟩ := object_kept hs hl
    rw [hl'] at hl''
    cases hl''
    obtain ⟨t, r₀, ht, hb, hsum₀⟩ := hI.inflight id r hl
    exact ⟨t, r₀, by rw [ht]; rfl, hb, hsum.trans hsum₀⟩
  | none =>
    obtain ⟨hid, hin, hb, hidle⟩ := object_new hK hs hl hl'
    refine ⟨i.task, r', ?_, hb, by rw [hidle]; simp⟩
    rw [firstIn_eq_none hK hl, ho, if_pos ⟨hid, hin⟩]
    rfl

theorem conserved_run {x₀ : Executor} (hx : x₀.resilience = ∅) {is : List Input}
    (h : run (Engine.step reg cfgOf) (start x₀) is = some (s, log)) : Conserved cfgOf x₀.semaphore s log := by
  refine run_induction (fun _ log s => Conserved cfgOf x₀.semaphore s log) ?_ ?_ h
  · refine ⟨?_, fun id r hr => ?_⟩
    · have hnone : (start x₀).inside = ∅ := rfl
      rw [hnone, Finset.card_empty]
      exact add_zero _
    · rw [show (start x₀).executor.resilience = ∅ from hx, AList.lookup_empty] at hr
      cases hr
  · intro is log s i o s' hr hI hs
    exact hI.step (keeps_run hx hr) hs

/-- The permits of an id, told from its first execution. -/
theorem inflight_balance {x₀ : Executor} (hx : x₀.resilience = ∅) {is : List Input}
    (h : run (Engine.step reg cfgOf) (start x₀) is = some (s, log)) (id : String) :
    s.freeInflight id + (s.runningTasks cfgOf id).card = maxInflight cfgOf id log := by
  have hK := keeps_run hx h
  unfold freeInflight maxInflight
  cases hl : s.executor.resilience.lookup id with
  | none =>
    rw [firstIn_eq_none hK hl, hK.idle hl]
    rfl
  | some r =>
    obtain ⟨t, r₀, ht, hb, hsum⟩ := (conserved_run hx h).inflight id r hl
    rw [ht, Option.map_some, hb]
    show r.semaphore + (s.runningTasks cfgOf id).card = r₀.semaphore
    omega

/-- Where no invocation is under way, no permit is held. -/
theorem free_of_idle {x₀ : Executor} (hx : x₀.resilience = ∅) {is : List Input}
    (h : run (Engine.step reg cfgOf) (start x₀) is = some (s, log)) (hout : ∀ t, (s.point t).frame? = none) :
    s.executor.semaphore = x₀.semaphore ∧ ∀ id, s.freeInflight id = maxInflight cfgOf id log := by
  have hslots := (conserved_run hx h).slots
  have hinside : s.inside = ∅ := by
    ext t
    rw [mem_inside, Point.holds, hout t]
    simp
  rw [hinside, Finset.card_empty] at hslots
  refine ⟨hslots, fun id => ?_⟩
  have hidle : s.runningTasks cfgOf id = ∅ := by
    ext t
    rw [mem_runningTasks, Point.notRunning_of_frame (hout t)]
    simp
  have hsum := inflight_balance hx h id
  rwa [hidle, Finset.card_empty, add_zero] at hsum

/-- **Bounded, and nothing leaks.** In every state that any executions reach,
however they are started, answered, timed out and cancelled: no more checks
are inside `_execute_single_check` than the executor has permits, no more
pipelines of an id are running than its `max_inflight`, and when no
invocation is under way every permit of both levels is free again. -/
theorem permits_conserved {x₀ : Executor} (hx : x₀.resilience = ∅) {is : List Input}
    (h : run (Engine.step reg cfgOf) (start x₀) is = some (s, log)) :
    s.inside.card ≤ x₀.semaphore ∧ (∀ id, (s.runningTasks cfgOf id).card ≤ maxInflight cfgOf id log) ∧
      ((∀ t, s.point t = .queued ∨ ∃ e r, s.point t = .finished e r) →
        s.executor.semaphore = x₀.semaphore ∧ ∀ id, s.freeInflight id = maxInflight cfgOf id log) := by
  have hslots := (conserved_run hx h).slots
  refine ⟨by omega, fun id => ?_, fun hdone => ?_⟩
  · have hsum := inflight_balance hx h id
    omega
  · refine free_of_idle hx h fun t => ?_
    rcases hdone t with ht | ⟨e, r, ht⟩ <;> rw [ht] <;> rfl

end Runs

/-- One invocation has failed, and the other is cancelled while it fetches. -/
theorem permits_conserved_overlapping :
    ∃ s log, run (Engine.step .builtin fun _ => exampleCheck "m" [("max_inflight", .int 3)]) (start { semaphore := 2 })
        (overlapping ++ [⟨1, ⟨2, 2⟩, .cancel []⟩]) = some (s, log) ∧
      s.executor.semaphore = 2 ∧ s.freeInflight "m" = 3 := by
  have h : (run (Engine.step .builtin fun _ => exampleCheck "m" [("max_inflight", .int 3)]) (start { semaphore := 2 })
      (overlapping ++ [⟨1, ⟨2, 2⟩, .cancel []⟩])).any (fun p => p.1.tasks.keys.all (fun t => (p.1.point t).frame?.isNone) &&
        maxInflight (fun _ => exampleCheck "m" [("max_inflight", .int 3)]) "m" p.2 == 3) = true := by decide +kernel
  obtain ⟨⟨s, log⟩, hs, hq⟩ := (Option.any_eq_true _ _).1 h
  simp only [Bool.and_eq_true, beq_iff_eq, List.all_eq_true, Option.isNone_iff_eq_none] at hq
  obtain ⟨hover, hmax⟩ := hq
  have hdone : ∀ t, s.point t = .queued ∨ ∃ e r, s.point t = .finished e r := by
    intro t
    by_cases hq : s.point t = .queued
    · exact .inl hq
    · have hf := hover t (mem_keys_of_ne_queued hq)
      cases hp : s.point t with
      | queued => exact .inl rfl
      | finished e r => exact .inr ⟨e, r, rfl⟩
      | waiting f | running f =>
        rw [hp] at hf
        cases hf
  obtain ⟨hslots, hinflight⟩ := (permits_conserved rfl hs).2.2 hdone
  exact ⟨s, log, hs, hslots, (hinflight "m").trans hmax⟩

end SentinelFlow
