/-
What `get_recent` tells. The executor keeps a ring of a hundred results for
each check id, and any number of executions write into it in whatever order
they end. It holds the last hundred results that the executions of that id
have written, in the order they were written, and no one else's
(`recent_results`).
-/
import SentinelFlow.Engine.Dispatching
import SentinelFlow.Engine.Isolation
import SentinelFlow.Lib.Ring

namespace SentinelFlow

open Machine Engine Ring

/-! ## Results -/

def Effect.result? : Effect → Option ExecutionRecord
  | .addResult _ success durationMs => some ⟨success, durationMs⟩
  | _ => none

def results (es : List Effect) : List ExecutionRecord := es.filterMap Effect.result?

/-- The results that executions of the id have written, in order. -/
def resultsOf (cfgOf : ℕ → PyDict) (id : String) (log : List Happened) : List ExecutionRecord :=
  (log.filter fun o => metricIdOf (cfgOf o.task) = id).flatMap fun o => results o.effects

section Results

variable {cfgOf : ℕ → PyDict} {id : String} {log : List Happened} {o : Happened}

theorem resultsOf_concat (h : metricIdOf (cfgOf o.task) = id) :
    resultsOf cfgOf id (log ++ [o]) = resultsOf cfgOf id log ++ results o.effects := by
  simp [resultsOf, h]

theorem resultsOf_concat_ne (h : metricIdOf (cfgOf o.task) ≠ id) :
    resultsOf cfgOf id (log ++ [o]) = resultsOf cfgOf id log := by
  simp [resultsOf, h]

end Results

/-! ## Rings -/

section Effects

variable {id : String}

/-- An effect that writes no result leaves every ring alone. -/
theorem Executor.apply_history (x : Executor) {e : Effect} (h : e.result? = none) :
    (x.apply e).history = x.history := by
  cases e with
  | addResult i success durationMs => cases h
  | forCheck i cfg =>
    simp only [apply]
    split <;> rfl
  | acquireInflight | releaseInflight | callEnter | callExcept | callElse => simp [apply, onBreaker]
  | _ => rfl

/-- The ring of an id after the effects of its executions. -/
theorem Executor.applyAll_ring {es : List Effect} (hes : ∀ e ∈ es, e.Within id) {x : Executor}
    {rs : List ExecutionRecord} (hx : x.history.getRecent id = rs.rtake x.history.maxSize) :
    (x.applyAll es).history.getRecent id = (rs ++ results es).rtake (x.applyAll es).history.maxSize := by
  induction es generalizing x rs with
  | nil =>
    rw [results, List.filterMap_nil, List.append_nil]
    exact hx
  | cons e es ih =>
    rw [List.forall_mem_cons] at hes
    cases he : e.result? with
    | none =>
      have hsame : (x.apply e).history = x.history := x.apply_history he
      have hrest := ih hes.2 (by rw [hsame, hx] : (x.apply e).history.getRecent id = rs.rtake (x.apply e).history.maxSize)
      rw [results, List.filterMap_cons_none he]
      exact hrest
    | some r =>
      cases e with
      | addResult i success durationMs =>
        cases he
        obtain rfl : i = id := hes.1 i rfl
        have hring : (x.apply (.addResult i success durationMs)).history.getRecent i =
            (rs ++ [(⟨success, durationMs⟩ : ExecutionRecord)]).rtake
              (x.apply (.addResult i success durationMs)).history.maxSize := by
          show (x.history.addResult i success durationMs).getRecent i = _
          rw [ExecutionHistory.getRecent_addResult_self, hx]
          exact rtake_append_rtake rs _ _
        have hresult : (Effect.addResult i success durationMs).result? = some ⟨success, durationMs⟩ := rfl
        rw [results, List.filterMap_cons_some hresult, List.append_cons]
        exact ih hes.2 hring
      | _ => cases he

theorem Executor.applyAll_maxSize (es : List Effect) :
    ∀ x : Executor, (x.applyAll es).history.maxSize = x.history.maxSize := by
  induction es with
  | nil => exact fun x => rfl
  | cons e es ih => exact fun x => (ih (x.apply e)).trans (x.apply_maxSize e)

end Effects

/-! ## Runs -/

section Runs

variable {reg : Registry} {cfgOf : ℕ → PyDict} {x₀ : Executor} {is : List Input} {log : List Happened} {s : Engine}

theorem maxSize_run (h : run (Engine.step reg cfgOf) (start x₀) is = some (s, log)) :
    s.executor.history.maxSize = x₀.history.maxSize := by
  refine run_induction (fun _ _ s => s.executor.history.maxSize = x₀.history.maxSize) rfl
    (fun is log s i o s' _ hs hst => ?_) h
  rw [(step_resumes hst).2.1, Executor.applyAll_maxSize]
  exact hs

/-- **The recent results.** In every state that executions reach, of any
checks in any order: what `get_recent` returns for an id is the last
hundred of the results that its own executions have written. -/
theorem recent_results (hx : x₀.history = {}) (h : run (Engine.step reg cfgOf) (start x₀) is = some (s, log))
    (id : String) : s.executor.history.getRecent id = (resultsOf cfgOf id log).rtake 100 := by
  have hsize := maxSize_run h
  have hring : s.executor.history.getRecent id = (resultsOf cfgOf id log).rtake s.executor.history.maxSize := by
    refine run_induction
      (fun _ log s => s.executor.history.getRecent id = (resultsOf cfgOf id log).rtake s.executor.history.maxSize) ?_
      (fun is log s i o s' _ hI hs => ?_) h
    · show x₀.history.getRecent id = [].rtake x₀.history.maxSize
      rw [hx, List.rtake_nil]
      rfl
    · obtain ⟨hr, hx', -, -, htask, -⟩ := step_resumes hs
      by_cases hid : metricIdOf (cfgOf i.task) = id
      · rw [resultsOf_concat (by rw [htask]; exact hid), hx']
        exact Executor.applyAll_ring (hid ▸ hr.within) hI
      · rw [resultsOf_concat_ne (by rw [htask]; exact hid), hx', Executor.applyAll_maxSize,
          (Executor.applyAll_frame hr.within (Ne.symm hid) _).2]
        exact hI
  rw [hring, hsize, hx]

end Runs

theorem recent_results_failingHandler :
    ∃ s log, run (Engine.step .builtin fun _ => exampleCheck "reqs" []) (start { semaphore := 1 })
        failingHandler = some (s, log) ∧
      s.executor.history.getRecent "reqs" = (resultsOf (fun _ => exampleCheck "reqs" []) "reqs" log).rtake 100 ∧
      (s.executor.history.getRecent "reqs").length = 1 := by
  have h : (run (Engine.step .builtin fun _ => exampleCheck "reqs" []) (start { semaphore := 1 })
      failingHandler).any (fun p => (p.1.executor.history.getRecent "reqs").length == 1) = true := by decide +kernel
  obtain ⟨⟨s, log⟩, hs, hq⟩ := (Option.any_eq_true _ _).1 h
  exact ⟨s, log, hs, recent_results rfl hs "reqs", beq_iff_eq.1 hq⟩

end SentinelFlow
