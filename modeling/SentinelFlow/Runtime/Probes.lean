/-
Recovery probes: the calls admitted while the breaker is `OPEN` or
`HALF_OPEN`, and how many of them run at once.

The breaker has no gate for the second probe. `Watched` carries a ledger of
the probes in flight, which no step looks at; what it shows is that from
the transition to `HALF_OPEN` until some call finishes, everybody who asks
probes too (`probes_until_finish`).
-/
import SentinelFlow.Runtime.BreakerCalls

namespace SentinelFlow.BreakerCalls

open Machine Timed

/-- The calls, and those in flight that were admitted to probe. -/
structure Watched where
  calls : Calls
  probes : List ℕ
  deriving DecidableEq, Repr

/-- The ledger after a step that met the breaker in this state. -/
def note (before : CircuitState) (probes : List ℕ) : CallEvent → Answer → List ℕ
  | .enter id, .admitted => if before = .closed then probes else id :: probes
  | .enter _, _ => probes
  | .succeed id, _ | .fail id, _ | .cancel id, _ => probes.erase id

def watch (w : Watched) (e : Time × CallEvent) : Option (Watched × Answer) :=
  (step w.calls e).map fun p => (⟨p.1, note w.calls.breaker.state w.probes e.2 p.2⟩, p.2)

theorem watch_eq_some {w w' : Watched} {e : Time × CallEvent} {a : Answer} :
    watch w e = some (w', a) ↔
      step w.calls e = some (w'.calls, a) ∧ w'.probes = note w.calls.breaker.state w.probes e.2 a := by
  obtain ⟨calls', probes'⟩ := w'
  simp only [watch, Option.map_eq_some_iff, Prod.mk.injEq, Watched.mk.injEq, Prod.exists]
  constructor
  · rintro ⟨c, a', hs, ⟨rfl, rfl⟩, rfl⟩
    exact ⟨hs, rfl⟩
  · rintro ⟨hs, rfl⟩
    exact ⟨_, _, hs, ⟨rfl, rfl⟩, rfl⟩

/-- The ledger is about the calls and nothing else: a watched run is a run. -/
theorem run_watch {w w' : Watched} {tr : Trace} {as : List Answer} (h : run watch w tr = some (w', as)) :
    run step w.calls tr = some (w'.calls, as) := by
  induction tr generalizing w as with
  | nil =>
    simp only [run_nil, Option.some.injEq, Prod.mk.injEq] at h ⊢
    exact ⟨congrArg Watched.calls h.1, h.2⟩
  | cons e tr ih =>
    obtain ⟨u, a, as', hs, hr, rfl⟩ := run_cons.1 h
    exact run_cons.2 ⟨u.calls, a, as', (watch_eq_some.1 hs).1, ih hr, rfl⟩

/-- Probes are calls in flight. -/
theorem probes_sublist_step {w w' : Watched} {e : Time × CallEvent} {a : Answer}
    (h : w.probes.Sublist w.calls.inFlight) (hs : watch w e = some (w', a)) :
    w'.probes.Sublist w'.calls.inFlight := by
  obtain ⟨now, e⟩ := e
  obtain ⟨hst, hp⟩ := watch_eq_some.1 hs
  rw [hp]
  rcases step_cases hst with ⟨id, b, -, rfl, -, hc, rfl⟩ | ⟨id, -, rfl, -, hc, rfl⟩ |
    ⟨id, rfl, -, hc, -⟩ | ⟨id, rfl, -, hc, -⟩ | ⟨id, rfl, -, hc, -⟩ <;> rw [hc]
  · simp only [note]
    split
    · exact h.cons id
    · exact h.cons_cons id
  · exact h
  all_goals exact h.erase _

theorem probes_sublist {n : ℤ} {reset : PyFloat} {tr : Trace} {w : Watched} {as : List Answer}
    (h : run watch ⟨fresh n reset, []⟩ tr = some (w, as)) : w.probes.Sublist w.calls.inFlight :=
  run_invariant (fun _ _ _ _ hI hs => probes_sublist_step hI hs) (List.Sublist.refl []) h

/-! ## While nothing finishes -/

/-- The ledger of calls that all probe: who asks is in, who is cancelled is out. -/
def asked (probes : List ℕ) (e : Time × CallEvent) : List ℕ :=
  match e.2 with
  | .enter id => id :: probes
  | .succeed id | .fail id | .cancel id => probes.erase id

/-- In `HALF_OPEN` a call that asks is admitted, and a cancellation changes
nothing. -/
theorem watch_halfOpen {w w' : Watched} {e : Time × CallEvent} {a : Answer}
    (ho : w.calls.breaker.state = .halfOpen) (hno : e.2.isSuccess = false ∧ e.2.isFailure = false)
    (hs : watch w e = some (w', a)) :
    w'.calls.breaker.state = .halfOpen ∧ (e.2.isEnter = true → a = .admitted) ∧
      w'.probes = asked w.probes e := by
  obtain ⟨now, e⟩ := e
  obtain ⟨hst, hp⟩ := watch_eq_some.1 hs
  rcases step_cases hst with ⟨id, b, hb, rfl, -, hc, rfl⟩ | ⟨id, ⟨x, hx⟩, rfl, -, hc, rfl⟩ |
    ⟨id, rfl, -, hc, -⟩ | ⟨id, rfl, -, hc, -⟩ | ⟨id, rfl, -, hc, -⟩
  · have hbe : b = w.calls.breaker := by
      rcases CircuitBreaker.callEnter_ok hb with ⟨-, rfl⟩ | ⟨hop, -⟩
      · rfl
      · rw [ho] at hop
        cases hop
    refine ⟨by rw [hc, hbe]; exact ho, fun _ => rfl, ?_⟩
    rw [hp, ho]
    rfl
  · obtain ⟨hop, -⟩ := CircuitBreaker.callEnter_error_iff.1 hx
    rw [ho] at hop
    cases hop
  · cases hno.1
  · cases hno.2
  · exact ⟨by rw [hc]; exact ho, fun h => (by cases h), hp⟩

theorem run_halfOpen {w w' : Watched} {tr : Trace} {as : List Answer}
    (ho : w.calls.breaker.state = .halfOpen)
    (hno : ∀ e ∈ tr, e.2.isSuccess = false ∧ e.2.isFailure = false)
    (h : run watch w tr = some (w', as)) :
    w'.calls.breaker.state = .halfOpen ∧
      (∀ (i : ℕ) (now : Time) (id : ℕ), tr[i]? = some (now, .enter id) → as[i]? = some .admitted) ∧
      w'.probes = tr.foldl asked w.probes := by
  induction tr generalizing w as with
  | nil =>
    simp only [run_nil, Option.some.injEq, Prod.mk.injEq] at h
    obtain ⟨rfl, rfl⟩ := h
    exact ⟨ho, by simp, rfl⟩
  | cons e tr ih =>
    obtain ⟨u, a, as', hs, hr, rfl⟩ := run_cons.1 h
    obtain ⟨ho', ha, hp⟩ := watch_halfOpen ho (hno e (by simp)) hs
    obtain ⟨hst, hadm, hps⟩ := ih ho' (fun x hx => hno x (by simp [hx])) hr
    refine ⟨hst, ?_, by rw [hps, hp]; rfl⟩
    intro i now id hi
    cases i with
    | zero =>
      simp only [List.getElem?_cons_zero, Option.some.injEq] at hi ⊢
      exact ha (by rw [hi]; rfl)
    | succ i =>
      simp only [List.getElem?_cons_succ] at hi ⊢
      exact hadm i now id hi

/-- **Probes until a finish.** In every run, the call admitted while the
breaker is `OPEN` moves it to `HALF_OPEN`. From there until some call
succeeds or fails the breaker stays `HALF_OPEN` and every call that asks is
admitted; the probes in flight are then the earlier ones and all who have
asked since, less those cancelled, and only the calls in flight bound them.
What the ledger watches is a run of the calls themselves. -/
theorem probes_until_finish {n : ℤ} {reset : PyFloat} {pre rest : Trace} {w w₁ w₂ : Watched}
    {as bs : List Answer} {now : Time} {id : ℕ}
    (hpre : run watch ⟨fresh n reset, []⟩ pre = some (w, as)) (ho : w.calls.breaker.state = .opened)
    (hin : watch w (now, .enter id) = some (w₁, .admitted)) (hrest : run watch w₁ rest = some (w₂, bs))
    (hno : ∀ e ∈ rest, e.2.isSuccess = false ∧ e.2.isFailure = false) :
    w₂.calls.breaker.state = .halfOpen ∧
      (∀ (i : ℕ) (now' : Time) (id' : ℕ), rest[i]? = some (now', .enter id') →
        bs[i]? = some .admitted) ∧
      w₂.probes = rest.foldl asked (id :: w.probes) ∧
      w₂.probes.Sublist w₂.calls.inFlight ∧
      run step (fresh n reset) (pre ++ [(now, .enter id)] ++ rest) = some (w₂.calls, as ++ [.admitted] ++ bs) := by
  obtain ⟨hst, hp⟩ := watch_eq_some.1 hin
  have hhalf : w₁.calls.breaker.state = .halfOpen := by
    rcases step_cases hst with ⟨_, b, hb, -, -, hc, -⟩ | ⟨_, -, -, -, -, ha⟩ | ⟨_, he, -⟩ |
      ⟨_, he, -⟩ | ⟨_, he, -⟩
    · rcases CircuitBreaker.callEnter_ok hb with ⟨hne, -⟩ | ⟨-, -, hb⟩
      · exact absurd ho hne
      · rw [hc, hb]
    · cases ha
    all_goals cases he
  have hfirst : w₁.probes = id :: w.probes := by
    rw [hp, ho]
    rfl
  obtain ⟨hs, hadm, hps⟩ := run_halfOpen hhalf hno hrest
  have hall := run_append.2 ⟨_, _, _, run_concat.2 ⟨_, _, _, hpre, hin, rfl⟩, hrest, rfl⟩
  exact ⟨hs, hadm, by rw [hps, hfirst], probes_sublist hall, run_watch hall⟩

/-! ## Two probes -/

/-- A call fails and opens the breaker; past the timeout a second one probes. -/
def firstProbe : Trace := [(0, .enter 1), (1, .fail 1), (32, .enter 2)]

/-- While it runs, a third one is admitted too. -/
def secondProbe : Trace := firstProbe ++ [(33, .enter 3)]

/-- Two probes run at once, one of them admitted in `HALF_OPEN`. -/
theorem not_oneProbe :
    ¬∀ (n : ℤ) (reset : PyFloat) (tr : Trace) (w : Watched) (as : List Answer), 1 ≤ n → Nondecreasing tr →
      run watch ⟨fresh n reset, []⟩ tr = some (w, as) → w.probes.length ≤ 1 := by
  intro h
  have hrun : run watch ⟨fresh 1 (.finite 30), []⟩ secondProbe =
      some (⟨⟨⟨1, .finite 30, .halfOpen, 1, 1⟩, [3, 2]⟩, [3, 2]⟩,
        [.admitted, .finished, .admitted, .admitted]) := by
    decide +kernel
  have hmono : Nondecreasing secondProbe := by
    unfold Nondecreasing secondProbe firstProbe
    decide +kernel
  have := h 1 (.finite 30) secondProbe _ _ (by decide) hmono hrun
  simp at this

theorem probes_until_finish_secondProbe :
    ∃ w₁ w₂ : Watched, ∃ bs : List Answer,
      watch ⟨⟨⟨1, .finite 30, .opened, 1, 1⟩, []⟩, []⟩ (32, .enter 2) = some (w₁, .admitted) ∧
      run watch w₁ [(33, .enter 3), (34, .cancel 2)] = some (w₂, bs) ∧
      w₂.calls.breaker.state = .halfOpen ∧ w₂.probes = [3] := by
  have hpre : run watch ⟨fresh 1 (.finite 30), []⟩ [(0, .enter 1), (1, .fail 1)] =
      some (⟨⟨⟨1, .finite 30, .opened, 1, 1⟩, []⟩, []⟩, [.admitted, .finished]) := by
    decide +kernel
  have hin : watch ⟨⟨⟨1, .finite 30, .opened, 1, 1⟩, []⟩, []⟩ (32, .enter 2) =
      some (⟨⟨⟨1, .finite 30, .halfOpen, 1, 1⟩, [2]⟩, [2]⟩, .admitted) := by
    decide +kernel
  have hrest : run watch ⟨⟨⟨1, .finite 30, .halfOpen, 1, 1⟩, [2]⟩, [2]⟩ [(33, .enter 3), (34, .cancel 2)] =
      some (⟨⟨⟨1, .finite 30, .halfOpen, 1, 1⟩, [3]⟩, [3]⟩, [.admitted, .finished]) := by
    decide +kernel
  obtain ⟨hs, -, hp, -, -⟩ := probes_until_finish hpre rfl hin hrest (by decide)
  exact ⟨_, _, _, hin, hrest, hs, hp⟩

end SentinelFlow.BreakerCalls
