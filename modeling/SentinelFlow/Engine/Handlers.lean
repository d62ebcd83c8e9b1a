/-
What the handlers come to is counted and logged, and nothing else is read of
it than how it is described: with other results of the dispatch tasks, every
step goes as it went but for the hand-overs themselves and the count of
dispatched alerts (`handlers_irrelevant`).
-/
import SentinelFlow.Engine.Delivery
import SentinelFlow.Engine.Deployment

namespace SentinelFlow

open Machine Engine

/-! ## Steps alike but for the handlers -/

/-- Stimuli that differ in nothing but what the dispatch tasks came to, which
is described alike. -/
inductive Stimulus.SameButHandlers {ξ : Type} : Stimulus ξ → Stimulus ξ → Prop
  | same (x) : SameButHandlers x x
  | gathered {rs rs'} : rs'.length = rs.length → undescribed? rs' = undescribed? rs →
    SameButHandlers (.gathered rs) (.gathered rs')
  | timeout {rs rs'} : rs'.length = rs.length → SameButHandlers (.timeout rs) (.timeout rs')
  | cancel {rs rs'} : rs'.length = rs.length → SameButHandlers (.cancel rs) (.cancel rs')

structure Turn.SameButHandlers {ξ : Type} (i j : Turn ξ) : Prop where
  task : j.task = i.task
  clock : j.clock = i.clock
  stimulus : i.stimulus.SameButHandlers j.stimulus

/-- What a dispatch task does: the hand-over, and the count of a success. -/
def Effect.ofHandler : Effect → Bool
  | .handed _ _ _ _ | .incAlert _ _ _ .dispatched => true
  | _ => false

def withoutHandlers (es : List Effect) : List Effect := es.filter (!·.ofHandler)

structure Happened.SameButHandlers (o o' : Happened) : Prop where
  task : o'.task = o.task
  clock : o'.clock = o.clock
  point : o'.point = o.point
  effects : withoutHandlers o'.effects = withoutHandlers o.effects

/-- Executors with the same stores; their metrics may differ. -/
structure SameStores (x y : Executor) : Prop where
  semaphore : y.semaphore = x.semaphore
  policy : y.policy = x.policy
  history : y.history = x.history
  resilience : y.resilience = x.resilience

theorem SameStores.refl (x : Executor) : SameStores x x := ⟨rfl, rfl, rfl, rfl⟩

theorem SameStores.symm {x y : Executor} (h : SameStores x y) : SameStores y x :=
  ⟨h.semaphore.symm, h.policy.symm, h.history.symm, h.resilience.symm⟩

theorem SameStores.trans {x y z : Executor} (h : SameStores x y) (h' : SameStores y z) : SameStores x z :=
  ⟨h'.semaphore.trans h.semaphore, h'.policy.trans h.policy, h'.history.trans h.history,
   h'.resilience.trans h.resilience⟩

/-! ## Effects on the stores -/

theorem SameStores.apply {x y : Executor} (h : SameStores x y) (e : Effect) :
    SameStores (x.apply e) (y.apply e) := by
  obtain ⟨hs, hp, hh, hr⟩ := h
  have hcheck : ∀ (id : String) (f : CheckResilience → CheckResilience),
      SameStores (x.onCheck id f) (y.onCheck id f) := by
    intro id f
    unfold Executor.onCheck
    rw [hr]
    split
    · exact ⟨hs, hp, hh, rfl⟩
    · exact ⟨hs, hp, hh, hr⟩
  cases e with
  | forCheck id cfg =>
    simp only [Executor.apply, hr]
    split
    · exact ⟨hs, hp, hh, rfl⟩
    · exact ⟨hs, hp, hh, hr⟩
  | acquireInflight | releaseInflight | callEnter | callExcept | callElse => exact hcheck _ _
  | acquire | release => exact ⟨by simp [Executor.apply, hs], hp, hh, hr⟩
  | shouldDispatch now args result => exact ⟨hs, by simp [Executor.apply, hp], hh, hr⟩
  | addResult id b d => exact ⟨hs, hp, by simp [Executor.apply, hh], hr⟩
  | incCheck | inflightInc | inflightDec | handed | incAlert | lookedUp => exact ⟨hs, hp, hh, hr⟩

theorem SameStores.applyAll :
    ∀ (es : List Effect) {x y : Executor}, SameStores x y → SameStores (x.applyAll es) (y.applyAll es)
  | [], _, _, h => h
  | e :: es, _, _, h => SameStores.applyAll es (h.apply e)

theorem Executor.apply_ofHandler (x : Executor) {e : Effect} (h : e.ofHandler = true) :
    SameStores x (x.apply e) := by
  cases e with
  | handed | incAlert => exact ⟨rfl, rfl, rfl, rfl⟩
  | _ => cases h

theorem Executor.applyAll_withoutHandlers : ∀ (es : List Effect) (x : Executor),
    SameStores (x.applyAll (withoutHandlers es)) (x.applyAll es)
  | [], x => .refl x
  | e :: es, x => by
    have ih := applyAll_withoutHandlers es (x.apply e)
    cases he : e.ofHandler with
    | true =>
      rw [withoutHandlers, List.filter_cons_of_neg (by simp [he])]
      exact (SameStores.applyAll _ (x.apply_ofHandler he)).trans ih
    | false =>
      rw [withoutHandlers, List.filter_cons_of_pos (by simp [he])]
      exact ih

/-- Effects alike but for the handlers come to the same stores. -/
theorem SameStores.applyAll_congr {x y : Executor} (h : SameStores x y) {es es' : List Effect}
    (hes : withoutHandlers es' = withoutHandlers es) : SameStores (x.applyAll es) (y.applyAll es') := by
  have hx := (x.applyAll_withoutHandlers es).symm
  have hy := y.applyAll_withoutHandlers es'
  rw [hes] at hy
  exact hx.trans ((h.applyAll _).trans hy)

theorem policyCallsIn_withoutHandlers (es : List Effect) :
    policyCallsIn (withoutHandlers es) = policyCallsIn es := by
  rw [policyCallsIn, policyCallsIn, withoutHandlers, List.filterMap_filter]
  refine List.filterMap_congr fun e _ => ?_
  cases e with
  | incAlert id ev sev action => cases action <;> rfl
  | _ => rfl

/-- The policy is called alike. -/
theorem policyCalls_congr {log log' : List Happened} (h : List.Forall₂ Happened.SameButHandlers log log') :
    policyCalls log' = policyCalls log := by
  induction h with
  | nil => rfl
  | cons ho _ ih =>
    have heffects := congrArg policyCallsIn ho.effects
    rw [policyCallsIn_withoutHandlers, policyCallsIn_withoutHandlers] at heffects
    simp only [policyCalls, List.flatMap_cons] at ih ⊢
    rw [heffects, ih]

/-! ## Runs alike but for the handlers -/

@[simp] theorem withoutHandlers_append (es fs : List Effect) :
    withoutHandlers (es ++ fs) = withoutHandlers es ++ withoutHandlers fs := List.filter_append _ _

theorem withoutHandlers_runDispatches {id : String} {event : AlertEvent} {ts : List DispatchTask}
    {rs : List (Except Raised Unit)} : withoutHandlers (runDispatches id event ts rs) = [] := by
  rw [withoutHandlers, List.filter_eq_nil_iff]
  intro e he
  rcases mem_runDispatches he with ⟨ty, cfg, r, rfl⟩ | rfl <;> simp [Effect.ofHandler]

theorem withoutHandlers_dispatched {id : String} {p : PipePoint} {rs : List (Except Raised Unit)} :
    withoutHandlers (p.dispatched id rs) = [] := by
  cases p with
  | dispatching event ts todo => exact withoutHandlers_runDispatches
  | fetching | evaluating | deciding => rfl

section Steps

variable {ξ : Type} {ingestor : Ingestor ξ} {render : Render} {reg : Registry} {x : Executor}
  {cfg : PyDict} {clk : Clock} {p p' : Point} {es : List Effect}

theorem resume_gathered {rs rs' : List (Except Raised Unit)} (hlen : rs'.length = rs.length)
    (hsame : undescribed? rs' = undescribed? rs) (h : resume reg x cfg clk p (.gathered rs) = some (p', es)) :
    ∃ es', resume reg x cfg clk p (.gathered rs') = some (p', es') ∧
      withoutHandlers es' = withoutHandlers es := by
  rcases p with _ | _ | ⟨f, st, _ | _ | _ | ⟨event, tasks, todo⟩⟩ | _
  case running.dispatching =>
    simp only [resume, resumeBody, afterDispatches] at h ⊢
    rw [hlen, hsame]
    split at h
    next hl =>
      cases h
      rw [if_pos hl]
      exact ⟨_, rfl, by simp [withoutHandlers_runDispatches]⟩
    next => cases h
  all_goals cases h

theorem resume_timeout {rs rs' : List (Except Raised Unit)} (hlen : rs'.length = rs.length)
    (h : resume reg x cfg clk p (.timeout rs) = some (p', es)) :
    ∃ es', resume reg x cfg clk p (.timeout rs') = some (p', es') ∧
      withoutHandlers es' = withoutHandlers es := by
  cases p with
  | running f st q =>
    simp only [resume] at h ⊢
    rw [hlen]
    split at h
    next hl =>
      cases h
      rw [if_pos hl]
      exact ⟨_, rfl, by simp [withoutHandlers_dispatched]⟩
    next => cases h
  | waiting f =>
    cases rs with
    | nil =>
      rw [List.length_nil, List.length_eq_zero_iff] at hlen
      subst hlen
      exact ⟨es, h, rfl⟩
    | cons r rs => cases h
  | queued | finished => cases h

theorem resume_cancel {rs rs' : List (Except Raised Unit)} (hlen : rs'.length = rs.length)
    (h : resume reg x cfg clk p (.cancel rs) = some (p', es)) :
    ∃ es', resume reg x cfg clk p (.cancel rs') = some (p', es') ∧
      withoutHandlers es' = withoutHandlers es := by
  cases p with
  | running f st q =>
    simp only [resume] at h ⊢
    rw [hlen]
    split at h
    next hl =>
      cases h
      rw [if_pos hl]
      exact ⟨_, rfl, by simp [withoutHandlers_dispatched]⟩
    next => cases h
  | waiting f | queued =>
    cases rs with
    | nil =>
      rw [List.length_nil, List.length_eq_zero_iff] at hlen
      subst hlen
      exact ⟨es, h, rfl⟩
    | cons r rs => cases h
  | finished => cases h

theorem resume_sameStores {y : Executor} (h : SameStores x y) (reply : Reply) :
    resume reg y cfg clk p reply = resume reg x cfg clk p reply := by
  obtain ⟨semaphore, policy, history, metrics, resilience⟩ := x
  obtain ⟨semaphore', policy', history', metrics', resilience'⟩ := y
  obtain ⟨rfl, rfl, rfl, rfl⟩ := h
  rfl

/-- A reply that differs in its results only leads to the same point. -/
theorem answer_resume {stim stim' : Stimulus ξ} (hst : stim.SameButHandlers stim') {reply : Reply}
    (ha : answer ingestor render cfg clk p stim = some reply)
    (h : resume reg x cfg clk p reply = some (p', es)) :
    ∃ reply' es', answer ingestor render cfg clk p stim' = some reply' ∧
      resume reg x cfg clk p reply' = some (p', es') ∧ withoutHandlers es' = withoutHandlers es := by
  cases hst with
  | same => exact ⟨reply, es, ha, h, rfl⟩
  | gathered hlen hsame =>
    cases ha
    obtain ⟨es', h', hes⟩ := resume_gathered hlen hsame h
    exact ⟨_, es', rfl, h', hes⟩
  | timeout hlen =>
    cases ha
    obtain ⟨es', h', hes⟩ := resume_timeout hlen h
    exact ⟨_, es', rfl, h', hes⟩
  | cancel hlen =>
    cases ha
    obtain ⟨es', h', hes⟩ := resume_cancel hlen h
    exact ⟨_, es', rfl, h', hes⟩

end Steps

/-- Dispatch tasks look nothing up. -/
theorem foldl_cached_withoutHandlers : ∀ (es : List Effect) (instances : Dict String PyClass),
    (withoutHandlers es).foldl Effect.cached instances = es.foldl Effect.cached instances
  | [], _ => rfl
  | e :: es, instances => by
    have ih := foldl_cached_withoutHandlers es (e.cached instances)
    cases he : e.ofHandler with
    | true =>
      have hsame : e.cached instances = instances := by
        cases e <;> first | rfl | cases he
      rw [withoutHandlers, List.filter_cons_of_neg (by simp [he]), List.foldl_cons, ← ih, hsame]
      rfl
    | false =>
      rw [withoutHandlers, List.filter_cons_of_pos (by simp [he])]
      exact ih

/-- One step, with other results of its dispatch tasks. -/
theorem turn_simulates {ξ : Type} {ingestor : Ingestor ξ} {render : Render} {cfgOf : ℕ → PyDict}
    {s t s' : Engine} {i j : Turn ξ} {o : Happened} (hij : i.SameButHandlers j)
    (hR : SameStores s.executor t.executor ∧ t.tasks = s.tasks ∧ t.instances = s.instances)
    (h : turn ingestor render cfgOf s i = some (s', o)) :
    ∃ t' o', turn ingestor render cfgOf t j = some (t', o') ∧ o.SameButHandlers o' ∧
      SameStores s'.executor t'.executor ∧ t'.tasks = s'.tasks ∧ t'.instances = s'.instances := by
  obtain ⟨task, clock, stim⟩ := j
  obtain ⟨rfl, rfl, hst⟩ := hij
  obtain ⟨hstores, htasks, hinstances⟩ := hR
  obtain ⟨reply, ha, hstep⟩ := turn_step h
  unfold Engine.step at hstep
  simp only [Option.map_eq_some_iff] at hstep
  obtain ⟨⟨p', es⟩, hres, he⟩ := hstep
  cases he
  obtain ⟨reply', es', ha', hres', hes⟩ := answer_resume hst ha hres
  have hpoint : t.point i.task = s.point i.task := by rw [Engine.point, Engine.point, htasks]
  have hregistry : t.registry .builtin = s.registry .builtin := by rw [Engine.registry, Engine.registry, hinstances]
  refine ⟨⟨t.executor.applyAll es', t.tasks.insert i.task p', es'.foldl Effect.cached t.instances⟩,
    ⟨i.task, i.clock, es', p'⟩, ?_, ⟨rfl, rfl, rfl, hes⟩, hstores.applyAll_congr hes, by rw [htasks], ?_⟩
  · rw [turn, hpoint, ha', Option.bind_some, Engine.step, hpoint, hregistry, resume_sameStores hstores, hres']
    rfl
  · rw [hinstances, ← foldl_cached_withoutHandlers es', hes, foldl_cached_withoutHandlers]

/-- **Nobody reads what the handlers come to.** A run with other results of
the dispatch tasks exists, takes the same steps but for the handlers, and
leaves the same stores. -/
theorem handlers_irrelevant {ξ : Type} {ingestor : Ingestor ξ} {render : Render} {cfgOf : ℕ → PyDict}
    {x₀ : Executor} {is js : List (Turn ξ)} (hjs : List.Forall₂ Turn.SameButHandlers is js)
    {log : List Happened} {s : Engine}
    (h : run (turn ingestor render cfgOf) (start x₀) is = some (s, log)) :
    ∃ t log', run (turn ingestor render cfgOf) (start x₀) js = some (t, log') ∧
      List.Forall₂ Happened.SameButHandlers log log' ∧ SameStores s.executor t.executor := by
  have hstart : SameStores (start x₀).executor (start x₀).executor ∧
      (start x₀).tasks = (start x₀).tasks ∧ (start x₀).instances = (start x₀).instances := ⟨.refl x₀, rfl, rfl⟩
  obtain ⟨t, log', hr, ho, hR⟩ := run_simulates Turn.SameButHandlers Happened.SameButHandlers
    (fun s t : Engine => SameStores s.executor t.executor ∧ t.tasks = s.tasks ∧ t.instances = s.instances)
    (fun _ _ _ _ _ _ hij hR hs => turn_simulates hij hR hs) hjs hstart h
  exact ⟨t, log', hr, ho, hR.1⟩

end SentinelFlow
