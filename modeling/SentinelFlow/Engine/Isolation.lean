/-
Isolation of checks. Three stores are shared by all checks: the resilience
objects, the execution history and the policy's maps, which are keyed by a
fingerprint that joins three strings. With distinct metric ids and built-in
evaluators none of them, nor the executor's semaphore, carries anything from
one check to another: a check goes through any interleaving as it goes
through its own steps alone (`isolation`). The cache of instances is shared as
well, but the built-in registry is regular, so it answers every check alike.

`Alike` is what two executors have to agree on for one check; `Agrees` adds
the points of its tasks, and the permits the other tasks hold.
-/
import Mathlib.Data.Finset.Card
import SentinelFlow.Engine.Handlers
import SentinelFlow.Engine.Lookups
import SentinelFlow.Engine.Permits

namespace SentinelFlow

open Machine Engine AlertPolicy PolicyRuns

/-! ## Fingerprints of a check -/

/-- A call of the policy for an alert of the check. -/
def OwnCall (id : String) (a : DispatchArgs) : Prop :=
  a.metricId = id ∧ (a.evaluatorType = "threshold" ∨ a.evaluatorType = "freshness") ∧
    ∃ sev : Severity, a.severity = sev.text

theorem OwnCall.colonFree {id : String} {a : DispatchArgs} (h : OwnCall id a) : ColonFree a := by
  obtain ⟨-, hty, sev, hsev⟩ := h
  constructor
  · rcases hty with hty | hty <;> rw [hty] <;> decide
  · rw [hsev]
    exact sev.colon_notMem_text

theorem OwnCall.fingerprint_ne {id id' : String} {a b : DispatchArgs} (ha : OwnCall id a) (hb : OwnCall id' b)
    (hne : id ≠ id') : fingerprintOf a ≠ fingerprintOf b := by
  intro h
  have htriple := (fingerprintOf_inj ha.colonFree hb.colonFree).1 h
  exact hne (ha.1.symm.trans ((congrArg Prod.fst htriple).trans hb.1))

theorem AlertEvent.Owned.ownCall {id : String} {e : AlertEvent} (h : e.Owned id) (cfg : PyDict) :
    OwnCall id (dispatchArgs cfg e) := ⟨h.1, h.2, e.severity, rfl⟩

/-- A step asks the policy about alerts of its own check only. -/
theorem Resumes.ownCalls {reg : Registry} {x : Executor} {cfg : PyDict} {clk : Clock} {p p' : Point}
    {reply : Reply} {es : List Effect} {id : String} (h : Resumes reg x cfg clk p reply p' es)
    (hp : p.Owned id) :
    ∀ c ∈ policyCallsIn es, OwnCall id c.args := by
  rcases h.policyCalls with hnil | ⟨f, st, event, todo, rfl, hone⟩
  · simp [hnil]
  · rw [hone]
    intro c hc
    rw [List.mem_singleton] at hc
    subst hc
    exact hp.1.ownCall cfg

/-! ## Executors alike for a check -/

structure Alike (id : String) (x y : Executor) : Prop where
  lookup : x.resilience.lookup id = y.resilience.lookup id
  recent : x.history.getRecent id = y.history.getRecent id
  maxSize : x.history.maxSize = y.history.maxSize
  policy : ∀ a, OwnCall id a → x.policy.entry (fingerprintOf a) = y.policy.entry (fingerprintOf a)

theorem Alike.refl (id : String) (x : Executor) : Alike id x x := ⟨rfl, rfl, rfl, fun _ _ => rfl⟩

theorem Alike.trans {id : String} {x y z : Executor} (h : Alike id x y) (h' : Alike id y z) : Alike id x z :=
  ⟨h.lookup.trans h'.lookup, h.recent.trans h'.recent, h.maxSize.trans h'.maxSize,
    fun a ha => (h.policy a ha).trans (h'.policy a ha)⟩

section Effects

variable {id : String} {x y : Executor} {e : Effect} {es : List Effect}

@[simp] theorem Executor.onCheck_history (x : Executor) (id : String) (f : CheckResilience → CheckResilience) :
    (x.onCheck id f).history = x.history := by
  unfold onCheck
  split <;> rfl

theorem Executor.apply_maxSize (x : Executor) (e : Effect) :
    (x.apply e).history.maxSize = x.history.maxSize := by
  cases e with
  | forCheck i cfg =>
    simp only [apply]
    split <;> rfl
  | acquireInflight | releaseInflight | callEnter | callExcept | callElse => simp [apply, onBreaker]
  | _ => rfl

theorem Executor.apply_forCheck_lookup (x : Executor) (id : String) (cfg : PyDict) :
    (x.apply (.forCheck id cfg)).resilience.lookup id =
      (x.resilience.lookup id).or (ResilienceManager.build cfg).toOption := by
  simp only [apply, ResilienceManager.forCheck]
  cases hl : x.resilience.lookup id with
  | some r => simpa using hl
  | none =>
    cases ResilienceManager.build cfg with
    | error err => simpa [Except.map, Except.toOption] using hl
    | ok r => simp [Except.map, Except.toOption]

/-- An effect of another check's changes nothing of this one. -/
theorem Executor.apply_alike_other {id' : String} (x : Executor) (he : e.Within id') (hne : id ≠ id')
    (hc : ∀ c ∈ e.policyCall?, OwnCall id' c.args) : Alike id (x.apply e) x := by
  obtain ⟨hlook, hrecent⟩ := x.apply_frame he hne
  refine ⟨hlook, hrecent, x.apply_maxSize e, fun a ha => ?_⟩
  rw [x.apply_policy]
  cases hcall : e.policyCall? with
  | none => rfl
  | some c => exact shouldDispatch_entry_ne _ _ (ha.fingerprint_ne (hc c hcall) hne)

theorem forall_policyCallsIn_cons {P : PolicyCall → Prop} :
    (∀ c ∈ policyCallsIn (e :: es), P c) ↔ (∀ c ∈ e.policyCall?, P c) ∧ ∀ c ∈ policyCallsIn es, P c := by
  cases h : e.policyCall? <;> simp [policyCallsIn, h]

theorem Executor.applyAll_alike_other {id' : String} (hne : id ≠ id') :
    ∀ {es : List Effect} (x : Executor), (∀ e ∈ es, e.Within id') →
      (∀ c ∈ policyCallsIn es, OwnCall id' c.args) → Alike id (x.applyAll es) x
  | [], x, _, _ => .refl id x
  | e :: es, x, he, hc => by
    rw [List.forall_mem_cons] at he
    have hin := forall_policyCallsIn_cons.1 hc
    exact (applyAll_alike_other hne (x.apply e) he.2 hin.2).trans (x.apply_alike_other he.1 hne hin.1)

/-- An effect of the check's own does the same on both sides. -/
theorem Alike.apply (h : Alike id x y) (he : e.Within id) (hc : ∀ c ∈ e.policyCall?, OwnCall id c.args) :
    Alike id (x.apply e) (y.apply e) := by
  have hpolicy : ∀ a, OwnCall id a →
      (x.apply e).policy.entry (fingerprintOf a) = (y.apply e).policy.entry (fingerprintOf a) := by
    intro a ha
    rw [x.apply_policy, y.apply_policy]
    cases hcall : e.policyCall? with
    | none => exact h.policy a ha
    | some c =>
      have hentry := h.policy c.args (hc c hcall)
      simp only [Option.toList_some, List.foldl_cons, List.foldl_nil]
      by_cases hfp : fingerprintOf a = fingerprintOf c.args
      · rw [hfp]
        exact (shouldDispatch_congr c.now hentry).2
      · rw [shouldDispatch_entry_ne _ _ hfp, shouldDispatch_entry_ne _ _ hfp]
        exact h.policy a ha
  have hmax : (x.apply e).history.maxSize = (y.apply e).history.maxSize := by
    rw [x.apply_maxSize, y.apply_maxSize, h.maxSize]
  have hlook : (x.apply e).resilience.lookup id = (y.apply e).resilience.lookup id := by
    cases e with
    | forCheck i cfg =>
      obtain rfl := he i rfl
      rw [x.apply_forCheck_lookup, y.apply_forCheck_lookup, h.lookup]
    | acquireInflight i | releaseInflight i | callEnter i | callExcept i | callElse i =>
      obtain rfl := he i rfl
      simp only [Executor.apply, Executor.onBreaker, Executor.onCheck_lookup_self, h.lookup]
    | _ => exact h.lookup
  have hrecent : (x.apply e).history.getRecent id = (y.apply e).history.getRecent id := by
    cases e with
    | forCheck i cfg =>
      simp only [Executor.apply]
      split <;> split <;> exact h.recent
    | acquireInflight i | releaseInflight i | callEnter i | callExcept i | callElse i =>
      simpa [Executor.apply, Executor.onBreaker] using h.recent
    | addResult i b d =>
      obtain rfl := he i rfl
      simp only [Executor.apply, ExecutionHistory.getRecent_addResult_self, h.recent, h.maxSize]
    | _ => exact h.recent
  exact ⟨hlook, hrecent, hmax, hpolicy⟩

theorem Alike.applyAll : ∀ {es : List Effect} {x y : Executor}, Alike id x y → (∀ e ∈ es, e.Within id) →
    (∀ c ∈ policyCallsIn es, OwnCall id c.args) → Alike id (x.applyAll es) (y.applyAll es)
  | [], _, _, h, _, _ => h
  | e :: es, x, y, h, he, hc => by
    rw [List.forall_mem_cons] at he
    have hin := forall_policyCallsIn_cons.1 hc
    have hrest : Alike id ((x.apply e).applyAll es) ((y.apply e).applyAll es) :=
      Alike.applyAll (h.apply he.1 hin.1) he.2 hin.2
    exact hrest

end Effects

/-! ## The same step on both sides -/

section Congruence

variable {reg : Registry} {x y : Executor} {cfg : PyDict} {clk : Clock} {p p' : Point} {reply : Reply}
  {es : List Effect}

theorem forCheck_congr {id : String} {rcfg : PyDict} (h : x.resilience.lookup id = y.resilience.lookup id) :
    (ResilienceManager.forCheck x.resilience id rcfg).map (·.2) =
      (ResilienceManager.forCheck y.resilience id rcfg).map (·.2) := by
  unfold ResilienceManager.forCheck
  rw [h]
  cases y.resilience.lookup id with
  | some r => rfl
  | none => cases ResilienceManager.build rcfg <;> rfl

theorem enterCheck_congr (hsem : x.semaphore ≠ 0 → y.semaphore ≠ 0)
    (hlook : x.resilience.lookup (metricIdOf cfg) = y.resilience.lookup (metricIdOf cfg))
    (h : enterCheck x cfg clk = some (p', es)) : enterCheck y cfg clk = some (p', es) := by
  have hres := @forCheck_congr x y (metricIdOf cfg) (dictAt cfg "resilience") hlook
  unfold enterCheck at h ⊢
  dsimp only at h ⊢
  split at h
  · cases h
  next hx =>
    rw [if_neg (hsem hx)]
    cases hfx : ResilienceManager.forCheck x.resilience (metricIdOf cfg) (dictAt cfg "resilience") <;>
      cases hfy : ResilienceManager.forCheck y.resilience (metricIdOf cfg) (dictAt cfg "resilience") <;>
      rw [hfx, hfy] at hres <;> rw [hfx] at h
    · cases hres
      exact h
    · cases hres
    · cases hres
    next mx my =>
      obtain ⟨mx, rx⟩ := mx
      obtain ⟨my, ry⟩ := my
      cases hres
      exact h

theorem enterPipeline_congr {f : Frame}
    (hlook : x.resilience.lookup (metricIdOf cfg) = y.resilience.lookup (metricIdOf cfg)) :
    enterPipeline reg x cfg clk f = enterPipeline reg y cfg clk f := by
  unfold enterPipeline
  simp only [hlook]

theorem decideEvent_congr {event : AlertEvent} {todo : List AlertEvent} {a b : AlertPolicy} {now : Time}
    (h : (a.shouldDispatch now (dispatchArgs cfg event)).2 =
      (b.shouldDispatch now (dispatchArgs cfg event)).2) :
    decideEvent reg cfg a now event todo = decideEvent reg cfg b now event todo := by
  unfold decideEvent
  simp only [h]

theorem resumeBody_congr {q : PipePoint} (hown : q.Owned (metricIdOf cfg)) (h : Alike (metricIdOf cfg) x y) :
    resumeBody reg cfg x.policy clk.wall q reply = resumeBody reg cfg y.policy clk.wall q reply := by
  unfold resumeBody
  split
  case h_5 event todo =>
    have hentry := h.policy _ (hown.1.ownCall cfg)
    exact congrArg some (decideEvent_congr (shouldDispatch_congr clk.wall hentry).1)
  all_goals rfl

/-- **The step a check takes on one executor, it takes on every one alike**
that has a permit when the first has. -/
theorem resume_congr (hown : p.Owned (metricIdOf cfg)) (halike : Alike (metricIdOf cfg) x y)
    (hsem : x.semaphore ≠ 0 → y.semaphore ≠ 0) (h : resume reg x cfg clk p reply = some (p', es)) :
    resume reg y cfg clk p reply = some (p', es) := by
  unfold resume at h ⊢
  split at h
  case h_1 => exact enterCheck_congr hsem halike.lookup h
  case h_3 => exact enterPipeline_congr halike.lookup ▸ h
  case h_8 f st q hto hcan =>
    rw [resumeBody_congr hown halike] at h
    exact h
  all_goals exact h

end Congruence

/-! ## Isolation -/

section Isolation

variable {ξ ι : Type} {ingestor : Ingestor ξ} {render : Render} (cs : Checks ι) (checkOf : ℕ → ι) (b : ι)

/-- The run of everybody looks to check `b` like the run of its own steps.
`held` are the tasks of other checks that hold a permit. -/
structure Agrees (s t : Engine) : Prop where
  regular : (s.registry .builtin).Regular ∧ (t.registry .builtin).Regular
  points : ∀ task, checkOf task = b → t.point task = s.point task
  owned : AllOwned (fun task => cs.config (checkOf task)) s
  alike : Alike (cs.metricId b) s.executor t.executor
  permits : ∃ held : Finset ℕ, (∀ task, task ∈ held ↔ checkOf task ≠ b ∧ (s.point task).holds = true) ∧
    t.executor.semaphore = s.executor.semaphore + held.card

variable {cs checkOf b} {s s' t : Engine} {i : Turn ξ} {o : Happened}

/-- A step of another check's: what its task holds changes, and nothing else. -/
theorem Agrees.other (h : Agrees cs checkOf b s t) (hi : checkOf i.task ≠ b)
    (hs : turn ingestor render (fun task => cs.config (checkOf task)) s i = some (s', o)) :
    Agrees cs checkOf b s' t := by
  obtain ⟨reply, -, hstep⟩ := turn_step hs
  obtain ⟨hr, hx, hp, hne, -, -⟩ := step_resumes hstep
  dsimp only at hr hp hne
  have hid : cs.metricId b ≠ cs.metricId (checkOf i.task) := fun h => hi (cs.distinct h).symm
  have hwithin := hr.within
  have hcalls := hr.ownCalls (h.owned i.task)
  have hpermits := hr.permits
  simp only [cs.metricIdOf_config] at hwithin hcalls
  refine ⟨⟨registry_regular_step h.regular.1 hstep, h.regular.2⟩, fun task htask => ?_, h.owned.turn hs, ?_, ?_⟩
  · rw [hne task fun heq => hi (heq ▸ htask)]
    exact h.points task htask
  · rw [hx]
    exact (Executor.applyAll_alike_other hid _ hwithin hcalls).trans h.alike
  · obtain ⟨held, hmem, hsem⟩ := h.permits
    rw [← hx] at hpermits
    have hbefore : i.task ∈ held ↔ (s.point i.task).holds = true := by simp [hmem, hi]
    have hothers : ∀ task, task ≠ i.task → (task ∈ held ↔ checkOf task ≠ b ∧ (s'.point task).holds = true) := by
      intro task htask
      rw [hmem, hne task htask]
    cases hafter : o.point.holds with
    | true =>
      refine ⟨insert i.task held, fun task => ?_, ?_⟩
      · by_cases htask : task = i.task
        · subst htask
          simp [hi, hp, hafter]
        · simp [htask, hothers task htask]
      · rw [hafter] at hpermits
        cases hheld : (s.point i.task).holds with
        | true =>
          rw [Finset.insert_eq_of_mem (hbefore.2 hheld)]
          simp only [hheld] at hpermits
          omega
        | false =>
          rw [Finset.card_insert_of_notMem (by simp [hbefore, hheld])]
          simp only [hheld, Bool.toNat_true, Bool.toNat_false] at hpermits
          omega
    | false =>
      refine ⟨held.erase i.task, fun task => ?_, ?_⟩
      · by_cases htask : task = i.task
        · subst htask
          simp [hp, hafter]
        · simp [htask, hothers task htask]
      · rw [hafter] at hpermits
        cases hheld : (s.point i.task).holds with
        | true =>
          have hcard := Finset.card_erase_add_one (hbefore.2 hheld)
          simp only [hheld, Bool.toNat_true, Bool.toNat_false] at hpermits
          omega
        | false =>
          rw [Finset.erase_eq_of_notMem (by simp [hbefore, hheld])]
          simp only [hheld] at hpermits
          omega

/-- A step of the check's own is taken alone as well, with the same effects. -/
theorem Agrees.own (h : Agrees cs checkOf b s t) (hi : checkOf i.task = b)
    (hs : turn ingestor render (fun task => cs.config (checkOf task)) s i = some (s', o)) :
    ∃ t', turn ingestor render (fun task => cs.config (checkOf task)) t i = some (t', o) ∧
      Agrees cs checkOf b s' t' := by
  obtain ⟨reply, ha, hstep⟩ := turn_step hs
  have hid : metricIdOf (cs.config (checkOf i.task)) = cs.metricId b := by rw [cs.metricIdOf_config, hi]
  obtain ⟨held, hmem, hsem⟩ := h.permits
  -- The same step, from the other executor.
  obtain ⟨t', hstep'⟩ :
      ∃ t', Engine.step .builtin (fun task => cs.config (checkOf task)) t ⟨i.task, i.clock, reply⟩ =
        some (t', o) := by
    refine ⟨⟨t.executor.applyAll o.effects, t.tasks.insert i.task o.point,
      o.effects.foldl Effect.cached t.instances⟩, ?_⟩
    unfold Engine.step at hstep ⊢
    simp only [Option.map_eq_some_iff] at hstep
    obtain ⟨⟨p', es⟩, hres, he⟩ := hstep
    cases he
    have hclasses : (t.registry .builtin).classes = (s.registry .builtin).classes := by
      rw [Engine.registry_classes, Engine.registry_classes]
    have hcongr := resume_congr (h.owned i.task) (hid ▸ h.alike) (fun hx hy => hx (by omega)) hres
    rw [h.points _ hi, resume_alike _ h.regular.1 h.regular.2 hclasses, hcongr]
    rfl
  obtain ⟨hr, hx, hp, hne, -, -⟩ := step_resumes hstep
  obtain ⟨hr', hx', hp', hne', -, -⟩ := step_resumes hstep'
  dsimp only at hr hr' hp hp' hne hne'
  refine ⟨t', ?_, ⟨registry_regular_step h.regular.1 hstep, registry_regular_step h.regular.2 hstep'⟩,
    fun task htask => ?_, h.owned.turn hs, ?_, held, fun task => ?_, ?_⟩
  · rw [turn, h.points _ hi, ha]
    exact hstep'
  · by_cases heq : task = i.task
    · subst heq
      rw [hp, hp']
    · rw [hne task heq, hne' task heq]
      exact h.points task htask
  · have hwithin := hr.within
    have hcalls := hr.ownCalls (h.owned i.task)
    rw [hid] at hwithin hcalls
    rw [hx, hx']
    exact h.alike.applyAll hwithin hcalls
  · by_cases heq : task = i.task
    · subst heq
      simp [hmem, hi]
    · rw [hmem, hne task heq]
  · have hown := hr.permits
    have halone := hr'.permits
    rw [← hx] at hown
    rw [← hx', h.points _ hi] at halone
    omega

variable [DecidableEq ι]

theorem own_steps_alone {x₀ : Executor} {is : List (Turn ξ)} {log : List Happened}
    (h : run (turn ingestor render fun task => cs.config (checkOf task)) (start x₀) is = some (s, log)) :
    ∃ t, run (turn ingestor render fun task => cs.config (checkOf task)) (start x₀)
        (is.filter fun i => checkOf i.task = b) = some (t, outputsOf (fun i => checkOf i.task = b) is log) ∧
      Agrees cs checkOf b s t := by
  have hregular := Engine.registry_regular_start Registry.builtin_regular x₀
  have hstart : Agrees cs checkOf b (start x₀) (start x₀) :=
    ⟨⟨hregular, hregular⟩, fun _ _ => rfl, fun task => by rw [point_start]; trivial, .refl _ _, ∅,
     by simp [Point.holds, Point.frame?], rfl⟩
  exact run_project (fun i : Turn ξ => checkOf i.task = b) (fun _ => True) (Agrees cs checkOf b)
    (fun _ _ _ _ _ _ hag hm hs => hag.other (by simpa using hm) hs)
    (fun _ _ _ _ _ _ hag hm hs => hag.own (by simpa using hm) hs) (fun _ _ => trivial) hstart h

/-- **Isolation of checks.** Whatever the other checks do, and however the
steps are interleaved, a check `b` goes as it goes alone, on the same
stimuli (those of its handlers aside): each of its steps has the same
effects there, the policy answers it the same, and its breaker and recent
history come out the same. -/
theorem isolation (x₀ : Executor) {is js : List (Turn ξ)} {log : List Happened}
    (h : run (turn ingestor render fun task => cs.config (checkOf task)) (start x₀) is = some (s, log))
    (hjs : List.Forall₂ Turn.SameButHandlers (is.filter fun i => checkOf i.task = b) js) :
    ∃ t log', run (turn ingestor render fun task => cs.config (checkOf task)) (start x₀) js = some (t, log') ∧
      List.Forall₂ Happened.SameButHandlers (outputsOf (fun i => checkOf i.task = b) is log) log' ∧
      policyCalls log' = policyCalls (outputsOf (fun i => checkOf i.task = b) is log) ∧
      t.executor.resilience.lookup (cs.metricId b) = s.executor.resilience.lookup (cs.metricId b) ∧
      t.executor.history.getRecent (cs.metricId b) = s.executor.history.getRecent (cs.metricId b) := by
  obtain ⟨u, hu, hag⟩ := own_steps_alone h
  obtain ⟨t, log', ht, hlog, hstores⟩ := handlers_irrelevant hjs hu
  refine ⟨t, log', ht, hlog, policyCalls_congr hlog, ?_, ?_⟩
  · rw [hstores.resilience, hag.alike.lookup]
  · rw [hstores.history, hag.alike.recent]

end Isolation

/-- A check of a number some API reports, to stay below 5. -/
def apiCheck (metricId : String) : PyDict :=
  [("metric_id", .str metricId),
    ("ingestor", .dict
      [("type", .str "http_api"), ("url", .str "http://api/stats"), ("json_path", .str "value")]),
    ("evaluators", .list [.dict [("type", .str "threshold"), ("operator", .str ">"), ("value", .int 5)]]),
    ("handlers", .list [.dict [("type", .str "slack_webhook")]])]

def twoChecks : Checks Bool where
  config c := apiCheck (if c then "errors" else "reqs")
  metricId c := if c then "errors" else "reqs"
  named c := by cases c <;> rfl
  nonempty c := by cases c <;> decide
  distinct := by decide

/-- An invocation for `reqs` that reads 9; its dispatch comes to `r`. -/
def reqsAlone (r : Except Raised Unit) : List (Turn (List (Time × HttpApiIngestor.Exchange))) :=
  [⟨1, ⟨0, 0⟩, .granted⟩, ⟨1, ⟨0, 0⟩, .granted⟩,
   ⟨1, ⟨2, 2⟩, .ingested
     [(1, .response 200 "OK" "application/json" (.ok "") (.ok (.dict [("value", .int 9)])))]⟩,
   ⟨1, ⟨2, 2⟩, .proceed⟩, ⟨1, ⟨2, 2⟩, .proceed⟩, ⟨1, ⟨3, 3⟩, .gathered [r]⟩]

/-- Around it, one for `errors` whose fetch fails. -/
def sideBySide (r : Except Raised Unit) : List (Turn (List (Time × HttpApiIngestor.Exchange))) :=
  [⟨0, ⟨0, 0⟩, .granted⟩, ⟨0, ⟨0, 0⟩, .granted⟩] ++ reqsAlone r ++
    [⟨0, ⟨4, 4⟩, .ingested [(4, .raised (valueError "no route"))]⟩]

/-- The alert of `reqs` is lost in the one run and sent in the other. -/
theorem isolation_sideBySide :
    ∃ s log t log',
      run (turn (HttpApiIngestor.ingestor wholeTexts) wholeTexts fun task => twoChecks.config (task == 0))
        (start { semaphore := 2 })
        (sideBySide (.error (.exception (dispatchError "Slack HTTP error: 500" true)))) = some (s, log) ∧
      run (turn (HttpApiIngestor.ingestor wholeTexts) wholeTexts fun task => twoChecks.config (task == 0))
        (start { semaphore := 2 }) (reqsAlone (.ok ())) = some (t, log') ∧
      t.executor.history.getRecent "reqs" = s.executor.history.getRecent "reqs" := by
  have h : (run (turn (HttpApiIngestor.ingestor wholeTexts) wholeTexts fun task => twoChecks.config (task == 0))
      (start { semaphore := 2 })
      (sideBySide (.error (.exception (dispatchError "Slack HTTP error: 500" true))))).isSome = true := by
    decide +kernel
  obtain ⟨⟨s, log⟩, hs⟩ := Option.isSome_iff_exists.1 h
  have hjs : List.Forall₂ Turn.SameButHandlers
      ((sideBySide (.error (.exception (dispatchError "Slack HTTP error: 500" true)))).filter
        fun i => (i.task == 0) = false) (reqsAlone (.ok ())) :=
    .cons ⟨rfl, rfl, .same _⟩ (.cons ⟨rfl, rfl, .same _⟩ (.cons ⟨rfl, rfl, .same _⟩
      (.cons ⟨rfl, rfl, .same _⟩ (.cons ⟨rfl, rfl, .same _⟩ (.cons ⟨rfl, rfl, .gathered rfl rfl⟩ .nil)))))
  obtain ⟨t, log', ht, -, -, -, hrecent⟩ := @isolation _ _ _ _ twoChecks (· == 0) false _ _ _ _ _ _ hs hjs
  exact ⟨s, log, t, log', hs, ht, hrecent⟩

end SentinelFlow
