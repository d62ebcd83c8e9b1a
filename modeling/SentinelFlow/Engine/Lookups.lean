/-
Lookups while checks run. All checks share one cache of instances, so what a
lookup answers could depend on what was looked up before it. In a regular
registry it does not: every name answers with its own class, and a run leaves
the registry regular. Each step is then the one that the registry of the
start would take (`step_regular`).
-/
import SentinelFlow.Engine.Runs

namespace SentinelFlow

open Machine Engine

/-! ## Registries of the same classes -/

section Same

variable {reg now : Registry}

/-- Two regular registries of the same classes answer alike. -/
theorem getInstance_alike (h : reg.Regular) (hnow : now.Regular) (hc : now.classes = reg.classes) (kind : Kind)
    (name : String) :
    (∃ e, now.getInstance kind name = .error e ∧ reg.getInstance kind name = .error e) ∨
      ∃ cls now' reg', now.getInstance kind name = .ok (now', cls) ∧ reg.getInstance kind name = .ok (reg', cls) ∧
        now'.Extends now ∧ reg'.Extends reg := by
  cases hl : (reg.classes kind).lookup name with
  | none => exact .inl ⟨_, Registry.getInstance_unknown (hc ▸ hl), Registry.getInstance_unknown hl⟩
  | some cls =>
    obtain ⟨reg', hg, hext⟩ := h.getInstance hl
    obtain ⟨now', hg', hext'⟩ := hnow.getInstance (hc ▸ hl)
    exact .inr ⟨cls, now', reg', hg', hg, hext', hext⟩

variable (cfg : PyDict)

theorem startBody_alike (h : reg.Regular) (hnow : now.Regular) (hc : now.classes = reg.classes) :
    startBody now cfg = startBody reg cfg := by
  unfold startBody Registry.getIngestor
  split
  · split
    next ty _ =>
      rcases getInstance_alike h hnow hc .ingestor ty with ⟨e, hg, hg'⟩ | ⟨cls, now', reg', hg, hg', -⟩ <;>
        rw [hg, hg']
    next => rfl
  · rfl

theorem nextEvaluator_alike (h : reg.Regular) (hnow : now.Regular) (hc : now.classes = reg.classes)
    (payload : MetricPayload) (valid : List AlertEvent) :
    ∀ vs : List PyVal, nextEvaluator now cfg payload valid vs = nextEvaluator reg cfg payload valid vs
  | [] => rfl
  | v :: rest => by
    unfold nextEvaluator Registry.getEvaluator
    split
    · exact nextEvaluator_alike h hnow hc payload valid rest
    next ty c _ =>
      rcases getInstance_alike h hnow hc .evaluator ty with ⟨e, hg, hg'⟩ | ⟨cls, now', reg', hg, hg', -⟩ <;>
        rw [hg, hg']

theorem dispatchTasks_alike : ∀ {reg now : Registry}, reg.Regular → now.Regular → now.classes = reg.classes →
    ∀ vs : List PyVal, dispatchTasks now vs = dispatchTasks reg vs
  | _, _, _, _, _, [] => rfl
  | reg, now, h, hnow, hc, v :: rest => by
    unfold dispatchTasks Registry.getHandler
    split
    · exact dispatchTasks_alike h hnow hc rest
    next ty c _ =>
      rcases getInstance_alike h hnow hc .handler ty with ⟨e, hg, hg'⟩ | ⟨cls, now', reg', hg, hg', hext, hext'⟩
      · rw [hg, hg']
      · have htail := dispatchTasks_alike (h.extends hext') (hnow.extends hext)
          (hext.1.trans (hc.trans hext'.1.symm)) rest
        rw [hg, hg']
        dsimp only
        rw [htail]

theorem resumeBody_alike (h : reg.Regular) (hnow : now.Regular) (hc : now.classes = reg.classes)
    (policy : AlertPolicy) (t : Time) (p : PipePoint) (reply : Reply) :
    resumeBody now cfg policy t p reply = resumeBody reg cfg policy t p reply := by
  unfold resumeBody decideEvent
  simp only [nextEvaluator_alike cfg h hnow hc, dispatchTasks_alike h hnow hc]

/-- A step of the coroutine is the same with either. -/
theorem resume_alike (h : reg.Regular) (hnow : now.Regular) (hc : now.classes = reg.classes) (x : Executor)
    (clk : Clock) (p : Point) (reply : Reply) : resume now x cfg clk p reply = resume reg x cfg clk p reply := by
  unfold resume enterPipeline
  simp only [startBody_alike cfg h hnow hc, resumeBody_alike cfg h hnow hc]

end Same

/-! ## The registry after a step -/

/-- A lookup that answered, answered with the class of the name. -/
def Effect.IsOwn (reg : Registry) : Effect → Prop
  | .lookedUp kind name (.ok inst) => (reg.classes kind).lookup name = some inst
  | _ => True

section Own

variable {reg : Registry} {cfg : PyDict}

theorem isOwn_lookedUp (h : reg.Regular) {reg' : Registry} {kind : Kind} {name : String} {inst : PyClass}
    (hg : reg.getInstance kind name = .ok (reg', inst)) : (reg.classes kind).lookup name = some inst := by
  cases hl : (reg.classes kind).lookup name with
  | none =>
    rw [Registry.getInstance_unknown hl] at hg
    cases hg
  | some cls =>
    obtain ⟨reg'', hg', -⟩ := h.getInstance hl
    rw [hg'] at hg
    cases hg
    rfl

theorem isOwn_startBody (h : reg.Regular) : ∀ e ∈ (startBody reg cfg).2, e.IsOwn reg := by
  unfold startBody
  split
  · split
    · split
      next hg => simpa [Effect.IsOwn] using isOwn_lookedUp h hg
      next => simp [Effect.IsOwn]
    · simp
  · simp

theorem isOwn_nextEvaluator (h : reg.Regular) (payload : MetricPayload) (valid : List AlertEvent) :
    ∀ vs : List PyVal, ∀ e ∈ (nextEvaluator reg cfg payload valid vs).2, e.IsOwn reg
  | [] => by simp [nextEvaluator]
  | v :: rest => by
    unfold nextEvaluator
    split
    · exact isOwn_nextEvaluator h payload valid rest
    · split
      next hg => simpa [Effect.IsOwn] using isOwn_lookedUp h hg
      next => simp [Effect.IsOwn]

theorem isOwn_dispatchTasks : ∀ {reg : Registry}, reg.Regular → ∀ vs : List PyVal,
    ∀ e ∈ (dispatchTasks reg vs).2, e.IsOwn reg
  | _, _, [] => by simp [dispatchTasks]
  | reg, h, v :: rest => by
    unfold dispatchTasks
    split
    · exact isOwn_dispatchTasks h rest
    · split
      next reg' handler hg =>
        obtain ⟨reg'', hg', hext⟩ := h.getInstance (isOwn_lookedUp h hg)
        have hsame : reg' = reg'' := congrArg Prod.fst (Except.ok.inj (hg.symm.trans hg'))
        subst hsame
        intro e he
        rcases List.mem_cons.1 he with rfl | he
        · exact isOwn_lookedUp h hg
        · have hown := isOwn_dispatchTasks (h.extends hext) rest e he
          unfold Effect.IsOwn at hown ⊢
          rwa [hext.1] at hown
      next => simp [Effect.IsOwn]

theorem Effect.OfExit.isOwn {e : Effect} {id : String} (h : e.OfExit id) : e.IsOwn reg := by
  cases e with
  | lookedUp => cases h
  | _ => trivial

theorem isOwn_runDispatches {id : String} {event : AlertEvent} {ts : List DispatchTask}
    {rs : List (Except Raised Unit)} : ∀ e ∈ runDispatches id event ts rs, e.IsOwn reg := by
  intro e he
  rcases mem_runDispatches he with ⟨ty, c, r, rfl⟩ | rfl <;> trivial

theorem isOwn_resumeBody {policy : AlertPolicy} {now : Time} {p : PipePoint} {reply : Reply} {prog : Progress}
    {es : List Effect} (h : reg.Regular) (hb : resumeBody reg cfg policy now p reply = some (prog, es)) :
    ∀ e ∈ es, e.IsOwn reg := by
  cases continues_of_resumeBody hb with
  | fetchRaised | evaluatorRaised =>
    intro e he
    cases he
  | fetched | evaluated => exact isOwn_nextEvaluator h _ _ _
  | decided =>
    unfold decideEvent
    dsimp only
    split
    · simp [Effect.IsOwn]
    · simp [Effect.IsOwn]
    · intro e he
      rcases List.mem_cons.1 he with rfl | he
      · trivial
      · exact isOwn_dispatchTasks h _ e he
  | gathered => exact isOwn_runDispatches

theorem Resumes.isOwn {x : Executor} {clk : Clock} {p p' : Point} {reply : Reply} {es : List Effect}
    (h : reg.Regular) (hr : Resumes reg x cfg clk p reply p' es) : ∀ e ∈ es, e.IsOwn reg := by
  cases hr with
  | refused | cancelledQueued | cancelledWaiting | entered => simp [Effect.IsOwn]
  | timedOutWaiting => exact fun e he => (ofExit_leaveUnstarted e he).isOwn
  | rejected =>
    rw [List.forall_mem_append]
    exact ⟨by simp [rejectEffects, Effect.IsOwn], fun e he => (ofExit_leaveUnstarted e he).isOwn⟩
  | @started f =>
    rw [List.forall_mem_append, List.forall_mem_append]
    refine ⟨?_, isOwn_startBody h, fun e he => (ofExit_settle e he).isOwn⟩
    unfold startEffects
    split <;> simp [Effect.IsOwn]
  | body hb =>
    rw [List.forall_mem_append]
    exact ⟨isOwn_resumeBody h hb, fun e he => (ofExit_settle e he).isOwn⟩
  | @timedOut f st p rs | @cancelled f st p rs =>
    rw [List.forall_mem_append]
    refine ⟨?_, fun e he => (ofExit_leave e he).isOwn⟩
    cases p with
    | dispatching event ts todo => exact isOwn_runDispatches
    | fetching | evaluating | deciding => intro e he; cases he

end Own

theorem Registry.Extends.trans {a b c : Registry} (h : a.Extends b) (h' : b.Extends c) : a.Extends c := by
  refine ⟨h.1.trans h'.1, fun name inst hi => ?_⟩
  rcases h.2 name inst hi with hold | ⟨kind, hown⟩
  · exact h'.2 name inst hold
  · exact .inr ⟨kind, h'.1 ▸ hown⟩

theorem extends_cached {reg : Registry} {instances : Dict String PyClass} {e : Effect} (h : e.IsOwn reg) :
    (reg.caching (e.cached instances)).Extends (reg.caching instances) := by
  have hclasses : (reg.caching (e.cached instances)).classes = (reg.caching instances).classes :=
    (reg.classes_caching _).trans (reg.classes_caching _).symm
  refine ⟨hclasses, fun n inst hi => ?_⟩
  unfold Effect.cached at hi
  split at hi
  next kind name inst' =>
    rw [Registry.lookup_caching] at hi ⊢
    rw [Registry.classes_caching]
    by_cases hn : n = name
    · subst hn
      rw [AList.lookup_insert] at hi
      rcases Option.or_eq_some_iff.1 hi with hold | ⟨-, hnew⟩
      · exact .inl (by rw [hold]; rfl)
      · cases hnew
        exact .inr ⟨kind, h⟩
    · rw [AList.lookup_insert_ne hn] at hi
      exact .inl hi
  next => exact .inl hi

theorem extends_foldl_cached {reg : Registry} : ∀ {es : List Effect} {instances : Dict String PyClass},
    (∀ e ∈ es, e.IsOwn reg) → (reg.caching (es.foldl Effect.cached instances)).Extends (reg.caching instances)
  | [], _, _ => ⟨rfl, fun _ _ hi => .inl hi⟩
  | e :: es, instances, h => by
    rw [List.forall_mem_cons] at h
    exact (extends_foldl_cached h.2).trans (extends_cached h.1)

section Steps

variable {reg : Registry} {cfgOf : ℕ → PyDict} {s s' : Engine} {i : Input} {o : Happened}

theorem Engine.registry_regular_start (hreg : reg.Regular) (x : Executor) : ((start x).registry reg).Regular := by
  refine hreg.extends ⟨reg.classes_caching _, fun name inst hi => .inl ?_⟩
  rw [Engine.registry, Registry.lookup_caching] at hi
  simpa [start] using hi

/-- **The step lemma.** A regular registry stays regular. -/
theorem registry_regular_step (hs : (s.registry reg).Regular) (h : step reg cfgOf s i = some (s', o)) :
    (s'.registry reg).Regular := by
  have hown : ∀ e ∈ o.effects, e.IsOwn reg := by
    intro e he
    have howned := (step_resumes h).1.isOwn hs e he
    unfold Effect.IsOwn at howned ⊢
    rwa [s.registry_classes reg] at howned
  refine hs.extends ?_
  rw [Engine.registry, step_instances h]
  exact extends_foldl_cached hown

/-- **The run lemma.** -/
theorem registry_regular_run (hreg : reg.Regular) {x₀ : Executor} {is : List Input} {log : List Happened}
    (h : run (step reg cfgOf) (start x₀) is = some (s, log)) : (s.registry reg).Regular := by
  exact run_invariant (fun _ _ _ _ hs h => registry_regular_step hs h) (registry_regular_start hreg x₀) h

/-- A step with a regular registry is one with the registry of the start. -/
theorem step_regular (hreg : reg.Regular) (hs : (s.registry reg).Regular) (h : step reg cfgOf s i = some (s', o)) :
    Resumes reg s.executor (cfgOf i.task) i.clock (s.point i.task) i.reply o.point o.effects := by
  obtain ⟨⟨p', es⟩, hr, he⟩ := Option.map_eq_some_iff.1 h
  cases he
  rw [resume_alike _ hreg hs (s.registry_classes reg)] at hr
  exact resumes_of_resume hr

/-- What a regular registry answers misses nothing. -/
theorem isOwn_run (hreg : reg.Regular) {x₀ : Executor} {is : List Input} {log : List Happened}
    (h : run (step reg cfgOf) (start x₀) is = some (s, log)) : ∀ o ∈ log, ∀ e ∈ o.effects, e.IsOwn reg := by
  refine run_induction (fun is log s => run (step reg cfgOf) (start x₀) is = some (s, log) →
    ∀ o ∈ log, ∀ e ∈ o.effects, e.IsOwn reg) (fun _ o ho => by cases ho) ?_ h h
  intro is log s i o s' hr hI hs _
  rw [List.forall_mem_append]
  refine ⟨hI hr, fun o' ho' => ?_⟩
  rw [List.mem_singleton] at ho'
  rw [ho']
  exact (step_regular hreg (registry_regular_run hreg hr) hs).isOwn hreg

end Steps

/-! ## The instances that are dispatched to -/

/-- Every instance awaited has the method that is called. -/
def PipePoint.Equipped (p : PipePoint) : Prop := ∀ t ∈ p.tasks, .handler ∈ t.handler.methods

def Progress.Equipped : Progress → Prop := Progress.At PipePoint.Equipped
def Point.Equipped : Point → Prop := Point.At PipePoint.Equipped

theorem PipePoint.equipped_of_tasks {p : PipePoint} (h : p.tasks = []) : p.Equipped := by
  intro t ht
  rw [h] at ht
  cases ht

section Equipped

variable {reg : Registry} {cfg : PyDict}

theorem equipped_dispatchTasks : ∀ {reg : Registry}, reg.Regular → ∀ {vs : List PyVal} {ts : List DispatchTask},
    (dispatchTasks reg vs).1 = .ok ts → ∀ t ∈ ts, .handler ∈ t.handler.methods
  | _, _, [], ts, hts => by
    cases hts
    simp
  | reg, h, v :: rest, ts, hts => by
    unfold dispatchTasks at hts
    split at hts
    · exact equipped_dispatchTasks h hts
    · split at hts
      next reg' handler hg =>
        have hclass := isOwn_lookedUp h hg
        obtain ⟨reg'', hg', hext⟩ := h.getInstance hclass
        have hsame : reg' = reg'' := congrArg Prod.fst (Except.ok.inj (hg.symm.trans hg'))
        subst hsame
        dsimp only at hts
        cases htail : (dispatchTasks reg' rest).1 with
        | error e => rw [htail] at hts; cases hts
        | ok ts' =>
          rw [htail] at hts
          cases hts
          rw [List.forall_mem_cons]
          exact ⟨(h.usable hclass).1, equipped_dispatchTasks (h.extends hext) htail⟩
      next => cases hts

theorem equipped_nextEvent (todo : List AlertEvent) : (nextEvent todo).Equipped := by
  cases todo with
  | nil => trivial
  | cons e rest => exact PipePoint.equipped_of_tasks rfl

theorem equipped_nextEvaluator (payload : MetricPayload) (valid : List AlertEvent) :
    ∀ vs : List PyVal, (nextEvaluator reg cfg payload valid vs).1.Equipped
  | [] => by
    unfold nextEvaluator afterEvaluators
    split
    · trivial
    · split
      · exact equipped_nextEvent valid
      · trivial
  | v :: rest => by
    unfold nextEvaluator
    split
    · exact equipped_nextEvaluator payload valid rest
    · split
      · exact at_callOn (PipePoint.equipped_of_tasks rfl)
      · trivial

/-- Only the turn of an alert makes dispatch tasks. -/
theorem equipped_resumeBody (h : reg.Regular) {policy : AlertPolicy} {now : Time} {p : PipePoint} {reply : Reply}
    {prog : Progress} {es : List Effect} (hb : resumeBody reg cfg policy now p reply = some (prog, es)) :
    prog.Equipped := by
  cases continues_of_resumeBody hb with
  | fetchRaised | evaluatorRaised => trivial
  | fetched | evaluated => exact equipped_nextEvaluator _ _ _
  | @decided _ todo =>
    unfold decideEvent
    dsimp only
    split
    · trivial
    · exact equipped_nextEvent todo
    · split
      · trivial
      next hts => exact equipped_dispatchTasks h hts
  | @gathered _ _ todo =>
    unfold afterDispatches
    split
    · trivial
    · exact equipped_nextEvent todo

/-- **The step lemma.** With a regular registry a step comes to a point whose
instances have the method. -/
theorem Resumes.equipped {x : Executor} {clk : Clock} {p p' : Point} {reply : Reply} {es : List Effect}
    (h : reg.Regular) (hr : Resumes reg x cfg clk p reply p' es) : p'.Equipped := by
  cases hr with
  | refused | entered | cancelledQueued | cancelledWaiting | timedOutWaiting | rejected | timedOut | cancelled =>
    trivial
  | started => exact at_settle (at_startBody (PipePoint.equipped_of_tasks rfl))
  | body hb => exact at_settle (equipped_resumeBody h hb)

end Equipped

end SentinelFlow
