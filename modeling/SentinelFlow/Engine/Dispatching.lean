/-
From the alerts an execution raises to the handler calls it makes.

Each alert has its turn at the policy, in the order the evaluators raised
them, and one the policy lets through is handed to every handler entry, in
the order of the entries, whatever the calls before it did. `Tracked` says
how far an execution has come with that at each of its points, and
`delivered_once` reads it off at the end.
-/
import SentinelFlow.Engine.Delivery
import SentinelFlow.Engine.Lookups

namespace SentinelFlow

open Machine Engine PolicyRuns

/-! ## What an execution has seen -/

/-- The alert an evaluator's answer raises. -/
def Reply.alert? : Reply → Option AlertEvent
  | .evaluated (.ok event) => event
  | _ => none

/-- A lookup that answers with no instance that has its kind's method. -/
def Effect.misses : Effect → Bool
  | .lookedUp kind _ (.ok inst) => kind ∉ inst.methods
  | .lookedUp _ _ (.error _) => true
  | _ => false

/-- A handler call: the alert, and the type and the entry of its handler. -/
abbrev Handoff := AlertEvent × String × PyDict

def Effect.handoff? : Effect → Option Handoff
  | .handed event handlerType config _ => some (event, handlerType, config)
  | _ => none

def handoffs (es : List Effect) : List Handoff := es.filterMap Effect.handoff?

@[simp] theorem handoffs_append (es fs : List Effect) : handoffs (es ++ fs) = handoffs es ++ handoffs fs :=
  List.filterMap_append

/-- The alert a call of the policy is about, if the policy let it through. -/
def PolicyCall.through? (c : PolicyCall) : Option AlertEvent :=
  match c.args.event, c.result with
  | .alertEvent event, .ok true => some event
  | _, _ => none

/-- What an execution has seen: the alerts its evaluators raised, whether it
was raised an exception or missed an instance, its calls of the policy and
those of its handlers. -/
structure Seen where
  raised : List AlertEvent
  failed : Bool
  calls : List PolicyCall
  handed : List Handoff

def seen (ins : List Input) (es : List Effect) : Seen :=
  ⟨ins.filterMap (·.reply.alert?), ins.any (·.reply.raised?.isSome) || es.any Effect.misses, policyCallsIn es,
    handoffs es⟩

/-- After a step on this reply, with these effects. -/
def Seen.next (v : Seen) (reply : Reply) (es : List Effect) : Seen :=
  ⟨v.raised ++ reply.alert?.toList, v.failed || (reply.raised?.isSome || es.any Effect.misses),
    v.calls ++ policyCallsIn es, v.handed ++ handoffs es⟩

theorem seen_concat (ins : List Input) (i : Input) (es es' : List Effect) :
    seen (ins ++ [i]) (es ++ es') = (seen ins es).next i.reply es' := by
  have hfailed : ∀ a b c d : Bool, (a || b || (c || d)) = ((a || c) || (b || d)) := by decide
  cases h : i.reply.alert? <;> simp [seen, Seen.next, h, hfailed]

/-- The alerts let through so far. -/
def Seen.through (v : Seen) : List AlertEvent := v.calls.filterMap PolicyCall.through?

/-- The handler entries of a check. -/
def handlerEntries (cfg : PyDict) : List (String × PyDict) := (listAt cfg "handlers").filterMap typedEntry

/-- Each of these alerts, for each of the handler entries. -/
def toEveryEntry (cfg : PyDict) (events : List AlertEvent) : List Handoff :=
  events.flatMap fun event => (handlerEntries cfg).map (event, ·)

/-- Every type the configuration names is registered for its kind. -/
structure Known (reg : Registry) (cfg : PyDict) : Prop where
  ingestor : ∃ c ty, cfg.get "ingestor" = some (.dict c) ∧ PyDict.get c "type" = some (.str ty) ∧
    (reg.classes .ingestor).lookup ty ≠ none
  evaluators : ∀ v ∈ listAt cfg "evaluators", ∀ ty c, typedEntry v = some (ty, c) →
    (reg.classes .evaluator).lookup ty ≠ none
  handlers : ∀ v ∈ listAt cfg "handlers", ∀ ty c, typedEntry v = some (ty, c) →
    (reg.classes .handler).lookup ty ≠ none

/-- The handler entry a dispatch task is for. -/
def DispatchTask.entry (t : DispatchTask) : String × PyDict := (t.handlerType, t.config)

/-! ## How far it has come -/

section Tracked

variable (reg : Registry) (cfg : PyDict) (v : Seen)

/-- Neither the policy nor a handler has been called. -/
def Seen.Untouched : Prop := v.calls = [] ∧ v.handed = []

/-- The policy has been asked about these alerts, and about no others. -/
def Seen.Asked (done : List AlertEvent) : Prop := v.calls.map (·.args) = done.map (dispatchArgs cfg)

def PipePoint.Tracked : PipePoint → Prop
  | .fetching => v.raised = [] ∧ v.Untouched
  | .evaluating _ _ _ todo validEvents =>
    v.raised = validEvents ∧ v.Untouched ∧ ∀ e ∈ todo, e ∈ listAt cfg "evaluators"
  | .deciding event todo =>
    v.handed = toEveryEntry cfg v.through ∧ ∃ done, v.raised = done ++ event :: todo ∧ v.Asked cfg done
  | .dispatching event ts todo =>
    v.handed ++ ts.map (fun t => (event, t.entry)) = toEveryEntry cfg v.through ∧
      (∀ t ∈ ts, .handler ∈ t.handler.methods) ∧ v.raised ≠ [] ∧ ∃ done, v.raised = done ++ todo ∧ v.Asked cfg done

def PipelineEnd.Tracked : PipelineEnd → Prop
  | .passed => v.raised = [] ∧ v.Untouched
  | .alerted => v.raised ≠ [] ∧ v.handed = toEveryEntry cfg v.through ∧ v.Asked cfg v.raised
  | .raised _ => (∃ c ∈ v.calls, ∃ e, c.result = .error e) ∨ ¬Known reg cfg ∨ ∀ n, policyNumbers cfg ≠ .ok n
  | .cut _ => True

def Progress.Tracked : Progress → Prop
  | .paused p => p.Tracked cfg v
  | .ended e => e.Tracked reg cfg v

def Point.Tracked : Point → Prop
  | .queued | .waiting _ => v.raised = [] ∧ v.Untouched
  | .running _ _ p => p.Tracked cfg v
  | .finished (some e) _ => e.Tracked reg cfg v
  | .finished none _ => True

end Tracked

theorem Known.congr {reg now : Registry} {cfg : PyDict} (h : now.classes = reg.classes) :
    Known now cfg ↔ Known reg cfg := by
  constructor
  · rintro ⟨hi, he, hh⟩
    exact ⟨h ▸ hi, h ▸ he, h ▸ hh⟩
  · rintro ⟨hi, he, hh⟩
    exact ⟨h ▸ hi, h ▸ he, h ▸ hh⟩

/-- What is tracked knows the registry by its classes. -/
theorem Progress.tracked_congr {reg now : Registry} {cfg : PyDict} {v : Seen} (h : now.classes = reg.classes)
    {prog : Progress} : prog.Tracked now cfg v ↔ prog.Tracked reg cfg v := by
  cases prog with
  | paused p => exact Iff.rfl
  | ended e =>
    cases e with
    | raised e => exact or_congr_right (or_congr_left (not_congr (Known.congr h)))
    | passed | alerted | cut => exact Iff.rfl

section Body

variable {reg : Registry} {cfg : PyDict} {v : Seen}

theorem tracked_nextEvent {todo : List AlertEvent} (hh : v.handed = toEveryEntry cfg v.through)
    (hne : v.raised ≠ []) (hd : ∃ done, v.raised = done ++ todo ∧ v.Asked cfg done) :
    (nextEvent todo).Tracked reg cfg v := by
  obtain ⟨done, hr, ha⟩ := hd
  cases todo with
  | nil =>
    rw [List.append_nil] at hr
    exact ⟨hne, hh, hr ▸ ha⟩
  | cons e rest => exact ⟨hh, done, hr, ha⟩

theorem tracked_afterEvaluators (hu : v.Untouched) : (afterEvaluators cfg v.raised).Tracked reg cfg v := by
  unfold afterEvaluators
  split
  next h => exact ⟨List.isEmpty_iff.1 h, hu⟩
  next h =>
    split
    next =>
      have hthrough : v.through = [] := by rw [Seen.through, hu.1]; rfl
      refine tracked_nextEvent ?_ (by simpa using h) ⟨[], rfl, ?_⟩
      · rw [hu.2, hthrough]
        rfl
      · rw [Seen.Asked, hu.1]
        rfl
    next x hx =>
      refine .inr (.inr fun n hn => ?_)
      rw [hx] at hn
      cases hn

theorem tracked_callOn {inst : PyClass} {kind : Kind} (name : String) {p : PipePoint}
    (hfit : (Effect.lookedUp kind name (.ok inst)).misses = false) (hp : p.Tracked cfg v) :
    (callOn inst kind p).Tracked reg cfg v := by
  have hmem : kind ∈ inst.methods := by simpa [Effect.misses] using hfit
  rw [callOn, if_pos hmem]
  exact hp

/-- Where no lookup misses, the loop over the evaluators keeps track. -/
theorem tracked_nextEvaluator {payload : MetricPayload} (hu : v.Untouched) :
    ∀ vs : List PyVal, (∀ e ∈ vs, e ∈ listAt cfg "evaluators") →
      (∀ x ∈ (nextEvaluator reg cfg payload v.raised vs).2, x.misses = false) →
      (nextEvaluator reg cfg payload v.raised vs).1.Tracked reg cfg v
  | [], _, _ => tracked_afterEvaluators hu
  | e :: rest, hvs, hfit => by
    have hrest : ∀ e ∈ rest, e ∈ listAt cfg "evaluators" := fun e he => hvs e (by simp [he])
    unfold nextEvaluator at hfit ⊢
    split at hfit
    · exact tracked_nextEvaluator hu rest hrest hfit
    next ty c hty =>
      split at hfit
      next => exact tracked_callOn ty (hfit _ (by simp)) ⟨rfl, hu, hrest⟩
      next => cases hfit _ (List.mem_singleton.2 rfl)

/-- Where no lookup misses, the loop over the handlers takes every entry. -/
theorem dispatchTasks_fit : ∀ {reg : Registry} {vs : List PyVal},
    (∀ x ∈ (dispatchTasks reg vs).2, x.misses = false) →
      ∃ ts, (dispatchTasks reg vs).1 = .ok ts ∧ ts.map DispatchTask.entry = vs.filterMap typedEntry ∧
        ∀ t ∈ ts, .handler ∈ t.handler.methods
  | _, [], _ => ⟨[], rfl, rfl, by simp⟩
  | reg, v :: rest, hfit => by
    unfold dispatchTasks at hfit ⊢
    split at hfit
    next hty =>
      rw [List.filterMap_cons, hty]
      exact dispatchTasks_fit hfit
    next ty c hty =>
      split at hfit
      next reg' handler hg =>
        rw [List.forall_mem_cons] at hfit
        obtain ⟨ts, hts, hentries, hmethods⟩ := dispatchTasks_fit hfit.2
        refine ⟨⟨ty, handler, c⟩ :: ts, by dsimp only; rw [hts]; rfl, ?_, ?_⟩
        · rw [List.filterMap_cons, hty, List.map_cons, hentries]
          rfl
        · rw [List.forall_mem_cons]
          exact ⟨by simpa [Effect.misses] using hfit.1, hmethods⟩
      next => cases hfit _ (List.mem_singleton.2 rfl)

theorem handoffs_lookups {es : List Effect} (h : ∀ e ∈ es, e.isLookup = true) : handoffs es = [] :=
  filterMap_lookups (fun _ _ _ => rfl) h

theorem handoffs_runDispatches (id : String) (event : AlertEvent) :
    ∀ {ts : List DispatchTask} {rs : List (Except Raised Unit)}, (∀ t ∈ ts, .handler ∈ t.handler.methods) →
      rs.length = ts.length → handoffs (runDispatches id event ts rs) = ts.map fun t => (event, t.entry)
  | [], [], _, _ => rfl
  | t :: ts, r :: rs, hts, h => by
    rw [List.forall_mem_cons] at hts
    have ih : handoffs (runDispatches id event ts rs) = ts.map fun t => (event, t.entry) :=
      handoffs_runDispatches id event hts.2 (by simpa using h)
    have hcons : runDispatches id event (t :: ts) (r :: rs) =
        runDispatch id event t r ++ runDispatches id event ts rs := rfl
    have hone : handoffs (runDispatch id event t r) = [(event, t.entry)] := by
      unfold runDispatch
      rw [if_pos hts.1]
      cases r <;> rfl
    rw [hcons, handoffs_append, hone, ih]
    rfl

theorem handoffs_decideEvent (policy : AlertPolicy) (now : Time) (event : AlertEvent) (todo : List AlertEvent) :
    handoffs (decideEvent reg cfg policy now event todo).2 = [] := by
  unfold decideEvent
  dsimp only
  split
  · rfl
  · rfl
  · have hnone : handoffs (dispatchTasks reg (listAt cfg "handlers")).2 = [] :=
      handoffs_lookups (isLookup_dispatchTasks reg _)
    simpa [handoffs, Effect.handoff?] using hnone

theorem toEveryEntry_append (cfg : PyDict) (xs ys : List AlertEvent) :
    toEveryEntry cfg (xs ++ ys) = toEveryEntry cfg xs ++ toEveryEntry cfg ys := by
  simp [toEveryEntry]

/-- The turn of an alert: it is the next one asked about, and it is handed
to every entry or to none. -/
theorem tracked_decideEvent {policy : AlertPolicy} {now : Time} {event : AlertEvent} {todo : List AlertEvent}
    (h : (PipePoint.deciding event todo).Tracked cfg v)
    (hfit : ∀ x ∈ (decideEvent reg cfg policy now event todo).2, x.misses = false) :
    (decideEvent reg cfg policy now event todo).1.Tracked reg cfg
      (v.next .proceed (decideEvent reg cfg policy now event todo).2) := by
  obtain ⟨hh, done, hr, ha⟩ := h
  have hcalls := policyCallsIn_decideEvent reg cfg policy now event todo
  generalize hw : v.next .proceed (decideEvent reg cfg policy now event todo).2 = w
  have hwr : w.raised = (done ++ [event]) ++ todo := by
    rw [← hw, List.append_assoc]
    simpa [Seen.next, Reply.alert?] using hr
  have hwh : w.handed = v.handed := by
    rw [← hw]
    simp [Seen.next, handoffs_decideEvent]
  have hwc : w.calls = v.calls ++ [⟨now, dispatchArgs cfg event,
      (policy.shouldDispatch now (dispatchArgs cfg event)).2.value⟩] := by
    rw [← hw, ← hcalls]
    rfl
  have hwa : w.Asked cfg (done ++ [event]) := by
    rw [Seen.Asked, hwc, List.map_append, List.map_append, ha]
    rfl
  unfold decideEvent at hfit ⊢
  dsimp only at hfit ⊢
  split at hfit
  next x hx =>
    rw [hx] at hwc
    refine .inl ⟨⟨now, dispatchArgs cfg event, .error x⟩, ?_, x, rfl⟩
    rw [hwc]
    exact List.mem_append_right _ (List.mem_singleton.2 rfl)
  next hx =>
    have hthrough : w.through = v.through := by
      rw [Seen.through, hwc, hx]
      simp [Seen.through, PolicyCall.through?, dispatchArgs]
    rw [hx]
    exact tracked_nextEvent (by rw [hwh, hthrough, hh]) (by rw [hwr]; simp) ⟨_, hwr, hwa⟩
  next hx =>
    have hthrough : w.through = v.through ++ [event] := by
      rw [Seen.through, hwc, hx]
      simp [Seen.through, PolicyCall.through?, dispatchArgs]
    rw [List.forall_mem_cons] at hfit
    obtain ⟨ts, hts, hentries, hmethods⟩ := dispatchTasks_fit hfit.2
    rw [hx]
    dsimp only
    rw [hts]
    refine ⟨?_, hmethods, by rw [hwr]; simp, _, hwr, hwa⟩
    have hmap : ts.map (fun t => (event, t.entry)) = (handlerEntries cfg).map (event, ·) := by
      rw [handlerEntries, ← hentries, List.map_map]
      rfl
    rw [hwh, hthrough, toEveryEntry_append, hh, hmap]
    simp [toEveryEntry]

theorem Seen.next_fit {reply : Reply} {es : List Effect} (h : (v.next reply es).failed = false) :
    v.failed = false ∧ reply.raised? = none ∧ ∀ x ∈ es, x.misses = false := by
  simpa [Seen.next] using h

/-- Lookups touch neither the policy nor a handler. -/
theorem Seen.Untouched.next (hu : v.Untouched) (reply : Reply) {es : List Effect}
    (hlookups : ∀ e ∈ es, e.isLookup = true) : (v.next reply es).Untouched := by
  simpa [Seen.Untouched, Seen.next, policyCallsIn_lookups hlookups, handoffs_lookups hlookups] using hu

/-- The body keeps track. -/
theorem tracked_resumeBody {policy : AlertPolicy} {now : Time} {p : PipePoint} {reply : Reply} {prog : Progress}
    {es : List Effect} (h : resumeBody reg cfg policy now p reply = some (prog, es)) (hp : p.Tracked cfg v)
    (hfit : (v.next reply es).failed = false) : prog.Tracked reg cfg (v.next reply es) := by
  obtain ⟨-, hraised, hmisses⟩ := Seen.next_fit hfit
  cases continues_of_resumeBody h with
  | fetchRaised | evaluatorRaised => cases hraised
  | @fetched payload =>
    obtain ⟨hr, hu⟩ := hp
    have hnil : ∀ es, (v.next (.fetched (.ok payload)) es).raised = [] := by simp [Seen.next, hr, Reply.alert?]
    have hlookups := @isLookup_nextEvaluator reg cfg payload [] (listAt cfg "evaluators")
    have hnext := @tracked_nextEvaluator reg cfg _ payload (hu.next (.fetched (.ok payload)) hlookups)
      (listAt cfg "evaluators") fun e he => he
    rw [hnil] at hnext
    exact hnext hmisses
  | @evaluated payload ty c todo valid event =>
    obtain ⟨hr, hu, ht⟩ := hp
    have hadded : ∀ es, (v.next (.evaluated (.ok event)) es).raised = valid ++ event.toList := by
      simp [Seen.next, hr, Reply.alert?]
    have hlookups := @isLookup_nextEvaluator reg cfg payload (valid ++ event.toList) todo
    have hnext := @tracked_nextEvaluator reg cfg _ payload (hu.next (.evaluated (.ok event)) hlookups) todo ht
    rw [hadded] at hnext
    exact hnext hmisses
  | decided => exact tracked_decideEvent hp hmisses
  | @gathered event ts todo rs hlen =>
    obtain ⟨hh, hts, hne, done, hr, ha⟩ := hp
    have hnone : undescribed? rs = none := hraised
    rw [afterDispatches, hnone]
    refine tracked_nextEvent ?_ ?_ ⟨done, ?_, ?_⟩
    · have hthrough : (v.next (.gathered rs) (runDispatches (metricIdOf cfg) event ts rs)).through =
          v.through := by simp [Seen.through, Seen.next, policyCallsIn_runDispatches]
      rw [hthrough, ← hh, ← handoffs_runDispatches (metricIdOf cfg) event hts hlen]
      rfl
    · simpa [Seen.next, Reply.alert?] using hne
    · simpa [Seen.next, Reply.alert?] using hr
    · simpa [Seen.Asked, Seen.next, policyCallsIn_runDispatches] using ha

theorem tracked_startBody (hr : v.raised = []) (hu : v.Untouched)
    (hfit : ∀ x ∈ (startBody reg cfg).2, x.misses = false) : (startBody reg cfg).1.Tracked reg cfg v := by
  unfold startBody at hfit ⊢
  split at hfit
  next c hc =>
    split at hfit
    next ty hty =>
      split at hfit
      next => exact tracked_callOn ty (hfit _ (by simp)) ⟨hr, hu⟩
      next => cases hfit _ (List.mem_singleton.2 rfl)
    next hno =>
      refine .inr (.inl fun hk => ?_)
      obtain ⟨c', ty, hc', hty, -⟩ := hk.ingestor
      rw [hc] at hc'
      cases hc'
      exact hno ty hty
  next hno =>
    refine .inr (.inl fun hk => ?_)
    obtain ⟨c, ty, hc, -⟩ := hk.ingestor
    exact hno c hc

end Body

theorem handoffs_ofExit {id : String} {es : List Effect} (h : ∀ e ∈ es, e.OfExit id) : handoffs es = [] := by
  rw [handoffs, List.filterMap_eq_nil_iff]
  intro e he
  have := h e he
  cases e <;> first | rfl | cases this

theorem misses_ofExit {id : String} {es : List Effect} (h : ∀ e ∈ es, e.OfExit id) :
    es.any Effect.misses = false := by
  rw [List.any_eq_false]
  intro e he
  have := h e he
  cases e with
  | lookedUp => cases this
  | _ => exact Bool.false_ne_true

/-- Leaving the layers around the body shows nothing new. -/
theorem tracked_settle {reg : Registry} {cfg : PyDict} {v : Seen} {reply : Reply} {es : List Effect} {f : Frame}
    {id : String} {st now : Time} {prog : Progress} (h : prog.Tracked reg cfg (v.next reply es)) :
    (settle f id st now prog).1.Tracked reg cfg (v.next reply (es ++ (settle f id st now prog).2)) := by
  have hsame : v.next reply (es ++ (settle f id st now prog).2) = v.next reply es := by
    simp only [Seen.next, policyCallsIn_append, handoffs_append, List.any_append, policyCallsIn_ofExit ofExit_settle,
      handoffs_ofExit ofExit_settle, misses_ofExit ofExit_settle, List.append_nil, Bool.or_false]
  rw [hsame]
  cases prog with
  | paused p => exact h
  | ended e => exact h

/-- **The run lemma.** Every execution keeps track, whatever the others do,
until it is raised an exception or misses an instance. -/
theorem tracked_run {reg : Registry} {cfgOf : ℕ → PyDict} {x₀ : Executor} {task : ℕ} {is : List Input}
    {log : List Happened} {s : Engine} (h : run (Engine.step reg cfgOf) (start x₀) is = some (s, log))
    (hfit : (seen (inputsOf task is) (effectsOf task log)).failed = false) :
    (s.point task).Tracked reg (cfgOf task) (seen (inputsOf task is) (effectsOf task log)) := by
  refine task_run (fun ins es p => (seen ins es).failed = false → p.Tracked reg (cfgOf task) (seen ins es))
    (fun _ => ⟨rfl, rfl, rfl⟩) ?_ h hfit
  clear hfit
  intro ins es p ⟨t, clk, reply⟩ now x p' es' ht hclasses hI hr hfit
  dsimp only at ht hr
  subst ht
  rw [seen_concat] at hfit ⊢
  obtain ⟨hbefore, hraised, hmisses⟩ := Seen.next_fit hfit
  have hI := hI hbefore
  have hknown : ∀ {pr : Progress} {v : Seen}, pr.Tracked now (cfgOf t) v → pr.Tracked reg (cfgOf t) v := by
    intro pr v h
    rwa [Progress.tracked_congr hclasses] at h
  cases hr with
  | refused | cancelledQueued | cancelledWaiting | timedOutWaiting | rejected | timedOut | cancelled => trivial
  | entered =>
    obtain ⟨hr, hu⟩ := hI
    refine ⟨?_, ?_, ?_⟩
    · simp [Seen.next, hr, Reply.alert?]
    · rw [Seen.next, hu.1]; rfl
    · rw [Seen.next, hu.2]; rfl
  | @started f r =>
    obtain ⟨hr, hu⟩ := hI
    have hcalls : policyCallsIn (startEffects f.cbEnabled (metricIdOf (cfgOf t)) clk.perf) = [] := by
      unfold startEffects
      split <;> rfl
    have hhanded : handoffs (startEffects f.cbEnabled (metricIdOf (cfgOf t)) clk.perf) = [] := by
      unfold startEffects
      split <;> rfl
    rw [← List.append_assoc] at hmisses ⊢
    refine tracked_settle (hknown (tracked_startBody ?_ ⟨?_, ?_⟩ ?_))
    · simp [Seen.next, hr, Reply.alert?]
    · rw [Seen.next, hu.1, policyCallsIn_append, hcalls, policyCallsIn_lookups isLookup_startBody]; rfl
    · rw [Seen.next, hu.2, handoffs_append, hhanded, handoffs_lookups isLookup_startBody]; rfl
    · exact fun e he => hmisses e (List.mem_append_left _ (List.mem_append_right _ he))
  | @body f st q reply prog bs hb =>
    refine tracked_settle (hknown (tracked_resumeBody hb hI ?_))
    rw [List.forall_mem_append] at hmisses
    simpa [Seen.next, hbefore, hraised] using hmisses.1

/-- In a regular registry nothing fails an execution whose pipeline does not
end in an exception. -/
theorem fit_of_completed {reg : Registry} (hreg : reg.Regular) {cfgOf : ℕ → PyDict} {x₀ : Executor} {task : ℕ}
    {is : List Input} {log : List Happened} {s : Engine} {e : PipelineEnd}
    (h : run (Engine.step reg cfgOf) (start x₀) is = some (s, log)) (hend : (s.point task).ending? = some e)
    (he : ∀ x, e ≠ .raised x) : (seen (inputsOf task is) (effectsOf task log)).failed = false := by
  rcases answers_run h task with ⟨x, -, hx⟩ | ⟨hnil, -⟩
  · rw [hend] at hx
    cases hx
    exact absurd rfl (he x)
  · obtain ⟨hins, hes⟩ := List.append_eq_nil_iff.1 hnil
    rw [List.filterMap_eq_nil_iff] at hins hes
    have hmiss : ∀ x ∈ effectsOf task log, x.misses = false := by
      intro x hx
      obtain ⟨o, ho, hxo⟩ := List.mem_flatMap.1 hx
      have hown := isOwn_run hreg h o (List.mem_of_mem_filter ho) x hxo
      have hraised := hes x hx
      cases x with
      | lookedUp kind name r =>
        cases r with
        | ok inst => simpa [Effect.misses] using (hreg.usable hown).1
        | error e => cases hraised
      | _ => rfl
    simpa [seen] using ⟨hins, hmiss⟩

/-! ## The counter of dispatched alerts -/

/-- The labels of an increment of the `dispatched` counter. -/
def Effect.counted? : Effect → Option (String × String × Severity)
  | .incAlert id evaluator severity .dispatched => some (id, evaluator, severity)
  | _ => none

/-- The labels a handler call that did not raise is counted under. -/
def Effect.delivered? (id : String) : Effect → Option (String × String × Severity)
  | .handed event _ _ (.ok ()) => some (id, event.evaluatorType, event.severity)
  | _ => none

/-- One increment for each handler call that did not raise. -/
def CountsDeliveries (id : String) (es : List Effect) : Prop :=
  es.filterMap Effect.counted? = es.filterMap (Effect.delivered? id)

section Counts

variable {id : String} {es fs : List Effect}

theorem CountsDeliveries.append (h : CountsDeliveries id es) (h' : CountsDeliveries id fs) :
    CountsDeliveries id (es ++ fs) := by
  unfold CountsDeliveries at *
  rw [List.filterMap_append, List.filterMap_append, h, h']

theorem countsDeliveries_ofExit {i : String} (h : ∀ e ∈ es, e.OfExit i) : CountsDeliveries id es := by
  have hnone : ∀ e ∈ es, e.counted? = none ∧ e.delivered? id = none := by
    intro e he
    have := h e he
    cases e <;> first | exact ⟨rfl, rfl⟩ | cases this
  rw [CountsDeliveries, List.filterMap_eq_nil_iff.2 fun e he => (hnone e he).1,
    List.filterMap_eq_nil_iff.2 fun e he => (hnone e he).2]

theorem countsDeliveries_lookups (h : ∀ e ∈ es, e.isLookup = true) : CountsDeliveries id es :=
  (filterMap_lookups (fun _ _ _ => rfl) h).trans (filterMap_lookups (fun _ _ _ => rfl) h).symm

theorem countsDeliveries_runDispatches (event : AlertEvent) :
    ∀ (ts : List DispatchTask) (rs : List (Except Raised Unit)),
      CountsDeliveries id (runDispatches id event ts rs)
  | [], _ => by cases ‹List (Except Raised Unit)› <;> rfl
  | _ :: _, [] => rfl
  | t :: ts, r :: rs => by
    have hcons : runDispatches id event (t :: ts) (r :: rs) =
        runDispatch id event t r ++ runDispatches id event ts rs := rfl
    have hone : CountsDeliveries id (runDispatch id event t r) := by
      unfold runDispatch
      split
      · rcases r with r | ⟨⟩ <;> rfl
      · rfl
    rw [hcons]
    exact hone.append (countsDeliveries_runDispatches event ts rs)

theorem countsDeliveries_resumeBody {reg : Registry} {cfg : PyDict} {policy : AlertPolicy} {now : Time}
    {p : PipePoint} {reply : Reply} {prog : Progress}
    (h : resumeBody reg cfg policy now p reply = some (prog, es)) :
    CountsDeliveries (metricIdOf cfg) es := by
  cases continues_of_resumeBody h with
  | fetchRaised | evaluatorRaised => rfl
  | fetched | evaluated => exact countsDeliveries_lookups (isLookup_nextEvaluator _)
  | decided =>
    unfold decideEvent
    dsimp only
    split
    · rfl
    · rfl
    · have hasked : ∀ now args result, CountsDeliveries (metricIdOf cfg) [.shouldDispatch now args result] :=
        fun _ _ _ => rfl
      exact (hasked ..).append (countsDeliveries_lookups (isLookup_dispatchTasks reg _))
  | gathered => exact countsDeliveries_runDispatches ..

theorem Resumes.countsDeliveries {reg : Registry} {x : Executor} {cfg : PyDict} {clk : Clock}
    {p p' : Point} {reply : Reply} (h : Resumes reg x cfg clk p reply p' es) :
    CountsDeliveries (metricIdOf cfg) es := by
  cases h with
  | refused | entered | cancelledQueued | cancelledWaiting => rfl
  | timedOutWaiting => exact countsDeliveries_ofExit ofExit_leaveUnstarted
  | rejected =>
    have hr : CountsDeliveries (metricIdOf cfg) (rejectEffects (metricIdOf cfg) clk.perf) := rfl
    exact hr.append (countsDeliveries_ofExit ofExit_leaveUnstarted)
  | @started f =>
    have hs : CountsDeliveries (metricIdOf cfg) (startEffects f.cbEnabled (metricIdOf cfg) clk.perf) := by
      unfold startEffects
      split <;> rfl
    exact hs.append ((countsDeliveries_lookups isLookup_startBody).append (countsDeliveries_ofExit ofExit_settle))
  | body hb => exact (countsDeliveries_resumeBody hb).append (countsDeliveries_ofExit ofExit_settle)
  | @timedOut f st p rs | @cancelled f st p rs =>
    have hd : CountsDeliveries (metricIdOf cfg) (p.dispatched (metricIdOf cfg) rs) := by
      cases p with
      | dispatching event ts todo => exact countsDeliveries_runDispatches event ts rs
      | fetching | evaluating | deciding => rfl
    exact hd.append (countsDeliveries_ofExit ofExit_leave)

end Counts

/-! ## The status of an exit -/

/-- An execution whose only alert reaches a handler that fails. -/
def failingHandler : List Input :=
  breachRun 0 0 ++
    [⟨0, ⟨1, 1⟩, .gathered [.error (.exception (dispatchError "Slack HTTP error: 500" true))]⟩]

end SentinelFlow
