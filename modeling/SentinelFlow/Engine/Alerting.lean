/-
The engine with its handler in place: the dispatch tasks of all executions are
dispatches of the one Slack handler, side by side, and what `gather` hands
back to an execution is what its own have come to.

`Coupled` ties the two logs together: what was handed over in the one was
begun, and came to the same, in the other.

Only dispatches that were begun take steps. One may be cancelled while no
timer or cancellation of its execution is about, which adds runs to those
there are.
-/
import SentinelFlow.Engine.Dispatching
import SentinelFlow.Handlers.SlackPosts
import SentinelFlow.Lib.Places

namespace SentinelFlow

open Machine Engine

/-! ## The two machines -/

/-- A dispatch, by the execution that begins it. -/
structure Dispatch where
  task : ℕ
  event : AlertEvent
  config : PyDict

/-- The dispatches that are awaited at a point. -/
def Point.dispatches (task : ℕ) : Point → List Dispatch
  | .running _ _ (.dispatching event ts _) => ts.map fun t => ⟨task, event, t.config⟩
  | _ => []

theorem Point.task_of_mem_dispatches {task : ℕ} {p : Point} {b : Dispatch} (h : b ∈ p.dispatches task) :
    b.task = task := by
  unfold dispatches at h
  split at h
  · obtain ⟨ty, -, rfl⟩ := List.mem_map.1 h
    rfl
  · cases h

/-- What the dispatches awaited have come to. -/
def Reply.results : Reply → List (Except Raised Unit)
  | .gathered rs | .timeout rs | .cancel rs => rs
  | _ => []

/-- What a dispatch has come to. -/
def SlackHandler.Phase.result? : SlackHandler.Phase → Option (Except Raised Unit)
  | .done r => some r
  | _ => none

/-- The executions, and the dispatches they have begun. -/
structure Alerting where
  engine : Engine
  slack : SlackHandler.State
  /-- The dispatches begun; a dispatch goes by its place here. -/
  begun : List Dispatch := []
  /-- Those an execution awaits. -/
  awaited : ℕ → List ℕ := fun _ => []
  /-- Those it has taken up again. -/
  collected : List ℕ := []

namespace Alerting

/-- A step of an execution or of a dispatch. -/
inductive Event
  | check (i : Input)
  | dispatch (i : SlackHandler.Input)

/-- What an event comes to. -/
inductive Seen
  | check (o : Happened)
  | dispatch (o : SlackHandler.Happened)

def Seen.check? : Seen → Option Happened
  | .check o => some o
  | .dispatch _ => none

def Seen.dispatch? : Seen → Option SlackHandler.Happened
  | .check _ => none
  | .dispatch o => some o

/-- What a dispatch has come to. -/
def result? (s : Alerting) (d : ℕ) : Option (Except Raised Unit) := (s.slack.phase d).result?

/-- After a step of an execution: what it awaited is taken up, and what it
awaits now is begun. -/
def next (s : Alerting) (engine : Engine) (o : Happened) : Alerting where
  engine := engine
  slack := s.slack
  begun := s.begun ++ o.point.dispatches o.task
  awaited := Function.update s.awaited o.task (List.range' s.begun.length (o.point.dispatches o.task).length)
  collected := s.collected ++ s.awaited o.task

section Step

variable (env : SlackHandler.Surroundings) (cfgOf : ℕ → PyDict)

/-- One event. -/
def step (s : Alerting) : Event → Option (Alerting × Seen)
  | .check i =>
    if (s.awaited i.task).map s.result? = i.reply.results.map some then
      (Engine.step .builtin cfgOf s.engine i).map fun r => (s.next r.1 r.2, .check r.2)
    else none
  | .dispatch i => (s.begun[i.dispatch]?).bind fun b =>
    (SlackHandler.step env (fun _ => (b.event, b.config)) s.slack i).map fun r =>
      ({ s with slack := r.1 }, .dispatch r.2)

end Step

/-- New executions, and a handler with its breaker in any state. -/
def start (x : Executor) (b : Resilience.CircuitBreaker) : Alerting where
  engine := Engine.start x
  slack := SlackHandler.start b

theorem step_cases {env : SlackHandler.Surroundings} {cfgOf : ℕ → PyDict} {s s' : Alerting} {e : Event} {o : Seen}
    (h : step env cfgOf s e = some (s', o)) :
    (∃ i x h', e = .check i ∧ (s.awaited i.task).map s.result? = i.reply.results.map some ∧
      Engine.step .builtin cfgOf s.engine i = some (x, h') ∧ s' = s.next x h' ∧ o = .check h') ∨
    ∃ i b k h', e = .dispatch i ∧ s.begun[i.dispatch]? = some b ∧
      SlackHandler.step env (fun _ => (b.event, b.config)) s.slack i = some (k, h') ∧
      s' = { s with slack := k } ∧ o = .dispatch h' := by
  cases e with
  | check i =>
    simp only [step, Option.ite_none_right_eq_some, Option.map_eq_some_iff] at h
    obtain ⟨hfit, ⟨x, h'⟩, hs, he⟩ := h
    cases he
    exact .inl ⟨i, x, h', rfl, hfit, hs, rfl, rfl⟩
  | dispatch i =>
    simp only [step, Option.bind_eq_some_iff, Option.map_eq_some_iff] at h
    obtain ⟨b, hb, ⟨k, h'⟩, hs, he⟩ := h
    cases he
    exact .inr ⟨i, b, k, h', rfl, hb, hs, rfl, rfl⟩

end Alerting

/-! ## What is handed over in a step -/

/-- A handler call of an execution, and what it came to. -/
def Effect.handed? (task : ℕ) : Effect → Option (Dispatch × Except Raised Unit)
  | .handed event _ config r => some (⟨task, event, config⟩, r)
  | _ => none

def handedIn (task : ℕ) (es : List Effect) : List (Dispatch × Except Raised Unit) := es.filterMap (Effect.handed? task)

section Handed

variable {task : ℕ} {id : String}

theorem handedIn_append (es fs : List Effect) : handedIn task (es ++ fs) = handedIn task es ++ handedIn task fs :=
  List.filterMap_append

theorem handedIn_ofExit {es : List Effect} (h : ∀ e ∈ es, e.OfExit id) : handedIn task es = [] := by
  rw [handedIn, List.filterMap_eq_nil_iff]
  intro e he
  have := h e he
  cases e <;> first | rfl | cases this

theorem handedIn_runDispatches (event : AlertEvent) :
    ∀ {ts : List DispatchTask} {rs : List (Except Raised Unit)}, (∀ t ∈ ts, .handler ∈ t.handler.methods) →
      handedIn task (runDispatches id event ts rs) = (ts.map fun t => (⟨task, event, t.config⟩ : Dispatch)).zip rs
  | [], _, _ => rfl
  | _ :: _, [], _ => rfl
  | t :: ts, r :: rs, hts => by
    rw [List.forall_mem_cons] at hts
    have hcons : runDispatches id event (t :: ts) (r :: rs) =
        runDispatch id event t r ++ runDispatches id event ts rs := rfl
    have hone : handedIn task (runDispatch id event t r) = [(⟨task, event, t.config⟩, r)] := by
      unfold runDispatch
      rw [if_pos hts.1]
      cases r <;> rfl
    rw [hcons, handedIn_append, hone, handedIn_runDispatches event hts.2]
    rfl

theorem handedIn_lookups {es : List Effect} (h : ∀ e ∈ es, e.isLookup = true) : handedIn task es = [] :=
  filterMap_lookups (fun _ _ _ => rfl) h

theorem handedIn_dispatched {f : Frame} {st : Time} (q : PipePoint) (rs : List (Except Raised Unit))
    (hq : q.Equipped) : handedIn task (q.dispatched id rs) = ((Point.running f st q).dispatches task).zip rs := by
  cases q with
  | dispatching event ts todo => exact handedIn_runDispatches event hq
  | fetching | evaluating | deciding => rfl

theorem handedIn_decideEvent {reg : Registry} {cfg : PyDict} {policy : AlertPolicy} {now : Time}
    {event : AlertEvent} {todo : List AlertEvent} :
    handedIn task (decideEvent reg cfg policy now event todo).2 = [] := by
  unfold decideEvent
  dsimp only
  split
  · rfl
  · rfl
  · have hnone : handedIn task (dispatchTasks reg (listAt cfg "handlers")).2 = [] :=
      handedIn_lookups (isLookup_dispatchTasks reg _)
    simpa [handedIn, Effect.handed?] using hnone

theorem handedIn_resumeBody {reg : Registry} {cfg : PyDict} {policy : AlertPolicy} {now : Time} {f : Frame} {st : Time}
    {q : PipePoint} {reply : Reply} {prog : Progress} {es : List Effect}
    (h : resumeBody reg cfg policy now q reply = some (prog, es)) (hq : q.Equipped) :
    handedIn task es = ((Point.running f st q).dispatches task).zip reply.results := by
  cases continues_of_resumeBody h with
  | fetchRaised | evaluatorRaised => rfl
  | fetched | evaluated => exact handedIn_lookups (isLookup_nextEvaluator _)
  | decided => exact handedIn_decideEvent
  | @gathered event => exact handedIn_runDispatches event hq

/-- A step hands over the dispatches its execution awaited, with what they came to. -/
theorem Resumes.handedIn {reg : Registry} {x : Executor} {cfg : PyDict} {clk : Clock} {p p' : Point} {reply : Reply}
    {es : List Effect} (h : Resumes reg x cfg clk p reply p' es) (hp : p.Equipped) :
    SentinelFlow.handedIn task es = (p.dispatches task).zip reply.results := by
  cases h with
  | refused | entered | cancelledQueued | cancelledWaiting => rfl
  | timedOutWaiting => exact handedIn_ofExit ofExit_leaveUnstarted
  | rejected =>
    rw [handedIn_append, handedIn_ofExit ofExit_leaveUnstarted]
    rfl
  | @started f =>
    rw [handedIn_append, handedIn_append, handedIn_lookups isLookup_startBody, handedIn_ofExit ofExit_settle]
    unfold startEffects
    split <;> rfl
  | body hb => rw [handedIn_append, handedIn_ofExit ofExit_settle, List.append_nil, handedIn_resumeBody hb hp]
  | timedOut | cancelled =>
    rw [handedIn_append, handedIn_ofExit ofExit_leave, List.append_nil]
    exact handedIn_dispatched _ _ hp

end Handed

/-! ## The coupling -/

namespace Alerting

/-- What the executor's steps did. -/
def checks (log : List Seen) : List Happened := log.filterMap Seen.check?

/-- What the handler's steps did. -/
def dispatches (log : List Seen) : List SlackHandler.Happened := log.filterMap Seen.dispatch?

/-- The handler calls that were taken up, with what they came to. -/
def handedOver (log : List Seen) : List (Dispatch × Except Raised Unit) :=
  (checks log).flatMap fun o => handedIn o.task o.effects

section Logs

variable (log : List Seen)

theorem checks_check (o : Happened) : checks (log ++ [.check o]) = checks log ++ [o] := by simp [checks, Seen.check?]

theorem checks_dispatch (o : SlackHandler.Happened) : checks (log ++ [.dispatch o]) = checks log := by
  simp [checks, Seen.check?]

theorem dispatches_check (o : Happened) : dispatches (log ++ [.check o]) = dispatches log := by
  simp [dispatches, Seen.dispatch?]

theorem dispatches_dispatch (o : SlackHandler.Happened) : dispatches (log ++ [.dispatch o]) = dispatches log ++ [o] := by
  simp [dispatches, Seen.dispatch?]

theorem handedOver_check (o : Happened) :
    handedOver (log ++ [.check o]) = handedOver log ++ handedIn o.task o.effects := by
  rw [handedOver, checks_check, List.flatMap_append, List.flatMap_singleton]
  rfl

end Logs

open SlackHandler in
/-- The engine's dispatch tasks are the handler's dispatches: those awaited at
a point are its tasks in order, and those taken up are the handler calls of
the log, each with what it came to. -/
structure Coupled (env : Surroundings) (s : Alerting) (log : List Alerting.Seen) : Prop where
  regular : (s.engine.registry .builtin).Regular
  equipped : ∀ t, (s.engine.point t).Equipped
  awaited : ∀ t, (s.awaited t).map (s.begun[·]?) = ((s.engine.point t).dispatches t).map some
  handed : (s.collected.map fun d => (s.begun[d]?, s.result? d)) =
    (handedOver log).map fun p => (some p.1, some p.2)
  collectedNodup : s.collected.Nodup
  awaitedNodup : ∀ t, (s.awaited t).Nodup
  apart : ∀ t, ∀ d ∈ s.awaited t, d ∉ s.collected
  covered : ∀ d b, s.begun[d]? = some b → d ∈ s.collected ∨ d ∈ s.awaited b.task
  settled : ∀ d, Settled d (dispatches log) (s.slack.phase d)
  posted : ∀ d, Posted d (dispatches log) (s.slack.phase d)
  posts : ∀ d, ∀ p ∈ postsOf d (dispatches log), ∃ b, s.begun[d]? = some b ∧
    webhookUrl env b.config = .ok p.1 ∧ p.2 = buildSlackPayload env b.event

section Coupled

variable {env : SlackHandler.Surroundings} {cfgOf : ℕ → PyDict} {s s' : Alerting} {log : List Seen}

theorem Coupled.of_awaited (h : Coupled env s log) {t d : ℕ} (hd : d ∈ s.awaited t) :
    ∃ b, s.begun[d]? = some b ∧ b.task = t := by
  have hmem : s.begun[d]? ∈ ((s.engine.point t).dispatches t).map some := h.awaited t ▸ List.mem_map_of_mem hd
  obtain ⟨b, hb, hget⟩ := List.mem_map.1 hmem
  exact ⟨b, hget.symm, Point.task_of_mem_dispatches hb⟩

theorem Coupled.of_collected (h : Coupled env s log) {d : ℕ} (hd : d ∈ s.collected) :
    ∃ b r, s.begun[d]? = some b ∧ s.result? d = some r := by
  have hmem : (s.begun[d]?, s.result? d) ∈ (handedOver log).map fun p => (some p.1, some p.2) :=
    h.handed ▸ List.mem_map_of_mem hd
  obtain ⟨p, -, hp⟩ := List.mem_map.1 hmem
  simp only [Prod.mk.injEq] at hp
  exact ⟨p.1, p.2, hp.1.symm, hp.2.symm⟩

theorem coupled_start (env : SlackHandler.Surroundings) (x : Executor) (b : Resilience.CircuitBreaker) :
    Coupled env (start x b) [] where
  regular := Engine.registry_regular_start Registry.builtin_regular x
  equipped t := by rw [start, point_start]; trivial
  awaited t := by rw [start, point_start]; rfl
  handed := rfl
  collectedNodup := List.nodup_nil
  awaitedNodup _ := List.nodup_nil
  apart _ _ h := by cases h
  covered _ _ h := by cases h
  settled d := ⟨by simp [SlackHandler.TurnedAway, dispatches], by simp [SlackHandler.Delivered, dispatches]⟩
  posted d := ⟨Nat.one_pos, by omega, rfl⟩
  posts d p h := by cases h

/-- A step of an execution. -/
theorem Coupled.check (h : Coupled env s log) {i : Input} {x : Engine} {o : Happened}
    (hfit : (s.awaited i.task).map s.result? = i.reply.results.map some)
    (hs : Engine.step .builtin cfgOf s.engine i = some (x, o)) : Coupled env (s.next x o) (log ++ [.check o]) := by
  obtain ⟨hr, -, hpoint, hother, htask, -⟩ := step_resumes hs
  have hold : ∀ d ∈ s.collected, d < s.begun.length := by
    intro d hd
    obtain ⟨b, r, hb, -⟩ := h.of_collected hd
    exact (List.getElem?_eq_some_iff.1 hb).1
  have hwait : ∀ t, ∀ d ∈ s.awaited t, d < s.begun.length := fun t d hd => Places.lt_of_map_eq (h.awaited t) hd
  refine ⟨registry_regular_step h.regular hs, forall_point hs (hr.equipped h.regular) fun t _ => h.equipped t,
    fun t => ?_, ?_, ?_, fun t => ?_, fun t d hd => ?_, fun d b hb => ?_, ?_, ?_, fun d p hp => ?_⟩
  · by_cases ht : t = o.task
    · subst ht
      have hp : x.point o.task = o.point := by rw [htask, hpoint]
      simp only [next, Function.update_self, hp]
      exact Places.map_range'_append _ _
    · simp only [next, Function.update_of_ne ht, hother t (htask ▸ ht)]
      exact Places.map_append_left (h.awaited t) _
  -- What was taken up before, and what this step takes up.
  · have hbefore : (s.collected.map fun d => ((s.next x o).begun[d]?, (s.next x o).result? d)) =
        s.collected.map fun d => (s.begun[d]?, s.result? d) := by
      refine List.map_congr_left fun d hd => ?_
      rw [next, List.getElem?_append_left (hold d hd)]
      rfl
    have hnow : ((s.awaited o.task).map fun d => ((s.next x o).begun[d]?, (s.next x o).result? d)) =
        (handedIn o.task o.effects).map fun p => (some p.1, some p.2) := by
      rw [htask, hr.handedIn (h.equipped i.task)]
      refine Places.map_prod _ _ ?_ hfit
      exact Places.map_append_left (h.awaited i.task) _
    rw [handedOver_check, List.map_append, ← h.handed, ← hbefore, ← hnow, ← List.map_append]
    rfl
  · exact List.nodup_append.2 ⟨h.collectedNodup, h.awaitedNodup _, fun d hd d' hd' he => h.apart _ d' hd' (he ▸ hd)⟩
  · by_cases ht : t = o.task
    · subst ht
      simp only [next, Function.update_self]
      exact List.nodup_range'
    · simp only [next, Function.update_of_ne ht]
      exact h.awaitedNodup t
  · intro hc
    rcases List.mem_append.1 hc with hc | hc
    · by_cases ht : t = o.task
      · subst ht
        simp only [next, Function.update_self, List.mem_range'_1] at hd
        have hlt := hold d hc
        omega
      · simp only [next, Function.update_of_ne ht] at hd
        exact h.apart t d hd hc
    · by_cases ht : t = o.task
      · subst ht
        simp only [next, Function.update_self, List.mem_range'_1] at hd
        have hlt := hwait _ d hc
        omega
      · simp only [next, Function.update_of_ne ht] at hd
        obtain ⟨b, hb, rfl⟩ := h.of_awaited hd
        obtain ⟨b', hb', hb''⟩ := h.of_awaited hc
        rw [hb] at hb'
        cases hb'
        exact ht hb''
  · rw [next, List.getElem?_append] at hb
    split at hb
    next hlt =>
      rcases h.covered d b hb with hc | hw
      · exact .inl (List.mem_append_left _ hc)
      · by_cases ht : b.task = o.task
        · exact .inl (List.mem_append_right _ (ht ▸ hw))
        · exact .inr (by simpa only [next, Function.update_of_ne ht] using hw)
    next hge =>
      obtain ⟨hlt, -⟩ := List.getElem?_eq_some_iff.1 hb
      have htask' : b.task = o.task := Point.task_of_mem_dispatches (List.mem_of_getElem? hb)
      refine .inr ?_
      simp only [next, htask', Function.update_self, List.mem_range'_1]
      omega
  · rw [dispatches_check]
    exact h.settled
  · rw [dispatches_check]
    exact h.posted
  · rw [dispatches_check] at hp
    obtain ⟨b, hb, hpost⟩ := h.posts d p hp
    exact ⟨b, by rw [next, List.getElem?_append_left (List.getElem?_eq_some_iff.1 hb).1]; exact hb, hpost⟩

/-- A dispatch that is done with stays so. -/
theorem result?_step {argsOf : ℕ → AlertEvent × PyDict} {k : SlackHandler.State} {i : SlackHandler.Input}
    {o : SlackHandler.Happened} (hs : SlackHandler.step env argsOf s.slack i = some (k, o)) {d : ℕ}
    {r : Except Raised Unit} (hd : s.result? d = some r) : result? { s with slack := k } d = some r := by
  obtain ⟨hm, -, hne⟩ := SlackHandler.step_moves hs
  by_cases hid : d = i.dispatch
  · subst hid
    unfold result? at hd
    generalize s.slack.phase i.dispatch = p, k.phase i.dispatch = p', o.did = did at hm hd
    cases hm <;> cases hd
  · unfold result?
    rw [hne d hid]
    exact hd

/-- A step of a dispatch. -/
theorem Coupled.dispatch (h : Coupled env s log) {i : SlackHandler.Input} {b : Dispatch} {k : SlackHandler.State}
    {o : SlackHandler.Happened} (hb : s.begun[i.dispatch]? = some b)
    (hs : SlackHandler.step env (fun _ => (b.event, b.config)) s.slack i = some (k, o)) :
    Coupled env { s with slack := k } (log ++ [.dispatch o]) := by
  refine ⟨h.regular, h.equipped, h.awaited, ?_, h.collectedNodup, h.awaitedNodup, h.apart, h.covered, fun d => ?_, fun d => ?_,
    fun d p hp => ?_⟩
  · have hsame : handedOver (log ++ [.dispatch o]) = handedOver log := by rw [handedOver, checks_dispatch, handedOver]
    rw [hsame, ← h.handed]
    refine List.map_congr_left fun d hd => ?_
    obtain ⟨-, r, -, hr⟩ := h.of_collected hd
    rw [result?_step hs hr, hr]
  · rw [dispatches_dispatch]
    exact (h.settled d).step hs
  · rw [dispatches_dispatch]
    exact (h.posted d).step hs
  · obtain ⟨-, ho, -⟩ := SlackHandler.step_moves hs
    rw [dispatches_dispatch] at hp
    by_cases hd : o.dispatch = d
    · rw [SlackHandler.postsOf_concat hd, List.mem_append, Option.mem_toList] at hp
      rcases hp with hp | hp
      · exact h.posts d p hp
      · obtain ⟨hurl, hpayload⟩ := SlackHandler.step_post hs hp
        exact ⟨b, hd ▸ ho ▸ hb, hurl, hpayload⟩
    · rw [SlackHandler.postsOf_concat_ne hd] at hp
      exact h.posts d p hp

/-- **The coupling holds in every run.** -/
theorem coupled_run {x₀ : Executor} {b₀ : Resilience.CircuitBreaker} {es : List Event}
    (h : run (Alerting.step env cfgOf) (start x₀ b₀) es = some (s, log)) : Coupled env s log := by
  refine run_induction (fun _ log s => Coupled env s log) (coupled_start env x₀ b₀) ?_ h
  intro es log s e o s' _ hI hs
  rcases step_cases hs with ⟨i, x, h', -, hfit, hx, rfl, rfl⟩ | ⟨i, b, k, h', -, hb, hk, rfl, rfl⟩
  · exact hI.check hfit hx
  · exact hI.dispatch hb hk

end Coupled

end Alerting

end SentinelFlow
