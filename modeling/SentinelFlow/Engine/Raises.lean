/-
What ends a body in an exception. The outside raises to it in four ways: the
ingestor and an evaluator in what they answer, a handler's exception when it
is described, and a class of the registry when it is called. The body ends
there and then, in that exception. Any other it ends in is the code's own,
which can be read and is no `TimeoutError` (`answers_run`).
-/
import SentinelFlow.Engine.Runs

namespace SentinelFlow

open Machine Engine

/-! ## What the outside raises -/

/-- What comes to the body with a reply. -/
def Reply.raised? : Reply → Option Exc
  | .fetched (.error e) | .evaluated (.error e) => some e
  | .gathered rs => undescribed? rs
  | _ => none

/-- What comes to the body from a lookup. -/
def Effect.raised? : Effect → Option Exc
  | .lookedUp _ _ (.error e) => some e
  | _ => none

/-- The exceptions the outside raises to an invocation, by its inputs and its
effects. -/
def outside (ins : List Input) (es : List Effect) : List Exc :=
  ins.filterMap (·.reply.raised?) ++ es.filterMap Effect.raised?

/-- What is raised to one invocation is raised to all of them together. -/
theorem outside_subset (task : ℕ) {is : List Input} {log : List Happened} {e : Exc}
    (h : e ∈ outside (inputsOf task is) (effectsOf task log)) : e ∈ outside is (log.flatMap (·.effects)) := by
  have hins : inputsOf task is ⊆ is := fun i hi => List.mem_of_mem_filter hi
  have hes : effectsOf task log ⊆ log.flatMap (·.effects) := by
    intro x hx
    obtain ⟨o, ho, hx⟩ := List.mem_flatMap.1 hx
    exact List.mem_flatMap.2 ⟨o, List.mem_of_mem_filter ho, hx⟩
  rcases List.mem_append.1 h with he | he
  · exact List.mem_append_left _ (List.filterMap_subset _ hins he)
  · exact List.mem_append_right _ (List.filterMap_subset _ hes he)

/-- An exception of the code's own. -/
def Exc.IsOwn (e : Exc) : Prop := e.unread? = none ∧ e.isInstance .timeoutError = false

theorem isOwn_plainExc {typeStr : String} {bases : List ExcClass} {text : String} {retryable : Bool}
    (h : .timeoutError ∉ bases) : (plainExc typeStr bases text retryable).IsOwn :=
  ⟨unread?_plainExc .., decide_eq_false h⟩

/-- Where a body stands, told what the outside raised: it ends in that, or
nothing was raised, and what it ends in, if in any, is the code's own. -/
def Progress.Answers (raised : List Exc) (prog : Progress) : Prop :=
  (∃ e, raised = [e] ∧ prog = .ended (.raised e)) ∨ (raised = [] ∧ ∀ e, prog = .ended (.raised e) → e.IsOwn)

def Point.Answers (raised : List Exc) (p : Point) : Prop :=
  (∃ e, raised = [e] ∧ p.ending? = some (.raised e)) ∨ (raised = [] ∧ ∀ e, p.ending? = some (.raised e) → e.IsOwn)

theorem Progress.answers_paused (p : PipePoint) : (Progress.paused p).Answers [] :=
  .inr ⟨rfl, fun e he => by cases he⟩

theorem Progress.answers_own {e : Exc} (h : e.IsOwn) : (Progress.ended (.raised e)).Answers [] :=
  .inr ⟨rfl, fun e' he => by cases he; exact h⟩

theorem Progress.answers_raised (e : Exc) : (Progress.ended (.raised e)).Answers [e] := .inl ⟨e, rfl, rfl⟩

/-! ## The parts of the body -/

section Body

variable {reg : Registry} {cfg : PyDict}

theorem answers_callOn (inst : PyClass) (kind : Kind) (p : PipePoint) : (callOn inst kind p).Answers [] := by
  unfold callOn
  split
  · exact Progress.answers_paused p
  · exact Progress.answers_own (isOwn_plainExc (by decide))

theorem answers_startBody : (startBody reg cfg).1.Answers ((startBody reg cfg).2.filterMap Effect.raised?) := by
  unfold startBody
  split
  · split
    · split
      · exact answers_callOn ..
      · exact Progress.answers_raised _
    · exact Progress.answers_own (isOwn_plainExc (by decide))
  · exact Progress.answers_own (isOwn_plainExc (by decide))

theorem answers_nextEvent (todo : List AlertEvent) : (nextEvent todo).Answers [] := by
  cases todo with
  | nil => exact .inr ⟨rfl, fun e he => by cases he⟩
  | cons e rest => exact Progress.answers_paused _

/-- A number of the policy cannot be read only for want of a numeral. -/
theorem digitsOr_error {default : ℤ} {raw : Option PyVal} {e : Exc} (h : digitsOr default raw = .error e) :
    ∃ text, e = valueError text := by
  unfold digitsOr at h
  split at h
  · cases h
  · split at h
    · unfold PyVal.toInt at h
      dsimp only at h
      split at h <;> cases h
      exact ⟨_, rfl⟩
    · cases h
  · cases h

theorem policyNumbers_error {e : Exc} (h : policyNumbers cfg = .error e) : ∃ text, e = valueError text := by
  unfold policyNumbers at h
  cases hc : cooldownOf cfg with
  | error e' =>
    rw [hc] at h
    cases h
    exact digitsOr_error hc
  | ok cooldown =>
    rw [hc] at h
    cases hd : dedupeOf cfg with
    | error e' =>
      rw [hd] at h
      cases h
      exact digitsOr_error hd
    | ok dedupe =>
      rw [hd] at h
      cases h

theorem answers_afterEvaluators (validEvents : List AlertEvent) : (afterEvaluators cfg validEvents).Answers [] := by
  unfold afterEvaluators
  split
  · exact .inr ⟨rfl, fun e he => by cases he⟩
  · split
    · exact answers_nextEvent validEvents
    next e he =>
      obtain ⟨text, rfl⟩ := policyNumbers_error he
      exact Progress.answers_own (isOwn_plainExc (by decide))

theorem answers_nextEvaluator (payload : MetricPayload) (validEvents : List AlertEvent) : ∀ todo : List PyVal,
    (nextEvaluator reg cfg payload validEvents todo).1.Answers
      ((nextEvaluator reg cfg payload validEvents todo).2.filterMap Effect.raised?)
  | [] => answers_afterEvaluators validEvents
  | v :: rest => by
    unfold nextEvaluator
    split
    · exact answers_nextEvaluator payload validEvents rest
    · split
      · exact answers_callOn ..
      · exact Progress.answers_raised _

/-- The tasks of an alert are made, or the lookup that raised is the last. -/
theorem raised_dispatchTasks : ∀ (reg : Registry) (vs : List PyVal),
    (∃ ts, (dispatchTasks reg vs).1 = .ok ts ∧ (dispatchTasks reg vs).2.filterMap Effect.raised? = []) ∨
      ∃ e, (dispatchTasks reg vs).1 = .error e ∧ (dispatchTasks reg vs).2.filterMap Effect.raised? = [e]
  | _, [] => .inl ⟨[], rfl, rfl⟩
  | reg, v :: rest => by
    unfold dispatchTasks
    split
    · exact raised_dispatchTasks reg rest
    · split
      next reg' handler _ =>
        dsimp only
        rcases raised_dispatchTasks reg' rest with ⟨ts, hts, hes⟩ | ⟨e, he, hes⟩
        · exact .inl ⟨_, by rw [hts]; rfl, hes⟩
        · exact .inr ⟨e, by rw [he]; rfl, hes⟩
      next e _ => exact .inr ⟨e, rfl, rfl⟩

theorem answers_decideEvent (policy : AlertPolicy) (now : Time) (event : AlertEvent) (todo : List AlertEvent) :
    (decideEvent reg cfg policy now event todo).1.Answers
      ((decideEvent reg cfg policy now event todo).2.filterMap Effect.raised?) := by
  unfold decideEvent
  dsimp only
  split
  next e he =>
    obtain ⟨text, rfl⟩ := AlertPolicy.shouldDispatch_error he
    exact Progress.answers_own (isOwn_plainExc (by decide))
  next => exact answers_nextEvent todo
  next =>
    rw [List.filterMap_cons_none rfl]
    rcases raised_dispatchTasks reg (listAt cfg "handlers") with ⟨ts, hts, hes⟩ | ⟨e, he, hes⟩
    · rw [hts, hes]
      exact Progress.answers_paused _
    · rw [he, hes]
      exact Progress.answers_raised e

theorem answers_afterDispatches (todo : List AlertEvent) (rs : List (Except Raised Unit)) :
    (afterDispatches todo rs).Answers (undescribed? rs).toList := by
  unfold afterDispatches
  cases undescribed? rs with
  | none => exact answers_nextEvent todo
  | some e => exact Progress.answers_raised e

/-- Dispatch tasks look nothing up. -/
theorem raised_runDispatches {id : String} {event : AlertEvent} {ts : List DispatchTask}
    {rs : List (Except Raised Unit)} : (runDispatches id event ts rs).filterMap Effect.raised? = [] := by
  rw [List.filterMap_eq_nil_iff]
  intro e he
  rcases mem_runDispatches he with ⟨ty, handlerCfg, r, rfl⟩ | rfl <;> rfl

theorem raised_ofExit {id : String} {es : List Effect} (h : ∀ e ∈ es, e.OfExit id) :
    es.filterMap Effect.raised? = [] := by
  rw [List.filterMap_eq_nil_iff]
  intro e he
  have := h e he
  cases e <;> first | rfl | cases this

/-- **The body answers what is raised to it**, in each of its steps. -/
theorem answers_resumeBody {policy : AlertPolicy} {now : Time} {p : PipePoint} {reply : Reply} {prog : Progress}
    {es : List Effect} (h : resumeBody reg cfg policy now p reply = some (prog, es)) :
    prog.Answers (reply.raised?.toList ++ es.filterMap Effect.raised?) := by
  cases continues_of_resumeBody h with
  | fetchRaised | evaluatorRaised => exact Progress.answers_raised _
  | fetched | evaluated => exact answers_nextEvaluator ..
  | decided => exact answers_decideEvent ..
  | gathered =>
    rw [raised_runDispatches, List.append_nil]
    exact answers_afterDispatches ..

end Body

/-! ## A step, and a run -/

theorem answers_settle {f : Frame} {id : String} {st now : Time} {prog : Progress} {raised : List Exc}
    (h : prog.Answers raised) : (settle f id st now prog).1.Answers raised := by
  rcases h with ⟨e, rfl, rfl⟩ | ⟨rfl, hown⟩
  · exact .inl ⟨e, rfl, rfl⟩
  · refine .inr ⟨rfl, fun e he => ?_⟩
    cases prog with
    | paused p => cases he
    | ended x =>
      cases he
      exact hown e rfl

/-- **The step lemma.** A step ends its invocation in what is raised to it. -/
theorem Resumes.answers {reg : Registry} {x : Executor} {cfg : PyDict} {clk : Clock} {p p' : Point} {reply : Reply}
    {es : List Effect} (h : Resumes reg x cfg clk p reply p' es) :
    p'.Answers (reply.raised?.toList ++ es.filterMap Effect.raised?) := by
  cases h with
  | refused | entered | cancelledQueued | cancelledWaiting => exact .inr ⟨rfl, fun e he => by cases he⟩
  | timedOutWaiting =>
    rw [raised_ofExit ofExit_leaveUnstarted]
    exact .inr ⟨rfl, fun e he => by cases he⟩
  | rejected =>
    rw [List.filterMap_append, raised_ofExit ofExit_leaveUnstarted]
    exact .inr ⟨rfl, fun e he => by cases he⟩
  | @started f =>
    have hnone : (startEffects f.cbEnabled (metricIdOf cfg) clk.perf).filterMap Effect.raised? = [] := by
      unfold startEffects
      split <;> rfl
    rw [List.filterMap_append, List.filterMap_append, raised_ofExit ofExit_settle, hnone, List.append_nil,
      List.nil_append]
    exact answers_settle answers_startBody
  | body hb =>
    rw [List.filterMap_append, raised_ofExit ofExit_settle, List.append_nil]
    exact answers_settle (answers_resumeBody hb)
  | @timedOut f st q rs | @cancelled f st q rs =>
    have hnone : (q.dispatched (metricIdOf cfg) rs).filterMap Effect.raised? = [] := by
      cases q with
      | dispatching event ts todo => exact raised_runDispatches
      | fetching | evaluating | deciding => rfl
    rw [List.filterMap_append, raised_ofExit ofExit_leave, hnone]
    exact .inr ⟨rfl, fun e he => by cases he⟩

/-- No step is taken from the end of an invocation. -/
theorem Resumes.ending?_eq_none {reg : Registry} {x : Executor} {cfg : PyDict} {clk : Clock} {p p' : Point}
    {reply : Reply} {es : List Effect} (h : Resumes reg x cfg clk p reply p' es) : p.ending? = none := by
  cases h <;> rfl

/-- **The run lemma.** In every run, an invocation ends in the one exception
that was raised to it, or in one of the code's own. -/
theorem answers_run {reg : Registry} {cfgOf : ℕ → PyDict} {x₀ : Executor} {is : List Input} {log : List Happened}
    {s : Engine} (h : run (step reg cfgOf) (start x₀) is = some (s, log)) (task : ℕ) :
    (s.point task).Answers (outside (inputsOf task is) (effectsOf task log)) := by
  refine task_run (fun ins es p => p.Answers (outside ins es)) (.inr ⟨rfl, fun e he => by cases he⟩) ?_ h
  intro ins es p i now x p' es' _ _ hI hr
  have hbefore : outside ins es = [] := by
    rcases hI with ⟨e, -, hend⟩ | ⟨hnil, -⟩
    · rw [hr.ending?_eq_none] at hend
      cases hend
    · exact hnil
  obtain ⟨hins, hes⟩ := List.append_eq_nil_iff.1 hbefore
  have hafter : outside (ins ++ [i]) (es ++ es') = i.reply.raised?.toList ++ es'.filterMap Effect.raised? := by
    rw [outside, List.filterMap_append, List.filterMap_append, hins, hes, List.nil_append, List.nil_append]
    cases hi : i.reply.raised? <;> simp [hi]
  rw [hafter]
  exact hr.answers

end SentinelFlow
