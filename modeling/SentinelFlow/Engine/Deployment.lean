/-
The engine with its built-in components in place. The environment of
`Engine.step` answers for the ingestors and evaluators too; here an
evaluator's answer is computed, and an ingestor's is computed from what its
sources gave, so that all that comes from outside is a `Stimulus`.

With built-in evaluators every alert names the check it was raised for
(`AllOwned`), which is what keeps the fingerprints of two checks apart.
-/
import SentinelFlow.Core.Evaluators
import SentinelFlow.Data.HttpApi
import SentinelFlow.Engine.Runs

namespace SentinelFlow

open Machine Engine

/-- An ingestor: the result of `fetch` when its sources answer so. A payload
names the metric asked for. -/
structure Ingestor (ξ : Type) where
  fetch : String → PyDict → ξ → Option (Except Exc MetricPayload)
  names : ∀ {metricId config x payload}, fetch metricId config x = some (.ok payload) →
    payload.metricId = metricId

/-- The ingestor of the registry. -/
def HttpApiIngestor.ingestor (r : Render) : Ingestor (List (Time × HttpApiIngestor.Exchange)) where
  fetch := HttpApiIngestor.fetch r
  names h := (HttpApiIngestor.fetch_ok h).1

/-- What comes to an invocation from outside. -/
inductive Stimulus (ξ : Type)
  | granted
  /-- What the sources of the ingestor answered. -/
  | ingested (x : ξ)
  | proceed
  | gathered (rs : List (Except Raised Unit))
  | timeout (rs : List (Except Raised Unit))
  | cancel (rs : List (Except Raised Unit))

/-- Whose turn it is, when, and with what. -/
structure Turn (ξ : Type) where
  task : ℕ
  clock : Clock
  stimulus : Stimulus ξ

/-- Checks with pairwise distinct, non-empty metric ids. -/
structure Checks (ι : Type) where
  config : ι → PyDict
  metricId : ι → String
  named : ∀ c, (config c).get "metric_id" = some (.str (metricId c))
  nonempty : ∀ c, metricId c ≠ ""
  distinct : Function.Injective metricId

theorem Checks.metricIdOf_config {ι : Type} (cs : Checks ι) (c : ι) :
    metricIdOf (cs.config c) = cs.metricId c := by
  have hne : (cs.metricId c).isEmpty = false := by simpa using cs.nonempty c
  simp [metricIdOf, cs.named c, hne]

section Deployment

variable {ξ : Type} (ingestor : Ingestor ξ) (render : Render)

/-- The reply a stimulus comes to, at a point. -/
def answer (cfg : PyDict) (clk : Clock) (p : Point) : Stimulus ξ → Option Reply
  | .granted => some .granted
  | .ingested x => match p with
    | .running _ _ .fetching => (ingestor.fetch (metricIdOf cfg) (dictAt cfg "ingestor") x).map .fetched
    | _ => none
  | .proceed => match p with
    | .running _ _ (.evaluating payload evalType evalCfg _ _) =>
      some (.evaluated (builtinEvaluate evalType render payload evalCfg clk.wall))
    | _ => some .proceed
  | .gathered rs => some (.gathered rs)
  | .timeout rs => some (.timeout rs)
  | .cancel rs => some (.cancel rs)

/-- One step of the engine on a stimulus. -/
def turn (cfgOf : ℕ → PyDict) (s : Engine) (i : Turn ξ) : Option (Engine × Happened) :=
  (answer ingestor render (cfgOf i.task) i.clock (s.point i.task) i.stimulus).bind fun reply =>
    Engine.step .builtin cfgOf s ⟨i.task, i.clock, reply⟩

end Deployment

/-! ## Alerts name their check -/

/-- An alert a built-in evaluator raised for the check. -/
def AlertEvent.Owned (id : String) (e : AlertEvent) : Prop :=
  e.metricId = id ∧ (e.evaluatorType = "threshold" ∨ e.evaluatorType = "freshness")

def PipePoint.Owned (id : String) : PipePoint → Prop
  | .fetching => True
  | .evaluating payload _ _ _ validEvents => payload.metricId = id ∧ ∀ e ∈ validEvents, e.Owned id
  | .deciding e todo | .dispatching e _ todo => e.Owned id ∧ ∀ e' ∈ todo, e'.Owned id

def Progress.Owned (id : String) : Progress → Prop := Progress.At (PipePoint.Owned id)
def Point.Owned (id : String) : Point → Prop := Point.At (PipePoint.Owned id)

def Reply.Owned (id : String) : Reply → Prop
  | .fetched (.ok payload) => payload.metricId = id
  | .evaluated (.ok (some e)) => e.Owned id
  | _ => True

section Owned

variable {id : String} {reg : Registry} {cfg : PyDict}

theorem owned_nextEvent : ∀ {events : List AlertEvent}, (∀ e ∈ events, e.Owned id) → (nextEvent events).Owned id
  | [], _ => trivial
  | e :: rest, h => ⟨h e (by simp), fun e' he' => h e' (by simp [he'])⟩

theorem owned_nextEvaluator {payload : MetricPayload} {validEvents : List AlertEvent}
    (hp : payload.metricId = id) (hv : ∀ e ∈ validEvents, e.Owned id) :
    ∀ vs : List PyVal, (nextEvaluator reg cfg payload validEvents vs).1.Owned id
  | [] => by
    unfold nextEvaluator afterEvaluators
    split
    · trivial
    · split
      · exact owned_nextEvent hv
      · trivial
  | v :: rest => by
    unfold nextEvaluator
    split
    · exact owned_nextEvaluator hp hv rest
    · split
      · exact at_callOn ⟨hp, hv⟩
      · trivial

theorem owned_decideEvent {policy : AlertPolicy} {now : Time} {event : AlertEvent} {todo : List AlertEvent}
    (he : event.Owned id) (ht : ∀ e ∈ todo, e.Owned id) :
    (decideEvent reg cfg policy now event todo).1.Owned id := by
  unfold decideEvent
  dsimp only
  split
  · trivial
  · exact owned_nextEvent ht
  · split
    · trivial
    · exact ⟨he, ht⟩

theorem owned_resumeBody {policy : AlertPolicy} {now : Time} {p : PipePoint} {reply : Reply} {prog : Progress}
    {es : List Effect} (h : resumeBody reg cfg policy now p reply = some (prog, es)) (hp : p.Owned id)
    (hr : reply.Owned id) : prog.Owned id := by
  cases continues_of_resumeBody h with
  | fetchRaised | evaluatorRaised => trivial
  | fetched => exact owned_nextEvaluator hr (by simp) _
  | evaluated =>
    refine owned_nextEvaluator hp.1 (fun e he => ?_) _
    rcases List.mem_append.1 he with he | he
    · exact hp.2 e he
    · rw [Option.mem_toList] at he
      subst he
      exact hr
  | decided => exact owned_decideEvent hp.1 hp.2
  | gathered =>
    unfold afterDispatches
    split
    · trivial
    · exact owned_nextEvent hp.2

theorem Resumes.owned {x : Executor} {clk : Clock} {p p' : Point} {reply : Reply} {es : List Effect}
    (h : Resumes reg x cfg clk p reply p' es) (hp : p.Owned id) (hr : reply.Owned id) : p'.Owned id := by
  cases h with
  | refused | entered | cancelledQueued | cancelledWaiting | timedOutWaiting | rejected | timedOut | cancelled => trivial
  | started => exact at_settle (at_startBody trivial)
  | body hb => exact at_settle (owned_resumeBody hb hp hr)

/-- The built-in components answer for the check they are asked about. -/
theorem owned_answer {ξ : Type} {ingestor : Ingestor ξ} {render : Render} {clk : Clock} {p : Point}
    {x : Stimulus ξ} {reply : Reply} (h : answer ingestor render cfg clk p x = some reply)
    (hp : p.Owned (metricIdOf cfg)) : reply.Owned (metricIdOf cfg) := by
  cases x with
  | granted | gathered | timeout | cancel =>
    cases h
    trivial
  | ingested x =>
    simp only [answer] at h
    split at h
    · obtain ⟨r, hr, rfl⟩ := Option.map_eq_some_iff.1 h
      cases r with
      | error e => trivial
      | ok payload => exact ingestor.names hr
    · cases h
  | proceed =>
    simp only [answer] at h
    split at h <;> cases h
    next payload evalType evalCfg todo evs =>
      rcases hev : builtinEvaluate evalType render payload evalCfg clk.wall with x | _ | e
      · trivial
      · trivial
      · obtain ⟨hid, hty, -⟩ := builtinEvaluate_ok hev
        refine ⟨hid.trans hp.1, ?_⟩
        split at hty
        · exact .inl hty
        · exact .inr hty
    next => trivial

end Owned

/-- Every task carries alerts of its own check only. -/
def AllOwned (cfgOf : ℕ → PyDict) (s : Engine) : Prop := ∀ t, (s.point t).Owned (metricIdOf (cfgOf t))

section Turns

variable {ξ : Type} {ingestor : Ingestor ξ} {render : Render} {cfgOf : ℕ → PyDict} {s s' : Engine}
  {i : Turn ξ} {o : Happened}

theorem turn_step (h : turn ingestor render cfgOf s i = some (s', o)) :
    ∃ reply, answer ingestor render (cfgOf i.task) i.clock (s.point i.task) i.stimulus = some reply ∧
      Engine.step .builtin cfgOf s ⟨i.task, i.clock, reply⟩ = some (s', o) :=
  Option.bind_eq_some_iff.1 h

theorem AllOwned.turn (hI : AllOwned cfgOf s) (h : turn ingestor render cfgOf s i = some (s', o)) :
    AllOwned cfgOf s' := by
  obtain ⟨reply, ha, hs⟩ := turn_step h
  have hown := (step_resumes hs).1.owned (hI i.task) (owned_answer ha (hI i.task))
  exact forall_point hs hown fun t _ => hI t

end Turns

end SentinelFlow
