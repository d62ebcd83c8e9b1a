/-
`SlackHandler` (`src/handlers/slack.py`): what it posts, and one attempt of
`dispatch`, which is suspended once, at the POST. The retries around the
attempts and the dispatches side by side are in `SlackRuns`.

The settings are known by the texts their truthy attributes print as. What
aiohttp does with a POST is a `PostOutcome`, an exception of it as it has
left the span; opening the session, spans and metrics do not raise. The host
in the span is cut out of the URL: a URL with `//` in it has that part.
-/
import SentinelFlow.Data.HttpApi
import SentinelFlow.Resilience.CircuitBreaker

namespace SentinelFlow.SlackHandler

/-- `CircuitBreaker(failure_threshold=3, recovery_timeout=30.0)`. -/
def newBreaker : Resilience.CircuitBreaker := { failureThreshold := 3, recoveryTimeout := .finite 30 }

/-- What the handler reads from around it. -/
structure Surroundings where
  /-- `str(getattr(get_settings(), name, None))`, when it is truthy. -/
  setting : String → Option String
  /-- `timestamp.isoformat()`. -/
  isoformat : Time → String

/-- `_build_slack_payload`. -/
def buildSlackPayload (env : Surroundings) (event : AlertEvent) : PyVal :=
  let title := event.severity.text.toUpper
  .dict [("text", .str s!"*{title} Alert:* {event.metricId}"),
    ("blocks", .list [
      .dict [("type", .str "header"), ("text", .dict [("type", .str "plain_text"),
        ("text", .str s!"🚨 {title} Alert: {event.metricId}"), ("emoji", .bool true)])],
      .dict [("type", .str "section"), ("text", .dict [("type", .str "mrkdwn"), ("text", .str event.message)])],
      .dict [("type", .str "context"), ("elements", .list [.dict [("type", .str "mrkdwn"),
        ("text", .str s!"Evaluator: `{event.evaluatorType}` | Time: {env.isoformat event.timestamp}")]])]])]

/-- The webhook URL, or what is raised before anything is posted. -/
def webhookUrl (env : Surroundings) (config : PyDict) : Except Exc String :=
  let webhookEnvKey := (config.get "webhook_url_env_key").getD .none
  if !webhookEnvKey.truthy then .error (dispatchError "Missing webhook_url_env_key in Slack handler config")
  else match webhookEnvKey with
    | .str key => match env.setting (lower key) with
      | some url => .ok url
      | none => .error (dispatchError s!"Slack webhook not configured for env key '{key}'")
    | v => .error (attributeError s!"'{v.typeName}' object has no attribute 'lower'")

/-- What comes of `session.post`: a response, or what leaves it. -/
inductive PostOutcome
  | response (status : ℕ) (reason : String)
  | raised (r : Raised)
  deriving DecidableEq

/-- A non-error response. -/
def PostOutcome.accepted : PostOutcome → Bool
  | .response status _ => decide (status < 400)
  | .raised _ => false

/-- `async with session.post(..) as response: response.raise_for_status()`. -/
def postResult (url : String) : PostOutcome → Except Raised Unit
  | .response status reason =>
    if 400 ≤ status then .error (.exception (HttpApiIngestor.clientResponseError status reason url)) else .ok ()
  | .raised r => .error r

/-- An attempt from the end of the POST on: `record_success`, or `except
aiohttp.ClientError`. -/
def finishAttempt (b : Resilience.CircuitBreaker) (now : Time) (url : String) (outcome : PostOutcome) :
    Resilience.CircuitBreaker × Except Raised Unit :=
  match postResult url outcome with
  | .ok () => (b.recordSuccess, .ok ())
  | .error (.exception e) =>
    if e.isInstance .clientError then
      (b.recordFailure now, .error (.exception
        (e.quoted fun text => dispatchError s!"Network error during Slack dispatch: {text}" true)))
    else (b, .error (.exception e))
  | .error .cancelledError => (b, .error .cancelledError)

theorem finishAttempt_ok_iff {b : Resilience.CircuitBreaker} {now : Time} {url : String}
    {outcome : PostOutcome} :
    (finishAttempt b now url outcome).2 = .ok () ↔ outcome.accepted = true := by
  unfold finishAttempt
  cases outcome with
  | response status reason =>
    by_cases h : 400 ≤ status
    · simp [postResult, h, PostOutcome.accepted, HttpApiIngestor.clientResponseError, Exc.isInstance]
    · simp [postResult, h, PostOutcome.accepted, not_le.1 h]
  | raised r =>
    cases r with
    | cancelledError => simp [postResult, PostOutcome.accepted]
    | exception e =>
      simp only [postResult, PostOutcome.accepted]
      split <;> simp

end SentinelFlow.SlackHandler
