/-
`HttpApiIngestor` (`src/data/ingestors/http_api.py`): the reading of its
configuration, one HTTP exchange, and the retries around both.

What aiohttp does on the wire is an `Exchange`, an exception of it as it has
left the span. A content type is lowered in its ASCII letters: no other
character's lower case is in `application/json`.
-/
import SentinelFlow.Data.Urlparse
import SentinelFlow.Entities
import SentinelFlow.Retry

namespace SentinelFlow.HttpApiIngestor

/-! ## `_extract_value` -/

/-- `current[idx]`, counting from the end when negative. -/
def item (xs : List PyVal) (idx : ℤ) : Option PyVal :=
  if 0 ≤ idx then xs[idx.toNat]? else if -(xs.length : ℤ) ≤ idx then xs[(xs.length + idx).toNat]? else none

/-- One key of the path; `none` is the early `return None`. -/
def extractKey (current : PyVal) (key : String) : Option PyVal :=
  match current with
  | .dict kvs => some ((PyDict.get kvs key).getD .none)
  | .list xs => (parseInt key).bind (item xs)
  | _ => none

/-- `path.split('.')`. -/
def pathKeys (path : String) : List String := (path.toList.splitOn '.').map String.ofList

/-- `_extract_value`. -/
def extractValue (jsonData : PyVal) (path : String) : PyVal :=
  if path.isEmpty then .none else ((pathKeys path).foldlM extractKey jsonData).getD .none

/-! ## The configuration -/

/-- `url`, as a text. -/
def urlOf (r : Render) (config : PyDict) : Except Exc String :=
  let urlRaw := (config.get "url").getD .none
  if urlRaw.truthy then .ok (r.text urlRaw)
  else .error (ingestionError "Missing 'url' in HttpApiIngestor config" false)

/-- `method`, in capitals. -/
def methodOf (config : PyDict) : Except Exc String :=
  match (config.get "method").getD (.str "GET") with
  | .str s =>
    let method := upper s
    if method ∈ ["GET", "POST", "PUT", "PATCH", "DELETE", "OPTIONS", "HEAD"] then .ok method
    else .error (ingestionError s!"Invalid HTTP method: {method}" false)
  | _ => .error (ingestionError "'method' must be a string" false)

/-- `json_path`: a text or `None`. -/
def jsonPathOf (config : PyDict) : Except Exc (Option String) :=
  match config.get "json_path" with
  | none | some .none => .ok none
  | some (.str s) => .ok (some s)
  | some _ => .error (ingestionError "'json_path' must be a string" false)

/-- `timeout_seconds`, read as a float or defaulted. -/
def timeoutOf (config : PyDict) : Except Exc PyFloat :=
  match ((config.get "timeout_seconds").getD (.float (.finite 10))).toFloat with
  | .ok x => .ok x
  | .error e => if e.isInstance .valueError || e.isInstance .typeError then .ok (.finite 10) else .error e

/-! ## One exchange -/

/-- What comes back from `session.request`: an exception, or a response with
what reading its body as text or as JSON gives. -/
inductive Exchange
  | raised (e : Exc)
  | response (status : ℕ) (reason contentType : String) (text : Except Exc String) (json : Except Exc PyVal)

/-- What `raise_for_status` raises. -/
def clientResponseError (status : ℕ) (reason url : String) : Exc :=
  plainExc "<class 'aiohttp.client_exceptions.ClientResponseError'>" [.clientError]
    s!"{status}, message='{reason}', url='{url}'"

/-- `except aiohttp.ClientError` around the exchange. -/
def networkGuard {α} : Except Exc α → Except Exc α
  | .ok a => .ok a
  | .error e =>
    if e.isInstance .clientError then
      .error (e.quoted fun text => ingestionError s!"Network error during ingestion: {text}" true)
    else .error e

/-- `value`: a number found at the path, if the path is given. -/
def valueAt (data : PyVal) : Option String → Except Exc (Option PyFloat)
  | none => .ok none
  | some path =>
    if path.isEmpty then .ok none
    else match extractValue data path with
      | .none => .ok none
      | extracted => match extracted.toFloat with
        | .ok x => .ok (some x)
        | .error e => if e.isInstance .valueError || e.isInstance .typeError then .ok none else .error e

/-- `response.json()`, with `except aiohttp.ContentTypeError`. -/
def jsonBody (text : Except Exc String) : Except Exc PyVal → Except Exc PyVal
  | .ok data => .ok data
  | .error e =>
    if e.isInstance .contentTypeError then
      text.bind fun t =>
        .error (ingestionError ("Expected JSON response. Got text: " ++ (t.take 100).toString) false
          "BAD_CONTENT_TYPE")
    else .error e

/-- The payload of an exchange. -/
def payloadOf (r : Render) (metricId : String) (jsonPath : Option String) (url : String) (now : Time) :
    Exchange → Except Exc MetricPayload
  | .raised e => .error e
  | .response status reason contentType text json =>
    if 400 ≤ status then .error (clientResponseError status reason url)
    else
      let contentType := contentType.toLower
      let isJson := contains contentType "application/json"
      if (jsonPath.getD "" ≠ "") && !isJson then
        .error (ingestionError s!"Value extraction requires JSON payload but got Content-Type: {contentType}" false
          "BAD_CONTENT_TYPE")
      else if isJson then do
        let data ← jsonBody text json
        let value ← valueAt data jsonPath
        MetricPayload.build r metricId now value data
      else do
        let textData ← text
        MetricPayload.build r metricId now none (.dict [("text", .str textData)])

/-- One attempt of `fetch`. -/
def fetchOnce (r : Render) (metricId : String) (config : PyDict) (now : Time) (x : Exchange) :
    Except Exc MetricPayload := do
  let url ← urlOf r config
  urlparse r url
  let _method ← methodOf config
  let jsonPath ← jsonPathOf config
  let _timeoutSec ← timeoutOf config
  networkGuard (payloadOf r metricId jsonPath url now x)

/-- `fetch`: at most three attempts. -/
def fetch (r : Render) (metricId : String) (config : PyDict) (exchanges : List (Time × Exchange)) :
    Option (Except Exc MetricPayload) :=
  asyncRetryNetwork 3 (exchanges.map fun x => fetchOnce r metricId config x.1 x.2)

/-! ## The payload names the metric asked for, and the time of its exchange -/

theorem build_ok {r : Render} {id : String} {now : Time} {value : Option PyFloat} {raw : PyVal}
    {p : MetricPayload} (h : MetricPayload.build r id now value raw = .ok p) :
    p.metricId = id ∧ p.timestamp = now := by
  unfold MetricPayload.build at h
  split at h
  · cases h
    exact ⟨rfl, rfl⟩
  · split at h <;> cases h
    exact ⟨rfl, rfl⟩
  · cases h

theorem networkGuard_ok {α} {x : Except Exc α} {a : α} (h : networkGuard x = .ok a) : x = .ok a := by
  unfold networkGuard at h
  split at h
  · exact h
  · split at h <;> cases h

theorem payloadOf_ok {r : Render} {id : String} {path : Option String} {url : String}
    {now : Time} {x : Exchange} {p : MetricPayload} (h : payloadOf r id path url now x = .ok p) :
    p.metricId = id ∧ p.timestamp = now := by
  unfold payloadOf at h
  split at h
  · cases h
  · dsimp only at h
    split at h
    · cases h
    · split at h
      · cases h
      · split at h
        · obtain ⟨data, -, h⟩ := bind_ok h
          obtain ⟨value, -, h⟩ := bind_ok h
          exact build_ok h
        · obtain ⟨text, -, h⟩ := bind_ok h
          exact build_ok h

theorem fetchOnce_ok {r : Render} {id : String} {config : PyDict} {now : Time} {x : Exchange}
    {p : MetricPayload} (h : fetchOnce r id config now x = .ok p) : p.metricId = id ∧ p.timestamp = now := by
  obtain ⟨url, -, h⟩ := bind_ok h
  obtain ⟨_, -, h⟩ := bind_ok h
  obtain ⟨_, -, h⟩ := bind_ok h
  obtain ⟨path, -, h⟩ := bind_ok h
  obtain ⟨_, -, h⟩ := bind_ok h
  exact payloadOf_ok (networkGuard_ok h)

theorem fetch_ok {r : Render} {id : String} {config : PyDict} {xs : List (Time × Exchange)}
    {p : MetricPayload} (h : fetch r id config xs = some (.ok p)) : p.metricId = id ∧ ∃ x ∈ xs, p.timestamp = x.1 := by
  have hm := retryFrom_ok h
  simp only [List.mem_map] at hm
  obtain ⟨x, hx, hp⟩ := hm
  obtain ⟨hid, htime⟩ := fetchOnce_ok hp
  exact ⟨hid, x, hx, htime⟩

end SentinelFlow.HttpApiIngestor
