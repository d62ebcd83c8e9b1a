/-
How `fetch` ends, for every configuration and every outcome of the exchange.

Its one `except` clause is for `aiohttp.ClientError`. What else aiohttp
raises leaves it as it is: the session's total timeout, and what
`response.json()` raises on a body that is no JSON. So does what the code
around the exchange raises: `urlparse` and `float` before it, and after it
`float` on a huge integer and `MetricPayload` on a document that is no
object (`fetch_contained_iff`).
-/
import SentinelFlow.Data.HttpApi

namespace SentinelFlow.HttpApiIngestor

/-! ## What aiohttp raises in an exchange -/

def errorOf {α} : Except Exc α → Option Exc
  | .ok _ => none
  | .error e => some e

def isJson (contentType : String) : Bool := contains contentType.toLower "application/json"

/-- The exception aiohttp raises in the exchange, if it raises one that is
not looked into: `ContentTypeError` gives way to reading the text. -/
def Exchange.error? (url : String) (jsonPath : Option String) : Exchange → Option Exc
  | .raised e => some e
  | .response status reason contentType text json =>
    if 400 ≤ status then some (clientResponseError status reason url)
    else if isJson contentType then
      match json with
      | .ok _ => none
      | .error e => if e.isInstance .contentTypeError then errorOf text else some e
    else if jsonPath.getD "" ≠ "" then none
    else errorOf text

/-- `float(v)` does not overflow. -/
def fitsFloat : PyVal → Bool
  | .int n => decide (|(n : ℚ)| < floatLimit)
  | _ => true

def isDict : PyVal → Bool
  | .dict _ => true
  | _ => false

/-- A JSON body is an object, with no integer too large for a float at the path. -/
def Exchange.fits (jsonPath : Option String) : Exchange → Bool
  | .response _ _ contentType _ (.ok data) =>
    !isJson contentType || (isDict data && fitsFloat (extractValue data (jsonPath.getD "")))
  | _ => true

/-- `str(e)` can be read. -/
def isPrintable (e : Exc) : Bool := e.str.toOption.isSome

/-- The exception is an `IngestionError`; or, where another attempt would
follow, what printing it raises is one. -/
def isIngestion (allowed : Bool) (e : Exc) : Bool :=
  if isRetryableException e && allowed then
    match e.str with
    | .ok _ => true
    | .error e' => e'.isInstance .ingestionError
  else e.isInstance .ingestionError

/-- An exception `fetch` catches and can print, or raises on purpose. -/
def isHandled (allowed : Bool) (e : Exc) : Bool :=
  if e.isInstance .clientError then
    match e.str with
    | .ok _ => true
    | .error e' => isIngestion allowed e'
  else isIngestion allowed e

/-- The exchange comes to a payload or to an `IngestionError`. -/
def Exchange.isContained (url : String) (jsonPath : Option String) (allowed : Bool) (x : Exchange) : Bool :=
  match x.error? url jsonPath with
  | some e => isHandled allowed e
  | none => x.fits jsonPath

/-- The exception is tried again: it is retryable, and can be printed. -/
def isTriedAgain (e : Exc) : Bool :=
  if e.isInstance .clientError then
    match e.str with
    | .ok _ => true
    | .error e' => isRetryableException e' && isPrintable e'
  else isRetryableException e && isPrintable e

/-- The exchange is followed by another attempt, if there is one left. -/
def Exchange.isRetried (url : String) (jsonPath : Option String) (x : Exchange) : Bool :=
  (x.error? url jsonPath).any isTriedAgain

/-! ## One attempt -/

/-- A payload, or an `IngestionError`. -/
def Contained : Except Exc MetricPayload → Prop
  | .ok _ => True
  | .error e => e.isInstance .ingestionError = true

section Attempt

variable {r : Render} {metricId url : String} {jsonPath : Option String} {now : Time} {x : Exchange}

/-- An attempt that ends in this exception: it is followed by another, or
ends the call so. -/
theorem endAttempt_error (e : Exc) :
    (endAttempt true (.error e : Except Exc MetricPayload) = none ↔
      (isRetryableException e && isPrintable e) = true) ∧
    ∀ allowed r, endAttempt allowed (.error e) = some r → (Contained r ↔ isIngestion allowed e = true) := by
  unfold endAttempt raisedAttempt isIngestion isPrintable
  constructor
  · rw [Option.map_eq_none_iff, Bool.and_true]
    cases hr : isRetryableException e <;> cases hs : e.str <;> simp [Except.toOption]
  · intro allowed r h
    cases hr : isRetryableException e && allowed with
    | false =>
      simp only [hr, Bool.false_eq_true, if_false, Option.map_some, Option.some.injEq] at h ⊢
      rw [← h]
      exact Iff.rfl
    | true =>
      simp only [hr, if_true] at h ⊢
      cases hs : e.str with
      | ok text =>
        rw [hs] at h
        cases h
      | error e' =>
        rw [hs] at h
        cases h
        exact Iff.rfl

theorem networkGuard_error (e : Exc) :
    (endAttempt true (networkGuard (.error e : Except Exc MetricPayload)) = none ↔ isTriedAgain e = true) ∧
      ∀ allowed r, endAttempt allowed (networkGuard (.error e)) = some r →
        (Contained r ↔ isHandled allowed e = true) := by
  unfold networkGuard isTriedAgain isHandled
  by_cases hc : e.isInstance .clientError = true
  · simp only [hc, if_true, Exc.quoted]
    cases e.str with
    | ok text =>
      refine ⟨iff_of_true rfl rfl, fun allowed r h => ?_⟩
      cases allowed with
      | true => cases h
      | false =>
        cases h
        exact iff_of_true rfl rfl
    | error e' => exact endAttempt_error e'
  · simp only [hc, Bool.false_eq_true, if_false]
    exact endAttempt_error e

theorem fitsFloat_iff {v : PyVal} : fitsFloat v = true ↔
    ∀ e, v.toFloat = .error e → (e.isInstance .valueError || e.isInstance .typeError) = true := by
  cases v with
  | int n =>
    by_cases hn : |(n : ℚ)| < floatLimit
    · simp [fitsFloat, hn, PyVal.toFloat]
    · simp [fitsFloat, hn, PyVal.toFloat, overflowError, Exc.isInstance]
  | str s =>
    simp only [fitsFloat, PyVal.toFloat, true_iff]
    intro e he
    split at he <;> cases he
    rfl
  | none | list | dict | anyHttpUrl =>
    simp only [fitsFloat, PyVal.toFloat, true_iff]
    rintro e ⟨⟩
    rfl
  | bool | float =>
    simp only [fitsFloat, PyVal.toFloat, true_iff]
    rintro e ⟨⟩

/-- `payloadOf` by the questions in the order `error?` asks them. -/
theorem payloadOf_response {status : ℕ} {reason contentType : String} {text : Except Exc String}
    {json : Except Exc PyVal} :
    payloadOf r metricId jsonPath url now (.response status reason contentType text json) =
      if 400 ≤ status then .error (clientResponseError status reason url)
      else if isJson contentType then (jsonBody text json).bind fun data =>
        (valueAt data jsonPath).bind fun value => MetricPayload.build r metricId now value data
      else if jsonPath.getD "" ≠ "" then
        .error (ingestionError
          s!"Value extraction requires JSON payload but got Content-Type: {contentType.toLower}" false
          "BAD_CONTENT_TYPE")
      else text.bind fun textData => MetricPayload.build r metricId now none (.dict [("text", .str textData)]) := by
  unfold payloadOf isJson
  cases hj : contains contentType.toLower "application/json" <;> by_cases hp : jsonPath.getD "" = "" <;>
    simp [hj, hp, bind]

theorem payloadOf_error {e : Exc} (h : x.error? url jsonPath = some e) :
    payloadOf r metricId jsonPath url now x = .error e := by
  have htext : ∀ {text : Except Exc String} {α} {k : String → Except Exc α}, errorOf text = some e →
      text.bind k = .error e := by
    intro text α k h
    cases text with
    | ok t => cases h
    | error e' =>
      cases h
      rfl
  cases x with
  | raised e' =>
    cases h
    rfl
  | response status reason contentType text json =>
    simp only [Exchange.error?] at h
    rw [payloadOf_response]
    split at h
    next hs =>
      cases h
      rw [if_pos hs]
    next hs =>
      rw [if_neg hs]
      split at h
      next hj =>
        rw [if_pos hj]
        split at h
        · cases h
        next e' =>
          unfold jsonBody
          dsimp only
          split at h
          next hc =>
            rw [if_pos hc, htext h]
            rfl
          next hc =>
            cases h
            rw [if_neg hc]
            rfl
      next hj =>
        rw [if_neg hj]
        split at h
        · cases h
        next hp => rw [if_neg hp, htext h]

theorem extractValue_none (path : String) : extractValue .none path = .none := by
  unfold extractValue
  split
  · rfl
  · cases pathKeys path <;> rfl

/-- Reading the value fails on nothing but a huge integer. -/
theorem valueAt_cases (data : PyVal) (jsonPath : Option String) :
    (fitsFloat (extractValue data (jsonPath.getD "")) = true ∧ ∃ v, valueAt data jsonPath = .ok v) ∨
      (fitsFloat (extractValue data (jsonPath.getD "")) = false ∧
        ∃ text, valueAt data jsonPath = .error (overflowError text)) := by
  cases jsonPath with
  | none => exact .inl ⟨rfl, none, rfl⟩
  | some path =>
    unfold valueAt
    dsimp only [Option.getD_some]
    by_cases hp : path.isEmpty = true
    · rw [extractValue, if_pos hp, if_pos hp]
      exact .inl ⟨rfl, none, rfl⟩
    · rw [if_neg hp]
      generalize extractValue data path = v
      cases v with
      | none => exact .inl ⟨rfl, none, rfl⟩
      | int n =>
        by_cases hn : |(n : ℚ)| < floatLimit
        · refine .inl ⟨decide_eq_true hn, some (.finite n), ?_⟩
          simp only [PyVal.toFloat_int_of_lt hn]
        · refine .inr ⟨decide_eq_false hn, "int too large to convert to float", ?_⟩
          simp only [PyVal.toFloat_int_of_not_lt hn]
          rfl
      | str s =>
        simp only [PyVal.toFloat]
        cases parseFloat s with
        | some x => exact .inl ⟨rfl, some x, rfl⟩
        | none => exact .inl ⟨rfl, none, rfl⟩
      | bool b => exact .inl ⟨rfl, _, rfl⟩
      | float x => exact .inl ⟨rfl, _, rfl⟩
      | list | dict | anyHttpUrl => exact .inl ⟨rfl, none, rfl⟩

theorem valueAt_none (jsonPath : Option String) : valueAt .none jsonPath = .ok none := by
  cases jsonPath with
  | none => rfl
  | some path =>
    unfold valueAt
    dsimp only
    rw [extractValue_none]
    split <;> rfl

/-- A payload is built of an object; of anything else it is a `ValidationError`. -/
theorem build_cases {value : Option PyFloat} {data : PyVal} (hnone : data = .none → value = none) :
    (isDict data = true ∧ ∃ p, MetricPayload.build r metricId now value data = .ok p) ∨
      (isDict data = false ∧ ∃ e, MetricPayload.build r metricId now value data = .error e ∧
        e.bases = [.validationError, .valueError]) := by
  cases data with
  | dict kvs => exact .inl ⟨rfl, _, rfl⟩
  | none =>
    rw [hnone rfl]
    exact .inr ⟨rfl, _, rfl, rfl⟩
  | bool | int | float | str | list | anyHttpUrl => exact .inr ⟨rfl, _, rfl, rfl⟩

/-- The reading of a JSON body. -/
theorem jsonPayload_cases (data : PyVal) (jsonPath : Option String) :
    (isDict data && fitsFloat (extractValue data (jsonPath.getD ""))) = true ∧
        (∃ p, ((valueAt data jsonPath).bind fun value => MetricPayload.build r metricId now value data) = .ok p) ∨
      (isDict data && fitsFloat (extractValue data (jsonPath.getD ""))) = false ∧
        ∃ e, ((valueAt data jsonPath).bind fun value => MetricPayload.build r metricId now value data) = .error e ∧
          (e.bases = [.overflowError] ∨ e.bases = [.validationError, .valueError]) := by
  rcases valueAt_cases data jsonPath with ⟨hfits, v, hv⟩ | ⟨hfits, text, hv⟩
  · have hnone : data = .none → v = none := by
      rintro rfl
      rw [valueAt_none] at hv
      exact (Except.ok.inj hv).symm
    rw [hfits, hv, Bool.and_true]
    rcases @build_cases r metricId now v data hnone with ⟨hd, p, hb⟩ | ⟨hd, e, hb, he⟩
    · exact .inl ⟨hd, p, hb⟩
    · exact .inr ⟨hd, e, hb, .inr he⟩
  · rw [hfits, hv, Bool.and_false]
    exact .inr ⟨rfl, _, rfl, .inl rfl⟩

/-- A body that is no JSON has nothing that might not fit. -/
theorem fits_of_not_isJson {status : ℕ} {reason contentType : String} {text : Except Exc String}
    {json : Except Exc PyVal} (hj : ¬isJson contentType = true) :
    (Exchange.response status reason contentType text json).fits jsonPath = true := by
  unfold Exchange.fits
  split
  next heq =>
    cases heq
    simp [hj]
  · rfl

/-- Without an exception of aiohttp's, the body decides, and nothing is tried again. -/
theorem payloadOf_body (h : x.error? url jsonPath = none) :
    (x.fits jsonPath = true ∧ ((∃ p, payloadOf r metricId jsonPath url now x = .ok p) ∨
        ∃ message code, payloadOf r metricId jsonPath url now x = .error (ingestionError message false code))) ∨
      (x.fits jsonPath = false ∧ ∃ e, payloadOf r metricId jsonPath url now x = .error e ∧
        (e.bases = [.overflowError] ∨ e.bases = [.validationError, .valueError])) := by
  cases x with
  | raised e => cases h
  | response status reason contentType text json =>
    simp only [Exchange.error?] at h
    rw [payloadOf_response]
    split at h
    · cases h
    next hs =>
      rw [if_neg hs]
      split at h
      next hj =>
        rw [if_pos hj]
        split at h
        next data =>
          simp only [Exchange.fits, hj, Bool.not_true, Bool.false_or]
          rcases @jsonPayload_cases r metricId now data jsonPath with ⟨hfits, p, hp⟩ | ⟨hfits, e, hp, he⟩
          · exact .inl ⟨hfits, .inl ⟨p, hp⟩⟩
          · exact .inr ⟨hfits, e, hp, he⟩
        next e' =>
          unfold jsonBody
          dsimp only
          split at h
          next hc =>
            rw [if_pos hc]
            cases text with
            | ok t => exact .inl ⟨rfl, .inr ⟨_, _, rfl⟩⟩
            | error e => cases h
          · cases h
      next hj =>
        rw [if_neg hj]
        refine .inl ⟨fits_of_not_isJson hj, ?_⟩
        split at h
        next hp =>
          rw [if_pos hp]
          exact .inr ⟨_, _, rfl⟩
        next hp =>
          rw [if_neg hp]
          cases text with
          | ok t => exact .inl ⟨_, rfl⟩
          | error e => cases h

/-- How an exchange ends, once the configuration has been read. -/
theorem networkGuard_payloadOf :
    (endAttempt true (networkGuard (payloadOf r metricId jsonPath url now x)) = none ↔
      x.isRetried url jsonPath = true) ∧
    ∀ allowed result, endAttempt allowed (networkGuard (payloadOf r metricId jsonPath url now x)) = some result →
      (Contained result ↔ x.isContained url jsonPath allowed = true) := by
  unfold Exchange.isContained Exchange.isRetried
  cases he : x.error? url jsonPath with
  | some e =>
    rw [payloadOf_error he]
    exact networkGuard_error e
  | none =>
    simp only [Option.any_none]
    rcases @payloadOf_body r metricId url jsonPath now x he with
      ⟨hfits, ⟨p, hp⟩ | ⟨message, code, hp⟩⟩ | ⟨hfits, e, hp, hbases⟩
    · rw [hfits, hp]
      refine ⟨iff_of_false (by simp [networkGuard, endAttempt]) (by simp), fun allowed result h => ?_⟩
      cases h
      exact iff_of_true trivial rfl
    · obtain ⟨hretried, hcontained⟩ := endAttempt_error (ingestionError message false code)
      rw [hfits, hp]
      refine ⟨hretried, fun allowed result h => ?_⟩
      exact iff_of_true ((hcontained allowed result h).2 (by cases allowed <;> rfl)) rfl
    · obtain ⟨hretried, hcontained⟩ := networkGuard_error e
      rw [hfits, hp, hretried]
      have hno : ∀ c, c ≠ .overflowError → c ≠ .validationError → c ≠ .valueError → e.isInstance c = false := by
        intro c h₁ h₂ h₃
        rcases hbases with hb | hb <;> simp [Exc.isInstance, hb, h₁, h₂, h₃]
      refine ⟨by simp [isTriedAgain, isRetryableException, hno], fun allowed result h => ?_⟩
      rw [hcontained allowed result h]
      simp [isHandled, isIngestion, isRetryableException, hno]

end Attempt

/-! ## All attempts -/

/-- `url` is given. -/
def urlGiven (config : PyDict) : Bool := ((config.get "url").getD .none).truthy

/-- `str(url_raw)`. -/
def urlText (r : Render) (config : PyDict) : String := r.text ((config.get "url").getD .none)

/-- `method` is a text that names a method. -/
def methodAllowed (config : PyDict) : Bool :=
  match (config.get "method").getD (.str "GET") with
  | .str s => decide (upper s ∈ ["GET", "POST", "PUT", "PATCH", "DELETE", "OPTIONS", "HEAD"])
  | _ => false

/-- `json_path`, where it is a text or missing. -/
def jsonPathAllowed (config : PyDict) : Option (Option String) :=
  match config.get "json_path" with
  | none | some .none => some none
  | some (.str s) => some (some s)
  | some _ => none

/-- What it takes for `fetch` to come to a payload or an `IngestionError`: a
configuration it refuses itself, or one it can read and whose deciding
exchange is contained. -/
def Handled (r : Render) (config : PyDict) (exchanges : List (Time × Exchange)) : Prop :=
  urlGiven config = false ∨
    urlparse r (urlText r config) = .ok () ∧
      (methodAllowed config = false ∨
        ∀ jsonPath, jsonPathAllowed config = some jsonPath →
          fitsFloat ((config.get "timeout_seconds").getD (.float (.finite 10))) = true ∧
            ∀ x allowed, deciding (fun y => y.2.isRetried (urlText r config) jsonPath) 2 exchanges = some (x, allowed) →
              x.2.isContained (urlText r config) jsonPath allowed = true)

section Configuration

variable {r : Render} {config : PyDict}

theorem methodOf_cases : (methodAllowed config = true ∧ ∃ method, methodOf config = .ok method) ∨
    (methodAllowed config = false ∧ ∃ message, methodOf config = .error (ingestionError message false)) := by
  unfold methodAllowed methodOf
  generalize (config.get "method").getD (.str "GET") = v
  cases v with
  | str s =>
    by_cases hm : upper s ∈ ["GET", "POST", "PUT", "PATCH", "DELETE", "OPTIONS", "HEAD"]
    · exact .inl ⟨decide_eq_true hm, _, if_pos hm⟩
    · exact .inr ⟨decide_eq_false hm, _, if_neg hm⟩
  | none | bool | int | float | list | dict | anyHttpUrl => exact .inr ⟨rfl, _, rfl⟩

theorem jsonPathOf_cases : (∃ path, jsonPathAllowed config = some path ∧ jsonPathOf config = .ok path) ∨
    (jsonPathAllowed config = none ∧ ∃ message, jsonPathOf config = .error (ingestionError message false)) := by
  unfold jsonPathAllowed jsonPathOf
  cases config.get "json_path" with
  | none => exact .inl ⟨none, rfl, rfl⟩
  | some v =>
    cases v with
    | none => exact .inl ⟨none, rfl, rfl⟩
    | str s => exact .inl ⟨some s, rfl, rfl⟩
    | bool | int | float | list | dict | anyHttpUrl => exact .inr ⟨rfl, _, rfl⟩

theorem timeoutOf_cases :
    (fitsFloat ((config.get "timeout_seconds").getD (.float (.finite 10))) = true ∧
        ∃ x, timeoutOf config = .ok x) ∨
      (fitsFloat ((config.get "timeout_seconds").getD (.float (.finite 10))) = false ∧
        ∃ text, timeoutOf config = .error (overflowError text)) := by
  unfold timeoutOf
  generalize (config.get "timeout_seconds").getD (.float (.finite 10)) = v
  by_cases hfits : fitsFloat v = true
  · refine .inl ⟨hfits, ?_⟩
    cases hv : v.toFloat with
    | ok x => exact ⟨x, rfl⟩
    | error e =>
      dsimp only
      rw [if_pos (fitsFloat_iff.1 hfits e hv)]
      exact ⟨_, rfl⟩
  · refine .inr ⟨by simpa using hfits, ?_⟩
    cases v with
    | int n =>
      have hn : ¬|(n : ℚ)| < floatLimit := by simpa [fitsFloat] using hfits
      rw [PyVal.toFloat_int_of_not_lt hn]
      exact ⟨_, rfl⟩
    | none | bool | float | str | list | dict | anyHttpUrl => exact absurd rfl hfits

/-- What comes before the exchange: either it ends every attempt alike, in
an exception that is not tried again, or the exchange decides. -/
theorem fetchOnce_cases (r : Render) (config : PyDict) :
    (∃ e, (∀ id now x, fetchOnce r id config now x = .error e) ∧ isRetryableException e = false ∧
      ∀ xs, Handled r config xs ↔ e.isInstance .ingestionError = true) ∨
    ∃ jsonPath, (∀ id now x, fetchOnce r id config now x =
        networkGuard (payloadOf r id jsonPath (urlText r config) now x)) ∧
      ∀ xs, Handled r config xs ↔
        ∀ x allowed, deciding (fun y => y.2.isRetried (urlText r config) jsonPath) 2 xs = some (x, allowed) →
          x.2.isContained (urlText r config) jsonPath allowed = true := by
  have hurl : urlOf r config = if urlGiven config then .ok (urlText r config) else
    .error (ingestionError "Missing 'url' in HttpApiIngestor config" false) := rfl
  unfold fetchOnce Handled
  rw [hurl]
  cases hgiven : urlGiven config with
  | false =>
    exact .inl ⟨_, fun _ _ _ => rfl, rfl, fun xs => by simp [ingestionError, Exc.isInstance]⟩
  | true =>
    cases hparse : urlparse r (urlText r config) with
    | error e =>
      obtain ⟨text, rfl⟩ := urlparse_error hparse
      refine .inl ⟨valueError text, fun _ _ _ => ?_, rfl, fun xs => by simp [valueError, Exc.isInstance]⟩
      rw [if_pos rfl]
      simp only [bind, Except.bind, hparse]
    | ok u =>
      rcases @methodOf_cases config with ⟨hallowed, method, hmethod⟩ | ⟨hallowed, message, hmethod⟩
      · rcases @jsonPathOf_cases config with ⟨path, hpath, hpathOf⟩ | ⟨hpath, message, hpathOf⟩
        · rcases @timeoutOf_cases config with ⟨hfits, t, htimeout⟩ | ⟨hfits, text, htimeout⟩
          · refine .inr ⟨path, fun _ _ _ => ?_, fun xs => by simp [hallowed, hpath, hfits]⟩
            rw [if_pos rfl]
            simp only [bind, Except.bind, hparse, hmethod, hpathOf, htimeout]
          · refine .inl ⟨overflowError text, fun _ _ _ => ?_, rfl,
              fun xs => by simp [hallowed, hpath, hfits, overflowError, Exc.isInstance]⟩
            rw [if_pos rfl]
            simp only [bind, Except.bind, hparse, hmethod, hpathOf, htimeout]
        · refine .inl ⟨ingestionError message false, fun _ _ _ => ?_, rfl,
            fun xs => by simp [hpath, ingestionError, Exc.isInstance]⟩
          rw [if_pos rfl]
          simp only [bind, Except.bind, hparse, hmethod, hpathOf]
      · refine .inl ⟨ingestionError message false, fun _ _ _ => ?_, rfl,
          fun xs => by simp [hallowed, ingestionError, Exc.isInstance]⟩
        rw [if_pos rfl]
        simp only [bind, Except.bind, hparse, hmethod]

end Configuration

/-- **How `fetch` ends.** With an outcome for each of its three attempts it
ends, in a payload or an `IngestionError`, if and only if it refuses the
configuration itself, or reads it and its deciding exchange is contained. -/
theorem fetch_contained_iff (r : Render) (metricId : String) (config : PyDict) {exchanges : List (Time × Exchange)}
    (h : 3 ≤ exchanges.length) :
    ∃ result, fetch r metricId config exchanges = some result ∧ (Contained result ↔ Handled r config exchanges) := by
  unfold fetch asyncRetryNetwork
  rcases fetchOnce_cases r config with ⟨e, hall, hretry, hhandled⟩ | ⟨jsonPath, hall, hhandled⟩
  · have hends : ∀ (x : Time × Exchange) (allowed : Bool),
        endAttempt allowed (fetchOnce r metricId config x.1 x.2) = some (.error e) := by
      intro x allowed
      rw [hall, endAttempt, raisedAttempt_of_not_retryable hretry, Option.map_some]
    have hnever : ∀ x : Time × Exchange, endAttempt true (fetchOnce r metricId config x.1 x.2) = none ↔
        false = true := fun x => by simp [hends]
    obtain ⟨x, allowed, hx, -⟩ := @deciding_isSome _ (fun _ => false) 2 exchanges h
    rw [retryFrom_map hnever, hx, Option.bind_some, hends]
    exact ⟨_, rfl, (hhandled exchanges).symm⟩
  · have hagain : ∀ x : Time × Exchange, endAttempt true (fetchOnce r metricId config x.1 x.2) = none ↔
        x.2.isRetried (urlText r config) jsonPath = true := by
      intro x
      rw [hall]
      exact networkGuard_payloadOf.1
    obtain ⟨x, allowed, hx, hlast⟩ :=
      @deciding_isSome _ (fun y => y.2.isRetried (urlText r config) jsonPath) 2 exchanges h
    -- The attempt that decides is followed by no other.
    obtain ⟨result, hend⟩ : ∃ result, endAttempt allowed (fetchOnce r metricId config x.1 x.2) = some result := by
      refine Option.ne_none_iff_exists'.1 fun hnone => ?_
      cases allowed with
      | true =>
        have hno := hlast rfl
        rw [(hagain x).1 hnone] at hno
        cases hno
      | false => cases hr : fetchOnce r metricId config x.1 x.2 <;> simp [hr, endAttempt] at hnone
    rw [retryFrom_map hagain, hx, Option.bind_some, hend]
    refine ⟨result, rfl, ?_⟩
    rw [hall] at hend
    rw [networkGuard_payloadOf.2 allowed result hend, hhandled exchanges, hx]
    simp

/-- A check of the open orders. -/
def ordersIngestor : PyDict := [("url", .str "https://api.example/orders"), ("json_path", .str "open")]

def answered (body : PyVal) : Exchange := .response 200 "OK" "application/json" (.ok "") (.ok body)

/-- A document with the number in it comes to a payload or an `IngestionError`. -/
theorem fetch_contained_iff_object : ∃ result,
    fetch wholeTexts "orders" ordersIngestor (List.replicate 3 (0, answered (.dict [("open", .int 7)]))) =
      some result ∧ Contained result := by
  obtain ⟨result, hr, hiff⟩ := fetch_contained_iff wholeTexts "orders" ordersIngestor
    (show 3 ≤ (List.replicate 3 ((0 : Time), answered (.dict [("open", .int 7)]))).length by simp)
  refine ⟨result, hr, hiff.2 (.inr ⟨rfl, .inr ?_⟩)⟩
  rintro jsonPath ⟨⟩
  refine ⟨rfl, fun x allowed hx => ?_⟩
  have hfinal : (answered (.dict [("open", .int 7)])).isRetried (urlText wholeTexts ordersIngestor) (some "open") =
      false := by decide +kernel
  simp only [List.replicate, deciding, hfinal, Bool.false_eq_true, if_false, Option.some.injEq, Prod.mk.injEq] at hx
  rw [← hx.1, ← hx.2]
  decide +kernel

/-- The total timeout of the session leaves `fetch` as a `TimeoutError`. -/
theorem not_contained_timeout :
    fetch wholeTexts "orders" ordersIngestor (List.replicate 3 (0, .raised timeoutError)) =
      some (.error timeoutError) ∧ ¬Contained (.error timeoutError) :=
  ⟨rfl, by simp [Contained, timeoutError, Exc.isInstance]⟩

end SentinelFlow.HttpApiIngestor
