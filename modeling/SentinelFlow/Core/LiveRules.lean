/-
Which accepted threshold rules can fire at all. The schema looks at the
shape of `value` for `between` only; the evaluator compares a number for the
other four operators and a list of two for `between`, and is silent about
everything else.

A rule is live when it alerts on some number and is silent on another;
`live_iff` says which ones are.
-/
import SentinelFlow.Config.Parser
import SentinelFlow.Core.Evaluators

namespace SentinelFlow

open ThresholdEvaluator

def PyFloat.isFinite : PyFloat → Bool
  | .finite _ => true
  | _ => false

/-- The numbers of the rule are finite. -/
def ThresholdValue.isFinite : ThresholdValue → Bool
  | .float x => x.isFinite
  | .int _ => true
  | .list xs => xs.all PyFloat.isFinite

namespace ThresholdEvaluatorConfig

/-- The rule raises an alert on some number, and none on another. -/
def Live (c : ThresholdEvaluatorConfig) (r : Render) (metricId : String) (timestamp now : Time) : Prop :=
  (∃ x e, evaluate r (numericPayload metricId timestamp x) c.modelDump now = .ok (some e)) ∧
    ∃ x, evaluate r (numericPayload metricId timestamp x) c.modelDump now = .ok none

/-- The value fits the operator: bounds in order for `between`, else one
number, which a float can hold. -/
def fitsOperator (c : ThresholdEvaluatorConfig) : Bool :=
  match c.operator, c.value with
  | .between, .list [lower, upper] => lower.le upper
  | .between, _ => false
  | _, .float _ => true
  | _, .int n => decide (|(n : ℚ)| < floatLimit)
  | _, .list _ => false

end ThresholdEvaluatorConfig

/-! ## What a rule compares -/

section Rules

variable (c : ThresholdEvaluatorConfig) (r : Render) (metricId : String) (timestamp now : Time)

/-- What a rule says of a number. -/
def breachMessage (x : ℚ) (t : ThresholdVal) : String :=
  s!"Metric {metricId} value '{r.str (.float (.finite x))}' breached threshold '" ++
    s!"{r.str (.str c.operator.text)} {r.str t.toVal}'"

/-- The alert of a rule on a number. -/
def breachAlert (x : ℚ) (t : ThresholdVal) : AlertEvent where
  metricId := metricId
  evaluatorType := "threshold"
  severity := c.severity
  message := breachMessage c r metricId x t
  timestamp := now
  frozenText := r.validationError "AlertEvent" (.str (breachMessage c r metricId x t))

/-- On a number, a rule converts its value and compares. -/
theorem evaluate_numeric (x : ℚ) : evaluate r (numericPayload metricId timestamp x) c.modelDump now =
    (thresholdVal (some c.value.modelDump)).map fun t =>
      if isBreach (some (.str c.operator.text)) (.finite x) t = true then some (breachAlert c r metricId now x t)
      else none := by
  have hop : PyDict.get c.modelDump "operator" = some (.str c.operator.text) := rfl
  have hval : PyDict.get c.modelDump "value" = some c.value.modelDump := rfl
  have hsev : PyDict.get c.modelDump "severity" = some (.str c.severity.text) := rfl
  have hbuild : ∀ message, AlertEvent.build r metricId "threshold" (.str c.severity.text) message now =
      .ok ⟨metricId, "threshold", c.severity, message, now, r.validationError "AlertEvent" (.str message)⟩ := by
    intro message
    cases c.severity <;> rfl
  unfold evaluate
  rw [hop, hval, hsev]
  cases thresholdVal (some c.value.modelDump) with
  | error e => rfl
  | ok t =>
    by_cases hb : isBreach (some (.str c.operator.text)) (.finite x) t = true
    · simp only [numericPayload, bind, Except.bind, Option.getD_some, hb, if_true, hbuild, Except.map]
      rfl
    · simp only [numericPayload, bind, Except.bind, hb, Bool.false_eq_true, if_false, Except.map]
      rfl

/-- A rule is live when its value converts and the comparison goes both ways. -/
theorem live_iff_compares : c.Live r metricId timestamp now ↔
    ∃ t, thresholdVal (some c.value.modelDump) = .ok t ∧
      (∃ x : ℚ, isBreach (some (.str c.operator.text)) (.finite x) t = true) ∧
        ∃ x : ℚ, isBreach (some (.str c.operator.text)) (.finite x) t = false := by
  unfold ThresholdEvaluatorConfig.Live
  simp only [evaluate_numeric]
  cases thresholdVal (some c.value.modelDump) with
  | error e => simp [Except.map]
  | ok t =>
    simp only [Except.map, Except.ok.injEq, exists_eq_left']
    refine and_congr (exists_congr fun x => ?_) (exists_congr fun x => ?_) <;>
      by_cases hb : isBreach (some (.str c.operator.text)) (.finite x) t = true <;> simp [hb]

end Rules

/-- Each of the four comparisons with a number goes both ways. -/
theorem scalar_goes_both_ways {o : ThresholdOperator} (ho : o ≠ .between) (y : ℚ) :
    (∃ x : ℚ, isBreach (some (.str o.text)) (.finite x) (.scalar (.finite y)) = true) ∧
      ∃ x : ℚ, isBreach (some (.str o.text)) (.finite x) (.scalar (.finite y)) = false := by
  cases o with
  | lt => exact ⟨⟨y - 1, by simp [isBreach, ThresholdOperator.text]⟩, y, by simp [isBreach, ThresholdOperator.text]⟩
  | le => exact ⟨⟨y, by simp [isBreach, ThresholdOperator.text]⟩, y + 1, by simp [isBreach, ThresholdOperator.text]⟩
  | gt => exact ⟨⟨y + 1, by simp [isBreach, ThresholdOperator.text]⟩, y, by simp [isBreach, ThresholdOperator.text]⟩
  | ge => exact ⟨⟨y, by simp [isBreach, ThresholdOperator.text]⟩, y - 1, by simp [isBreach, ThresholdOperator.text]⟩
  | between => exact absurd rfl ho

/-- Bounds in order hold something between them, and others nothing. -/
theorem range_goes_both_ways (lower upper : ℚ) :
    ((∃ x : ℚ, isBreach (some (.str "between")) (.finite x) (.range (.finite lower) (.finite upper)) = true) ∧
      ∃ x : ℚ, isBreach (some (.str "between")) (.finite x) (.range (.finite lower) (.finite upper)) = false) ↔
    lower ≤ upper := by
  simp only [isBreach, PyFloat.le_finite, Bool.and_eq_true, decide_eq_true_eq]
  constructor
  · rintro ⟨⟨x, hl, hu⟩, -⟩
    exact le_trans hl hu
  · intro h
    exact ⟨⟨lower, le_rfl, h⟩, lower - 1, by simp⟩

/-- Two bounds are compared for `between` alone. -/
theorem isBreach_range {o : ThresholdOperator} (ho : o ≠ .between) (x lower upper : PyFloat) :
    isBreach (some (.str o.text)) x (.range lower upper) = false := by
  cases o <;> first | exact absurd rfl ho | rfl

/-- A list of any other length is no threshold. -/
theorem thresholdVal_list {xs : List PyFloat} (h : xs.length ≠ 2) :
    thresholdVal (some (ThresholdValue.list xs).modelDump) = .ok .none := by
  match xs, h with
  | [], _ => rfl
  | [a], _ => rfl
  | [a, b], h => exact absurd rfl h
  | a :: b :: c :: rest, _ => rfl

/-- A value converted once and for all. -/
theorem converts {v : Option PyVal} {t : ThresholdVal} {P : ThresholdVal → Prop} (h : thresholdVal v = .ok t) :
    (∃ t, thresholdVal v = .ok t ∧ P t) ↔ P t := by
  rw [h]
  simp

theorem live_list (c : ThresholdEvaluatorConfig) {xs : List PyFloat} (hv : c.value = .list xs)
    (hfin : xs.all PyFloat.isFinite = true) :
    (∃ t, thresholdVal (some c.value.modelDump) = .ok t ∧
      (∃ x : ℚ, isBreach (some (.str c.operator.text)) (.finite x) t = true) ∧
        ∃ x : ℚ, isBreach (some (.str c.operator.text)) (.finite x) t = false) ↔ c.fitsOperator = true := by
  obtain ⟨o, value, severity, hvalid⟩ := c
  dsimp only at hv hvalid ⊢
  subst hv
  by_cases ho : o = .between
  -- The schema leaves `between` a list of two.
  · subst ho
    have hlen : xs.length = 2 := by simpa [ThresholdValue.isPair] using hvalid rfl
    obtain ⟨a, b, rfl⟩ := List.length_eq_two.1 hlen
    simp only [List.all_cons, List.all_nil, Bool.and_true, Bool.and_eq_true] at hfin
    cases a <;> cases hfin.1
    cases b <;> cases hfin.2
    next lower upper =>
      rw [converts (t := .range (.finite lower) (.finite upper)) rfl]
      refine (range_goes_both_ways lower upper).trans ?_
      simp [ThresholdEvaluatorConfig.fitsOperator]
  -- Any list is silence for the other operators.
  · have hfits : ThresholdEvaluatorConfig.fitsOperator ⟨o, .list xs, severity, hvalid⟩ = false := by
      cases o <;> first | rfl | exact absurd rfl ho
    have hsilent : ∀ t, thresholdVal (some (ThresholdValue.list xs).modelDump) = .ok t → ∀ x : ℚ,
        isBreach (some (.str o.text)) (.finite x) t = false := by
      intro t ht x
      by_cases hlen : xs.length = 2
      · obtain ⟨a, b, rfl⟩ := List.length_eq_two.1 hlen
        cases ht
        exact isBreach_range ho ..
      · rw [thresholdVal_list hlen] at ht
        cases ht
        rfl
    rw [hfits]
    constructor
    · rintro ⟨t, ht, ⟨x, hx⟩, -⟩
      rw [hsilent t ht x] at hx
      cases hx
    · intro hno
      cases hno

theorem ThresholdEvaluatorConfig.ne_between {c : ThresholdEvaluatorConfig} (h : c.value.isPair = false) :
    c.operator ≠ .between := by
  intro ho
  have hpair := c.validateBetweenOperator ho
  rw [h] at hpair
  cases hpair

/-- **When a rule is live.** For every accepted rule with finite numbers:
there is a number it alerts on and one it is silent on, if and only if its
value fits its operator. -/
theorem live_iff (c : ThresholdEvaluatorConfig) (h : c.value.isFinite = true) (r : Render) (metricId : String)
    (timestamp now : Time) : c.Live r metricId timestamp now ↔ c.fitsOperator = true := by
  rw [live_iff_compares]
  cases hv : c.value with
  | list xs =>
    rw [hv] at h
    rw [← hv]
    exact live_list c hv h
  | float x =>
    have ho : c.operator ≠ .between := c.ne_between (by rw [hv]; rfl)
    have hfits : c.fitsOperator = true := by
      unfold ThresholdEvaluatorConfig.fitsOperator
      rw [hv]
      cases hop : c.operator <;> first | rfl | exact absurd hop ho
    rw [hv] at h
    cases x with
    | finite y => exact ⟨fun _ => hfits, fun _ => ⟨_, rfl, scalar_goes_both_ways ho y⟩⟩
    | inf | negInf | nan => cases h
  | int n =>
    have ho : c.operator ≠ .between := c.ne_between (by rw [hv]; rfl)
    have hfits : c.fitsOperator = decide (|(n : ℚ)| < floatLimit) := by
      unfold ThresholdEvaluatorConfig.fitsOperator
      rw [hv]
      cases hop : c.operator <;> first | rfl | exact absurd hop ho
    rw [hfits, decide_eq_true_eq]
    show (∃ t, (PyVal.toFloat (.int n)).map ThresholdVal.scalar = .ok t ∧ _) ↔ _
    by_cases hn : |(n : ℚ)| < floatLimit
    · rw [PyVal.toFloat_int_of_lt hn]
      exact ⟨fun _ => hn, fun _ => ⟨_, rfl, scalar_goes_both_ways ho n⟩⟩
    · rw [PyVal.toFloat_int_of_not_lt hn]
      refine ⟨fun hconv => ?_, fun hlim => absurd hlim hn⟩
      obtain ⟨t, ht, -⟩ := hconv
      cases ht

/-- From 1 to 5, and live. -/
theorem live_iff_between : ThresholdEvaluatorConfig.Live
    ⟨.between, .list [.finite 1, .finite 5], .high, fun _ => rfl⟩ wholeTexts "orders" 0 0 :=
  (live_iff ⟨.between, .list [.finite 1, .finite 5], .high, fun _ => rfl⟩ (by decide) wholeTexts "orders" 0 0).2
    (by decide)

/-- Bounds under an operator that takes one number. -/
def belowBounds : ThresholdEvaluatorConfig where
  operator := .lt
  value := .list [.finite 1, .finite 5]
  validateBetweenOperator := by simp

/-- Bounds the wrong way round. -/
def reversedBounds : ThresholdEvaluatorConfig where
  operator := .between
  value := .list [.finite 5, .finite 1]
  validateBetweenOperator := by simp [ThresholdValue.isPair]

/-- Both are accepted, and neither ever alerts. -/
theorem not_live_bounds :
    (¬∃ r metricId timestamp now, belowBounds.Live r metricId timestamp now) ∧
      ¬∃ r metricId timestamp now, reversedBounds.Live r metricId timestamp now := by
  constructor
  · rintro ⟨r, metricId, timestamp, now, h⟩
    have hfits := (live_list belowBounds rfl (by decide)).1 ((live_iff_compares ..).1 h)
    revert hfits
    decide
  · rintro ⟨r, metricId, timestamp, now, h⟩
    have hfits := (live_list reversedBounds rfl (by decide)).1 ((live_iff_compares ..).1 h)
    revert hfits
    decide

end SentinelFlow
