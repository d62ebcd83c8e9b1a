/-
`detect_zscore` and `StatisticalAnomalyDetector` (`analytics/zscore.py`,
`analytics/detectors.py`), over the real numbers.

The value looked at is one of those it is measured by. Whatever the values,
its score is at most `(n - 1) / √n` for `n` of them, so a threshold of 3 takes
eleven (`zscore_fires_iff`): a smaller window never fires.
-/
import Mathlib.Analysis.Real.Sqrt
import Mathlib.Data.List.DropRight
import SentinelFlow.Lib.Deviation
import SentinelFlow.Lib.Machine
import SentinelFlow.Lib.Ring
import SentinelFlow.Py

namespace SentinelFlow

open Machine Deviation Ring

/-! ## The score -/

/-- `detect_zscore`. -/
noncomputable def detectZscore (values : List ℝ) (threshold : ℝ := 3) : Bool :=
  if values.length < 2 then false
  else
    let mean : ℝ := values.sum / values.length
    let variance : ℝ := (values.map fun x => (x - mean) ^ 2).sum / (values.length - 1)
    if variance = 0 then false
    else
      let stdDev := √variance
      let lastValue := values.getLastD 0
      let zScore := |lastValue - mean| / stdDev
      decide (zScore > threshold)

/-- The test by squares. -/
theorem detectZscore_iff {values : List ℝ} {threshold : ℝ} (h : 0 ≤ threshold) :
    detectZscore values threshold = true ↔ 2 ≤ values.length ∧ 0 < variance values ∧
      threshold ^ 2 * variance values < (values.getLastD 0 - mean values) ^ 2 := by
  have hvar : (values.map fun x => (x - values.sum / values.length) ^ 2).sum / (values.length - 1) =
      variance values := rfl
  have hmean : values.sum / values.length = mean values := rfl
  unfold detectZscore
  by_cases hlen : values.length < 2
  · simp [hlen]
  · rw [if_neg hlen]
    dsimp only
    rw [hvar, hmean]
    have hcount : (0 : ℝ) < values.length - 1 := by
      have : (2 : ℝ) ≤ values.length := by exact_mod_cast not_lt.1 hlen
      linarith
    have hnonneg : 0 ≤ variance values := div_nonneg (sum_sq_nonneg _ _) hcount.le
    rcases hnonneg.eq_or_lt with hzero | hpos
    · simp [← hzero]
    · have hscore : threshold < |values.getLastD 0 - mean values| / √(variance values) ↔
          threshold ^ 2 * variance values < (values.getLastD 0 - mean values) ^ 2 := by
        rw [lt_div_iff₀ (Real.sqrt_pos.2 hpos), ← abs_of_nonneg (mul_nonneg h (Real.sqrt_nonneg (variance values))),
          ← sq_lt_sq, mul_pow, Real.sq_sqrt hpos.le]
      rw [if_neg hpos.ne', decide_eq_true_iff]
      exact hscore.trans ⟨fun hlt => ⟨not_lt.1 hlen, hpos, hlt⟩, fun hall => hall.2.2⟩

/-- A score above the threshold takes enough values. -/
theorem lt_of_detectZscore {values : List ℝ} {threshold : ℝ} (h : 0 ≤ threshold)
    (hd : detectZscore values threshold = true) :
    threshold ^ 2 * values.length < ((values.length : ℝ) - 1) ^ 2 := by
  obtain ⟨hlen, hpos, hlt⟩ := (detectZscore_iff h).1 hd
  obtain ⟨xs, x, rfl⟩ : ∃ xs x, values = xs ++ [x] :=
    ⟨_, _, (List.dropLast_append_getLast (List.ne_nil_of_length_pos (by omega))).symm⟩
  rw [List.getLastD_concat] at hlt
  have hxs : xs ≠ [] := by
    rintro rfl
    simp at hlen
  have hn : (0 : ℝ) < (xs ++ [x]).length := Nat.cast_pos.2 (by omega)
  have hbound := sq_sub_mean_le xs x hxs
  have hscaled := mul_lt_mul_of_pos_right hlt hn
  refine lt_of_mul_lt_mul_right ?_ hpos.le
  linarith

/-- An outlier scores as much as a value can. -/
theorem detectZscore_outlier {k : ℕ} {threshold : ℝ} (hk : 0 < k) (h : 0 ≤ threshold)
    (hlt : threshold ^ 2 * (k + 1) < k ^ 2) : detectZscore (outlier k) threshold = true := by
  have hpos : (0 : ℝ) < k + 1 := by positivity
  rw [detectZscore_iff h, outlier_length, variance_outlier hk, mean_outlier, outlier, List.getLastD_concat]
  refine ⟨by omega, by positivity, ?_⟩
  have hdev : (1 - 1 / ((k : ℝ) + 1)) ^ 2 = k ^ 2 / (k + 1) ^ 2 := by
    field_simp
    ring
  rw [hdev, lt_div_iff₀ (by positivity)]
  field_simp
  linarith

/-- Ten values, or fewer, never do at the default threshold. -/
theorem detectZscore_of_length_le {values : List ℝ} (h : values.length ≤ 10) : detectZscore values = false := by
  rw [← Bool.not_eq_true]
  intro hd
  have hlen := ((detectZscore_iff (by norm_num)).1 hd).1
  have hlt := lt_of_detectZscore (by norm_num) hd
  have hlo : (2 : ℝ) ≤ values.length := by exact_mod_cast hlen
  have hhi : (values.length : ℝ) ≤ 10 := by exact_mod_cast h
  nlinarith

/-! ## The detector -/

/-- The window is a `deque(maxlen=window_size)`. -/
structure StatisticalAnomalyDetector where
  windowSize : ℕ
  window : List ℝ
  maxlen : window.length ≤ windowSize

namespace StatisticalAnomalyDetector

/-- `StatisticalAnomalyDetector(window_size)`. -/
def new (windowSize : ℤ) : Except Exc StatisticalAnomalyDetector :=
  if windowSize < 0 then .error (valueError "maxlen must be non-negative")
  else .ok ⟨windowSize.toNat, [], Nat.zero_le _⟩

/-- `deque.append`: what is too much goes on the left. -/
def append (d : StatisticalAnomalyDetector) (value : ℝ) : StatisticalAnomalyDetector where
  windowSize := d.windowSize
  window := (d.window ++ [value]).rtake d.windowSize
  maxlen := by
    rw [List.rtake, List.length_drop]
    omega

/-- `add_value`. -/
noncomputable def addValue (d : StatisticalAnomalyDetector) (value : ℝ) : StatisticalAnomalyDetector × Bool :=
  (d.append value, detectZscore (d.append value).window)

theorem new_ok {w : ℤ} {d : StatisticalAnomalyDetector} (h : new w = .ok d) :
    (d.windowSize : ℤ) = w ∧ d.window = [] := by
  unfold new at h
  split at h <;> cases h
  exact ⟨Int.toNat_of_nonneg (by omega), rfl⟩

/-- The window holds the latest values. -/
theorem window_exec {w : ℤ} {d : StatisticalAnomalyDetector} (h : new w = .ok d) (values : List ℝ) :
    (exec addValue d values).windowSize = d.windowSize ∧
      (exec addValue d values).window = values.rtake d.windowSize := by
  induction values using List.reverseRecOn with
  | nil => exact ⟨rfl, by rw [List.rtake_nil]; exact (new_ok h).2⟩
  | append_singleton values x ih =>
    rw [exec_append]
    refine ⟨ih.1, ?_⟩
    show ((exec addValue d values).window ++ [x]).rtake (exec addValue d values).windowSize = _
    rw [ih.1, ih.2, rtake_append_rtake]

/-- The answer to the value at a position. -/
theorem outs_addValue {w : ℤ} {d : StatisticalAnomalyDetector} (h : new w = .ok d) (values : List ℝ) (i : ℕ) :
    (outs addValue d values)[i]? =
      values[i]?.map fun _ => detectZscore ((values.take (i + 1)).rtake d.windowSize) := by
  cases hv : values[i]? with
  | none =>
    rw [List.getElem?_eq_none_iff] at hv
    exact List.getElem?_eq_none (by rwa [outs_length])
  | some x =>
    have htake : values.take (i + 1) = values.take i ++ [x] := by rw [List.take_add_one, hv]; rfl
    rw [outs_getElem? d hv, ← (window_exec h _).2, htake, exec_append]
    rfl

/-- A detector does not fire while its window is small, nor on its first ten values. -/
theorem fired_eq_false {w : ℤ} {d : StatisticalAnomalyDetector} (h : new w = .ok d) {values : List ℝ} {i : ℕ}
    {fired : Bool} (hf : (outs addValue d values)[i]? = some fired) (hsmall : w ≤ 10 ∨ i < 10) : fired = false := by
  rw [outs_addValue h] at hf
  obtain ⟨x, -, rfl⟩ := Option.map_eq_some_iff.1 hf
  have hsize := (new_ok h).1
  refine detectZscore_of_length_le ?_
  rw [List.rtake, List.length_drop, List.length_take]
  omega

/-- A window of eleven is enough for ten zeros and a one. -/
theorem exists_fires {w : ℤ} (h : 11 ≤ w) : ∃ d values, new w = .ok d ∧ true ∈ outs addValue d values := by
  have hnew : new w = .ok ⟨w.toNat, [], Nat.zero_le _⟩ := if_neg (by omega)
  refine ⟨_, outlier 10, hnew, List.mem_of_getElem? (i := 10) ?_⟩
  have hall : ((outlier 10 : List ℝ).take (10 + 1)).rtake w.toNat = outlier 10 := by
    rw [List.take_of_length_le (by rw [outlier_length]), List.rtake, outlier_length,
      Nat.sub_eq_zero_of_le (by omega), List.drop_zero]
  rw [outs_addValue hnew, hall, detectZscore_outlier (by norm_num) (by norm_num) (by norm_num)]
  rfl

end StatisticalAnomalyDetector

open StatisticalAnomalyDetector in
/-- **What it takes to fire.** Some `n` values score above a threshold exactly
when `(n - 1) ^ 2` is above its square times `n`. So a detector fires on some
values exactly when its window holds eleven, and on none of the first ten. -/
theorem zscore_fires_iff :
    (∀ (n : ℕ) (threshold : ℝ), 2 ≤ n → 0 ≤ threshold →
      ((∃ values : List ℝ, values.length = n ∧ detectZscore values threshold = true) ↔
        threshold ^ 2 * n < ((n : ℝ) - 1) ^ 2)) ∧
    ∀ windowSize : ℤ,
      ((∃ d values, new windowSize = .ok d ∧ true ∈ outs addValue d values) ↔ 11 ≤ windowSize) ∧
      ∀ d values i fired, new windowSize = .ok d → i < 10 → (outs addValue d values)[i]? = some fired →
        fired = false := by
  refine ⟨fun n threshold hn h => ⟨?_, fun hlt => ?_⟩, fun w => ⟨⟨?_, exists_fires⟩, ?_⟩⟩
  · rintro ⟨values, rfl, hd⟩
    exact lt_of_detectZscore h hd
  · obtain ⟨k, rfl⟩ : ∃ k, n = k + 1 := ⟨n - 1, by omega⟩
    rw [Nat.cast_add_one, add_sub_cancel_right] at hlt
    exact ⟨outlier k, outlier_length k, detectZscore_outlier (by omega) h hlt⟩
  · rintro ⟨d, values, hd, hmem⟩
    obtain ⟨i, hi⟩ := List.mem_iff_getElem?.1 hmem
    by_contra hw
    have hfalse := fired_eq_false hd hi (.inl (by omega))
    cases hfalse
  · intro d values i fired hd hi hf
    exact fired_eq_false hd hf (.inr hi)

theorem zscore_fires_iff_eleven :
    (∃ values : List ℝ, values.length = 11 ∧ detectZscore values 3 = true) ∧
      ∃ d values, StatisticalAnomalyDetector.new 11 = .ok d ∧
        true ∈ outs StatisticalAnomalyDetector.addValue d values :=
  ⟨(zscore_fires_iff.1 11 3 (by norm_num) (by norm_num)).2 (by norm_num), (zscore_fires_iff.2 11).1.2 le_rfl⟩

end SentinelFlow
