/-
Positions in a JSON document and the paths `HttpApiIngestor._extract_value`
takes: a position is the keys and indices that lead to a value, its path is
their texts with dots between. Read back, the path gives the value, and
nothing is raised on any path.
-/
import SentinelFlow.Data.HttpApi

namespace SentinelFlow

/-! ## Printed numbers are read back -/

theorem strip_eq_self {cs : List Char} (h : ∀ c ∈ cs, isNumeralSpace c = false) : strip cs = cs := by
  have keep : ∀ ds : List Char, (∀ c ∈ ds, isNumeralSpace c = false) → ds.dropWhile isNumeralSpace = ds := by
    intro ds hds
    cases ds with
    | nil => rfl
    | cons d ds => rw [List.dropWhile_cons_of_neg (by simp [hds d])]
  rw [strip, keep cs h, keep _ (by simpa using h), List.reverse_reverse]

theorem isDigit_toNat {c : Char} (h : c.isDigit = true) : 48 ≤ c.toNat ∧ c.toNat ≤ 57 := Char.isDigit_iff_toNat.1 h

/-- The first of the zeros is that of ASCII. -/
theorem digitValue_of_isDigit {c : Char} (h : c.isDigit = true) : digitValue c = some (c.toNat - '0'.toNat) := by
  have hdigit := isDigit_toNat h
  have hzero : decide (0x30 ≤ c.toNat ∧ c.toNat < 0x30 + 10) = true := decide_eq_true (by omega)
  have hlist : decimalZeros = 0x30 :: decimalZeros.tail := rfl
  rw [digitValue, hlist, List.find?_cons, hzero]
  rfl

/-- Digits alone are all read. -/
theorem scanDigits_digits {cs : List Char} (h : ∀ c ∈ cs, c.isDigit = true) (acc n : ℕ) :
    scanDigits acc n cs = (Nat.ofDigitChars 10 cs acc, n + cs.length, []) := by
  induction cs generalizing acc n with
  | nil => rfl
  | cons c cs ih =>
    rw [scanDigits.eq_def]
    simp only [digitValue_of_isDigit (h c (by simp))]
    rw [ih fun d hd => h d (by simp [hd]), Nat.ofDigitChars_cons, Nat.mul_comm acc 10, List.length_cons,
      Nat.add_assoc, Nat.add_comm 1]

theorem not_isNumeralSpace_of_isDigit {c : Char} (h : c.isDigit = true) : isNumeralSpace c = false := by
  have hdigit := isDigit_toNat h
  have hspace : isSpace c = false := by
    refine decide_eq_false ?_
    simp only [List.mem_cons, List.not_mem_nil, or_false]
    omega
  rw [isNumeralSpace, hspace, Bool.false_and]

theorem scanSign_digits {cs : List Char} (h : ∀ c ∈ cs, c.isDigit = true) : scanSign cs = (false, cs) := by
  unfold scanSign
  split
  · exact absurd (h '-' (by simp)) (by decide)
  · exact absurd (h '+' (by simp)) (by decide)
  · rfl

/-- `int(str(n)) == n`. -/
theorem parseInt_toString (n : ℕ) : parseInt (toString n) = some (n : ℤ) := by
  have digits : ∀ c ∈ Nat.toDigits 10 n, c.isDigit = true := fun c hc =>
    Nat.isDigit_of_mem_toDigits (by decide) (by decide) hc
  have read : scanDigits 0 0 (Nat.toDigits 10 n) = (n, (Nat.toDigits 10 n).length, []) := by
    rw [scanDigits_digits digits, Nat.ofDigitChars_ten_toDigits, Nat.zero_add]
  unfold parseInt
  rw [Nat.toString_eq_repr, Nat.toList_repr,
    strip_eq_self fun c hc => not_isNumeralSpace_of_isDigit (digits c hc), scanSign_digits digits]
  simp [read]

namespace HttpApiIngestor

/-! ## Positions -/

/-- One step into a document: `doc[k]` of an object, `doc[i]` of an array. -/
inductive Step
  | key (k : String)
  | index (i : ℕ)
  deriving DecidableEq, Repr

/-- The value at a position. -/
def locate (doc : PyVal) : List Step → Option PyVal
  | [] => some doc
  | .key k :: steps => match doc with
    | .dict kvs => (PyDict.get kvs k).bind fun v => locate v steps
    | _ => none
  | .index i :: steps => match doc with
    | .list xs => xs[i]?.bind fun v => locate v steps
    | _ => none

def Step.text : Step → String
  | .key k => k
  | .index i => toString i

/-- The steps joined by dots. -/
def pathOf (steps : List Step) : String := ".".intercalate (steps.map Step.text)

theorem dot_notMem_text {step : Step} (h : ∀ k, step = .key k → '.' ∉ k.toList) :
    '.' ∉ step.text.toList := by
  cases step with
  | key k => exact h k rfl
  | index i =>
    intro hdot
    rw [Step.text, Nat.toString_eq_repr, Nat.toList_repr] at hdot
    exact absurd (Nat.isDigit_of_mem_toDigits (by decide) (by decide) hdot) (by decide)

/-- Splitting at the dots inverts joining with them. -/
theorem pathKeys_intercalate {keys : List String} (hne : keys ≠ []) (h : ∀ key ∈ keys, '.' ∉ key.toList) :
    pathKeys (".".intercalate keys) = keys := by
  have hsplit : (['.'].intercalate (keys.map String.toList)).splitOn '.' = keys.map String.toList :=
    List.splitOn_intercalate '.' (by simpa using h) (by simpa using hne)
  have hsep : ".".toList = ['.'] := rfl
  rw [pathKeys, String.toList_intercalate, hsep, hsplit, List.map_map]
  simp [Function.comp_def]

theorem item_natCast (xs : List PyVal) (i : ℕ) : item xs (i : ℤ) = xs[i]? := by
  simp [item]

/-- The loop follows the steps. -/
theorem foldlM_extractKey_texts (steps : List Step) (doc : PyVal) {v : PyVal} (h : locate doc steps = some v) :
    (steps.map Step.text).foldlM extractKey doc = some v := by
  induction steps generalizing doc with
  | nil => exact h
  | cons step steps ih =>
    rw [List.map_cons, List.foldlM_cons]
    cases step with
    | key k =>
      cases doc with
      | dict kvs =>
        obtain ⟨next, hnext, hrest⟩ := Option.bind_eq_some_iff.mp h
        have hkey : extractKey (.dict kvs) k = some next := by simp [extractKey, hnext]
        rw [Step.text, hkey]
        exact ih next hrest
      | _ => cases h
    | index i =>
      cases doc with
      | list xs =>
        obtain ⟨next, hnext, hrest⟩ := Option.bind_eq_some_iff.mp h
        have hkey : extractKey (.list xs) (toString i) = some next := by
          rw [extractKey, parseInt_toString, Option.bind_some, item_natCast, hnext]
        rw [Step.text, hkey]
        exact ih next hrest
      | _ => cases h

/-! ## The loop with its exceptions -/

/-- `current[idx]`. -/
def getItem (xs : List PyVal) (idx : ℤ) : Except Exc PyVal :=
  match item xs idx with
  | some v => .ok v
  | none => .error (indexError "list index out of range")

/-- `idx = int(key)`, then `current[idx]`. -/
def itemAt (xs : List PyVal) (key : String) : Except Exc PyVal :=
  (PyVal.str key).toInt.bind (getItem xs)

/-- One turn of the loop, with `except (ValueError, IndexError)` around a
list's item; `none` is `return None`. -/
def turn (current : PyVal) (key : String) : Except Exc (Option PyVal) :=
  match current with
  | .dict kvs => .ok (some ((PyDict.get kvs key).getD .none))
  | .list xs => match itemAt xs key with
    | .ok v => .ok (some v)
    | .error e => if e.isInstance .valueError || e.isInstance .indexError then .ok none else .error e
  | _ => .ok none

def turns (current : PyVal) : List String → Except Exc (Option PyVal)
  | [] => .ok (some current)
  | key :: keys => do
    match ← turn current key with
    | some v => turns v keys
    | none => .ok none

/-- `_extract_value`, with `except (.., Exception)` around its loop. -/
def extractValueRaising (jsonData : PyVal) (path : String) : Except Exc PyVal :=
  if path.isEmpty then .ok .none
  else match turns jsonData (pathKeys path) with
    | .ok v => .ok (v.getD .none)
    | .error _ => .ok .none

/-- A list's item, or one of the exceptions that mean there is none. -/
theorem itemAt_cases (xs : List PyVal) (key : String) :
    (∃ v, itemAt xs key = .ok v ∧ (parseInt key).bind (item xs) = some v) ∨
      ∃ e, itemAt xs key = .error e ∧ (e.isInstance .valueError || e.isInstance .indexError) = true ∧
        (parseInt key).bind (item xs) = none := by
  rw [itemAt, PyVal.toInt]
  cases parseInt key with
  | none => exact .inr ⟨_, rfl, rfl, rfl⟩
  | some idx =>
    simp only [Option.bind_some, Except.bind, getItem]
    cases item xs idx with
    | none => exact .inr ⟨_, rfl, rfl, rfl⟩
    | some v => exact .inl ⟨v, rfl, rfl⟩

theorem turn_eq (current : PyVal) (key : String) : turn current key = .ok (extractKey current key) := by
  cases current with
  | list xs =>
    rw [turn, extractKey]
    obtain ⟨v, hv, hitem⟩ | ⟨e, he, hcaught, hitem⟩ := itemAt_cases xs key
    · rw [hv, hitem]
    · rw [he, hitem]
      exact if_pos hcaught
  | _ => rfl

/-- The outer `except` has nothing to catch. -/
theorem turns_eq (current : PyVal) (keys : List String) :
    turns current keys = .ok (keys.foldlM extractKey current) := by
  induction keys generalizing current with
  | nil => rfl
  | cons key keys ih =>
    rw [turns, turn_eq, List.foldlM_cons]
    cases extractKey current key with
    | none => rfl
    | some v => exact ih v

/-- The value at a position is what its path extracts, and no path raises. -/
theorem extractValue_pathOf :
    (∀ (doc v : PyVal) (steps : List Step), (∀ k, Step.key k ∈ steps → '.' ∉ k.toList) →
      locate doc steps = some v → pathOf steps ≠ "" → extractValue doc (pathOf steps) = v) ∧
    ∀ (doc : PyVal) (path : String), extractValueRaising doc path = .ok (extractValue doc path) := by
  constructor
  · intro doc v steps hdots hv hne
    have hsteps : steps ≠ [] := by
      rintro rfl
      exact hne rfl
    have hkeys : pathKeys (pathOf steps) = steps.map Step.text := by
      refine pathKeys_intercalate (by simpa using hsteps) ?_
      intro key hkey
      obtain ⟨step, hstep, rfl⟩ := List.mem_map.mp hkey
      exact dot_notMem_text fun k hk => hdots k (hk ▸ hstep)
    have hempty : (pathOf steps).isEmpty = false := by
      simpa [← Bool.not_eq_true] using hne
    rw [extractValue, hempty, hkeys, foldlM_extractKey_texts steps doc hv]
    rfl
  · intro doc path
    rw [extractValueRaising, extractValue, turns_eq]
    split <;> rfl

/-- An empty key first, then an index and a key that looks like one. -/
theorem extractValue_pathOf_emptyKey :
    extractValue (.dict [("", .list [.dict [("0", .bool true)]])]) ".0.0" = .bool true ∧
      extractValueRaising (.list [.none]) "0.a" = .ok .none :=
  ⟨extractValue_pathOf.1 _ _ [.key "", .index 0, .key "0"] (by simp) rfl (by decide),
    extractValue_pathOf.2 _ _⟩

end HttpApiIngestor

end SentinelFlow
