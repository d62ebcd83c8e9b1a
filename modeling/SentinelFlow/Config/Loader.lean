/-
`load_config` (`src/config/parser.py`): from the text of a file to a
validated configuration or an exception.

PyYAML and pydantic stand behind `Libraries`; neither reading the file nor
YAML raises a `ValidationError`. Its docstring promises a `ConfigError` for
every file. The loaded value is unpacked into keyword arguments before
pydantic sees it, and that takes a mapping with texts for keys: on any other
value that is not falsy it raises a `TypeError`, which no clause is for.
-/
import SentinelFlow.Config.Schema

namespace SentinelFlow

/-! ## Loading -/

/-- What `load_config` takes from PyYAML and pydantic. -/
structure Libraries extends Pydantic where
  /-- `yaml.safe_load`. -/
  safeLoad : String → Except Exc YamlVal
  /-- `e.json(indent=2)` of the `ValidationError` for this data, or the text
  of the `PydanticSerializationError` it raises. -/
  errorJson : YamlVal → Except String String

/-- `PydanticSerializationError(text)`. -/
def serializationError (text : String) : Exc :=
  plainExc "<class 'pydantic_core._pydantic_core.PydanticSerializationError'>" [.valueError] text

section Load

variable (w : Libraries) (reg : Registry)

/-- The clauses for `FileNotFoundError` and `YAMLError`. -/
def exceptRead (filePath : String) (e : Exc) : Exc :=
  if e.isInstance .fileNotFoundError then configError s!"Configuration file not found at '{filePath}'"
  else if e.isInstance .yamlError then
    e.quoted fun text => configError s!"Failed to parse YAML syntax in '{filePath}': {text}"
  else e

/-- The clause for `ValidationError`. -/
def exceptValidation (raw : YamlVal) : Exc :=
  match w.errorJson raw with
  | .ok json => configError s!"Configuration schema validation failed:\n{json}"
  | .error text => serializationError text

/-- The clauses for what keeps the schema from accepting the data. -/
def exceptRefusal (filePath : String) (raw : YamlVal) : Exc :=
  match AppConfig.uncaught w.toPydantic reg raw with
  | some e => exceptRead filePath e
  | none => exceptValidation w raw

/-- `AppConfig(**raw_data)`, in the `try` of `load_config`. -/
def construct (filePath : String) (raw : YamlVal) : Except Exc AppConfig :=
  match raw with
  | .dict kvs =>
    if kvs.all fun kv => kv.1.text?.isSome then
      match AppConfig.validate w.toPydantic reg raw with
      | some config => .ok config
      | none => .error (exceptRefusal w reg filePath raw)
    else .error (typeError "keywords must be strings")
  | v => .error (typeError s!"src.config.parser.AppConfig() argument after ** must be a mapping, not {v.typeName}")

/-- `load_config`, given what opening and reading the file comes to. -/
def loadConfig (filePath : String) (file : Except Exc String) : Except Exc AppConfig :=
  match file.bind w.safeLoad with
  | .error e => .error (exceptRead filePath e)
  | .ok raw =>
    if raw.truthy then construct w reg filePath raw
    else .error (configError s!"Configuration file '{filePath}' is empty.")

end Load

/-! ## What loading comes to -/

/-- A configuration, or a `ConfigError`. -/
def LoadContained : Except Exc AppConfig → Prop
  | .ok _ => True
  | .error e => e.isInstance .configError = true

/-- A mapping with texts for keys. -/
def YamlVal.isKeywords : YamlVal → Bool
  | .dict kvs => kvs.all fun kv => kv.1.text?.isSome
  | _ => false

/-- What is raised in the `try`, by PyYAML or a class of the registry, is
turned into a `ConfigError`: a YAML error has to be printed for that. -/
def IsReported (e : Exc) : Prop :=
  e.isInstance .fileNotFoundError = true ∨
    if e.isInstance .yamlError then ∀ e', e.str = .error e' → e'.isInstance .configError = true
    else e.isInstance .configError = true

/-- What keeps the schema from accepting the data is turned into a
`ConfigError`: errors of the data have to be printed for that. -/
def IsRefusal (w : Libraries) (reg : Registry) (raw : YamlVal) : Prop :=
  match AppConfig.uncaught w.toPydantic reg raw with
  | some e => IsReported e
  | none => ∃ json, w.errorJson raw = .ok json

/-- The texts `load_config` is meant for: YAML refuses them, with an error
that can be printed, or they hold nothing, or a mapping with texts for keys
that the schema accepts, or refuses with errors that can be printed. -/
def Loadable (w : Libraries) (reg : Registry) (text : String) : Prop :=
  match w.safeLoad text with
  | .error e => IsReported e
  | .ok raw => raw.truthy = false ∨ raw.isKeywords = true ∧
      (AppConfig.validate w.toPydantic reg raw = none → IsRefusal w reg raw)

section Contained

variable {w : Libraries} {reg : Registry}

theorem exceptRead_contained {filePath : String} {e : Exc} :
    (exceptRead filePath e).isInstance .configError = true ↔ IsReported e := by
  unfold exceptRead IsReported
  split
  next h => exact iff_of_true rfl (.inl h)
  next h =>
    simp only [h, Bool.false_eq_true, false_or]
    split
    next hy =>
      unfold Exc.quoted
      cases e.str with
      | ok text => exact iff_of_true rfl fun e' he => by cases he
      | error e' => simp
    next => exact Iff.rfl

theorem exceptValidation_contained {raw : YamlVal} :
    (exceptValidation w raw).isInstance .configError = true ↔ ∃ json, w.errorJson raw = .ok json := by
  unfold exceptValidation
  cases w.errorJson raw with
  | ok json => exact iff_of_true rfl ⟨json, rfl⟩
  | error text => simp [serializationError, Exc.isInstance]

theorem refusal_contained {filePath : String} {raw : YamlVal} :
    (exceptRefusal w reg filePath raw).isInstance .configError = true ↔ IsRefusal w reg raw := by
  unfold exceptRefusal IsRefusal
  cases AppConfig.uncaught w.toPydantic reg raw with
  | some e => exact exceptRead_contained
  | none => exact exceptValidation_contained

theorem construct_contained {filePath : String} {raw : YamlVal} :
    LoadContained (construct w reg filePath raw) ↔ raw.isKeywords = true ∧
    (AppConfig.validate w.toPydantic reg raw = none → IsRefusal w reg raw) := by
  cases raw with
  | dict kvs =>
    simp only [construct, YamlVal.isKeywords]
    by_cases hkeys : (kvs.all fun kv => kv.1.text?.isSome) = true
    · rw [if_pos hkeys, and_iff_right hkeys]
      cases hv : AppConfig.validate w.toPydantic reg (.dict kvs) with
      | some config => exact iff_of_true trivial fun h => by cases h
      | none => exact refusal_contained.trans ⟨fun h _ => h, fun h => h rfl⟩
    · rw [if_neg hkeys]
      exact iff_of_false (by simp [LoadContained, typeError, Exc.isInstance]) fun h => hkeys h.1
  | none | bool | int | float | str | list | enclosing | other =>
    exact iff_of_false (by simp [construct, LoadContained, typeError, Exc.isInstance]) fun h => by cases h.1

/-- What the schema accepts can be unpacked, and is not empty. -/
theorem AppConfig.isKeywords_of_validate {p : Pydantic} {raw : YamlVal} {config : AppConfig}
    (h : AppConfig.validate p reg raw = some config) : raw.truthy = true ∧ raw.isKeywords = true := by
  obtain ⟨kvs, rfl, hkeys, hchecks⟩ := AppConfig.validate_checks h
  constructor
  · cases kvs with
    | nil => cases hchecks
    | cons => rfl
  · simp only [List.all_eq_true, YamlVal.isKeywords] at hkeys ⊢
    intro kv hkv
    obtain ⟨s, hs, -⟩ := (Option.any_eq_true _ _).1 (hkeys kv hkv)
    rw [hs]
    rfl

/-- What is returned is what the schema makes of the loaded value. -/
theorem loadConfig_ok_iff {filePath text : String} {config : AppConfig} :
    loadConfig w reg filePath (.ok text) = .ok config ↔
      ∃ raw, w.safeLoad text = .ok raw ∧ AppConfig.validate w.toPydantic reg raw = some config := by
  have hbind : (Except.ok text : Except Exc String).bind w.safeLoad = w.safeLoad text := rfl
  unfold loadConfig
  rw [hbind]
  cases w.safeLoad text with
  | error e => simp
  | ok raw =>
    simp only [Except.ok.injEq, exists_eq_left']
    constructor
    · intro h
      split at h
      · cases raw with
        | dict kvs =>
          simp only [construct] at h
          split at h
          · cases hv : AppConfig.validate w.toPydantic reg (.dict kvs) with
            | some c =>
              rw [hv] at h
              exact congrArg some (Except.ok.inj h)
            | none =>
              rw [hv] at h
              cases h
          · cases h
        | none | bool | int | float | str | list | enclosing | other => cases h
      · cases h
    · intro hv
      obtain ⟨htruthy, hkeys⟩ := AppConfig.isKeywords_of_validate hv
      obtain ⟨kvs, rfl, -, -⟩ := AppConfig.validate_checks hv
      have hall : (kvs.all fun kv => kv.1.text?.isSome) = true := hkeys
      simp only [htruthy, if_true, construct, hall, hv]

/-- **What a file comes to.** Loading a readable text comes to a validated
configuration or a `ConfigError`, if and only if the text is one of those it
is meant for. -/
theorem load_contained_iff (w : Libraries) (reg : Registry) (filePath text : String) :
    LoadContained (loadConfig w reg filePath (.ok text)) ↔ Loadable w reg text := by
  have hbind : (Except.ok text : Except Exc String).bind w.safeLoad = w.safeLoad text := rfl
  unfold loadConfig Loadable
  rw [hbind]
  cases w.safeLoad text with
  | error e => exact exceptRead_contained
  | ok raw =>
    dsimp only
    by_cases ht : raw.truthy = true
    · rw [if_pos ht, construct_contained]
      simp [ht]
    · rw [if_neg ht]
      exact iff_of_true rfl (.inl (by simpa using ht))

end Contained

/-! ## Examples -/

/-- Conversions that change nothing but an integer into a float. -/
def exactPydantic : Pydantic where
  toBool | .bool b => some b | _ => none
  toInt | .int n => some n | _ => none
  toFloat | .float x => some x | .int n => some (.finite n) | _ => none
  toStr := YamlVal.text?
  toUrl | .str "https://api.example/stats" => some ⟨.https, "api.example/stats"⟩ | _ => none
  toList | .list xs => some xs | _ => none
  toThreshold | .float x => some (.float x) | .int n => some (.int n) | _ => none

/-- Libraries for one text, and the value it holds. -/
def librariesFor (text : String) (raw : YamlVal) : Libraries where
  toPydantic := exactPydantic
  safeLoad s := if s = text then .ok raw else .error (plainExc "<class 'yaml.scanner.ScannerError'>" [.yamlError] "")
  errorJson _ := .ok "[]"

theorem librariesFor_safeLoad (text : String) (raw : YamlVal) : (librariesFor text raw).safeLoad text = .ok raw :=
  if_pos rfl

/-- A file whose checks are not under a key. -/
theorem not_contained_sequence :
    loadConfig (librariesFor "- metric_id: a\n" (.list [.dict [(.str "metric_id", .str "a")]])) .builtin "config.yaml"
        (.ok "- metric_id: a\n") =
      .error (typeError "src.config.parser.AppConfig() argument after ** must be a mapping, not list") ∧
    ¬LoadContained (.error (typeError "src.config.parser.AppConfig() argument after ** must be a mapping, not list")) :=
  ⟨rfl, by simp [LoadContained, typeError, Exc.isInstance]⟩

end SentinelFlow
