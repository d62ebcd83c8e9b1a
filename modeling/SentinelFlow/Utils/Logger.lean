/-
`StructuredJSONFormatter` (`src/utils/logger.py`): the record's own fields,
the extra attributes merged into the same dictionary, and what `json.dumps`
makes of it.

A text of JSON is known by the value it denotes, `NaN` and the infinities
being numbers as `json` writes and reads them. A self-referential value is
unfolded up to where it meets a container it is inside of. `json.dumps`
refuses such a value and values of unknown types, nothing else. Records are
those of Python 3.12, where each has a `taskName`, and no other formatter
has added its `message` to them.
-/
import SentinelFlow.Lib.Ordered
import SentinelFlow.Py

namespace SentinelFlow.StructuredJSONFormatter

/-! ## `json.dumps` -/

/-- A numeral, or one of `NaN`, `Infinity` and `-Infinity`, told by its first character. -/
def numeral (s : String) : Bool := s.toList.head?.any fun c => c.isDigit || c ∈ ['-', 'N', 'I']

/-- A float, by the text JSON has for it. -/
structure FloatText where
  text : String
  isNumeral : numeral text = true
  deriving DecidableEq

/-- The key of a dictionary; `other` ones are of a type JSON has no keys of. -/
inductive Key
  | str (s : String)
  | none
  | bool (b : Bool)
  | int (n : ℤ)
  | float (x : FloatText)
  | other (typeName content : String)
  deriving DecidableEq

/-- A value that is logged. In a list or a dictionary, `none` stands where it
refers back to a container it is inside of; `other` ones are of a type
`json` does not know. -/
inductive LogVal
  | none
  | bool (b : Bool)
  | int (n : ℤ)
  | float (x : FloatText)
  | str (s : String)
  | list (xs : List (Option LogVal))
  | dict (kvs : List (Key × Option LogVal))
  | other (typeName content : String)

/-- What a text of JSON denotes. -/
inductive Json
  | null
  | bool (b : Bool)
  | number (text : String)
  | str (s : String)
  | array (xs : List Json)
  | object (fields : List (String × Json))

def circularReference : Exc := valueError "Circular reference detected"

/-- A key as a member name. -/
def keyText : Key → Except Exc String
  | .str s => .ok s
  | .none => .ok "null"
  | .bool b => .ok (if b then "true" else "false")
  | .int n => .ok (toString n)
  | .float x => .ok x.text
  | .other typeName _ => .error (typeError s!"keys must be str, int, float, bool or None, not {typeName}")

mutual

def dumps : LogVal → Except Exc Json
  | .none => .ok .null
  | .bool b => .ok (.bool b)
  | .int n => .ok (.number (toString n))
  | .float x => .ok (.number x.text)
  | .str s => .ok (.str s)
  | .list xs => (dumpsItems xs).map .array
  | .dict kvs => (dumpsMembers kvs).map .object
  | .other typeName _ => .error (typeError s!"Object of type {typeName} is not JSON serializable")

def dumpsItem : Option LogVal → Except Exc Json
  | some v => dumps v
  | none => .error circularReference

def dumpsItems : List (Option LogVal) → Except Exc (List Json)
  | [] => .ok []
  | x :: xs => do
    let j ← dumpsItem x
    let js ← dumpsItems xs
    return j :: js

def dumpsMembers : List (Key × Option LogVal) → Except Exc (List (String × Json))
  | [] => .ok []
  | (key, x) :: kvs => do
    let name ← keyText key
    let j ← dumpsItem x
    let fields ← dumpsMembers kvs
    return (name, j) :: fields

end

/-- `json.dumps` raises a `TypeError`. -/
def Unserialisable (v : LogVal) : Prop := ∃ e, dumps v = .error e ∧ e.isInstance .typeError = true

/-! ### What it raises -/

/-- Whatever `x` raises is a `TypeError` or tells of a circular reference. -/
def Refuses {α} (x : Except Exc α) : Prop :=
  ∀ e, x = .error e → e.isInstance .typeError = true ∨ e = circularReference

theorem Refuses.ok {α} (a : α) : Refuses (.ok a) := nofun

theorem Refuses.typeError {α} (text : String) : Refuses (.error (typeError text) : Except Exc α) := by
  rintro _ ⟨⟩
  exact .inl rfl

theorem Refuses.map {α β} {x : Except Exc α} (hx : Refuses x) (f : α → β) : Refuses (x.map f) := by
  cases x with
  | ok a => exact .ok _
  | error e => exact fun e' he => hx e' (by cases he; rfl)

theorem Refuses.bind {α β} {x : Except Exc α} {f : α → Except Exc β} (hx : Refuses x) (hf : ∀ a, Refuses (f a)) :
    Refuses (x >>= f) := by
  cases x with
  | ok a => exact hf a
  | error e => exact fun e' he => hx e' (by cases he; rfl)

theorem keyText_refuses (key : Key) : Refuses (keyText key) := by
  cases key with
  | other typeName => exact .typeError _
  | _ => exact .ok _

mutual

theorem dumps_refuses : ∀ v, Refuses (dumps v)
  | .none | .bool _ | .int _ | .float _ | .str _ => .ok _
  | .list xs => (dumpsItems_refuses xs).map _
  | .dict kvs => (dumpsMembers_refuses kvs).map _
  | .other _ _ => .typeError _

theorem dumpsItem_refuses : ∀ x, Refuses (dumpsItem x)
  | some v => dumps_refuses v
  | none => fun e he => .inr (by cases he; rfl)

theorem dumpsItems_refuses : ∀ xs, Refuses (dumpsItems xs)
  | [] => .ok _
  | x :: xs => (dumpsItem_refuses x).bind fun _ => (dumpsItems_refuses xs).bind fun _ => .ok _

theorem dumpsMembers_refuses : ∀ kvs, Refuses (dumpsMembers kvs)
  | [] => .ok _
  | (key, x) :: kvs => (keyText_refuses key).bind fun _ => (dumpsItem_refuses x).bind fun _ =>
    (dumpsMembers_refuses kvs).bind fun _ => .ok _

end

/-- Only a string is written as a string. -/
theorem dumps_str_iff {v : LogVal} {s : String} : dumps v = .ok (.str s) ↔ v = .str s := by
  constructor
  · intro h
    cases v with
    | str s' =>
      cases h
      rfl
    | list xs =>
      rw [dumps] at h
      cases hx : dumpsItems xs <;> rw [hx] at h <;> cases h
    | dict kvs =>
      rw [dumps] at h
      cases hx : dumpsMembers kvs <;> rw [hx] at h <;> cases h
    | _ => cases h
  · rintro rfl
    rfl

/-! ## Records -/

/-- `RESERVED_ATTRS`. -/
def reservedAttrs : List String :=
  ["name", "msg", "args", "levelname", "levelno",
    "pathname", "filename", "module", "exc_info",
    "exc_text", "stack_info", "lineno", "funcName",
    "created", "msecs", "relativeCreated",
    "thread", "threadName", "processName", "process"]

/-- What `extra` must not name: `logging` refuses to overwrite these. -/
def ownAttrs : List String := reservedAttrs ++ ["taskName", "message", "asctime"]

/-- A log record: what its reserved attributes hold (`attr`), of which the
formatter reads three, what `getMessage()` and, with an `exc_info`,
`formatException(exc_info)` come to, and the extra attributes. -/
structure LogRecord where
  name : String
  levelname : String
  created : PyFloat
  attr : String → LogVal
  getMessage : Except Exc String
  excInfo : Option (Except Exc String)
  taskName : Option String
  extra : List (Key × LogVal)
  distinct : (extra.map Prod.fst).Nodup
  fresh : ∀ name ∈ ownAttrs, .str name ∉ extra.map Prod.fst

/-- The attributes that are not reserved. -/
def LogRecord.unreserved (record : LogRecord) : List (Key × LogVal) :=
  (.str "taskName", match record.taskName with | some s => .str s | none => .none) :: record.extra

/-- `record.__dict__.items()`. -/
def LogRecord.items (record : LogRecord) : List (Key × LogVal) :=
  reservedAttrs.map (fun name => (.str name, record.attr name)) ++ record.unreserved

/-- What the interpreter makes of a time,
`datetime.fromtimestamp(created, tz=timezone.utc).isoformat()`, and of a
value, `str(value)`. -/
structure Texts where
  isoformat : PyFloat → Except Exc String
  str : LogVal → Except Exc String

/-! ## `format` -/

section Format

variable (p : Texts) (record : LogRecord)

/-- The fields that tell about the record itself. -/
def coreFields : List (String × Except Exc String) :=
  [("timestamp", p.isoformat record.created),
    ("level", .ok record.levelname),
    ("message", record.getMessage),
    ("logger", .ok record.name)]

def textVal (text : Except Exc String) : Except Exc LogVal := text.map .str

/-- What is stored for an attribute: the value if `json.dumps` takes it, its
text if that raises a `TypeError`. -/
def stored (value : LogVal) : Except Exc LogVal :=
  match dumps value with
  | .ok _ => .ok value
  | .error e => if e.isInstance .typeError then textVal (p.str value) else .error e

def addAttr (logData : List (Key × LogVal)) (item : Key × LogVal) : Except Exc (List (Key × LogVal)) :=
  if item.1 ∈ reservedAttrs.map Key.str then .ok logData else Ordered.update (stored p) logData item

def addException (logData : List (Key × LogVal)) : Except Exc (List (Key × LogVal)) :=
  match record.excInfo with
  | none => .ok logData
  | some text => Ordered.update textVal logData (.str "exception", text)

/-- The dictionary as one that is written: it is in none of its values. -/
def members (logData : List (Key × LogVal)) : List (Key × Option LogVal) :=
  logData.map fun field => (field.1, some field.2)

/-- `json.dumps(log_data)`. -/
def dumpsDict (logData : List (Key × LogVal)) : Except Exc Json := dumps (.dict (members logData))

def fallback (logData : List (Key × LogVal)) : List (Key × LogVal) :=
  [(.str "timestamp", (logData.lookup (.str "timestamp")).getD .none),
    (.str "level", .str "ERROR"),
    (.str "message", .str "Failed to serialize log record")]

/-- `json.dumps(log_data)` or, if it raises, the fallback. -/
def serialize (logData : List (Key × LogVal)) : Except Exc Json :=
  match dumpsDict logData with
  | .ok j => .ok j
  | .error _ => dumpsDict (fallback logData)

/-- The literal `log_data` starts as, item by item. -/
def coreItems : List (Key × Except Exc String) := (coreFields p record).map fun field => (.str field.1, field.2)

/-- `log_data`, when all is merged into it. -/
def logData : Except Exc (List (Key × LogVal)) := do
  let core ← (coreItems p record).foldlM (Ordered.update textVal) []
  let merged ← record.items.foldlM (addAttr p) core
  addException record merged

/-- `format`. -/
def format : Except Exc Json := do
  serialize (← logData p record)

end Format

/-! ## What is stored and written -/

/-- Every name in a dictionary that is written, and the values under it. -/
theorem mem_dumpsMembers {d : List (Key × LogVal)} {fields : List (String × Json)}
    (h : dumpsMembers (members d) = .ok fields) {name : String} {j : Json} :
    (name, j) ∈ fields ↔ ∃ key v, (key, v) ∈ d ∧ keyText key = .ok name ∧ dumps v = .ok j := by
  induction d generalizing fields with
  | nil =>
    cases h
    simp
  | cons field d ih =>
    obtain ⟨key, v⟩ := field
    obtain ⟨name', hname, h⟩ := bind_ok h
    obtain ⟨j', hj, h⟩ := bind_ok h
    obtain ⟨fields', hfields, h⟩ := bind_ok h
    cases h
    rw [List.mem_cons, Prod.mk.injEq, ih hfields]
    constructor
    · intro hx
      rcases hx with ⟨rfl, rfl⟩ | ⟨key', v', hm, hrest⟩
      · exact ⟨key, v, List.mem_cons_self, hname, hj⟩
      · exact ⟨key', v', List.mem_cons_of_mem _ hm, hrest⟩
    · intro hx
      obtain ⟨key', v', hm, hkey, hv⟩ := hx
      rcases List.mem_cons.1 hm with he | hm
      · cases he
        rw [hname] at hkey
        rw [dumpsItem, hv] at hj
        cases hkey
        cases hj
        exact .inl ⟨rfl, rfl⟩
      · exact .inr ⟨key', v', hm, hkey, hv⟩

/-- A dictionary is written when each of its keys and values is. -/
theorem dumpsMembers_ok_iff {d : List (Key × LogVal)} :
    (∃ fields, dumpsMembers (members d) = .ok fields) ↔
      ∀ field ∈ d, (∃ name, keyText field.1 = .ok name) ∧ ∃ j, dumps field.2 = .ok j := by
  induction d with
  | nil => exact ⟨fun _ => nofun, fun _ => ⟨[], rfl⟩⟩
  | cons field d ih =>
    obtain ⟨key, v⟩ := field
    rw [List.forall_mem_cons, ← ih]
    constructor
    · intro hx
      obtain ⟨fields, h⟩ := hx
      obtain ⟨name, hname, h⟩ := bind_ok h
      obtain ⟨j, hj, h⟩ := bind_ok h
      obtain ⟨fields', hfields, -⟩ := bind_ok h
      exact ⟨⟨⟨name, hname⟩, j, hj⟩, fields', hfields⟩
    · intro hx
      obtain ⟨⟨⟨name, hname⟩, j, hj⟩, fields, hfields⟩ := hx
      refine ⟨(name, j) :: fields, ?_⟩
      rw [members, List.map_cons, dumpsMembers, dumpsItem, hname, hj, ← members, hfields]
      rfl

section Stored

variable {p : Texts} {v w : LogVal}

theorem stored_of_dumps {j : Json} (h : dumps v = .ok j) : stored p v = .ok v := by
  rw [stored, h]

theorem stored_of_error {e : Exc} (h : dumps v = .error e) :
    stored p v = if e.isInstance .typeError then textVal (p.str v) else .error e := by
  rw [stored, h]

theorem stored_of_unserialisable (h : Unserialisable v) : stored p v = textVal (p.str v) := by
  obtain ⟨e, he, htype⟩ := h
  rw [stored_of_error he, if_pos htype]

theorem stored_cases (h : stored p v = .ok w) :
    (w = v ∧ ∃ j, dumps v = .ok j) ∨ (Unserialisable v ∧ ∃ s, p.str v = .ok s ∧ w = .str s) := by
  cases hv : dumps v with
  | ok j =>
    rw [stored_of_dumps hv] at h
    cases h
    exact .inl ⟨rfl, j, rfl⟩
  | error e =>
    rw [stored_of_error hv] at h
    by_cases htype : e.isInstance .typeError = true
    · rw [if_pos htype] at h
      cases hs : p.str v with
      | error e' =>
        rw [hs] at h
        cases h
      | ok s =>
        rw [hs] at h
        cases h
        exact .inr ⟨⟨e, hv, htype⟩, s, rfl, rfl⟩
    · rw [if_neg htype] at h
      cases h

/-- What is stored can be written. -/
theorem stored_dumps (h : stored p v = .ok w) : ∃ j, dumps w = .ok j := by
  obtain ⟨rfl, hj⟩ | ⟨-, s, -, rfl⟩ := stored_cases h
  · exact hj
  · exact ⟨.str s, rfl⟩

/-- An attribute is lost to a circular reference that `json.dumps` comes to,
or to a `str(value)` that raises. -/
theorem stored_ok_iff :
    (∃ w, stored p v = .ok w) ↔
      dumps v ≠ .error circularReference ∧ (Unserialisable v → ∃ s, p.str v = .ok s) := by
  constructor
  · intro hx
    obtain ⟨w, h⟩ := hx
    obtain ⟨rfl, j, hj⟩ | ⟨⟨e, he, htype⟩, s, hs, -⟩ := stored_cases h
    · rw [hj]
      refine ⟨nofun, ?_⟩
      intro hx
      obtain ⟨e, he, -⟩ := hx
      rw [hj] at he
      cases he
    · refine ⟨?_, fun _ => ⟨s, hs⟩⟩
      rw [he]
      rintro ⟨⟩
      exact absurd htype (by decide)
  · intro hx
    obtain ⟨hcircular, htext⟩ := hx
    cases hv : dumps v with
    | ok j => exact ⟨v, stored_of_dumps hv⟩
    | error e =>
      rcases dumps_refuses v e hv with htype | rfl
      · have hun : Unserialisable v := ⟨e, hv, htype⟩
        obtain ⟨s, hs⟩ := htext hun
        exact ⟨.str s, by rw [stored_of_unserialisable hun, hs]; rfl⟩
      · exact absurd hv hcircular

theorem stored_str_iff {s : String} :
    stored p v = .ok (.str s) ↔ v = .str s ∨ (Unserialisable v ∧ p.str v = .ok s) := by
  constructor
  · intro h
    obtain ⟨he, -⟩ | ⟨hun, s', hs, he⟩ := stored_cases h
    · exact .inl he.symm
    · cases he
      exact .inr ⟨hun, hs⟩
  · intro hx
    rcases hx with rfl | ⟨hun, hs⟩
    · exact stored_of_dumps (j := .str s) rfl
    · rw [stored_of_unserialisable hun, hs]
      rfl

end Stored

/-! ## The merged dictionary -/

section Merged

variable {p : Texts} {record : LogRecord}

theorem LogRecord.unreserved_distinct (record : LogRecord) : (record.unreserved.map Prod.fst).Nodup :=
  List.nodup_cons.2 ⟨record.fresh "taskName" (by decide), record.distinct⟩

theorem LogRecord.unreserved_fresh {item : Key × LogVal} (h : item ∈ record.unreserved) :
    item.1 ∉ reservedAttrs.map Key.str := by
  intro hr
  obtain ⟨name, hname, hkey⟩ := List.mem_map.1 hr
  rcases List.mem_cons.1 h with rfl | h
  · cases hkey
    exact absurd hname (by decide)
  · exact record.fresh name (List.mem_append_left _ hname) (hkey ▸ List.mem_map_of_mem h)

theorem foldlM_addAttr_reserved {names : List String} (h : ∀ name ∈ names, name ∈ reservedAttrs)
    (d : List (Key × LogVal)) :
    (names.map fun name => (Key.str name, record.attr name)).foldlM (addAttr p) d = .ok d := by
  induction names with
  | nil => rfl
  | cons name names ih =>
    have hskip : addAttr p d (.str name, record.attr name) = .ok d :=
      if_pos (List.mem_map_of_mem (h name List.mem_cons_self))
    rw [List.map_cons, List.foldlM_cons, hskip]
    exact ih fun n hn => h n (List.mem_cons_of_mem _ hn)

theorem foldlM_addAttr_unreserved {items : List (Key × LogVal)}
    (h : ∀ item ∈ items, item.1 ∉ reservedAttrs.map Key.str) (d : List (Key × LogVal)) :
    items.foldlM (addAttr p) d = items.foldlM (Ordered.update (stored p)) d := by
  induction items generalizing d with
  | nil => rfl
  | cons item items ih =>
    have hadd : addAttr p d item = Ordered.update (stored p) d item := if_neg (h item List.mem_cons_self)
    rw [List.foldlM_cons, List.foldlM_cons, hadd]
    exact bind_congr fun d' => ih (fun i hi => h i (List.mem_cons_of_mem _ hi)) d'

/-- The loop over `__dict__` stores the attributes that are not reserved. -/
theorem foldlM_items (d : List (Key × LogVal)) :
    record.items.foldlM (addAttr p) d = record.unreserved.foldlM (Ordered.update (stored p)) d := by
  rw [LogRecord.items, List.foldlM_append, foldlM_addAttr_reserved fun _ h => h]
  exact foldlM_addAttr_unreserved (fun _ h => LogRecord.unreserved_fresh h) d

def LogRecord.exceptionItems (record : LogRecord) : List (Key × Except Exc String) :=
  record.excInfo.toList.map fun text => (.str "exception", text)

theorem addException_eq (d : List (Key × LogVal)) :
    addException record d = record.exceptionItems.foldlM (Ordered.update textVal) d := by
  rw [addException, LogRecord.exceptionItems]
  cases record.excInfo with
  | none => rfl
  | some text =>
    exact (bind_pure (Ordered.update textVal d (.str "exception", text))).symm

/-- `log_data` is three loops after one another. -/
theorem logData_ok_iff {d : List (Key × LogVal)} :
    logData p record = .ok d ↔
      ∃ core merged, (coreItems p record).foldlM (Ordered.update textVal) [] = .ok core ∧
        record.unreserved.foldlM (Ordered.update (stored p)) core = .ok merged ∧
        record.exceptionItems.foldlM (Ordered.update textVal) merged = .ok d := by
  simp only [logData, foldlM_items, addException_eq]
  constructor
  · intro h
    obtain ⟨core, hcore, h⟩ := bind_ok h
    obtain ⟨merged, hmerged, h⟩ := bind_ok h
    exact ⟨core, merged, hcore, hmerged, h⟩
  · intro hx
    obtain ⟨core, merged, hcore, hmerged, h⟩ := hx
    rw [hcore]
    show (record.unreserved.foldlM (Ordered.update (stored p)) core >>= _) = _
    rw [hmerged]
    exact h

theorem textVal_ok_iff {text : Except Exc String} {w : LogVal} :
    textVal text = .ok w ↔ ∃ s, text = .ok s ∧ w = .str s := by
  cases text with
  | ok s => simp [textVal, Except.map, eq_comm]
  | error e => exact ⟨nofun, nofun⟩

theorem exists_textVal_iff {text : Except Exc String} : (∃ w, textVal text = .ok w) ↔ ∃ s, text = .ok s := by
  simp only [textVal_ok_iff]
  exact ⟨fun ⟨_, s, hs, _⟩ => ⟨s, hs⟩, fun ⟨s, hs⟩ => ⟨_, s, hs, rfl⟩⟩

/-- The name of a task is stored as it is. -/
theorem stored_taskName (record : LogRecord) :
    ∃ w, stored p (match record.taskName with | some s => .str s | none => .none) = .ok w := by
  cases record.taskName with
  | some s => exact ⟨_, stored_of_dumps (j := .str s) rfl⟩
  | none => exact ⟨_, stored_of_dumps (j := .null) rfl⟩

theorem coreItems_distinct : ((coreItems p record).map Prod.fst).Nodup := by
  show [Key.str "timestamp", .str "level", .str "message", .str "logger"].Nodup
  decide

theorem exceptionItems_distinct : (record.exceptionItems.map Prod.fst).Nodup := by
  rw [LogRecord.exceptionItems]
  cases record.excInfo <;> simp

/-- The dictionary is completed when every text can be told and every value stored. -/
theorem exists_logData_iff :
    (∃ d, logData p record = .ok d) ↔
      (∀ field ∈ coreFields p record, ∃ s, field.2 = .ok s) ∧
        (∀ a ∈ record.extra, ∃ w, stored p a.2 = .ok w) ∧ ∀ text ∈ record.excInfo, ∃ s, text = .ok s := by
  have hcore : (∀ item ∈ coreItems p record, ∃ w, textVal item.2 = .ok w) ↔
      ∀ field ∈ coreFields p record, ∃ s, field.2 = .ok s := by
    simp only [coreItems, List.forall_mem_map, exists_textVal_iff]
  have hunreserved : (∀ item ∈ record.unreserved, ∃ w, stored p item.2 = .ok w) ↔
      ∀ a ∈ record.extra, ∃ w, stored p a.2 = .ok w :=
    List.forall_mem_cons.trans (and_iff_right (stored_taskName record))
  have hexception : (∀ item ∈ record.exceptionItems, ∃ w, textVal item.2 = .ok w) ↔
      ∀ text ∈ record.excInfo, ∃ s, text = .ok s := by
    simp only [LogRecord.exceptionItems, List.forall_mem_map, Option.mem_toList, Option.mem_def, exists_textVal_iff]
  rw [← hcore, ← hunreserved, ← hexception]
  constructor
  · intro hx
    obtain ⟨d, h⟩ := hx
    obtain ⟨core, merged, hcore, hmerged, h⟩ := logData_ok_iff.1 h
    exact ⟨Ordered.foldlM_update_ok_iff.1 ⟨_, hcore⟩, Ordered.foldlM_update_ok_iff.1 ⟨_, hmerged⟩,
      Ordered.foldlM_update_ok_iff.1 ⟨_, h⟩⟩
  · intro hx
    obtain ⟨hc, hu, he⟩ := hx
    obtain ⟨core, hcore⟩ := Ordered.foldlM_update_ok_iff.2 hc
    obtain ⟨merged, hmerged⟩ := Ordered.foldlM_update_ok_iff.2 hu
    obtain ⟨d, h⟩ := Ordered.foldlM_update_ok_iff.2 he
    exact ⟨d, logData_ok_iff.2 ⟨core, merged, hcore, hmerged, h⟩⟩

/-- The last loop that sets a key decides what the key holds. -/
theorem mem_logData {d : List (Key × LogVal)} (h : logData p record = .ok d) {k : Key} {w : LogVal} :
    (k, w) ∈ d ↔ (∃ text, (k, text) ∈ record.exceptionItems ∧ textVal text = .ok w) ∨
      (k ∉ record.exceptionItems.map Prod.fst ∧
        ((∃ v, (k, v) ∈ record.unreserved ∧ stored p v = .ok w) ∨
          (k ∉ record.unreserved.map Prod.fst ∧ ∃ text, (k, text) ∈ coreItems p record ∧ textVal text = .ok w))) := by
  obtain ⟨core, merged, hcore, hmerged, h⟩ := logData_ok_iff.1 h
  have hcoreNodup := Ordered.nodup_foldlM_update hcore List.nodup_nil
  have hmergedNodup := Ordered.nodup_foldlM_update hmerged hcoreNodup
  rw [Ordered.mem_foldlM_update h hmergedNodup exceptionItems_distinct,
    Ordered.mem_foldlM_update hmerged hcoreNodup record.unreserved_distinct,
    Ordered.mem_foldlM_update hcore List.nodup_nil coreItems_distinct]
  simp

/-- What is in the dictionary can be written, keys aside. -/
theorem dumps_of_mem_logData {d : List (Key × LogVal)} (h : logData p record = .ok d) {k : Key} {w : LogVal}
    (hm : (k, w) ∈ d) : ∃ j, dumps w = .ok j := by
  have htext : ∀ {text : Except Exc String}, textVal text = .ok w → ∃ j, dumps w = .ok j := by
    intro text ht
    obtain ⟨s, -, rfl⟩ := textVal_ok_iff.1 ht
    exact ⟨.str s, rfl⟩
  obtain ⟨text, -, ht⟩ | ⟨-, ⟨v, -, hv⟩ | ⟨-, text, -, ht⟩⟩ := (mem_logData h).1 hm
  · exact htext ht
  · exact stored_dumps hv
  · exact htext ht

/-- Only extra attributes have keys that are no strings. -/
theorem key_of_mem_logData {d : List (Key × LogVal)} (h : logData p record = .ok d) {k : Key} {w : LogVal}
    (hm : (k, w) ∈ d) : (∃ s, k = .str s) ∨ k ∈ record.extra.map Prod.fst := by
  obtain ⟨text, ht, -⟩ | ⟨-, ⟨v, hv, -⟩ | ⟨-, text, ht, -⟩⟩ := (mem_logData h).1 hm
  · obtain ⟨_, -, he⟩ := List.mem_map.1 ht
    cases he
    exact .inl ⟨_, rfl⟩
  · rcases List.mem_cons.1 hv with he | hv
    · cases he
      exact .inl ⟨_, rfl⟩
    · exact .inr (List.mem_map_of_mem hv)
  · obtain ⟨_, -, he⟩ := List.mem_map.1 ht
    cases he
    exact .inl ⟨_, rfl⟩

/-- Every extra attribute has an entry. -/
theorem mem_keys_logData {d : List (Key × LogVal)} (h : logData p record = .ok d) {a : Key × LogVal}
    (ha : a ∈ record.extra) : ∃ w, (a.1, w) ∈ d := by
  by_cases hexc : a.1 ∈ record.exceptionItems.map Prod.fst
  · obtain ⟨⟨k, text⟩, hitem, hk⟩ := List.mem_map.1 hexc
    obtain ⟨core, merged, -, -, hloop⟩ := logData_ok_iff.1 h
    obtain ⟨w, hw⟩ := Ordered.foldlM_update_ok_iff.1 ⟨d, hloop⟩ _ hitem
    exact ⟨w, (mem_logData h).2 (.inl ⟨text, hk ▸ hitem, hw⟩)⟩
  · obtain ⟨w, hw⟩ := (exists_logData_iff.1 ⟨d, h⟩).2.1 a ha
    exact ⟨w, (mem_logData h).2 (.inr ⟨hexc, .inl ⟨a.2, List.mem_cons_of_mem _ ha, hw⟩⟩)⟩

/-! ## The record's own fields -/

variable {field : String × Except Exc String}

theorem coreFields_name (hf : field ∈ coreFields p record) :
    numeral field.1 = false ∧ field.1 ≠ "null" ∧ field.1 ≠ "true" ∧ field.1 ≠ "false" ∧
      field.1 ≠ "exception" ∧ field.1 ≠ "taskName" := by
  have hname : field.1 ∈ ["timestamp", "level", "message", "logger"] := List.mem_map_of_mem hf
  exact (by decide : ∀ name ∈ ["timestamp", "level", "message", "logger"],
    numeral name = false ∧ name ≠ "null" ∧ name ≠ "true" ∧ name ≠ "false" ∧
      name ≠ "exception" ∧ name ≠ "taskName") field.1 hname

/-- The literal has one item for each name. -/
theorem mem_coreItems (hf : field ∈ coreFields p record) {text : Except Exc String} :
    (.str field.1, text) ∈ coreItems p record ↔ text = field.2 := by
  have hmem : (Key.str field.1, field.2) ∈ coreItems p record :=
    List.mem_map_of_mem (f := fun g : String × Except Exc String => (Key.str g.1, g.2)) hf
  constructor
  · intro h
    exact (Prod.mk.inj (List.inj_on_of_nodup_map coreItems_distinct h hmem rfl)).2
  · rintro rfl
    exact hmem

/-- Under one of these names there is an extra attribute that has it or,
without one, what the record says. -/
theorem mem_logData_core {d : List (Key × LogVal)} (h : logData p record = .ok d)
    (hf : field ∈ coreFields p record) {w : LogVal} :
    (.str field.1, w) ∈ d ↔ (∃ v, (.str field.1, v) ∈ record.extra ∧ stored p v = .ok w) ∨
      (.str field.1 ∉ record.extra.map Prod.fst ∧ textVal field.2 = .ok w) := by
  obtain ⟨-, -, -, -, hexception, htask⟩ := coreFields_name hf
  have hexc : Key.str field.1 ∉ record.exceptionItems.map Prod.fst := by
    intro hm
    obtain ⟨_, hitem, hk⟩ := List.mem_map.1 hm
    obtain ⟨_, -, rfl⟩ := List.mem_map.1 hitem
    exact hexception (Key.str.inj hk).symm
  have hexc' : ∀ text, (Key.str field.1, text) ∉ record.exceptionItems := fun _ hm => hexc (List.mem_map_of_mem hm)
  rw [mem_logData h]
  simp only [hexc, hexc', not_false_eq_true, true_and, false_and, exists_false, false_or, mem_coreItems hf,
    exists_eq_left, LogRecord.unreserved, List.mem_cons, List.map_cons, Prod.mk.injEq, Key.str.injEq, htask]

theorem numeral_toString (n : ℤ) : numeral (toString n) = true := by
  cases n with
  | ofNat m =>
    have hdigits : (toString (Int.ofNat m)).toList = Nat.toDigits 10 m := Nat.toList_repr
    rw [numeral, hdigits]
    cases hm : Nat.toDigits 10 m with
    | nil => exact absurd hm Nat.toDigits_ne_nil
    | cons c cs =>
      have hc : c.isDigit = true :=
        Nat.isDigit_of_mem_toDigits (by decide) (by decide) (hm ▸ List.mem_cons_self : c ∈ Nat.toDigits 10 m)
      simp [hc]
  | negSucc m =>
    have hminus : toString (Int.negSucc m) = "-" ++ toString (m + 1) := rfl
    rw [numeral, hminus, String.toList_append]
    rfl

/-- No other key is written as one of these names. -/
theorem key_eq_of_keyText (hf : field ∈ coreFields p record) {key : Key} (h : keyText key = .ok field.1) :
    key = .str field.1 := by
  obtain ⟨hnum, hnull, htrue, hfalse, -, -⟩ := coreFields_name hf
  cases key with
  | str s =>
    cases h
    rfl
  | none => exact absurd (Except.ok.inj h).symm hnull
  | bool b =>
    cases b with
    | true => exact absurd (Except.ok.inj h).symm htrue
    | false => exact absurd (Except.ok.inj h).symm hfalse
  | int n =>
    have hn : toString n = field.1 := Except.ok.inj h
    rw [← hn, numeral_toString] at hnum
    cases hnum
  | float x =>
    have hx : x.text = field.1 := Except.ok.inj h
    rw [← hx, x.isNumeral] at hnum
    cases hnum
  | other => cases h

/-- What is written under one of these names. -/
theorem mem_fields_core {d : List (Key × LogVal)} {fields : List (String × Json)}
    (hd : dumpsMembers (members d) = .ok fields) (hf : field ∈ coreFields p record) {j : Json} :
    (field.1, j) ∈ fields ↔ ∃ w, (.str field.1, w) ∈ d ∧ dumps w = .ok j := by
  rw [mem_dumpsMembers hd]
  constructor
  · intro hx
    obtain ⟨key, w, hm, hkey, hw⟩ := hx
    obtain rfl := key_eq_of_keyText hf hkey
    exact ⟨w, hm, hw⟩
  · intro hx
    obtain ⟨w, hm, hw⟩ := hx
    exact ⟨_, w, hm, rfl, hw⟩

end Merged

theorem dumpsDict_ok_iff {d : List (Key × LogVal)} {j : Json} :
    dumpsDict d = .ok j ↔ ∃ fields, dumpsMembers (members d) = .ok fields ∧ .object fields = j := by
  rw [dumpsDict, dumps]
  cases dumpsMembers (members d) with
  | error e => exact ⟨nofun, nofun⟩
  | ok fields => simp [Except.map]

/-- Either the dictionary is written or the fallback, which names no logger. -/
theorem serialize_cases {d : List (Key × LogVal)} {fields : List (String × Json)}
    (h : serialize d = .ok (.object fields)) :
    dumpsMembers (members d) = .ok fields ∨ ∀ j, ("logger", j) ∉ fields := by
  rw [serialize] at h
  cases hd : dumpsDict d with
  | ok j =>
    rw [hd] at h
    cases h
    obtain ⟨_, hm, he⟩ := dumpsDict_ok_iff.1 hd
    cases he
    exact .inl hm
  | error e =>
    rw [hd] at h
    refine .inr fun j hj => ?_
    obtain ⟨_, hfields, he⟩ := dumpsDict_ok_iff.1 h
    cases he
    obtain ⟨key, w, hm, hkey, -⟩ := (mem_dumpsMembers hfields).1 hj
    simp only [fallback, List.mem_cons, Prod.mk.injEq, List.not_mem_nil, or_false] at hm
    obtain ⟨rfl, -⟩ | ⟨rfl, -⟩ | ⟨rfl, -⟩ := hm <;> exact absurd (Except.ok.inj hkey) (by decide)

/-- A dictionary of values that are written is, or else its fallback. -/
theorem exists_serialize {d : List (Key × LogVal)} (h : ∀ k w, (k, w) ∈ d → ∃ j, dumps w = .ok j) :
    ∃ j, serialize d = .ok j := by
  have htimestamp : ∃ j, dumps ((d.lookup (.str "timestamp")).getD .none) = .ok j := by
    cases hl : d.lookup (.str "timestamp") with
    | none => exact ⟨.null, rfl⟩
    | some w =>
      obtain ⟨l₁, l₂, rfl, -⟩ := List.lookup_eq_some_iff.1 hl
      exact h (.str "timestamp") w (by simp)
  have hfallback : ∀ field ∈ fallback d, (∃ name, keyText field.1 = .ok name) ∧ ∃ j, dumps field.2 = .ok j := by
    simp only [fallback, List.forall_mem_cons]
    exact ⟨⟨⟨_, rfl⟩, htimestamp⟩, ⟨⟨_, rfl⟩, _, rfl⟩, ⟨⟨_, rfl⟩, _, rfl⟩, nofun⟩
  rw [serialize]
  cases dumpsDict d with
  | ok j => exact ⟨j, rfl⟩
  | error e =>
    obtain ⟨fields, hfields⟩ := dumpsMembers_ok_iff.2 hfallback
    exact ⟨_, dumpsDict_ok_iff.2 ⟨fields, hfields, rfl⟩⟩

/-- `format` raises only before it comes to write: its own fallback holds. -/
theorem format_ok_iff (p : Texts) (record : LogRecord) :
    (∃ j, format p record = .ok j) ↔ ∃ d, logData p record = .ok d := by
  constructor
  · intro hx
    obtain ⟨j, h⟩ := hx
    obtain ⟨d, hd, -⟩ := bind_ok h
    exact ⟨d, hd⟩
  · intro hx
    obtain ⟨d, hd⟩ := hx
    obtain ⟨j, hj⟩ := exists_serialize fun k w hm => dumps_of_mem_logData hd hm
    refine ⟨j, ?_⟩
    rw [format, hd]
    exact hj

section Truthful

variable (p : Texts) (record : LogRecord)

/-- An object that has each of the record's own fields once, as the record says. -/
def Truthful (fields : List (String × Json)) : Prop :=
  ∀ field ∈ coreFields p record, ∃ s, field.2 = .ok s ∧ ∀ j, (field.1, j) ∈ fields ↔ j = .str s

/-- Every text can be told; the extra attributes have names that JSON has,
no circular reference that `json.dumps` comes to, and a text if it does not
know their type; one under the name of a field is that field's text. -/
structure Loggable : Prop where
  core : ∀ field ∈ coreFields p record, ∃ s, field.2 = .ok s
  exception : ∀ text ∈ record.excInfo, ∃ s, text = .ok s
  keys : ∀ a ∈ record.extra, ∃ name, keyText a.1 = .ok name
  acyclic : ∀ a ∈ record.extra, dumps a.2 ≠ .error circularReference
  texts : ∀ a ∈ record.extra, Unserialisable a.2 → ∃ s, p.str a.2 = .ok s
  own : ∀ a ∈ record.extra, ∀ field ∈ coreFields p record, a.1 = .str field.1 →
    ∃ s, field.2 = .ok s ∧ (a.2 = .str s ∨ (Unserialisable a.2 ∧ p.str a.2 = .ok s))

variable {p record}

theorem Loggable.exists_logData (h : Loggable p record) : ∃ d, logData p record = .ok d :=
  exists_logData_iff.2
    ⟨h.core, fun a ha => stored_ok_iff.2 ⟨h.acyclic a ha, h.texts a ha⟩, h.exception⟩

/-- All that is merged is written. -/
theorem Loggable.exists_fields (h : Loggable p record) {d : List (Key × LogVal)} (hd : logData p record = .ok d) :
    ∃ fields, dumpsMembers (members d) = .ok fields := by
  refine dumpsMembers_ok_iff.2 ?_
  rintro ⟨k, w⟩ hm
  refine ⟨?_, dumps_of_mem_logData hd hm⟩
  obtain ⟨s, rfl⟩ | hk := key_of_mem_logData hd hm
  · exact ⟨s, rfl⟩
  · obtain ⟨a, ha, rfl⟩ := List.mem_map.1 hk
    exact h.keys a ha

/-- Under the name of a field there is only its text. -/
theorem Loggable.mem_core (h : Loggable p record) {d : List (Key × LogVal)} (hd : logData p record = .ok d)
    {field : String × Except Exc String} (hf : field ∈ coreFields p record) {s : String} (hs : field.2 = .ok s)
    {w : LogVal} : (.str field.1, w) ∈ d ↔ w = .str s := by
  have hown : ∀ v, (.str field.1, v) ∈ record.extra → stored p v = .ok (.str s) := by
    intro v hv
    obtain ⟨s', hs', hv'⟩ := h.own _ hv field hf rfl
    rw [hs] at hs'
    cases hs'
    exact stored_str_iff.2 hv'
  rw [mem_logData_core hd hf, hs]
  constructor
  · intro hx
    rcases hx with ⟨v, hv, hw⟩ | ⟨-, hw⟩
    · rw [hown v hv] at hw
      exact (Except.ok.inj hw).symm
    · exact (Except.ok.inj hw).symm
  · rintro rfl
    by_cases hk : Key.str field.1 ∈ record.extra.map Prod.fst
    · obtain ⟨⟨_, v⟩, hv, rfl⟩ := List.mem_map.1 hk
      exact .inl ⟨v, hv, hown v hv⟩
    · exact .inr ⟨hk, rfl⟩

theorem Loggable.format (h : Loggable p record) :
    ∃ fields, format p record = .ok (.object fields) ∧ Truthful p record fields := by
  obtain ⟨d, hd⟩ := h.exists_logData
  obtain ⟨fields, hfields⟩ := h.exists_fields hd
  refine ⟨fields, ?_, ?_⟩
  · rw [StructuredJSONFormatter.format, hd]
    show serialize d = _
    rw [serialize, dumpsDict_ok_iff.2 ⟨fields, hfields, rfl⟩]
  · intro field hf
    obtain ⟨s, hs⟩ := h.core field hf
    refine ⟨s, hs, fun j => ?_⟩
    rw [mem_fields_core hfields hf]
    constructor
    · intro hx
      obtain ⟨w, hm, hw⟩ := hx
      rw [(h.mem_core hd hf hs).1 hm] at hw
      exact (Except.ok.inj hw).symm
    · rintro rfl
      exact ⟨.str s, (h.mem_core hd hf hs).2 rfl, rfl⟩

/-- An object that says the record's own fields comes of the whole dictionary. -/
theorem Truthful.members {d : List (Key × LogVal)} {fields : List (String × Json)} (ht : Truthful p record fields)
    (hs : serialize d = .ok (.object fields)) :
    dumpsMembers (members d) = .ok fields := by
  refine (serialize_cases hs).resolve_right fun hlogger => ?_
  obtain ⟨s, -, hiff⟩ := ht ("logger", .ok record.name) (by simp [coreFields])
  exact hlogger (.str s) ((hiff _).2 rfl)

theorem Truthful.loggable {d : List (Key × LogVal)} {fields : List (String × Json)} (ht : Truthful p record fields)
    (hd : logData p record = .ok d) (hs : serialize d = .ok (.object fields)) : Loggable p record := by
  have hfields := ht.members hs
  obtain ⟨hcore, hstored, hexception⟩ := exists_logData_iff.1 ⟨d, hd⟩
  refine ⟨hcore, hexception, ?_, fun a ha => (stored_ok_iff.1 (hstored a ha)).1,
    fun a ha => (stored_ok_iff.1 (hstored a ha)).2, ?_⟩
  · intro a ha
    obtain ⟨w, hm⟩ := mem_keys_logData hd ha
    exact (dumpsMembers_ok_iff.1 ⟨fields, hfields⟩ _ hm).1
  · intro a ha field hf hkey
    obtain ⟨s, hfs, hiff⟩ := ht field hf
    obtain ⟨w, hw⟩ := hstored a ha
    have hm : (.str field.1, w) ∈ d := (mem_logData_core hd hf).2 (.inl ⟨a.2, hkey ▸ ha, hw⟩)
    obtain ⟨j, hj⟩ := dumps_of_mem_logData hd hm
    obtain rfl := (hiff j).1 ((mem_fields_core hfields hf).2 ⟨w, hm, hj⟩)
    obtain rfl := dumps_str_iff.1 hj
    exact ⟨s, hfs, stored_str_iff.1 hw⟩

/-- A record is written as an object with its own fields exactly when it is loggable. -/
theorem format_truthful_iff (p : Texts) (record : LogRecord) :
    (∃ fields, StructuredJSONFormatter.format p record = .ok (.object fields) ∧ Truthful p record fields) ↔
      Loggable p record := by
  constructor
  · intro hx
    obtain ⟨fields, h, ht⟩ := hx
    obtain ⟨d, hd, hs⟩ := bind_ok h
    exact ht.loggable hd hs
  · exact Loggable.format

/-- Texts of one time, and of values by their type or content. -/
def epochTexts : Texts where
  isoformat _ := .ok "1970-01-01T00:00:00+00:00"
  str
    | .other _ content => .ok content
    | _ => .ok ""

/-- A list that holds itself. -/
def selfReference : LogRecord :=
  { name := "src.engine.executor", levelname := "INFO", created := .finite 0, attr := fun _ => .none,
    getMessage := .ok "Check passed.", excInfo := none, taskName := none,
    extra := [(.str "context", .list [none])], distinct := by decide, fresh := by decide }

/-- An attribute named as a field of the object. -/
def forgedLevel : LogRecord :=
  { selfReference with extra := [(.str "level", .str "CRITICAL")], distinct := by decide, fresh := by decide }

/-- The one raises, the other is written under another level. -/
theorem format_not_truthful :
    (¬ ∃ fields, StructuredJSONFormatter.format epochTexts selfReference = .ok (.object fields) ∧
      Truthful epochTexts selfReference fields) ∧
    ¬ ∃ fields, StructuredJSONFormatter.format epochTexts forgedLevel = .ok (.object fields) ∧
      Truthful epochTexts forgedLevel fields := by
  have hraises : StructuredJSONFormatter.format epochTexts selfReference = .error circularReference := rfl
  have hforged : ∃ fields, StructuredJSONFormatter.format epochTexts forgedLevel = .ok (.object fields) ∧
      ("level", .str "CRITICAL") ∈ fields := ⟨_, rfl, by simp⟩
  constructor
  · intro hx
    obtain ⟨fields, h, -⟩ := hx
    rw [hraises] at h
    cases h
  · intro hx
    obtain ⟨fields, h, ht⟩ := hx
    obtain ⟨fields', h', hlevel⟩ := hforged
    rw [h] at h'
    cases h'
    obtain ⟨s, hs, hiff⟩ := ht ("level", .ok "INFO") (by simp [coreFields, forgedLevel, selfReference])
    obtain rfl : "INFO" = s := Except.ok.inj hs
    exact absurd (Json.str.inj ((hiff _).1 hlevel)) (by decide)

end Truthful

end SentinelFlow.StructuredJSONFormatter
