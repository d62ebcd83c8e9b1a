/-
`src/engine/registry.py`: classes by type name, one map for each kind, and
one cache of instances that the three kinds share.

A class is known by its name, the base classes it inherits from, the methods
its instances have, and how constructing one ends; an instance is known by
its class.
-/
import SentinelFlow.Lib.Dict
import SentinelFlow.Py

namespace SentinelFlow

/-- What a registered class is for. -/
inductive Kind
  | ingestor | evaluator | handler
  deriving DecidableEq, Repr

/-- The name of the kind. -/
def Kind.text : Kind → String
  | .ingestor => "ingestor"
  | .evaluator => "evaluator"
  | .handler => "handler"

/-- The base class of the kind. -/
def Kind.baseClass : Kind → String
  | .ingestor => "BaseIngestor"
  | .evaluator => "BaseEvaluator"
  | .handler => "BaseHandler"

/-- The method the executor calls. -/
def Kind.method : Kind → String
  | .ingestor => "fetch"
  | .evaluator => "evaluate"
  | .handler => "dispatch"

/-- A class: `methods` are the kinds whose method its instances have, and
`init` is what calling it comes to. -/
structure PyClass where
  name : String
  bases : List Kind
  methods : List Kind := bases
  init : Except Exc Unit := .ok ()
  deriving DecidableEq, Repr

/-- Reading the kind's method off an instance without it. -/
def PyClass.noMethod (inst : PyClass) (kind : Kind) : Exc :=
  attributeError s!"'{inst.name}' object has no attribute '{kind.method}'"

/-! ## The built-in classes -/

def httpApiIngestor : PyClass := { name := "HttpApiIngestor", bases := [.ingestor] }
def thresholdEvaluator : PyClass := { name := "ThresholdEvaluator", bases := [.evaluator] }
def freshnessEvaluator : PyClass := { name := "FreshnessEvaluator", bases := [.evaluator] }
def slackHandler : PyClass := { name := "SlackHandler", bases := [.handler] }

/-- `Registry`: its class attributes. -/
structure Registry where
  instances : Dict String PyClass
  ingestors : Dict String PyClass
  evaluators : Dict String PyClass
  handlers : Dict String PyClass

namespace Registry

/-- The class attributes as the module defines them. -/
def builtin : Registry where
  instances := ∅
  ingestors := AList.insert "http_api" httpApiIngestor ∅
  evaluators := AList.insert "freshness" freshnessEvaluator (AList.insert "threshold" thresholdEvaluator ∅)
  handlers := AList.insert "slack_webhook" slackHandler ∅

/-- The class map of a kind. -/
def classes (reg : Registry) : Kind → Dict String PyClass
  | .ingestor => reg.ingestors
  | .evaluator => reg.evaluators
  | .handler => reg.handlers

/-! ## Lookups and registrations -/

/-- What the three `get_` methods do, each on its own class map. An instance
is constructed, and kept, only where none is cached under the name. -/
def getInstance (reg : Registry) (kind : Kind) (name : String)
    (construct : PyClass → Except Exc Unit := PyClass.init) : Except Exc (Registry × PyClass) :=
  match (reg.classes kind).lookup name with
  | none => .error (configError s!"Unknown {kind.text} type: {name}")
  | some cls => match reg.instances.lookup name with
    | some inst => .ok (reg, inst)
    | none => match construct cls with
      | .ok () => .ok ({ reg with instances := reg.instances.insert name cls }, cls)
      | .error e => .error e

def getIngestor (reg : Registry) (name : String) : Except Exc (Registry × PyClass) :=
  reg.getInstance .ingestor name
def getEvaluator (reg : Registry) (name : String) : Except Exc (Registry × PyClass) :=
  reg.getInstance .evaluator name
def getHandler (reg : Registry) (name : String) : Except Exc (Registry × PyClass) :=
  reg.getInstance .handler name

/-- The registry with more instances in its cache; those it has stay. -/
def caching (reg : Registry) (instances : Dict String PyClass) : Registry :=
  { reg with instances := reg.instances ∪ instances }

/-- The map of a kind with one more class. -/
def withClass (reg : Registry) (name : String) (cls : PyClass) : Kind → Registry
  | .ingestor => { reg with ingestors := reg.ingestors.insert name cls }
  | .evaluator => { reg with evaluators := reg.evaluators.insert name cls }
  | .handler => { reg with handlers := reg.handlers.insert name cls }

/-- The name of a kind at the start of a sentence. -/
def capitalized : Kind → String
  | .ingestor => "Ingestor"
  | .evaluator => "Evaluator"
  | .handler => "Handler"

/-- What the three `register_` methods do. -/
def register (reg : Registry) (kind : Kind) (name : String) (cls : PyClass) : Except Exc Registry :=
  if kind ∈ cls.bases then .ok (reg.withClass name cls kind)
  else .error (typeError s!"{capitalized kind} must inherit from {kind.baseClass}")

def registerIngestor (reg : Registry) (name : String) (cls : PyClass) := reg.register .ingestor name cls
def registerEvaluator (reg : Registry) (name : String) (cls : PyClass) := reg.register .evaluator name cls
def registerHandler (reg : Registry) (name : String) (cls : PyClass) := reg.register .handler name cls

/-! ## What a lookup does -/

/-- It raises, answers from the cache, or constructs an instance and keeps it. -/
theorem getInstance_cases (reg : Registry) (kind : Kind) (name : String) (construct : PyClass → Except Exc Unit) :
    ((reg.classes kind).lookup name = none ∧
      reg.getInstance kind name construct = .error (configError s!"Unknown {kind.text} type: {name}")) ∨
    (∃ cls inst, (reg.classes kind).lookup name = some cls ∧ reg.instances.lookup name = some inst ∧
      reg.getInstance kind name construct = .ok (reg, inst)) ∨
    ∃ cls, (reg.classes kind).lookup name = some cls ∧ reg.instances.lookup name = none ∧
      ((construct cls = .ok () ∧
        reg.getInstance kind name construct = .ok ({ reg with instances := reg.instances.insert name cls }, cls)) ∨
      ∃ e, construct cls = .error e ∧ reg.getInstance kind name construct = .error e) := by
  unfold getInstance
  cases hc : (reg.classes kind).lookup name with
  | none => exact .inl ⟨rfl, rfl⟩
  | some cls =>
    cases hi : reg.instances.lookup name with
    | some inst => exact .inr (.inl ⟨cls, inst, rfl, rfl, rfl⟩)
    | none =>
      cases hmade : construct cls with
      | ok u => exact .inr (.inr ⟨cls, rfl, rfl, .inl ⟨hmade, by simp [hmade]⟩⟩)
      | error e => exact .inr (.inr ⟨cls, rfl, rfl, .inr ⟨e, hmade, by simp [hmade]⟩⟩)

section Lookup

variable {reg reg' : Registry} {kind : Kind} {name : String} {construct : PyClass → Except Exc Unit} {inst : PyClass}

/-- A lookup leaves the classes alone, and the instance it answers with is
cached after it. -/
theorem getInstance_ok (h : reg.getInstance kind name construct = .ok (reg', inst)) :
    reg'.classes = reg.classes ∧ ∀ n, reg'.instances.lookup n = (reg.instances.insert name inst).lookup n := by
  rcases reg.getInstance_cases kind name construct with
    ⟨-, hg⟩ | ⟨cls, cached, -, hi, hg⟩ | ⟨cls, -, -, ⟨-, hg⟩ | ⟨e, -, hg⟩⟩ <;> rw [hg] at h <;> cases h
  · refine ⟨rfl, fun n => ?_⟩
    by_cases hn : n = name
    · rw [hn, hi, AList.lookup_insert]
    · rw [AList.lookup_insert_ne hn]
  · refine ⟨?_, fun n => rfl⟩
    funext k
    cases k <;> rfl

theorem classes_caching (reg : Registry) (instances : Dict String PyClass) :
    (reg.caching instances).classes = reg.classes := by
  funext k
  cases k <;> rfl

theorem lookup_caching (reg : Registry) (instances : Dict String PyClass) (name : String) :
    (reg.caching instances).instances.lookup name = (reg.instances.lookup name).or (instances.lookup name) := by
  rw [caching]
  by_cases hname : name ∈ reg.instances
  · obtain ⟨inst, hinst⟩ := Option.isSome_iff_exists.1 (AList.lookup_isSome.2 hname)
    rw [AList.lookup_union_left hname, hinst, Option.some_or]
  · rw [AList.lookup_union_right hname, AList.lookup_eq_none.2 hname, Option.none_or]

end Lookup

/-! ## Regular registries -/

/-- A type name means one class, whichever kind asks for it: each class can be
constructed and has its kind's method, and a cached instance of a registered
name is of the class of that name. -/
structure Regular (reg : Registry) : Prop where
  shared : ∀ {kind kind' name cls cls'}, (reg.classes kind).lookup name = some cls →
    (reg.classes kind').lookup name = some cls' → cls = cls'
  usable : ∀ {kind name cls}, (reg.classes kind).lookup name = some cls → kind ∈ cls.methods ∧ cls.init = .ok ()
  cached : ∀ {kind name cls inst}, (reg.classes kind).lookup name = some cls →
    reg.instances.lookup name = some inst → inst = cls

/-- The instances are old ones, or of the class of their name. -/
def Extends (reg' reg : Registry) : Prop :=
  reg'.classes = reg.classes ∧ ∀ name inst, reg'.instances.lookup name = some inst →
    reg.instances.lookup name = some inst ∨ ∃ kind, (reg.classes kind).lookup name = some inst

theorem Regular.extends {reg reg' : Registry} (h : reg.Regular) (hext : reg'.Extends reg) : reg'.Regular where
  shared hc hc' := h.shared (hext.1 ▸ hc) (hext.1 ▸ hc')
  usable hc := h.usable (hext.1 ▸ hc)
  cached {kind name cls inst} hc hi := by
    have hc : (reg.classes kind).lookup name = some cls := hext.1 ▸ hc
    rcases hext.2 name inst hi with hold | ⟨kind', hown⟩
    · exact h.cached hc hold
    · exact h.shared hown hc

/-- A regular registry answers with the class of the name, and stays regular. -/
theorem Regular.getInstance {reg : Registry} {kind : Kind} {name : String} {cls : PyClass} (h : reg.Regular)
    (hc : (reg.classes kind).lookup name = some cls) :
    ∃ reg', reg.getInstance kind name = .ok (reg', cls) ∧ reg'.Extends reg := by
  have hmade := (h.usable hc).2
  rcases reg.getInstance_cases kind name PyClass.init with
    ⟨hnone, -⟩ | ⟨cls', cached, hc', hi, hg⟩ | ⟨cls', hc', -, ⟨-, hg⟩ | ⟨e, he, -⟩⟩
  · rw [hc] at hnone
    cases hnone
  · rw [h.cached hc hi] at hg
    exact ⟨reg, hg, rfl, fun n inst hn => .inl hn⟩
  · rw [hc] at hc'
    cases hc'
    refine ⟨_, hg, (getInstance_ok hg).1, fun n inst hn => ?_⟩
    rw [(getInstance_ok hg).2] at hn
    by_cases hname : n = name
    · subst hname
      rw [AList.lookup_insert] at hn
      cases hn
      exact .inr ⟨kind, hc⟩
    · rw [AList.lookup_insert_ne hname] at hn
      exact .inl hn
  · rw [hc] at hc'
    cases hc'
    rw [hmade] at he
    cases he

/-- A name that is not registered raises, in every registry. -/
theorem getInstance_unknown {reg : Registry} {kind : Kind} {name : String}
    (hc : (reg.classes kind).lookup name = none) :
    reg.getInstance kind name = .error (configError s!"Unknown {kind.text} type: {name}") := by
  rw [Registry.getInstance, hc]

/-- The built-in classes, under their names. -/
def builtinClasses : List (Kind × String × PyClass) :=
  [(.ingestor, "http_api", httpApiIngestor), (.evaluator, "freshness", freshnessEvaluator),
    (.evaluator, "threshold", thresholdEvaluator), (.handler, "slack_webhook", slackHandler)]

theorem builtin_lookup {kind : Kind} {name : String} {cls : PyClass}
    (h : (builtin.classes kind).lookup name = some cls) : (kind, name, cls) ∈ builtinClasses := by
  have hmem : (⟨name, cls⟩ : Sigma fun _ : String => PyClass) ∈ (builtin.classes kind).entries :=
    AList.mem_lookup_iff.1 h
  have hentries : ∀ kind, ∀ x ∈ (builtin.classes kind).entries, (kind, x.1, x.2) ∈ builtinClasses := by
    intro kind
    cases kind <;> decide
  exact hentries kind _ hmem

theorem builtin_regular : builtin.Regular where
  shared {kind kind' name cls cls'} hc hc' := by
    have hone : ∀ x ∈ builtinClasses, ∀ y ∈ builtinClasses, x.2.1 = y.2.1 → x.2.2 = y.2.2 := by decide
    exact hone _ (builtin_lookup hc) _ (builtin_lookup hc') rfl
  usable {kind name cls} hc := by
    have hall : ∀ x ∈ builtinClasses, x.1 ∈ x.2.2.methods ∧ x.2.2.init = .ok () := by decide
    exact hall _ (builtin_lookup hc)
  cached _ hi := by cases hi

end Registry

end SentinelFlow
