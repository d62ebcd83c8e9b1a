/-
The registry at work: any `register_` and `get_` calls, in any order, from
the built-in classes on.

The three kinds share one cache of instances, filled by the first lookup of
a name that finds a class and can construct it, and never emptied. So a
lookup answers with the class registered last for its kind exactly when that
is the class the first such lookup of the name found, in whatever kind, or
when there was none and this one can construct it (`lookup_iff`).
-/
import SentinelFlow.Engine.Registry
import SentinelFlow.Lib.Machine

namespace SentinelFlow.Registry

open Machine

/-- A call. Calling the class found, where a lookup does, comes to `made`. -/
inductive RegistryOp
  | register (kind : Kind) (name : String) (implementation : PyClass)
  | get (kind : Kind) (name : String) (made : Except Exc Unit)
  deriving DecidableEq

/-- What a call comes to. -/
inductive Outcome
  | registered
  | got (instance_ : PyClass)
  | raised (e : Exc)
  deriving DecidableEq

/-- One call. -/
def opStep (reg : Registry) : RegistryOp → Registry × Outcome
  | .register kind name cls => match reg.register kind name cls with
    | .ok reg' => (reg', .registered)
    | .error e => (reg, .raised e)
  | .get kind name made => match reg.getInstance kind name fun _ => made with
    | .ok (reg', inst) => (reg', .got inst)
    | .error e => (reg, .raised e)

/-- The registry after a sequence of calls. -/
def registryAfter (ops : List RegistryOp) : Registry := exec opStep builtin ops

/-! ## The history -/

/-- The class an operation registers under the name, for the kind. -/
def registered? (kind : Kind) (name : String) : RegistryOp → Option PyClass
  | .register k n cls => if k = kind ∧ n = name ∧ kind ∈ cls.bases then some cls else none
  | .get _ _ _ => none

/-- The class registered last, or built in. -/
def latest (kind : Kind) (name : String) (ops : List RegistryOp) : Option PyClass :=
  (ops.filterMap (registered? kind name)).getLast?.or ((builtin.classes kind).lookup name)

/-- The class a lookup of the name finds, in its kind, after these calls, if
it can construct it. -/
def found? (name : String) (before : List RegistryOp) : RegistryOp → Option PyClass
  | .get kind n (.ok ()) => if n = name then latest kind n before else none
  | _ => none

/-- The class the first lookup of the name finds and constructs, of any kind. -/
def firstFound (name : String) : List RegistryOp → List RegistryOp → Option PyClass
  | _, [] => none
  | before, op :: ops => (found? name before op).or (firstFound name (before ++ [op]) ops)

theorem latest_concat (kind : Kind) (name : String) (ops : List RegistryOp) (op : RegistryOp) :
    latest kind name (ops ++ [op]) = (registered? kind name op).or (latest kind name ops) := by
  unfold latest
  rw [List.filterMap_append]
  cases h : registered? kind name op with
  | none => simp [h]
  | some cls => simp [h]

theorem firstFound_concat (name : String) (before ops : List RegistryOp) (op : RegistryOp) :
    firstFound name before (ops ++ [op]) = (firstFound name before ops).or (found? name (before ++ ops) op) := by
  induction ops generalizing before with
  | nil => simp [firstFound]
  | cons o ops ih =>
    rw [List.cons_append, firstFound, firstFound, ih, List.append_assoc, List.singleton_append, Option.or_assoc]

/-! ## The registry against its history -/

/-- The class maps hold the classes registered last, and the cache what the
first lookups found. -/
structure Recalls (ops : List RegistryOp) (reg : Registry) : Prop where
  classes : ∀ kind name, (reg.classes kind).lookup name = latest kind name ops
  instances : ∀ name, reg.instances.lookup name = firstFound name [] ops

theorem classes_withClass (reg : Registry) (name : String) (cls : PyClass) (kind k : Kind) (n : String) :
    ((reg.withClass name cls kind).classes k).lookup n =
      if kind = k ∧ name = n then some cls else (reg.classes k).lookup n := by
  by_cases hk : kind = k
  · subst hk
    by_cases hn : name = n
    · subst hn
      cases kind <;> simp [withClass, classes]
    · cases kind <;> simp [withClass, classes, hn, Ne.symm hn]
  · cases kind <;> cases k <;> simp_all [withClass, classes]

theorem instances_withClass (reg : Registry) (name : String) (cls : PyClass) (kind : Kind) :
    (reg.withClass name cls kind).instances = reg.instances := by
  cases kind <;> rfl

section Step

variable {ops : List RegistryOp} {reg : Registry}

theorem Recalls.register (h : Recalls ops reg) (kind : Kind) (name : String) (cls : PyClass) :
    Recalls (ops ++ [.register kind name cls]) (opStep reg (.register kind name cls)).1 := by
  have hfirst : ∀ n, firstFound n [] (ops ++ [.register kind name cls]) = firstFound n [] ops := by
    intro n
    rw [firstFound_concat]
    exact Option.or_none
  by_cases hb : kind ∈ cls.bases
  · simp only [opStep, Registry.register, hb, if_true]
    refine ⟨fun k n => ?_, fun n => ?_⟩
    · rw [classes_withClass, latest_concat, h.classes]
      by_cases hkn : kind = k ∧ name = n
      · obtain ⟨rfl, rfl⟩ := hkn
        simp [registered?, hb]
      · have hnot : ¬(kind = k ∧ name = n ∧ k ∈ cls.bases) := fun hand => hkn ⟨hand.1, hand.2.1⟩
        simp [registered?, hkn, hnot]
    · rw [instances_withClass, hfirst, h.instances]
  · simp only [opStep, Registry.register, hb, if_false]
    refine ⟨fun k n => ?_, fun n => (h.instances n).trans (hfirst n).symm⟩
    have hnot : ¬(kind = k ∧ name = n ∧ k ∈ cls.bases) := fun ⟨hk, _, hmem⟩ => hb (hk ▸ hmem)
    rw [latest_concat, h.classes]
    simp [registered?, hnot]

theorem classes_opStep_get (reg : Registry) (kind : Kind) (name : String) (made : Except Exc Unit) :
    (opStep reg (.get kind name made)).1.classes = reg.classes := by
  unfold opStep
  dsimp only
  split
  next hg => exact (getInstance_ok hg).1
  next => rfl

theorem Recalls.get (h : Recalls ops reg) (kind : Kind) (name : String) (made : Except Exc Unit) :
    Recalls (ops ++ [.get kind name made]) (opStep reg (.get kind name made)).1 := by
  refine ⟨fun k n => ?_, fun n => ?_⟩
  · rw [classes_opStep_get, h.classes, latest_concat]
    exact Option.none_or.symm
  · rw [firstFound_concat, ← h.instances, List.nil_append]
    rcases reg.getInstance_cases kind name fun _ => made with
      ⟨hc, hg⟩ | ⟨cls, inst, hc, hi, hg⟩ | ⟨cls, hc, hi, ⟨rfl, hg⟩ | ⟨e, rfl, hg⟩⟩ <;>
      simp only [opStep, hg]
    · have hnone : found? n ops (.get kind name made) = none := by
        unfold found?
        split
        next heq =>
          cases heq
          split
          · rw [← h.classes, hc]
          · rfl
        · rfl
      rw [hnone, Option.or_none]
    · by_cases hn : name = n
      · subst hn
        rw [hi]
        rfl
      · have hnone : found? n ops (.get kind name made) = none := by
          unfold found?
          split
          next heq =>
            cases heq
            exact if_neg hn
          · rfl
        rw [hnone, Option.or_none]
    · by_cases hn : name = n
      · subst hn
        simp [found?, hi, ← h.classes, hc]
      · simp [found?, hn, Ne.symm hn]
    · simp [found?]

end Step

theorem Recalls.step {ops : List RegistryOp} {reg : Registry} (h : Recalls ops reg) (op : RegistryOp) :
    Recalls (ops ++ [op]) (opStep reg op).1 := by
  cases op with
  | register kind name cls => exact h.register kind name cls
  | get kind name made => exact h.get kind name made

theorem recalls (ops : List RegistryOp) : Recalls ops (registryAfter ops) := by
  refine exec_induction (fun is _ reg => Recalls is reg) ?_ (fun is os reg op hI => hI.step op) ops
  exact ⟨fun kind name => by simp [latest], fun name => by simp [firstFound, builtin]⟩

/-- **What a lookup should do** after these calls, with a call of the class
that comes to `made`: raise a `ConfigError` exactly when no class is
registered for the name in its kind, and otherwise answer with an instance of
the one registered last. -/
def LookupRight (ops : List RegistryOp) (kind : Kind) (name : String) (made : Except Exc Unit) : Prop :=
  ((∃ e, ((registryAfter ops).getInstance kind name fun _ => made) = .error e ∧ e.isInstance .configError = true) ↔
    latest kind name ops = none) ∧
  ∀ cls, latest kind name ops = some cls →
    ∃ reg', ((registryAfter ops).getInstance kind name fun _ => made) = .ok (reg', cls)

/-- **When a lookup is right**, after any calls: exactly when no class is
registered for the name in its kind; or the first lookup of the name that
found a class and constructed it, of whatever kind, found the one registered
last for this kind; or there was none, and the class can be constructed. -/
theorem lookup_iff (ops : List RegistryOp) (kind : Kind) (name : String) (made : Except Exc Unit) :
    LookupRight ops kind name made ↔
      ∀ cls, latest kind name ops = some cls →
        firstFound name [] ops = some cls ∨ firstFound name [] ops = none ∧ made = .ok () := by
  obtain ⟨hclasses, hinst⟩ := recalls ops
  rw [LookupRight, ← hclasses, ← hinst]
  generalize registryAfter ops = reg
  rcases reg.getInstance_cases kind name fun _ => made with
    ⟨hc, hg⟩ | ⟨cls, inst, hc, hi, hg⟩ | ⟨cls, hc, hi, ⟨rfl, hg⟩ | ⟨e, rfl, hg⟩⟩
  · rw [hc, hg]
    simp [configError, Exc.isInstance]
  · rw [hc, hg, hi]
    simp
  · rw [hc, hg, hi]
    simp
  · rw [hc, hg, hi]
    simp

/-- The ingestor is looked up, and a handler registered under its name. -/
def sharedName : List RegistryOp :=
  [.get .ingestor "http_api" (.ok ()), .register .handler "http_api" slackHandler]

/-- The handler's lookup answers with the ingestor. -/
theorem not_lookupRight_sharedName : ¬ LookupRight sharedName .handler "http_api" (.ok ()) := by
  intro h
  obtain ⟨reg', hg⟩ := h.2 slackHandler (by decide)
  have hinst : ((registryAfter sharedName).getInstance .handler "http_api" fun _ => .ok ()).toOption.map (·.2) =
      some httpApiIngestor := by decide
  rw [hg] at hinst
  have heq : slackHandler = httpApiIngestor := Option.some.inj hinst
  exact absurd heq (by decide)

end SentinelFlow.Registry
