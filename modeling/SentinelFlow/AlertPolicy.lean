/-
`AlertPolicy` (`src/core/policies.py`): the maps it keeps per fingerprint,
`should_dispatch` and `purge_old_state`.

`shouldDispatch_cases` says once what a call can do: suppress, raise on a
frozen event, or dispatch. Every fact about the policy is derived from it.
-/
import SentinelFlow.Lib.Dict
import SentinelFlow.Lib.Separator
import SentinelFlow.Entities

namespace SentinelFlow

/-- `AlertPolicy`: its three maps, by fingerprint. -/
structure AlertPolicy where
  lastSeen : Dict String Time
  lastDispatched : Dict String Time
  failureCounts : Dict String Nat

/-- The arguments of `should_dispatch`, less `self`. -/
structure DispatchArgs where
  metricId : String
  evaluatorType : String
  severity : String
  cooldownSeconds : ℤ
  dedupeWindowSeconds : ℤ
  event : EventArg := .plain
  deriving DecidableEq, Repr

/-- What `should_dispatch` returns or raises, and the event as it leaves it. -/
structure DispatchResult where
  value : Except Exc Bool
  event : EventArg
  deriving DecidableEq

namespace AlertPolicy

/-- `AlertPolicy()`. -/
def new : AlertPolicy := ⟨∅, ∅, ∅⟩

/-- `_generate_fingerprint`. -/
def generateFingerprint (metricId evaluatorType severity : String) : String :=
  Separator.join ':' (Separator.join ':' metricId evaluatorType) severity

/-- The fingerprint a call computes. -/
def fingerprintOf (a : DispatchArgs) : String := generateFingerprint a.metricId a.evaluatorType a.severity

/-- `self._failure_counts.get(fingerprint, 0)`. -/
def failureCount (p : AlertPolicy) (fingerprint : String) : Nat := (p.failureCounts.lookup fingerprint).getD 0

/-- The text appended to the message of an alert sent after suppressed ones. -/
def occurredText (count : Nat) : String := s!" (Occurred {count} times in last window)"

/-- The dedupe window of the fingerprint is still running at `now`. -/
def windowOpen (p : AlertPolicy) (fingerprint : String) (now : Time) (dedupeWindowSeconds : ℤ) : Bool :=
  match p.lastDispatched.lookup fingerprint with
  | some lastDispatched => decide (now - lastDispatched < dedupeWindowSeconds)
  | none => false

/-- `if count > 0 and hasattr(event, "message"): event.message += ..`. -/
def tellOccurred (count : Nat) (event : EventArg) : Except Exc EventArg :=
  if 0 < count then event.appendMessage (occurredText count) else .ok event

/-- `should_dispatch`. -/
def shouldDispatch (p : AlertPolicy) (now : Time) (a : DispatchArgs) : AlertPolicy × DispatchResult :=
  let fingerprint := fingerprintOf a
  let seen := { p with lastSeen := p.lastSeen.insert fingerprint now }
  if p.windowOpen fingerprint now a.dedupeWindowSeconds then
    ({ seen with failureCounts := p.failureCounts.insert fingerprint (p.failureCount fingerprint + 1) },
      ⟨.ok false, a.event⟩)
  else
    -- The count is popped before the message is touched, and the dispatch recorded after.
    let popped := { seen with failureCounts := p.failureCounts.erase fingerprint }
    match tellOccurred (p.failureCount fingerprint) a.event with
    | .error e => (popped, ⟨.error e, a.event⟩)
    | .ok event =>
      ({ popped with lastDispatched := p.lastDispatched.insert fingerprint now }, ⟨.ok true, event⟩)

/-- `purge_old_state`. -/
def purgeOldState (p : AlertPolicy) (now : Time) (maxAgeSeconds : ℤ) : AlertPolicy :=
  { p with
    lastSeen := Dict.delWhere (fun seenTime => decide (now - seenTime > maxAgeSeconds)) p.lastSeen
    lastDispatched :=
      Dict.delWhere (fun dispatchTime => decide (now - dispatchTime > maxAgeSeconds)) p.lastDispatched }

/-! ## What a call can do -/

theorem windowOpen_iff {p : AlertPolicy} {fp : String} {now : Time} {w : ℤ} :
    p.windowOpen fp now w = true ↔ ∃ last, p.lastDispatched.lookup fp = some last ∧ now - last < w := by
  unfold windowOpen
  split <;> simp_all

/-- The call raises: the window has run out, suppressed alerts are counted,
and the event is frozen. -/
def raisesAt (p : AlertPolicy) (now : Time) (a : DispatchArgs) : Bool :=
  !p.windowOpen (fingerprintOf a) now a.dedupeWindowSeconds && decide (0 < p.failureCount (fingerprintOf a)) &&
    a.event.isFrozen

theorem tellOccurred_error_iff {count : Nat} {event : EventArg} :
    (∃ e, tellOccurred count event = .error e) ↔ 0 < count ∧ event.isFrozen = true := by
  unfold tellOccurred
  split
  next h => cases event <;> simp [EventArg.appendMessage, EventArg.isFrozen, h]
  next h => simp [h]

/-- **What `should_dispatch` does**, in three cases: it suppresses inside
the window; past it, it raises or dispatches. -/
theorem shouldDispatch_cases (p : AlertPolicy) (now : Time) (a : DispatchArgs) :
    -- Suppressed: counted, and seen.
    (p.windowOpen (fingerprintOf a) now a.dedupeWindowSeconds = true ∧
      p.shouldDispatch now a =
        (⟨p.lastSeen.insert (fingerprintOf a) now, p.lastDispatched,
          p.failureCounts.insert (fingerprintOf a) (p.failureCount (fingerprintOf a) + 1)⟩,
          ⟨.ok false, a.event⟩)) ∨
    -- Raised: seen and the count gone, but no dispatch recorded.
    (p.raisesAt now a = true ∧ ∃ e, tellOccurred (p.failureCount (fingerprintOf a)) a.event = .error e ∧
      p.shouldDispatch now a =
        (⟨p.lastSeen.insert (fingerprintOf a) now, p.lastDispatched,
          p.failureCounts.erase (fingerprintOf a)⟩,
          ⟨.error e, a.event⟩)) ∨
    -- Dispatched: seen, the count gone, the dispatch recorded.
    (p.windowOpen (fingerprintOf a) now a.dedupeWindowSeconds = false ∧ p.raisesAt now a = false ∧
      ∃ event, tellOccurred (p.failureCount (fingerprintOf a)) a.event = .ok event ∧
      p.shouldDispatch now a =
        (⟨p.lastSeen.insert (fingerprintOf a) now, p.lastDispatched.insert (fingerprintOf a) now,
          p.failureCounts.erase (fingerprintOf a)⟩, ⟨.ok true, event⟩)) := by
  cases hw : p.windowOpen (fingerprintOf a) now a.dedupeWindowSeconds with
  | true => exact .inl ⟨rfl, by simp [shouldDispatch, hw]⟩
  | false =>
    cases ht : tellOccurred (p.failureCount (fingerprintOf a)) a.event with
    | error e =>
      obtain ⟨hc, hf⟩ := tellOccurred_error_iff.1 ⟨e, ht⟩
      exact .inr (.inl ⟨by simp [raisesAt, hw, hc, hf], e, rfl, by simp [shouldDispatch, hw, ht]⟩)
    | ok event =>
      have hr : ¬ (0 < p.failureCount (fingerprintOf a) ∧ a.event.isFrozen = true) := fun h => by
        obtain ⟨e, he⟩ := tellOccurred_error_iff.2 h
        rw [ht] at he
        cases he
      refine .inr (.inr ⟨rfl, ?_, event, rfl, by simp [shouldDispatch, hw, ht]⟩)
      simpa [raisesAt, hw] using hr

/-- What a call raises is what the frozen event raises. -/
theorem shouldDispatch_error {p : AlertPolicy} {now : Time} {a : DispatchArgs} {e : Exc}
    (h : (p.shouldDispatch now a).2.value = .error e) : ∃ text, e = validationError text := by
  rcases shouldDispatch_cases p now a with ⟨-, hs⟩ | ⟨-, x, hx, hs⟩ | ⟨-, -, ev, -, hs⟩
    <;> rw [hs] at h <;> cases h
  unfold tellOccurred at hx
  split at hx
  · cases he : a.event <;> rw [he] at hx <;> cases hx
    exact ⟨_, rfl⟩
  · cases hx

/-! ## One fingerprint at a time -/

/-- What the three maps hold of one fingerprint. -/
structure Entry where
  seen : Option Time
  dispatched : Option Time
  count : Option Nat
  deriving DecidableEq

def entry (p : AlertPolicy) (fp : String) : Entry :=
  ⟨p.lastSeen.lookup fp, p.lastDispatched.lookup fp, p.failureCounts.lookup fp⟩

theorem windowOpen_congr {p q : AlertPolicy} {fp : String} (h : p.entry fp = q.entry fp) (now : Time) (w : ℤ) :
    p.windowOpen fp now w = q.windowOpen fp now w := by
  simp only [entry, Entry.mk.injEq] at h
  simp only [windowOpen, h.2.1]

theorem failureCount_congr {p q : AlertPolicy} {fp : String} (h : p.entry fp = q.entry fp) :
    p.failureCount fp = q.failureCount fp := by
  simp only [entry, Entry.mk.injEq] at h
  simp only [failureCount, h.2.2]

/-- A call leaves every other fingerprint as it was. -/
theorem shouldDispatch_entry_ne (p : AlertPolicy) (now : Time) {a : DispatchArgs} {fp : String}
    (h : fp ≠ fingerprintOf a) : (p.shouldDispatch now a).1.entry fp = p.entry fp := by
  rcases shouldDispatch_cases p now a with ⟨-, hs⟩ | ⟨-, e, -, hs⟩ | ⟨-, -, ev, -, hs⟩ <;> rw [hs] <;>
    simp [entry, h]

/-- A call's answer, and what it leaves of its own fingerprint, depend on
that fingerprint alone. -/
theorem shouldDispatch_congr {p q : AlertPolicy} (now : Time) {a : DispatchArgs}
    (h : p.entry (fingerprintOf a) = q.entry (fingerprintOf a)) :
    (p.shouldDispatch now a).2 = (q.shouldDispatch now a).2 ∧
      (p.shouldDispatch now a).1.entry (fingerprintOf a) =
      (q.shouldDispatch now a).1.entry (fingerprintOf a) := by
  have hw := windowOpen_congr h now a.dedupeWindowSeconds
  have hc := failureCount_congr h
  simp only [entry, Entry.mk.injEq] at h
  simp only [shouldDispatch, hw, hc]
  split
  · simp [entry, h]
  · split <;> simp [entry, h]

/-- Fingerprints are told apart by their three parts, when the evaluator
type and the severity have no colon; the metric id may have some. -/
theorem generateFingerprint_inj {m m' e e' s s' : String} (he : ':' ∉ e.toList) (he' : ':' ∉ e'.toList)
    (hs : ':' ∉ s.toList) (hs' : ':' ∉ s'.toList) :
    generateFingerprint m e s = generateFingerprint m' e' s' ↔ m = m' ∧ e = e' ∧ s = s' := by
  simp only [generateFingerprint, Separator.join_inj hs hs', Separator.join_inj he he', and_assoc]

end AlertPolicy

end SentinelFlow
