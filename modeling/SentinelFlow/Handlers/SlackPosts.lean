/-
How often a dispatch posts, and what: at most three times, each time the
payload of its alert to the URL its entry resolves to, and no more once Slack
has accepted it. So an accepted payload is accepted once.

`Posted` says how far a dispatch has come with that in each of its phases. It
is kept step by step, whatever the arguments of the other dispatches are, so
it holds of dispatches that are begun one after another.
-/
import SentinelFlow.Handlers.SlackRuns

namespace SentinelFlow.SlackHandler

open Machine

/-! ## The POSTs of a dispatch -/

def Did.post? : Did → Option (String × PyVal)
  | .posts url payload => some (url, payload)
  | _ => none

/-- The URLs and the payloads a dispatch has posted, in order. -/
def postsOf (d : ℕ) (log : List Happened) : List (String × PyVal) :=
  (log.filter (·.dispatch = d)).filterMap (·.did.post?)

/-- How many of its POSTs were accepted. -/
def acceptedOf (d : ℕ) (log : List Happened) : ℕ := (log.filter (·.dispatch = d)).countP (·.did.delivers)

instance (d : ℕ) (log : List Happened) : Decidable (TurnedAway d log) := by
  unfold TurnedAway
  infer_instance

/-- How often a dispatch has posted by the time it stands in a phase. -/
def Posted (d : ℕ) (log : List Happened) : Phase → Prop
  | .trying n => (postsOf d log).length < n ∧ n ≤ 3 ∧ acceptedOf d log = 0
  | .posting n _ => (postsOf d log).length ≤ n ∧ n ≤ 3 ∧ acceptedOf d log = 0
  | .done _ => (postsOf d log).length ≤ 3 ∧ acceptedOf d log ≤ 1

section Posted

variable {env : Surroundings} {argsOf : ℕ → AlertEvent × PyDict} {s s' : State} {i : Input} {o : Happened}
  {d : ℕ} {log : List Happened}

theorem postsOf_concat (h : o.dispatch = d) : postsOf d (log ++ [o]) = postsOf d log ++ o.did.post?.toList := by
  cases hp : o.did.post? <;> simp [postsOf, h, hp]

theorem acceptedOf_concat (h : o.dispatch = d) :
    acceptedOf d (log ++ [o]) = acceptedOf d log + if o.did.delivers then 1 else 0 := by
  simp [acceptedOf, h]

theorem postsOf_concat_ne (h : o.dispatch ≠ d) : postsOf d (log ++ [o]) = postsOf d log := by
  simp [postsOf, h]

theorem acceptedOf_concat_ne (h : o.dispatch ≠ d) : acceptedOf d (log ++ [o]) = acceptedOf d log := by
  simp [acceptedOf, h]

theorem delivered_iff_acceptedOf : Delivered d log ↔ 0 < acceptedOf d log := by
  rw [acceptedOf, List.countP_pos_iff]
  simp [Delivered, and_assoc]

/-- A dispatch has returned when it delivered, or was turned away. -/
theorem Settled.returned_iff {r : Except Raised Unit} (h : Settled d log (.done r)) :
    r = .ok () ↔ Delivered d log ∨ TurnedAway d log := by
  cases r with
  | ok u => exact iff_of_true rfl (h.elim (fun h => .inr h.1) fun h => .inl h.2)
  | error x => exact iff_of_false (fun he => by cases he) (not_or.2 ⟨h.2, h.1⟩)

/-- No dispatch is both. -/
theorem Settled.not_both {p : Phase} (h : Settled d log p) : ¬ (Delivered d log ∧ TurnedAway d log) := by
  unfold Settled at h
  split at h
  · exact fun hboth => h.elim (fun h => h.2 hboth.1) fun h => h.1 hboth.2
  · exact fun hboth => h.2 hboth.1

/-- After an attempt that was not accepted, another is made only short of the third. -/
theorem posted_afterAttempt {n : ℕ} (r : Except Raised Unit) (hposts : (postsOf d log).length ≤ n) (hn : n ≤ 3)
    (hnone : acceptedOf d log = 0) : Posted d log (afterAttempt n r) := by
  unfold afterAttempt
  split
  · exact ⟨hposts.trans hn, by omega⟩
  next e =>
    split
    next hagain =>
      have hlt : n < 3 := of_decide_eq_true (allowed_of_raisedAttempt hagain)
      exact ⟨by omega, hlt, hnone⟩
    next => exact ⟨hposts.trans hn, by omega⟩
  · exact ⟨hposts.trans hn, by omega⟩

theorem Posted.step (hI : Posted d log (s.phase d)) (h : step env argsOf s i = some (s', o)) :
    Posted d (log ++ [o]) (s'.phase d) := by
  obtain ⟨hm, ho, hne⟩ := step_moves h
  by_cases hd : d = i.dispatch
  · subst hd
    have hposts := @postsOf_concat o i.dispatch log ho
    have haccepted := @acceptedOf_concat o i.dispatch log ho
    generalize s.phase i.dispatch = p, s'.phase i.dispatch = p', o.did = did at hm hI hposts haccepted ⊢
    cases hm with
    | @skipped n =>
      obtain ⟨hlt, hn, hnone⟩ := hI
      simp only [Did.post?, Did.delivers, Option.toList_none, List.append_nil] at hposts haccepted
      exact ⟨by rw [hposts]; omega, by rw [haccepted]; simp [hnone]⟩
    | @refused n e =>
      obtain ⟨hlt, hn, hnone⟩ := hI
      simp only [Did.post?, Did.delivers, Option.toList_none, List.append_nil] at hposts haccepted
      exact posted_afterAttempt _ (by rw [hposts]; omega) hn (by rw [haccepted]; simp [hnone])
    | @posts n url payload =>
      obtain ⟨hlt, hn, hnone⟩ := hI
      simp only [Did.post?, Did.delivers, Option.toList_some] at hposts haccepted
      refine ⟨?_, hn, by rw [haccepted]; simp [hnone]⟩
      rw [hposts, List.length_append, List.length_singleton]
      omega
    | @answered n url outcome r hr =>
      obtain ⟨hle, hn, hnone⟩ := hI
      simp only [Did.post?, Did.delivers, Option.toList_none, List.append_nil] at hposts haccepted
      rw [← hposts] at hle
      by_cases hyes : outcome.accepted = true
      · rw [hr.2 hyes]
        exact ⟨hle.trans hn, by rw [haccepted, hnone]; simp [hyes]⟩
      · exact posted_afterAttempt _ hle hn (by rw [haccepted, hnone]; simp [hyes])
    | @cancelled n =>
      obtain ⟨hlt, hn, hnone⟩ := hI
      simp only [Did.post?, Did.delivers, Option.toList_none, List.append_nil] at hposts haccepted
      exact ⟨by rw [hposts]; omega, by rw [haccepted]; simp [hnone]⟩
  · have hother : o.dispatch ≠ d := fun h => hd (h.symm.trans ho)
    rw [hne d hd]
    unfold Posted at hI ⊢
    rw [postsOf_concat_ne hother, acceptedOf_concat_ne hother]
    exact hI

/-- What a step posts is the payload of its dispatch, to the URL its entry resolves to. -/
theorem step_post (h : SlackHandler.step env argsOf s i = some (s', o)) {url : String} {payload : PyVal}
    (hp : o.did.post? = some (url, payload)) :
    webhookUrl env (argsOf i.dispatch).2 = .ok url ∧ payload = buildSlackPayload env (argsOf i.dispatch).1 := by
  unfold SlackHandler.step at h
  split at h
  next n hphase hst =>
    cases h
    unfold beginAttempt at hp
    dsimp only at hp
    split at hp
    · split at hp
      next url' hurl =>
        cases hp
        exact ⟨hurl, rfl⟩
      next => cases hp
    · cases hp
  next => cases h; cases hp
  next => cases h; cases hp
  next => cases h

end Posted

end SentinelFlow.SlackHandler
