/-
`src/utils/retry.py`: which failures `async_retry_network` tries again. The
retry library calls the function again after a retryable exception, at most
`max_attempts` times in all, and passes on the last result (`reraise=True`).
The exception is printed before the wait for the next attempt; the waits
themselves are not modelled.
-/
import SentinelFlow.Py

namespace SentinelFlow

/-- `_is_retryable_exception`. -/
def isRetryableException (e : Exc) : Bool :=
  e.isInstance .clientError || (e.isInstance .sentinelDomainError && e.retryable)

/-- What a call comes to by an attempt that raised `e`, and whether another
attempt is allowed: `none` when it follows. Before it does, `before_sleep`
prints the exception. -/
def raisedAttempt (allowed : Bool) (e : Exc) : Option Exc :=
  if isRetryableException e && allowed then
    match e.str with
    | .ok _ => none
    | .error e' => some e'
  else some e

/-- What a call comes to by an attempt; `none` when another follows. -/
def endAttempt {α} (allowed : Bool) : Except Exc α → Option (Except Exc α)
  | .ok a => some (.ok a)
  | .error e => (raisedAttempt allowed e).map .error

/-- The result of a decorated call whose attempts, from number `n` on, would
end as listed; `none` when the list is too short. -/
def retryFrom {α} (maxAttempts n : ℕ) : List (Except Exc α) → Option (Except Exc α)
  | [] => none
  | r :: rs => (endAttempt (decide (n < maxAttempts)) r).or (retryFrom maxAttempts (n + 1) rs)

/-- `async_retry_network` around a function. -/
def asyncRetryNetwork {α} (maxAttempts : ℕ) (attempts : List (Except Exc α)) : Option (Except Exc α) :=
  retryFrom maxAttempts 1 attempts

/-- With no other attempt allowed, the exception is passed on. -/
@[simp] theorem raisedAttempt_false (e : Exc) : raisedAttempt false e = some e := by
  simp [raisedAttempt]

theorem raisedAttempt_of_not_retryable {allowed : Bool} {e : Exc} (h : isRetryableException e = false) :
    raisedAttempt allowed e = some e := by
  simp [raisedAttempt, h]

theorem allowed_of_raisedAttempt {allowed : Bool} {e : Exc} (h : raisedAttempt allowed e = none) :
    allowed = true := by
  cases allowed with
  | true => rfl
  | false => simp at h

/-- What a call returns, an attempt of it returned. -/
theorem retryFrom_ok {α} {maxAttempts : ℕ} :
    ∀ {n : ℕ} {rs : List (Except Exc α)} {a}, retryFrom maxAttempts n rs = some (.ok a) → .ok a ∈ rs
  | _, [], _, h => by cases h
  | n, r :: rs, a, h => by
    rcases Option.or_eq_some_iff.1 h with hend | ⟨-, hrest⟩
    · cases r with
      | ok b =>
        cases hend
        exact List.mem_cons_self
      | error e =>
        obtain ⟨e', -, he⟩ := Option.map_eq_some_iff.1 hend
        cases he
    · exact List.mem_cons_of_mem _ (retryFrom_ok hrest)

/-! ## The attempt that decides -/

/-- The first attempt that is not followed by another, with so many more
attempts allowed after the first, and whether one was left. -/
def deciding {β} (again : β → Bool) : ℕ → List β → Option (β × Bool)
  | _, [] => none
  | 0, x :: _ => some (x, false)
  | more + 1, x :: xs => if again x then deciding again more xs else some (x, true)

theorem deciding_isSome {β} {again : β → Bool} :
    ∀ {more : ℕ} {xs : List β}, more < xs.length →
      ∃ x allowed, deciding again more xs = some (x, allowed) ∧ (allowed = true → again x = false)
  | 0, x :: _, _ => ⟨x, false, rfl, fun h => by cases h⟩
  | more + 1, x :: xs, h => by
    unfold deciding
    split
    · exact deciding_isSome (Nat.lt_of_succ_lt_succ h)
    next hx => exact ⟨x, true, rfl, fun _ => by simpa using hx⟩

/-- The attempts come to what the one that decides comes to. -/
theorem retryFrom_map {α β} {f : β → Except Exc α} {again : β → Bool}
    (h : ∀ x, endAttempt true (f x) = none ↔ again x = true) {maxAttempts : ℕ} :
    ∀ {n : ℕ} {xs : List β}, retryFrom maxAttempts n (xs.map f) =
      (deciding again (maxAttempts - n) xs).bind fun d => endAttempt d.2 (f d.1)
  | _, [] => by
    unfold deciding
    rfl
  | n, x :: xs => by
    rw [List.map_cons, retryFrom, retryFrom_map h]
    by_cases hn : n < maxAttempts
    · obtain ⟨more, hmore⟩ : ∃ more, maxAttempts - n = more + 1 := ⟨maxAttempts - n - 1, by omega⟩
      have hrest : maxAttempts - (n + 1) = more := by omega
      rw [hmore, hrest, deciding, decide_eq_true hn]
      cases hagain : again x with
      | true => simp [(h x).2 hagain]
      | false =>
        cases hend : endAttempt true (f x) with
        | none => simp [(h x).1 hend] at hagain
        | some r => simp [hend]
    · have hnone : maxAttempts - n = 0 := by omega
      rw [hnone, deciding, decide_eq_false hn]
      cases hx : f x with
      | ok a => simp [hx, endAttempt]
      | error e => simp [hx, endAttempt]

end SentinelFlow
