/-
Dictionaries: association lists with distinct keys (Mathlib's `AList`), the
loop that deletes the entries a test picks while walking over a copy of the
keys, and dictionaries whose keys all come from one list.
-/
import Mathlib.Data.List.AList

/-- A dictionary from `κ` to `α`. -/
abbrev Dict (κ α : Type*) := AList fun _ : κ => α

namespace Dict

variable {κ α : Type*} [DecidableEq κ]

/-- One turn of the deletion loop, at key `k`. -/
def delIf (p : α → Bool) (d : Dict κ α) (k : κ) : Dict κ α :=
  if (d.lookup k).any p then d.erase k else d

/-- `for k in list(d.keys()): if p(d[k]): del d[k]`. -/
def delWhere (p : α → Bool) (d : Dict κ α) : Dict κ α := d.keys.foldl (delIf p) d

theorem lookup_delIf_self (p : α → Bool) (d : Dict κ α) (k : κ) :
    (delIf p d k).lookup k = (d.lookup k).filter (!p ·) := by
  unfold delIf
  cases h : d.lookup k with
  | none => simp [h]
  | some a => cases hp : p a <;> simp [hp, h, Option.filter]

theorem lookup_delIf_ne (p : α → Bool) (d : Dict κ α) {k k' : κ} (hne : k' ≠ k) :
    (delIf p d k).lookup k' = d.lookup k' := by
  unfold delIf
  split
  · exact AList.lookup_erase_ne hne
  · rfl

theorem lookup_foldl_delIf_not_mem (p : α → Bool) {k : κ} :
    ∀ (ks : List κ) (d : Dict κ α), k ∉ ks → (ks.foldl (delIf p) d).lookup k = d.lookup k
  | [], _, _ => rfl
  | k' :: ks, d, h => by
    simp only [List.mem_cons, not_or] at h
    rw [List.foldl_cons, lookup_foldl_delIf_not_mem p ks _ h.2, lookup_delIf_ne p d h.1]

theorem lookup_foldl_delIf_mem (p : α → Bool) {k : κ} :
    ∀ (ks : List κ) (d : Dict κ α), ks.Nodup → k ∈ ks →
      (ks.foldl (delIf p) d).lookup k = (d.lookup k).filter (!p ·)
  | [], _, _, h => by simp at h
  | k' :: ks, d, hn, h => by
    simp only [List.nodup_cons] at hn
    rw [List.foldl_cons]
    by_cases he : k = k'
    · subst he
      rw [lookup_foldl_delIf_not_mem p ks _ hn.1, lookup_delIf_self]
    · rw [lookup_foldl_delIf_mem p ks _ hn.2 (by simpa [he] using h), lookup_delIf_ne p d he]

/-- The loop keeps exactly the entries the test does not pick. -/
@[simp] theorem lookup_delWhere (p : α → Bool) (d : Dict κ α) (k : κ) :
    (delWhere p d).lookup k = (d.lookup k).filter (!p ·) := by
  by_cases h : k ∈ d.keys
  · exact lookup_foldl_delIf_mem p _ d d.keys_nodup h
  · have hn : d.lookup k = none := AList.lookup_eq_none.2 (fun hm => h (AList.mem_keys.1 hm))
    rw [delWhere, lookup_foldl_delIf_not_mem p _ d h, hn]
    rfl

/-! ## Keys from a list -/

section Keys

variable {d : Dict κ α} {ks : List κ} {k : κ}

theorem keys_insert_subset (h : d.keys ⊆ ks) (hk : k ∈ ks) (a : α) : (d.insert k a).keys ⊆ ks := by
  rw [AList.keys_insert]
  exact List.cons_subset.2 ⟨hk, fun k' hk' => h (List.mem_of_mem_erase hk')⟩

theorem keys_erase_subset (h : d.keys ⊆ ks) (k : κ) : (d.erase k).keys ⊆ ks := by
  rw [AList.keys_erase]
  exact fun k' hk' => h (List.mem_of_mem_erase hk')

omit [DecidableEq κ] in
/-- A dictionary has no more entries than there are keys it may have. -/
theorem length_keys_le (h : d.keys ⊆ ks) : d.keys.length ≤ ks.length := List.Nodup.length_le_of_subset d.keys_nodup h

end Keys

end Dict
