/-
Association lists that keep the order their keys came in: `d[k] = v`
replaces in place or adds at the end. Loops that set one key after another
to a value computed by a function that can fail: when they end, and what the
dictionary then holds.
-/
import Mathlib.Data.List.Nodup

namespace Ordered

variable {κ α β ε : Type*} [DecidableEq κ]

/-- `d[k] = v`. -/
def set : List (κ × α) → κ → α → List (κ × α)
  | [], k, v => [(k, v)]
  | (k', w) :: d, k, v => if k' = k then (k, v) :: d else (k', w) :: set d k v

theorem mem_keys_set (d : List (κ × α)) (k : κ) (v : α) {k' : κ} :
    k' ∈ (set d k v).map Prod.fst ↔ k' = k ∨ k' ∈ d.map Prod.fst := by
  induction d with
  | nil => simp [set]
  | cons e d ih =>
    obtain ⟨k₁, w⟩ := e
    rw [set]
    split
    · subst k₁
      simp
    · rw [List.map_cons, List.map_cons, List.mem_cons, List.mem_cons, ih]
      tauto

theorem nodup_set {d : List (κ × α)} (hd : (d.map Prod.fst).Nodup) (k : κ) (v : α) :
    ((set d k v).map Prod.fst).Nodup := by
  induction d with
  | nil => simp [set]
  | cons e d ih =>
    obtain ⟨k', w⟩ := e
    rw [List.map_cons, List.nodup_cons] at hd
    rw [set]
    split
    · subst k'
      exact List.nodup_cons.2 hd
    · rename_i hne
      refine List.nodup_cons.2 ⟨?_, ih hd.2⟩
      rw [mem_keys_set]
      exact not_or.2 ⟨hne, hd.1⟩

/-- The key holds the new value, every other key what it held. -/
theorem mem_set {d : List (κ × α)} (hd : (d.map Prod.fst).Nodup) {k k' : κ} {v w : α} :
    (k', w) ∈ set d k v ↔ (k' = k ∧ w = v) ∨ (k' ≠ k ∧ (k', w) ∈ d) := by
  induction d with
  | nil => simp [set]
  | cons e d ih =>
    obtain ⟨k₁, w₁⟩ := e
    rw [List.map_cons, List.nodup_cons] at hd
    rw [set]
    split
    · subst k₁
      have habsent : (k, w) ∉ d := fun hm => hd.1 (List.mem_map.2 ⟨_, hm, rfl⟩)
      simp only [List.mem_cons, Prod.mk.injEq]
      constructor
      · intro hx
        rcases hx with h | h
        · exact .inl h
        · refine .inr ⟨?_, .inr h⟩
          rintro rfl
          exact habsent h
      · intro hx
        rcases hx with h | ⟨hne, h | h⟩
        · exact .inl h
        · exact absurd h.1 hne
        · exact .inr h
    · rename_i hne
      rw [List.mem_cons, List.mem_cons, ih hd.2, Prod.mk.injEq]
      constructor
      · intro hx
        rcases hx with h | h | h
        · exact .inr ⟨h.1 ▸ hne, .inl h⟩
        · exact .inl h
        · exact .inr ⟨h.1, .inr h.2⟩
      · intro hx
        rcases hx with h | ⟨h, h' | h'⟩
        · exact .inr (.inl h)
        · exact .inl h'
        · exact .inr (.inr ⟨h, h'⟩)

/-! ## Loops -/

/-- `d[k] = f(v)`. -/
def update (f : β → Except ε α) (d : List (κ × α)) (item : κ × β) : Except ε (List (κ × α)) :=
  (f item.2).map (set d item.1)

variable {f : β → Except ε α} {d out : List (κ × α)} {items : List (κ × β)}

theorem foldlM_update_cons {k : κ} {v : β} :
    ((k, v) :: items).foldlM (update f) d = .ok out ↔
      ∃ w, f v = .ok w ∧ items.foldlM (update f) (set d k w) = .ok out := by
  rw [List.foldlM_cons, update]
  cases f v with
  | error e => exact ⟨nofun, nofun⟩
  | ok w => exact ⟨fun h => ⟨w, rfl, h⟩, fun ⟨_, h, hout⟩ => by cases h; exact hout⟩

/-- The loop ends when `f` has a value for each item. -/
theorem foldlM_update_ok_iff :
    (∃ out, items.foldlM (update f) d = .ok out) ↔ ∀ item ∈ items, ∃ w, f item.2 = .ok w := by
  induction items generalizing d with
  | nil => exact ⟨fun _ => nofun, fun _ => ⟨d, rfl⟩⟩
  | cons item items ih =>
    obtain ⟨k, v⟩ := item
    simp only [foldlM_update_cons, List.forall_mem_cons]
    constructor
    · intro hx
      obtain ⟨out, w, hw, hout⟩ := hx
      exact ⟨⟨w, hw⟩, ih.1 ⟨out, hout⟩⟩
    · intro hx
      obtain ⟨⟨w, hw⟩, hrest⟩ := hx
      obtain ⟨out, hout⟩ := ih.2 hrest
      exact ⟨out, w, hw, hout⟩

theorem nodup_foldlM_update (h : items.foldlM (update f) d = .ok out) (hd : (d.map Prod.fst).Nodup) :
    (out.map Prod.fst).Nodup := by
  induction items generalizing d with
  | nil =>
    cases h
    exact hd
  | cons item items ih =>
    obtain ⟨w, -, hout⟩ := foldlM_update_cons.1 h
    exact ih hout (nodup_set hd _ w)

/-- After the loop a key of an item holds what `f` made of its value, any
other key what it held before. -/
theorem mem_foldlM_update (h : items.foldlM (update f) d = .ok out) (hd : (d.map Prod.fst).Nodup)
    (hitems : (items.map Prod.fst).Nodup) {k : κ} {w : α} :
    (k, w) ∈ out ↔ (∃ v, (k, v) ∈ items ∧ f v = .ok w) ∨ (k ∉ items.map Prod.fst ∧ (k, w) ∈ d) := by
  induction items generalizing d with
  | nil =>
    cases h
    simp
  | cons item items ih =>
    obtain ⟨k₁, v₁⟩ := item
    obtain ⟨w₁, hw₁, hout⟩ := foldlM_update_cons.1 h
    rw [List.map_cons, List.nodup_cons] at hitems
    rw [ih hout (nodup_set hd k₁ w₁) hitems.2, mem_set hd]
    constructor
    · intro hx
      rcases hx with ⟨v, hv, hw⟩ | ⟨hk, ⟨rfl, rfl⟩ | ⟨hne, hm⟩⟩
      · exact .inl ⟨v, List.mem_cons_of_mem _ hv, hw⟩
      · exact .inl ⟨v₁, List.mem_cons_self, hw₁⟩
      · exact .inr ⟨by simpa [hne] using hk, hm⟩
    · intro hx
      rcases hx with ⟨v, hv, hw⟩ | ⟨hk, hm⟩
      · rcases List.mem_cons.1 hv with he | hv
        · cases he
          rw [hw₁] at hw
          cases hw
          exact .inr ⟨hitems.1, .inl ⟨rfl, rfl⟩⟩
        · exact .inl ⟨v, hv, hw⟩
      · rw [List.map_cons, List.mem_cons, not_or] at hk
        exact .inr ⟨hk.2, .inr ⟨hk.1, hm⟩⟩

end Ordered
