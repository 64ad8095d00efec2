import Mathlib.Data.List.AList

/-!
# Finite maps

A Go `map[K]V` as a Mathlib association list without duplicate keys, with
lookups at a non-dependent value type.  Iteration order is the order of the
entries; nothing below depends on it.
-/

universe u v

/-- A finite map, as Go's `map[K]V`. -/
abbrev GoMap (κ : Type u) (α : Type v) : Type (max u v) := AList fun _ : κ => α

namespace GoMap

open List

variable {κ : Type u} {α : Type v}

/-- What becomes of one entry when its value is replaced or dropped by `f`. -/
def visit (f : α → Option α) (e : Σ _ : κ, α) : Option (Σ _ : κ, α) :=
  (f e.2).map fun v => ⟨e.1, v⟩

theorem keys_filterMap_visit (f : α → Option α) (l : List (Σ _ : κ, α)) :
    (l.filterMap (visit f)).keys.Sublist l.keys := by
  induction l with
  | nil => simp
  | cons e l ih =>
    cases h : f e.2 with
    | none => simpa [List.keys, visit, h] using ih.cons _
    | some v => simpa [List.keys, visit, h] using ih

theorem eq_empty_iff {m : GoMap κ α} : m = ∅ ↔ m.entries.isEmpty = true := by
  rw [List.isEmpty_iff, AList.ext_iff]
  rfl

variable [DecidableEq κ]

/-- `m[k]` with its `ok` flag. -/
def get? (m : GoMap κ α) (k : κ) : Option α := AList.lookup k m

/-- `m[k] = v`. -/
def set (m : GoMap κ α) (k : κ) (v : α) : GoMap κ α := AList.insert k v m

/-- `delete(m, k)`. -/
def delete (m : GoMap κ α) (k : κ) : GoMap κ α := AList.erase k m

/-- The loop `for k, v := range m` that replaces or deletes the entry it visits. -/
def filterMap (f : α → Option α) (m : GoMap κ α) : GoMap κ α :=
  ⟨m.entries.filterMap (visit f), (keys_filterMap_visit f _).nodup m.nodupKeys⟩

@[simp] theorem get?_empty (k : κ) : get? (∅ : GoMap κ α) k = none := AList.lookup_empty k

section

variable (m : GoMap κ α)

@[simp] theorem get?_set_self (k : κ) (v : α) : (m.set k v).get? k = some v :=
  AList.lookup_insert m

theorem get?_set_ne {k k' : κ} (v : α) (h : k' ≠ k) : (m.set k v).get? k' = m.get? k' :=
  AList.lookup_insert_ne h

theorem get?_set (k k' : κ) (v : α) :
    (m.set k v).get? k' = if k' = k then some v else m.get? k' := by
  split
  next h => subst h; simp
  next h => exact get?_set_ne m v h

@[simp] theorem get?_delete_self (k : κ) : (m.delete k).get? k = none :=
  AList.lookup_erase k m

theorem get?_delete_ne {k k' : κ} (h : k' ≠ k) : (m.delete k).get? k' = m.get? k' :=
  AList.lookup_erase_ne h

theorem get?_delete (k k' : κ) : (m.delete k).get? k' = if k' = k then none else m.get? k' := by
  split
  next h => subst h; simp
  next h => exact get?_delete_ne m h

end

section

variable (f : α → Option α)

theorem dlookup_filterMap_visit (k : κ) (l : List (Σ _ : κ, α)) (nodup : l.NodupKeys) :
    (l.filterMap (visit f)).dlookup k = (l.dlookup k : Option α).bind f := by
  induction l with
  | nil => rfl
  | cons e l ih =>
    obtain ⟨k', v⟩ := e
    rw [nodupKeys_cons] at nodup
    have ih := ih nodup.2
    by_cases hk : k' = k
    · subst hk
      have miss : List.dlookup k' l = none := dlookup_eq_none.2 nodup.1
      cases hv : f v with
      | none => simpa [visit, hv, miss] using ih
      | some v' => simp [visit, hv]
    · cases hv : f v with
      | none | some v' => simpa [visit, hv, Ne.symm hk] using ih

theorem get?_filterMap (m : GoMap κ α) (k : κ) : (m.filterMap f).get? k = (m.get? k).bind f :=
  dlookup_filterMap_visit f k m.entries m.nodupKeys

/-- A loop that drops the entry of a key does not see whether it is there. -/
theorem filterMap_delete (m : GoMap κ α) (k : κ) (dropped : ∀ v, m.get? k = some v → f v = none) :
    (m.delete k).filterMap f = m.filterMap f := by
  have list (l : List (Σ _ : κ, α)) (nodup : l.NodupKeys)
      (dropped : ∀ v, l.dlookup k = some v → f v = none) :
      (l.kerase k).filterMap (visit f) = l.filterMap (visit f) := by
    induction l with
    | nil => rfl
    | cons e l ih =>
      obtain ⟨k', v⟩ := e
      rw [nodupKeys_cons] at nodup
      by_cases here : k = k'
      · subst here
        rw [kerase_cons_eq (show k = (⟨k, v⟩ : Σ _ : κ, α).1 from rfl)]
        have gone : f v = none := dropped v (dlookup_cons_eq _ _ _)
        rw [filterMap_cons_none]
        rw [visit, gone, Option.map_none]
      · have other : (⟨k', v⟩ : Σ _ : κ, α).1 ≠ k := Ne.symm here
        rw [kerase_cons_ne (Ne.symm other), filterMap_cons, filterMap_cons,
          ih nodup.2 fun w found => dropped w ?_]
        rwa [dlookup_cons_ne _ _ (Ne.symm other)]
  exact AList.ext (list m.entries m.nodupKeys dropped)

omit [DecidableEq κ] in
/-- A loop that keeps every entry as it is. -/
theorem filterMap_eq_self (m : GoMap κ α) (kept : ∀ e ∈ m.entries, f e.2 = some e.2) :
    m.filterMap f = m := by
  refine AList.ext ?_
  show m.entries.filterMap (visit f) = m.entries
  have same : ∀ e ∈ m.entries, visit f e = some e := by
    intro e mem
    rw [visit, kept e mem, Option.map_some]
  rw [filterMap_congr same, filterMap_some]

end

theorem length_delete (m : GoMap κ α) {k : κ} {v : α} (found : m.get? k = some v) :
    (m.delete k).entries.length + 1 = m.entries.length := by
  have mem : k ∈ m.keys := by
    rw [← AList.mem_keys, ← AList.lookup_isSome, show AList.lookup k m = some v from found]
    rfl
  have keys : (m.delete k).keys = m.keys.erase k := keys_kerase
  have lengths : ∀ m : GoMap κ α, m.entries.length = m.keys.length := fun m =>
    (length_map _).symm
  rw [lengths, lengths, keys, length_erase_of_mem mem]
  have := length_pos_of_mem mem
  omega

/-! ## Values -/

/-- The values of a map, in the order of iteration. -/
def values (m : GoMap κ α) : List α := m.entries.map Sigma.snd

theorem mem_values {m : GoMap κ α} {v : α} : v ∈ m.values ↔ ∃ k, m.get? k = some v := by
  rw [values, mem_map]
  constructor
  · rintro ⟨⟨k, v⟩, mem, rfl⟩
    exact ⟨k, (mem_dlookup_iff m.nodupKeys).mpr mem⟩
  · rintro ⟨k, found⟩
    exact ⟨⟨k, v⟩, (mem_dlookup_iff m.nodupKeys).mp found, rfl⟩

/-- Maps that agree up to a function of their values have the same values up to it, in some
order. -/
theorem perm_values {β : Type v} {f : α → β} {m m' : GoMap κ α}
    (same : ∀ k, (m'.get? k).map f = (m.get? k).map f) :
    (m'.values.map f).Perm (m.values.map f) := by
  let lift : (Σ _ : κ, α) → Σ _ : κ, β := Sigma.map id fun _ => f
  have nodup (m : GoMap κ α) : (m.entries.map lift).NodupKeys := by
    have keys : (m.entries.map lift).keys = m.entries.keys := by
      rw [List.keys, List.keys, map_map]
      rfl
    rw [List.NodupKeys, keys]
    exact m.nodupKeys
  have values (m : GoMap κ α) : (m.entries.map lift).map Sigma.snd = m.values.map f := by
    rw [map_map, GoMap.values, map_map]
    rfl
  have perm := lookup_ext (nodup m') (nodup m) fun k v => by
    rw [dlookup_map₂, dlookup_map₂]
    exact iff_of_eq (congrArg (v ∈ ·) (same k))
  rw [← values, ← values]
  exact perm.map Sigma.snd

/-! ## Counting -/

/-- `m[k]++`. -/
def increment (m : GoMap κ Nat) (k : κ) : GoMap κ Nat := m.set k ((m.get? k).getD 0 + 1)

/-- A loop that counts keys: the keys that occur get the number of times they do. -/
theorem get?_foldl_increment (keys : List κ) (m : GoMap κ Nat) (k : κ) :
    (keys.foldl increment m).get? k =
      if k ∈ keys then some ((m.get? k).getD 0 + keys.count k) else m.get? k := by
  induction keys generalizing m with
  | nil => simp
  | cons key keys ih =>
    rw [foldl_cons, ih, increment, get?_set]
    by_cases here : k = key
    · subst here
      by_cases later : k ∈ keys
      · simp [later, Nat.add_assoc, Nat.add_comm 1]
      · simp [later, count_eq_zero_of_not_mem later]
    · have apart : key ≠ k := Ne.symm here
      simp [here, count_cons_of_ne apart]

end GoMap
