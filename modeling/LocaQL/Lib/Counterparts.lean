import Mathlib.Data.List.Basic

/-!
# Counterparts in two lists

Two entries of two lists are counterparts for a key if they have the same key and as many entries
with it before them.  This is the matching that pairs the entries of one list, in their order,
with the first entry of the other one that is still free (`firstFree_iff`).
-/

namespace Counterparts

variable {α κ : Type} [DecidableEq κ] {key : α → κ} {l l' : List α} {i i' j j' : Nat}

/-- How many entries before position `i` have the key. -/
def rank (key : α → κ) (l : List α) (k : κ) (i : Nat) : Nat := (l.take i).countP fun a => key a = k

/-- The entry at position `i` of `l` and the one at position `j` of `l'`. -/
def Matched (key : α → κ) (l l' : List α) (i j : Nat) : Prop :=
  ∃ k, l[i]?.map key = some k ∧ l'[j]?.map key = some k ∧ rank key l k i = rank key l' k j

theorem rank_succ {k : κ} :
    rank key l k (i + 1) = rank key l k i + if l[i]?.map key = some k then 1 else 0 := by
  rw [rank, List.take_add_one, List.countP_append, rank]
  cases l[i]? with
  | none => rfl
  | some a => simp [List.countP_cons]

theorem rank_le {k : κ} (h : i ≤ j) : rank key l k i ≤ rank key l k j :=
  (List.take_sublist_take_left h).countP_le

theorem rank_lt {k : κ} (at_ : l[i]?.map key = some k) (h : i < j) :
    rank key l k i < rank key l k j := by
  have next : rank key l k (i + 1) ≤ rank key l k j := rank_le h
  rw [rank_succ, if_pos at_] at next
  omega

/-- Every smaller rank is that of an earlier entry. -/
theorem exists_rank {k : κ} {n : Nat} (h : n < rank key l k i) :
    ∃ j < i, l[j]?.map key = some k ∧ rank key l k j = n := by
  induction i with
  | zero => exact absurd h (Nat.not_lt_zero n)
  | succ i ih =>
    rw [rank_succ] at h
    by_cases here : l[i]?.map key = some k
    · rw [if_pos here] at h
      by_cases last : n = rank key l k i
      · exact ⟨i, Nat.lt_succ_self i, here, last.symm⟩
      · obtain ⟨j, lt, found⟩ := ih (by omega)
        exact ⟨j, by omega, found⟩
    · rw [if_neg here] at h
      obtain ⟨j, lt, found⟩ := ih h
      exact ⟨j, by omega, found⟩

theorem eq_of_rank {k : κ} (hi : l[i]?.map key = some k) (hj : l[j]?.map key = some k)
    (same : rank key l k i = rank key l k j) : i = j := by
  rcases Nat.lt_trichotomy i j with lt | eq | gt
  · have := rank_lt hi lt
    omega
  · exact eq
  · have := rank_lt hj gt
    omega

section

variable (h : Matched key l l' i j)

include h

theorem Matched.symm : Matched key l' l j i := by
  obtain ⟨k, hi, hj, same⟩ := h
  exact ⟨k, hj, hi, same.symm⟩

theorem Matched.right_unique (h' : Matched key l l' i j') : j = j' := by
  obtain ⟨k, hi, hj, same⟩ := h
  obtain ⟨k', hi', hj', same'⟩ := h'
  cases Option.some.inj (hi.symm.trans hi')
  exact eq_of_rank hj hj' (same.symm.trans same')

theorem Matched.left_unique (h' : Matched key l l' i' j) : i = i' :=
  h.symm.right_unique h'.symm

theorem Matched.lt_left : i < l.length := by
  obtain ⟨k, hi, -, -⟩ := h
  obtain ⟨a, found, -⟩ := Option.map_eq_some_iff.mp hi
  exact (List.getElem?_eq_some_iff.mp found).1

theorem Matched.lt_right : j < l'.length := h.symm.lt_left

end

/-- Only which keys are equal matters. -/
theorem Matched.congr {μ : Type} [DecidableEq μ] {key' : α → μ}
    (equal : ∀ a b, key a = key b ↔ key' a = key' b) (h : Matched key l l' i j) : Matched key' l l' i j := by
  obtain ⟨k, hi, hj, same⟩ := h
  obtain ⟨a, found, rfl⟩ := Option.map_eq_some_iff.mp hi
  obtain ⟨b, found', text⟩ := Option.map_eq_some_iff.mp hj
  have ranks (l : List α) (i : Nat) : rank key l (key a) i = rank key' l (key' a) i :=
    List.countP_congr fun c _ => decide_eq_true_iff.trans
      ((equal c a).trans decide_eq_true_iff.symm)
  rw [ranks, ranks] at same
  have text' := (equal b a).mp text
  exact ⟨key' a, congrArg _ found, (congrArg _ found').trans (congrArg some text'), same⟩

/-! ## The first entry that is free -/

/-- Entry `j` of `l'` is the first one with the key of entry `i` of `l` that no earlier entry with
this key is mapped to. -/
structure FirstFree (key : α → κ) (l l' : List α) (m : Nat → Option Nat) (i j : Nat) : Prop where
  same : ∃ k, l[i]?.map key = some k ∧ l'[j]?.map key = some k
  free : ∀ i' < i, m i' = some j → l[i']?.map key ≠ l[i]?.map key
  first : ∀ j' < j, l'[j']?.map key = l[i]?.map key →
    ∃ i' < i, m i' = some j' ∧ l[i']?.map key = l[i]?.map key

/-- An injective map takes every entry to the first free one just if it takes it to its
counterpart. -/
theorem firstFree_iff {m : Nat → Option Nat} (inj : ∀ i i' j, m i = some j → m i' = some j → i = i') :
    (∀ i j, FirstFree key l l' m i j → m i = some j) ↔
      ∀ i j, Matched key l l' i j → m i = some j := by
  constructor
  · intro rule i
    induction i using Nat.strongRecOn with
    | ind i ih =>
      rintro j ⟨k, hi, hj, same⟩
      refine rule i j ⟨⟨k, hi, hj⟩, fun i' lt taken equal => ?_, fun j' lt equal => ?_⟩
      · -- the counterpart of an earlier entry comes before `j`
        rw [hi] at equal
        obtain ⟨j', lt', hj', rank'⟩ := exists_rank (same ▸ rank_lt equal lt)
        have := ih i' lt j' ⟨k, equal, hj', rank'.symm⟩
        rw [taken] at this
        cases this
        exact absurd lt' (Nat.lt_irrefl _)
      · rw [hi] at equal ⊢
        obtain ⟨i', lt', hi', rank'⟩ := exists_rank (same ▸ rank_lt equal lt)
        exact ⟨i', lt', ih i' lt' j' ⟨k, hi', equal, rank'⟩, hi'⟩
  · rintro rule i j ⟨⟨k, hi, hj⟩, free, first⟩
    refine rule i j ⟨k, hi, hj, ?_⟩
    rcases Nat.lt_trichotomy (rank key l k i) (rank key l' k j) with lt | eq | gt
    · obtain ⟨j', lt', hj', rank'⟩ := exists_rank lt
      obtain ⟨i', before, taken, -⟩ := first j' lt' (hj'.trans hi.symm)
      have mine := rule i j' ⟨k, hi, hj', rank'.symm⟩
      exact absurd (inj i' i j' taken mine) (Nat.ne_of_lt before)
    · exact eq
    · obtain ⟨i', lt', hi', rank'⟩ := exists_rank gt
      exact absurd (hi'.trans hi.symm) (free i' lt' (rule i' j ⟨k, hi', hj, rank'⟩))

end Counterparts
