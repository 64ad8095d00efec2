import LocaQL.Lib.GoMap
import Mathlib.Algebra.BigOperators.Group.Finset.Basic
import Mathlib.Algebra.Order.Ring.Int
import Mathlib.Algebra.Order.Sub.Basic
import Mathlib.Data.Multiset.OrderedMonoid

/-!
# Differences of multisets by counting

A map of signed counts, to which the keys of one list are added and from which those of another
one are taken off: its positive and its negative part are the two differences of the lists as
multisets (`delta_eq`).  They depend only on which keys are equal (`missing_congr`).
-/

namespace CountMap

open List

variable {α κ μ : Type} [DecidableEq κ] [DecidableEq μ]

/-- `m[k] += d`. -/
def add (d : Int) (m : GoMap κ Int) (k : κ) : GoMap κ Int := m.set k ((m.get? k).getD 0 + d)

def counts (before after : List κ) : GoMap κ Int :=
  after.foldl (add (-1)) (before.foldl (add 1) ∅)

/-- The sums of the positive and of the negative counts. -/
def delta (before after : List κ) : Nat × Nat :=
  let values := (counts before after).values
  ((values.map Int.toNat).sum, (values.map fun n => (-n).toNat).sum)

theorem get?_foldl_add (d : Int) (keys : List κ) (m : GoMap κ Int) (k : κ) :
    ((keys.foldl (add d) m).get? k).getD 0 = (m.get? k).getD 0 + d * keys.count k := by
  induction keys generalizing m with
  | nil => simp
  | cons key keys ih =>
    rw [foldl_cons, ih, add, GoMap.get?_set, count_cons]
    by_cases here : k = key
    · subst here
      simp [mul_add, add_assoc, add_comm d]
    · simp [here, Ne.symm here]

theorem get?_counts (before after : List κ) (k : κ) :
    ((counts before after).get? k).getD 0 = (before.count k : Int) - after.count k := by
  rw [counts, get?_foldl_add, get?_foldl_add, GoMap.get?_empty, Option.getD_none]
  omega

theorem sum_values (m : GoMap κ Int) (f : Int → Nat) :
    (m.values.map f).sum = ∑ k ∈ m.keys.toFinset, f ((m.get? k).getD 0) := by
  rw [sum_toFinset _ m.keys_nodup, GoMap.values, map_map]
  show _ = ((m.entries.map Sigma.fst).map _).sum
  rw [map_map]
  refine congrArg List.sum (map_congr_left fun e mem => ?_)
  have found : m.get? e.1 = some e.2 := (mem_dlookup_iff m.nodupKeys).mpr mem
  rw [Function.comp_apply, Function.comp_apply, found, Option.getD_some]

/-- How many entries of one list, as a multiset, the other one lacks. -/
def missing (l l' : List κ) : Nat := ((l : Multiset κ) - l').card

/-- A part of the counts that agrees with the counts of a multiset adds up to its size. -/
theorem sum_values_eq_card (m : GoMap κ Int) {f : Int → Nat} (zero : f 0 = 0) (s : Multiset κ)
    (agree : ∀ k, f ((m.get? k).getD 0) = s.count k) : (m.values.map f).sum = s.card := by
  rw [sum_values, Finset.sum_congr rfl fun k _ => agree k]
  refine Multiset.sum_count_eq_card fun k mem => ?_
  rw [mem_toFinset]
  by_contra missing
  have none : m.get? k = none := AList.lookup_eq_none.mpr missing
  have := agree k
  rw [none, Option.getD_none, zero] at this
  exact absurd mem (Multiset.count_eq_zero.mp this.symm)

theorem delta_eq (before after : List κ) :
    delta before after = (missing before after, missing after before) := by
  rw [delta]
  congr 1
  · refine sum_values_eq_card _ rfl _ fun k => ?_
    rw [get?_counts, Multiset.count_sub, Multiset.coe_count, Multiset.coe_count]
    omega
  · refine sum_values_eq_card _ rfl _ fun k => ?_
    rw [get?_counts, Multiset.count_sub, Multiset.coe_count, Multiset.coe_count]
    omega

theorem missing_add (l l' : List κ) : missing l l' + l'.length = missing l' l + l.length := by
  rw [missing, missing, ← Multiset.coe_card, ← Multiset.coe_card, ← Multiset.card_add,
    ← Multiset.card_add, ← Multiset.union_def, ← Multiset.union_def, Multiset.union_comm]

theorem missing_eq_zero {l l' : List κ} : missing l l' = 0 ↔ (l : Multiset κ) ≤ l' := by
  rw [missing, Multiset.card_eq_zero, tsub_eq_zero_iff_le]

theorem max_missing_eq_zero {l l' : List κ} :
    max (missing l l') (missing l' l) = 0 ↔ l.Perm l' := by
  rw [Nat.max_eq_zero_iff, missing_eq_zero, missing_eq_zero, ← Multiset.coe_eq_coe]
  exact ⟨fun h => le_antisymm h.1 h.2, fun h => ⟨h.le, h.ge⟩⟩

theorem missing_map {β : Type} [DecidableEq β] {f : β → κ} (inj : Function.Injective f)
    (l l' : List β) : missing (l.map f) (l'.map f) = missing l l' := by
  rw [missing, missing, Multiset.coe_sub, ← map_diff inj, Multiset.coe_card,
    length_map, Multiset.coe_sub, Multiset.coe_card]

/-- Two keys that tell the same entries apart give differences of the same size. -/
theorem missing_congr {f : α → κ} {g : α → μ} {R : α → Prop}
    (same : ∀ a b, R a → R b → (f a = f b ↔ g a = g b)) {l l' : List α} (hl : ∀ a ∈ l, R a)
    (hl' : ∀ a ∈ l', R a) : missing (l.map f) (l'.map f) = missing (l.map g) (l'.map g) := by
  classical
  -- both keys are injective images of the pair of them
  let Pair := {p : κ × μ // ∃ a, R a ∧ p = (f a, g a)}
  let pair : {a // R a} → Pair := fun a => ⟨(f a, g a), a, a.2, rfl⟩
  have fst : Function.Injective fun p : Pair => p.1.1 := by
    rintro ⟨_, a, ha, rfl⟩ ⟨_, b, hb, rfl⟩ eq
    exact Subtype.ext (Prod.ext eq ((same a b ha hb).mp eq))
  have snd : Function.Injective fun p : Pair => p.1.2 := by
    rintro ⟨_, a, ha, rfl⟩ ⟨_, b, hb, rfl⟩ eq
    exact Subtype.ext (Prod.ext ((same a b ha hb).mpr eq) eq)
  lift l to List {a // R a} using hl
  lift l' to List {a // R a} using hl'
  have first := missing_map fst (l.map pair) (l'.map pair)
  have second := missing_map snd (l.map pair) (l'.map pair)
  rw [map_map, map_map] at first second ⊢
  rw [map_map, map_map]
  exact first.trans second.symm

end CountMap
