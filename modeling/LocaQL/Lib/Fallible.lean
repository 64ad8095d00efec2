import Mathlib.Data.List.Basic

/-!
# Computations that may fail

What is known of the parts of a computation in `Except` that gave a result, and a rule of
invariants for the loops of a computation in `Option`.
-/

namespace Fallible

open List

variable {ε α β : Type} {f : α → Except ε β}

theorem bind_ok {x : Except ε α} {b : β} : (x >>= f) = .ok b ↔ ∃ a, x = .ok a ∧ f a = .ok b := by
  cases x with
  | error e => exact iff_of_false (by simp [bind, Except.bind]) (by simp)
  | ok a => simp [bind, Except.bind]

theorem ok_of_toOption {x : Except ε α} {a : α} (h : x.toOption = some a) : x = .ok a := by
  cases x with
  | error err => cases h
  | ok b =>
    cases h
    rfl

theorem mapM_ok_iff {l : List α} {r : List β} : l.mapM f = .ok r ↔ l.map f = r.map .ok := by
  induction l generalizing r with
  | nil =>
    cases r with
    | nil => exact iff_of_true rfl rfl
    | cons b r => exact iff_of_false nofun nofun
  | cons a l ih =>
    simp only [mapM_cons, bind_ok, ih, map_cons]
    constructor
    · rintro ⟨b, first, bs, rest, is⟩
      cases is
      rw [first, rest, map_cons]
    · intro same
      cases r with
      | nil => cases same
      | cons b r =>
        obtain ⟨first, rest⟩ := List.cons.inj same
        exact ⟨b, first, r, rest, rfl⟩

theorem mem_of_mapM {l : List α} {r : List β} (h : l.mapM f = .ok r) :
    (∀ a ∈ l, ∃ b ∈ r, f a = .ok b) ∧ ∀ b ∈ r, ∃ a ∈ l, f a = .ok b := by
  have same := mapM_ok_iff.mp h
  constructor
  · intro a mem
    obtain ⟨b, there, is⟩ := mem_map.mp (same ▸ mem_map_of_mem mem)
    exact ⟨b, there, is.symm⟩
  · intro b mem
    exact mem_map.mp (same ▸ mem_map_of_mem mem)

theorem mapM_ok {l : List α} (h : ∀ a ∈ l, ∃ b, f a = .ok b) : ∃ r, l.mapM f = .ok r := by
  induction l with
  | nil => exact ⟨[], rfl⟩
  | cons a l ih =>
    obtain ⟨⟨b, is⟩, rest⟩ := forall_mem_cons.mp h
    obtain ⟨bs, are⟩ := ih rest
    refine ⟨b :: bs, mapM_ok_iff.mpr ?_⟩
    rw [map_cons, is, mapM_ok_iff.mp are, map_cons]

/-! ## Loops over an index

Here a failure is a `none`: an index or a slice out of range, or a loop that does not end. -/

section Loop

variable {σ ρ : Type} {P : α → Prop} {Q : β → Prop}

/-- There is a result, and it is as said. -/
def Gives (P : α → Prop) (x : Option α) : Prop := ∃ a ∈ x, P a

theorem Gives.bind {x : Option α} {f : α → Option β} (h : Gives P x)
    (next : ∀ a ∈ x, P a → Gives Q (f a)) : Gives Q (x >>= f) := by
  obtain ⟨a, is, holds⟩ := h
  rw [Option.mem_def.mp is]
  exact next a is holds

theorem Gives.isSome {x : Option α} (h : Gives P x) : x.isSome := by
  obtain ⟨a, is, -⟩ := h
  exact Option.isSome_of_mem is

/-- The loop `for i < len`.  A round leads to the next index and state, or to the result. -/
def loop (len : Nat) (round : Nat → σ → Option (Nat × σ ⊕ ρ)) (done : Nat → σ → Option ρ) :
    Nat → Nat → σ → Option ρ
  | 0, _, _ => none
  | n + 1, i, x =>
    if i < len then
      (round i x).bind fun
        | .inl (i, x) => loop len round done n i x
        | .inr r => some r
    else done i x

/-- A loop whose rounds go ahead and keep an invariant ends. -/
theorem Gives.loop {len n i : Nat} {x : σ} {round : Nat → σ → Option (Nat × σ ⊕ ρ)}
    {done : Nat → σ → Option ρ} {P : ρ → Prop} (I : Nat → σ → Prop) (fuel : len - i < n)
    (start : I i x) (keep : ∀ i x, I i x → i < len →
      Gives (Sum.elim (fun next => i < next.1 ∧ I next.1 next.2) P) (round i x))
    (ends : ∀ i x, I i x → len ≤ i → Gives P (done i x)) :
    Gives P (Fallible.loop len round done n i x) := by
  induction n generalizing i x with
  | zero => exact absurd fuel (Nat.not_lt_zero _)
  | succ n ih =>
    rw [Fallible.loop]
    split
    next inside =>
      refine (keep i x start inside).bind fun next _ holds => ?_
      cases next with
      | inl next => exact ih (by have := holds.1; omega) holds.2
      | inr r => exact ⟨r, rfl, holds⟩
    next outside => exact ends i x start (Nat.le_of_not_lt outside)

end Loop

end Fallible
