import Mathlib.Data.List.Basic

/-!
# Runs of guarded transition systems

A system is a partial step function over states and labels.  A *run* follows a
list of labels, and a *guarded* run meets a predicate on the state before each
step.  A system with several parties puts the acting party into the label, so a
run is one interleaving of their steps.

An invariant that holds at the start and survives every guarded step holds in
every state a guarded run reaches (`Exec.invariant`).  Runs compose and split
(`Exec.append`, `Exec.split`), so a fact about the end of a run is a fact about
every state on the way (`Visits`).
-/

namespace Run

universe u v

variable {σ : Type u} {α : Type v}

/-- `Exec step guard s as t`: the labels `as` lead from `s` to `t`, and each of
them is enabled and meets the guard in the state before it. -/
inductive Exec (step : σ → α → Option σ) (guard : σ → α → Prop) : σ → List α → σ → Prop where
  | nil {s : σ} : Exec step guard s [] s
  | cons {s t u : σ} {a : α} {as : List α} :
      guard s a → step s a = some t → Exec step guard t as u → Exec step guard s (a :: as) u

variable {step : σ → α → Option σ} {guard : σ → α → Prop} {I : σ → Prop} {s t u : σ} {as : List α}

/-- The rule of invariants. -/
theorem Exec.invariant (keep : ∀ s a t, I s → guard s a → step s a = some t → I t)
    (run : Exec step guard s as t) (start : I s) : I t := by
  induction run with
  | nil => exact start
  | cons hg hs _ ih => exact ih (keep _ _ _ start hg hs)

theorem Exec.append {bs : List α} (h1 : Exec step guard s as t) (h2 : Exec step guard t bs u) :
    Exec step guard s (as ++ bs) u := by
  induction h1 with
  | nil => exact h2
  | cons hg hs _ ih => exact .cons hg hs (ih h2)

/-- A run over a concatenation passes through a state between its two parts. -/
theorem Exec.split {bs : List α} (h : Exec step guard s (as ++ bs) u) :
    ∃ t, Exec step guard s as t ∧ Exec step guard t bs u := by
  induction as generalizing s with
  | nil => exact ⟨s, .nil, h⟩
  | cons a as ih =>
    cases h with
    | cons hg hs rest =>
      obtain ⟨t, h1, h2⟩ := ih rest
      exact ⟨t, .cons hg hs h1, h2⟩

/-- The labels determine where a run ends. -/
theorem Exec.deterministic (h1 : Exec step guard s as t) (h2 : Exec step guard s as u) : t = u := by
  induction h1 with
  | nil => cases h2; rfl
  | cons hg hs _ ih =>
    cases h2 with
    | cons hg' hs' rest' =>
      rw [hs] at hs'
      cases hs'
      exact ih rest'

/-- The states on the way: a run over the labels passes through `u`. -/
def Visits (step : σ → α → Option σ) (guard : σ → α → Prop) (s : σ) (as : List α) (u : σ) : Prop :=
  ∃ before after, as = before ++ after ∧ Exec step guard s before u

/-- An invariant of the steps holds on the way. -/
theorem Visits.invariant (keep : ∀ s a t, I s → guard s a → step s a = some t → I t)
    (visit : Visits step guard s as u) (start : I s) : I u := by
  obtain ⟨_, _, _, run⟩ := visit
  exact run.invariant keep start

/-- The run goes on from each state on the way. -/
theorem Visits.rest (visit : Visits step guard s as u) (run : Exec step guard s as t) :
    ∃ bs, Exec step guard u bs t := by
  obtain ⟨before, after, rfl, toU⟩ := visit
  obtain ⟨u', toU', rest⟩ := run.split
  cases toU.deterministic toU'
  exact ⟨after, rest⟩

/-- A weaker guard admits the same run. -/
theorem Exec.mono {guard' : σ → α → Prop} (weaker : ∀ s a, guard s a → guard' s a)
    (run : Exec step guard s as t) : Exec step guard' s as t := by
  induction run with
  | nil => exact .nil
  | cons hg hs _ ih => exact .cons (weaker _ _ hg) hs ih

/-- What holds of all labels of a run may be used at each of its steps. -/
theorem Exec.forall_labels {P : α → Prop} (run : Exec step guard s as t) (all : ∀ a ∈ as, P a) :
    Exec step (fun s a => guard s a ∧ P a) s as t := by
  induction run with
  | nil => exact .nil
  | cons hg hs _ ih =>
    obtain ⟨first, others⟩ := List.forall_mem_cons.mp all
    exact .cons ⟨hg, first⟩ hs (ih others)

/-- An invariant may be used at each step of a run. -/
theorem Exec.with_invariant (keep : ∀ s a t, I s → guard s a → step s a = some t → I t)
    (run : Exec step guard s as t) (start : I s) :
    Exec step (fun s a => guard s a ∧ I s) s as t := by
  induction run with
  | nil => exact .nil
  | cons hg hs _ ih => exact .cons ⟨hg, start⟩ hs (ih (keep _ _ _ start hg hs))

/-! ## Version numbers

A version number that only grows and changes whenever a property may be lost: while it stays,
so does the property. -/

/-- From `s` to `t` the version has grown, or the property was kept. -/
structure Tracks (version : σ → Nat) (I : σ → Prop) (s t : σ) : Prop where
  le : version s ≤ version t
  kept : version t = version s → I s → I t

variable {version : σ → Nat} {I : σ → Prop}

theorem Tracks.refl (s : σ) : Tracks version I s s := ⟨Nat.le_refl _, fun _ h => h⟩

theorem Tracks.trans (h1 : Tracks version I s t) (h2 : Tracks version I t u) :
    Tracks version I s u where
  le := Nat.le_trans h1.le h2.le
  kept same h := by
    have first : version t = version s := Nat.le_antisymm (same ▸ h2.le) h1.le
    exact h2.kept (same.trans first.symm) (h1.kept first h)

/-- A step that counts. -/
theorem Tracks.of_lt (h : version s < version t) : Tracks version I s t where
  le := Nat.le_of_lt h
  kept same := absurd same (Nat.ne_of_gt h)

/-- What every step tracks, a run tracks. -/
theorem Exec.tracks (each : ∀ s a t, guard s a → step s a = some t → Tracks version I s t)
    (run : Exec step guard s as t) : Tracks version I s t := by
  induction run with
  | nil => exact .refl _
  | cons hg hs _ ih => exact (each _ _ _ hg hs).trans ih

/-- The state the labels lead to, if each of them is enabled and meets the guard. -/
def after (step : σ → α → Option σ) (guard : σ → α → Prop) [∀ s a, Decidable (guard s a)] :
    σ → List α → Option σ
  | s, [] => some s
  | s, a :: as => if guard s a then (step s a).bind fun t => after step guard t as else none

/-- A computed run is a run. -/
theorem Exec.of_after [∀ s a, Decidable (guard s a)] (h : after step guard s as = some t) :
    Exec step guard s as t := by
  induction as generalizing s with
  | nil => cases h; exact .nil
  | cons a as ih =>
    rw [after] at h
    split at h
    next met =>
      obtain ⟨u, hs, rest⟩ := Option.bind_eq_some_iff.1 h
      exact .cons met hs (ih rest)
    · cases h

end Run
