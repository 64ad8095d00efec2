import Mathlib.Data.Finset.Card
import Mathlib.Logic.Relation

/-!
# Walks that check for cycles

A graph whose inner nodes have children and whose other nodes are leaves is walked depth first.
On its way down the walk keeps the keys of the nodes it is below; it takes a node whose key it
is below for a cycle.  Keys may stand for more than one node.

`Walk` says what such a walk can find, leaving open for what other reasons it may fail.  A
walk that reports a cycle is below a node with the key of another one (`Walk.collides`), and
one that succeeds has met no such pair (`Walk.apart`).  If no node reaches another one with
its own key, these pairs are the cycles (`cyclic_of_collides`).
-/

namespace CycleCheck

universe u v

open Relation (ReflTransGen TransGen)

/-- The children of the inner nodes, and the key of each node. -/
structure Graph (ν : Type u) (κ : Type v) where
  children : ν → Option (List ν)
  key : ν → κ

variable {ν : Type u} {κ : Type v} {g : Graph ν κ}

namespace Graph

def Edge (g : Graph ν κ) (n c : ν) : Prop := ∃ cs, g.children n = some cs ∧ c ∈ cs

def Inner (g : Graph ν κ) (n : ν) : Prop := (g.children n).isSome

/-- A node that reaches itself is reachable. -/
def Cyclic (g : Graph ν κ) (n : ν) : Prop :=
  ∃ u, ReflTransGen g.Edge n u ∧ TransGen g.Edge u u

/-- A node that reaches an inner node with its own key is reachable. -/
def Collides (g : Graph ν κ) (n : ν) : Prop :=
  ∃ u w, ReflTransGen g.Edge n u ∧ TransGen g.Edge u w ∧ g.Inner w ∧ g.key u = g.key w

/-- A node that reaches another inner node with its own key has a cycle below it. -/
def Separated (g : Graph ν κ) : Prop :=
  ∀ u w, TransGen g.Edge u w → g.Inner w → g.key u = g.key w → u ≠ w → g.Cyclic u

end Graph

theorem inner_of_reaches {n c : ν} (reaches : TransGen g.Edge n c) : g.Inner n := by
  obtain ⟨_, ⟨cs, children, -⟩, -⟩ := TransGen.head'_iff.mp reaches
  exact Option.isSome_of_mem children

theorem collides_of_cyclic {n : ν} (cyclic : g.Cyclic n) : g.Collides n := by
  obtain ⟨u, reach, round⟩ := cyclic
  exact ⟨u, u, reach, round, inner_of_reaches round, rfl⟩

theorem cyclic_of_collides (separated : g.Separated) {n : ν} (collides : g.Collides n) :
    g.Cyclic n := by
  obtain ⟨u, w, reach, below, inner, same⟩ := collides
  by_cases eq : u = w
  · subst eq
    exact ⟨u, reach, below⟩
  · obtain ⟨c, down, round⟩ := separated u w below inner same eq
    exact ⟨c, reach.trans down, round⟩

theorem Graph.Collides.of_edge {n c : ν} (edge : g.Edge n c) (collides : g.Collides c) :
    g.Collides n := by
  obtain ⟨u, w, reach, rest⟩ := collides
  exact ⟨u, w, .head edge reach, rest⟩

/-! ## Walks -/

inductive Outcome where
  | ok
  | circular
  | failed
deriving Repr, DecidableEq

variable [DecidableEq κ]

/-- What a walk can find at a node, below nodes with the keys `visiting`. -/
inductive Walk (g : Graph ν κ) : Finset κ → ν → Outcome → Prop where
  | leaf {visiting : Finset κ} {n : ν} : g.children n = none → Walk g visiting n .ok
  | closes {visiting : Finset κ} {n : ν} :
      g.Inner n → g.key n ∈ visiting → Walk g visiting n .circular
  | descends {visiting : Finset κ} {n c : ν} :
      g.Edge n c → Walk g (insert (g.key n) visiting) c .circular → Walk g visiting n .circular
  | succeeds {visiting : Finset κ} {n : ν} :
      g.key n ∉ visiting → (∀ c, g.Edge n c → Walk g (insert (g.key n) visiting) c .ok) →
      Walk g visiting n .ok
  | fails {visiting : Finset κ} {n : ν} : Walk g visiting n .failed

/-- A walk reports a cycle at a node whose key it is below. -/
theorem Walk.collides {visiting : Finset κ} {n : ν} (walk : Walk g visiting n .circular) :
    g.Collides n ∨ ∃ w, ReflTransGen g.Edge n w ∧ g.Inner w ∧ g.key w ∈ visiting := by
  generalize found : Outcome.circular = outcome at walk
  induction walk with
  | leaf => cases found
  | @closes visiting n inner below => exact .inr ⟨n, .refl, inner, below⟩
  | @descends visiting n c edge _ ih =>
    rcases ih found with collides | ⟨w, reach, inner, below⟩
    · exact .inl (collides.of_edge edge)
    · rcases Finset.mem_insert.mp below with here | above
      · exact .inl ⟨n, w, .refl, .head' edge reach, inner, here.symm⟩
      · exact .inr ⟨w, .head edge reach, inner, above⟩
  | succeeds => cases found
  | fails => cases found

/-- A walk that succeeds meets no key twice on its way down. -/
theorem Walk.apart {visiting : Finset κ} {n : ν} (walk : Walk g visiting n .ok) :
    ¬ g.Collides n ∧ ∀ w, ReflTransGen g.Edge n w → g.Inner w → g.key w ∉ visiting := by
  generalize found : Outcome.ok = outcome at walk
  induction walk with
  | @leaf visiting n leaf =>
    have outer : ¬ g.Inner n := by simp [Graph.Inner, leaf]
    have last : ∀ w, ReflTransGen g.Edge n w → w = n := by
      intro w reach
      rcases ReflTransGen.cases_head reach with eq | ⟨c, ⟨cs, children, -⟩, -⟩
      · exact eq.symm
      · exact absurd (Option.isSome_of_mem children) outer
    refine ⟨?_, fun w reach inner => absurd (last w reach ▸ inner) outer⟩
    rintro ⟨u, w, reach, below, -⟩
    exact outer (last u reach ▸ inner_of_reaches below)
  | closes => cases found
  | descends => cases found
  | @succeeds visiting n fresh _ ih =>
    have apart : ∀ w, ReflTransGen g.Edge n w → g.Inner w → g.key w ∉ visiting := by
      intro w reach inner
      rcases ReflTransGen.cases_head reach with rfl | ⟨c, edge, reach⟩
      · exact fresh
      · exact fun above => (ih c edge found).2 w reach inner (Finset.mem_insert_of_mem above)
    refine ⟨?_, apart⟩
    rintro ⟨u, w, reach, below, inner, same⟩
    rcases ReflTransGen.cases_head reach with rfl | ⟨c, edge, reach⟩
    · obtain ⟨c, edge, reach⟩ := TransGen.head'_iff.mp below
      exact (ih c edge found).2 w reach inner (same ▸ Finset.mem_insert_self _ _)
    · exact (ih c edge found).1 ⟨u, w, reach, below, inner, same⟩
  | fails => cases found

end CycleCheck
