import Mathlib.Data.List.Basic

/-!
# Channels as counters of slots

A Go channel of empty values with a buffer limits how many goroutines go on at the same time: a
goroutine sends before it goes on and receives when it is done.  Only the number of values in the
buffer matters.

A goroutine that waits to send waits for the others that have sent (`send_eq_none`).  If
what they wait for comes later in a fixed order, somebody goes on (`moves_of_order`).  How many of
a list of parties hold a slot is counted, and a change of one party changes the count by one
(`countP_set_gain`, `countP_set_lose`).
-/

/-- A buffered channel of empty values. -/
structure GoChannel where
  capacity : Nat
  length : Nat := 0
  bounded : length ≤ capacity := by omega

namespace GoChannel

open List

/-- `make(chan struct{}, capacity)`. -/
def make (capacity : Nat) : GoChannel := { capacity }

/-- `c <- struct{}{}`; `none` if it blocks. -/
def send (c : GoChannel) : Option GoChannel :=
  if h : c.length < c.capacity then some ⟨c.capacity, c.length + 1, h⟩ else none

/-- `<-c`; `none` if it blocks. -/
def receive (c : GoChannel) : Option GoChannel :=
  if 0 < c.length then some ⟨c.capacity, c.length - 1, Nat.le_trans (Nat.sub_le _ _) c.bounded⟩
  else none

section

variable {c c' : GoChannel}

theorem send_eq_some (h : c.send = some c') :
    c'.length = c.length + 1 ∧ c'.capacity = c.capacity := by
  rw [send] at h
  split at h
  · cases h
    exact ⟨rfl, rfl⟩
  · cases h

/-- A send blocks on a full buffer only. -/
theorem send_eq_none (h : c.send = none) : c.length = c.capacity := by
  rw [send] at h
  split at h
  · cases h
  next full => exact Nat.le_antisymm c.bounded (Nat.le_of_not_lt full)

theorem receive_eq_some (h : c.receive = some c') :
    c.length = c'.length + 1 ∧ c'.capacity = c.capacity := by
  rw [receive] at h
  split at h
  next some_ =>
    cases h
    exact ⟨(Nat.sub_add_cancel some_).symm, rfl⟩
  · cases h

/-- A receive does not block if there is a value. -/
theorem receive_isSome (h : 0 < c.length) : c.receive.isSome := by
  rw [receive, if_pos h]
  rfl

end

/-! ## Counting the holders of a slot -/

section

variable {α : Type} {p : α → Bool} {l : List α} {i : Nat} {a b : α}

theorem countP_set_same (found : l[i]? = some a) (same : p b = p a) :
    (l.set i b).countP p = l.countP p := by
  obtain ⟨lt, rfl⟩ := List.getElem?_eq_some_iff.mp found
  rw [countP_set lt, same]
  by_cases held : p l[i] = true
  · have := countP_pos_iff.mpr ⟨l[i], getElem_mem lt, held⟩
    rw [if_pos held]
    omega
  · rw [if_neg held]
    rfl

theorem countP_set_gain (found : l[i]? = some a) (before : p a = false) (after : p b = true) :
    (l.set i b).countP p = l.countP p + 1 := by
  obtain ⟨lt, rfl⟩ := List.getElem?_eq_some_iff.mp found
  rw [countP_set lt, before, after]
  rfl

theorem countP_set_lose (found : l[i]? = some a) (before : p a = true) (after : p b = false) :
    l.countP p = (l.set i b).countP p + 1 := by
  obtain ⟨lt, rfl⟩ := List.getElem?_eq_some_iff.mp found
  have := countP_pos_iff.mpr ⟨l[i], getElem_mem lt, before⟩
  rw [countP_set lt, before, after, if_pos rfl, if_neg Bool.false_ne_true]
  omega

end

/-! ## Waiting in an order -/

/-- Somebody moves, if whoever does not move waits for somebody who is at a later stage. -/
theorem moves_of_order {α : Type} (live moves : α → Prop) (stage : α → Nat) (top : Nat)
    (bounded : ∀ a, live a → stage a ≤ top)
    (waits : ∀ a, live a → moves a ∨ ∃ b, live b ∧ stage a < stage b) {a : α} (h : live a) :
    ∃ b, live b ∧ moves b := by
  generalize left : top - stage a = k
  induction k using Nat.strongRecOn generalizing a with
  | ind k ih =>
    rcases waits a h with goes | ⟨b, alive, later⟩
    · exact ⟨a, h, goes⟩
    · have := bounded b alive
      exact ih (top - stage b) (by omega) alive rfl

end GoChannel
