import Mathlib.Data.List.Basic

/-!
# Append logs

A log takes batches of items, one after the other, until it is closed.  It answers each batch
with the position of its first item, and the close with the number of items it has taken.  A
batch may ask for a position, and is taken only if that is where the log ends.

`History` are the sequences of answers such a log can give.  What the answers say about each
other is derived from it: the batches lie end to end (`History.tiles`), no position is given
twice to batches that asked for it (`History.asked_unique`), and nothing is taken after the
close (`History.closed_last`).
-/

namespace AppendLog

open List

universe u

variable {α : Type u} {closed : Bool} {i : Nat}

inductive Answer (α : Type u) where
  | appended (asked : Option Int) (offset : Nat) (batch : List α)
  | closed (count : Nat)

/-- The items that an answer acknowledges. -/
def Answer.batch : Answer α → List α
  | .appended _ _ batch => batch
  | .closed _ => []

/-- The positions that an answer gives away, up to the first that it does not. -/
def Answer.interval? : Answer α → Option (Nat × Nat)
  | .appended _ offset batch => some (offset, offset + batch.length)
  | .closed _ => none

/-- The acknowledged items, in the order of the answers. -/
def items (answers : List (Answer α)) : List α := answers.flatMap Answer.batch

def intervals (answers : List (Answer α)) : List (Nat × Nat) :=
  answers.filterMap Answer.interval?

@[simp] theorem items_nil : items ([] : List (Answer α)) = [] := rfl

@[simp] theorem items_append (left right : List (Answer α)) :
    items (left ++ right) = items left ++ items right :=
  flatMap_append

@[simp] theorem items_cons (a : Answer α) (answers : List (Answer α)) :
    items (a :: answers) = a.batch ++ items answers :=
  flatMap_cons

/-- The answers of a log that has, or has not, been closed. -/
inductive History : List (Answer α) → Bool → Prop where
  | start : History [] false
  | append {answers : List (Answer α)} (asked : Option Int) (batch : List α) :
      History answers false → (∀ position ∈ asked, position = (items answers).length) →
      History (answers ++ [.appended asked (items answers).length batch]) false
  | close {answers : List (Answer α)} {closed : Bool} :
      History answers closed → History (answers ++ [.closed (items answers).length]) true

/-! ## Intervals end to end -/

/-- The intervals lie end to end from `low` to `high`, in this order. -/
def Tiles (low : Nat) (intervals : List (Nat × Nat)) (high : Nat) : Prop :=
  match intervals with
  | [] => low = high
  | (first, next) :: rest => first = low ∧ first ≤ next ∧ Tiles next rest high

theorem Tiles.concat {low middle high : Nat} {before : List (Nat × Nat)}
    (tiles : Tiles low before middle) (le : middle ≤ high) :
    Tiles low (before ++ [(middle, high)]) high := by
  induction before generalizing low with
  | nil =>
    cases tiles
    exact ⟨rfl, le, rfl⟩
  | cons interval rest ih =>
    obtain ⟨here, grows, later⟩ := tiles
    exact ⟨here, grows, ih later⟩

variable {answers : List (Answer α)}

theorem History.tiles (h : History answers closed) :
    Tiles 0 (intervals answers) (items answers).length := by
  induction h with
  | start => exact rfl
  | @append answers asked batch _ _ ih =>
    have longer : (items answers).length ≤ (items answers).length + batch.length :=
      Nat.le_add_right _ _
    simpa [intervals, Answer.interval?, Answer.batch] using ih.concat longer
  | close _ ih =>
    rw [intervals, filterMap_append, filterMap_cons_none rfl, items_append]
    simpa [Answer.batch, intervals] using ih

/-! ## What comes before an answer, and what after it -/

/-- The answers up to some moment are a history; if the log was closed by then, the later
answers acknowledge no batch. -/
theorem History.split {before after : List (Answer α)} (h : History (before ++ after) closed) :
    ∃ then_, History before then_ ∧
      (then_ = true → closed = true ∧ ∀ a ∈ after, ∃ count, a = .closed count) := by
  generalize whole : before ++ after = answers at h
  induction h generalizing after with
  | start =>
    obtain ⟨rfl, rfl⟩ := append_eq_nil_iff.mp whole
    exact ⟨false, .start, nofun⟩
  | @append answers asked batch earlier accepted ih =>
    rcases eq_nil_or_concat' after with rfl | ⟨rest, last, rfl⟩
    · rw [append_nil] at whole
      exact ⟨false, whole ▸ .append asked batch earlier accepted, nofun⟩
    · rw [← append_assoc] at whole
      obtain ⟨then_, upTo, none⟩ := ih (append_inj' whole rfl).1
      refine ⟨then_, upTo, fun was => ?_⟩
      cases (none was).1
  | @close answers closed earlier ih =>
    rcases eq_nil_or_concat' after with rfl | ⟨rest, last, rfl⟩
    · rw [append_nil] at whole
      exact ⟨true, whole ▸ .close earlier, fun _ => ⟨rfl, by simp⟩⟩
    · rw [← append_assoc] at whole
      obtain ⟨init, same⟩ := append_inj' whole rfl
      obtain ⟨then_, upTo, none⟩ := ih init
      refine ⟨then_, upTo, fun was => ⟨rfl, ?_⟩⟩
      intro a mem
      rcases mem_append.mp mem with mem | mem
      · exact (none was).2 a mem
      · rw [mem_singleton.mp mem]
        exact ⟨_, singleton_injective same⟩

/-- What the last answer says about those before it. -/
theorem History.last {a : Answer α} (h : History (answers ++ [a]) closed) :
    (∃ asked batch, a = .appended asked (items answers).length batch ∧
        ∀ position ∈ asked, position = (items answers).length) ∨
      (closed = true ∧ a = .closed (items answers).length) := by
  generalize whole : answers ++ [a] = all at h
  cases h with
  | start => simp at whole
  | append asked batch earlier accepted =>
    obtain ⟨rfl, same⟩ := append_inj' whole rfl
    exact .inl ⟨asked, batch, singleton_injective same, accepted⟩
  | close earlier =>
    obtain ⟨rfl, same⟩ := append_inj' whole rfl
    exact .inr ⟨rfl, singleton_injective same⟩

/-- A close counts the items taken so far, and no batch is acknowledged after it. -/
theorem History.closed_last {before after : List (Answer α)} {count : Nat}
    (h : History (before ++ .closed count :: after) closed) :
    count = (items before).length ∧ ∀ a ∈ after, ∃ count, a = .closed count := by
  rw [← singleton_append, ← append_assoc] at h
  obtain ⟨then_, upTo, none⟩ := h.split
  rcases upTo.last with ⟨_, _, same, -⟩ | ⟨was, same⟩
  · cases same
  · cases same
    exact ⟨rfl, (none was).2⟩

/-- A batch starts where the items before it end, and there is where it asked to start. -/
theorem History.appended_at (h : History answers closed) {asked : Option Int} {offset : Nat}
    {batch : List α} (there : answers[i]? = some (.appended asked offset batch)) :
    offset = (items (answers.take i)).length ∧ ∀ position ∈ asked, position = offset := by
  obtain ⟨lt, here⟩ := List.getElem?_eq_some_iff.mp there
  rw [← take_append_drop (i + 1) answers, ← take_append_getElem lt, here] at h
  obtain ⟨then_, upTo, -⟩ := h.split
  rcases upTo.last with ⟨_, _, same, accepted⟩ | ⟨-, same⟩
  · cases same
    exact ⟨rfl, accepted⟩
  · cases same

/-- A batch with an item ends after it starts. -/
theorem length_items_take_lt {j : Nat} (lt : i < j) {asked : Option Int} {offset : Nat}
    {batch : List α} (there : answers[i]? = some (.appended asked offset batch))
    (some_ : batch ≠ []) : (items (answers.take i)).length < (items (answers.take j)).length := by
  obtain ⟨bound, here⟩ := List.getElem?_eq_some_iff.mp there
  have split := (take_append_drop (i + 1) (answers.take j)).symm
  rw [take_take, Nat.min_eq_left lt] at split
  have positive : 0 < batch.length := length_pos_iff.mpr some_
  rw [split, ← take_append_getElem bound, here]
  simp only [items_append, items_cons, items_nil, Answer.batch, append_nil, length_append]
  omega

/-- Of the batches that asked for one position, at most one that has items is taken. -/
theorem History.asked_unique (h : History answers closed) {j : Nat} {position : Int}
    {left right : Nat} {batch batch' : List α}
    (first : answers[i]? = some (.appended (some position) left batch))
    (second : answers[j]? = some (.appended (some position) right batch')) (some_ : batch ≠ [])
    (some_' : batch' ≠ []) : i = j := by
  obtain ⟨left_eq, asked⟩ := h.appended_at first
  obtain ⟨right_eq, asked'⟩ := h.appended_at second
  have here := asked position rfl
  have here' := asked' position rfl
  rcases Nat.lt_trichotomy i j with lt | eq | lt
  · have := length_items_take_lt lt first some_
    omega
  · exact eq
  · have := length_items_take_lt lt second some_'
    omega

end AppendLog
