import LocaQL.Catalog.IngestionLabels
import LocaQL.Lib.Counterparts

/-!
# Which old row gives a row its label

Carrying labels over is meant to go by the cells of the rows: in their order, the new rows use up
the old rows with the same cells, and a row that finds none takes over the old row at its
position (`Reconciled`).  The rows are compared by their JSON texts, though, in which all the
bytes that are not UTF-8 look alike and a nil row differs from an empty one.  The labels come out
right, whatever they are, exactly for rows whose counterparts by cells are also
counterparts by runes (`reconciled_iff`).
-/

namespace LocaQL

open Counterparts List

section

variable {ρ : Type} [RowText ρ] {oldRows newRows : List ρ} {i j : Nat}

theorem countP_sameText (row : ρ) (rows : List ρ) (i : Nat) :
    (rows.take i).countP (sameText row) = rank RowText.marshal rows (RowText.marshal row) i :=
  countP_congr fun _ _ => beq_iff_eq.trans decide_eq_true_iff.symm

/-- The first loop pairs the rows that are counterparts by their texts. -/
theorem matchRows_iff : (matchRows (availableRows 0 oldRows) newRows)[i]? = some (some j) ↔
    Matched RowText.marshal newRows oldRows i j := by
  have takes {row : ρ} (new : newRows[i]? = some row) :
      (matchRows (availableRows 0 oldRows) newRows)[i]? = some ((positions row 0 oldRows)[
        rank RowText.marshal newRows (RowText.marshal row) i]?) := by
    rw [getElem?_matchRows new, get?_availableRows, countP_sameText]
  constructor
  · intro taken
    have lt : i < newRows.length := by
      rw [← length_matchRows (availableRows 0 oldRows)]
      exact (List.getElem?_eq_some_iff.mp taken).1
    have new := getElem?_eq_getElem lt
    rw [takes new, Option.some.injEq] at taken
    have within := (List.getElem?_eq_some_iff.mp taken).1
    rw [length_positions, ← take_length (l := oldRows), countP_sameText] at within
    obtain ⟨j', -, there, rank'⟩ := exists_rank within
    obtain ⟨row', old, text⟩ := Option.map_eq_some_iff.mp there
    have at_ := getElem?_positions old 0
    rw [countP_sameText, text, rank', Nat.zero_add] at at_
    have same : positions row' 0 oldRows = positions newRows[i] 0 oldRows := by
      unfold positions sameText
      rw [text]
    rw [same, taken] at at_
    cases at_
    exact ⟨_, congrArg (Option.map RowText.marshal) new, there, rank'.symm⟩
  · rintro ⟨k, here, there, same⟩
    obtain ⟨row, new, rfl⟩ := Option.map_eq_some_iff.mp here
    obtain ⟨row', old, text⟩ := Option.map_eq_some_iff.mp there
    have at_ := getElem?_positions old 0
    rw [countP_sameText, text, ← same, Nat.zero_add] at at_
    have same : positions row' 0 oldRows = positions row 0 oldRows := by
      unfold positions sameText
      rw [text]
    rw [takes new, ← same, at_]

theorem unmatched (lt : i < newRows.length)
    (none : ∀ j, ¬Matched RowText.marshal newRows oldRows i j) :
    (matchRows (availableRows 0 oldRows) newRows)[i]? = some Option.none := by
  rw [← length_matchRows (availableRows 0 oldRows)] at lt
  rw [getElem?_eq_getElem lt]
  cases taken : (matchRows (availableRows 0 oldRows) newRows)[i] with
  | none => rfl
  | some j => exact absurd (matchRows_iff.mp (List.getElem?_eq_some_iff.mpr ⟨lt, taken⟩)) (none j)

theorem mem_used (h : j ∈ (matchRows (availableRows 0 oldRows) newRows).filterMap id) :
    ∃ i, Matched RowText.marshal newRows oldRows i j := by
  obtain ⟨_, mem, rfl⟩ := mem_filterMap.mp h
  obtain ⟨i, taken⟩ := mem_iff_getElem?.mp mem
  exact ⟨i, matchRows_iff.mp taken⟩

/-- A new row takes its label from its counterpart, or else from the old row at its own position
if that one has no counterpart either. -/
def Carried {κ : Type} [DecidableEq κ] (key : ρ → κ) (newRows oldRows : List ρ) (i j : Nat) :
    Prop :=
  Matched key newRows oldRows i j ∨
    i = j ∧ i < newRows.length ∧ j < oldRows.length ∧
      (∀ j', ¬Matched key newRows oldRows i j') ∧ ∀ i', ¬Matched key newRows oldRows i' j

section

variable {κ : Type} [DecidableEq κ] {key : ρ → κ} {i' j' : Nat}

omit [RowText ρ] in
theorem Carried.right_unique (h : Carried key newRows oldRows i j)
    (h' : Carried key newRows oldRows i j') : j = j' := by
  rcases h with h | ⟨rfl, -, -, none, -⟩
  · rcases h' with h' | ⟨rfl, -, -, none, -⟩
    · exact h.right_unique h'
    · exact absurd h (none j)
  · rcases h' with h' | ⟨rfl, -⟩
    · exact absurd h' (none j')
    · rfl

omit [RowText ρ] in
theorem Carried.left_unique (h : Carried key newRows oldRows i j)
    (h' : Carried key newRows oldRows i' j) : i = i' := by
  rcases h with h | ⟨rfl, -, -, -, none⟩
  · rcases h' with h' | ⟨rfl, -, -, -, none⟩
    · exact h.left_unique h'
    · exact absurd h (none i)
  · rcases h' with h' | ⟨rfl, -⟩
    · exact absurd h' (none i')
    · rfl

end

section

variable {labels : List String} {current : String}

theorem reconcileIngestionPartitions_carried (ne : current ≠ "")
    (carried : Carried RowText.marshal newRows oldRows i j) :
    (reconcileIngestionPartitions oldRows newRows labels current)[i]? =
      some (labelAt labels current j) := by
  rw [reconcileIngestionPartitions_eq ne]
  rcases carried with h | ⟨rfl, lt, old, none, free⟩
  · exact getElem?_assignRows_some (matchRows_iff.mpr h)
  refine (getElem?_assignRows_none (unmatched lt none)).trans (congrArg some ?_)
  rw [Nat.zero_add]
  refine if_pos ⟨old, fun used => ?_⟩
  obtain ⟨i', taken⟩ := mem_used used
  exact free i' taken

theorem reconcileIngestionPartitions_fresh (ne : current ≠ "") (lt : i < newRows.length)
    (fresh : ∀ j, ¬Carried RowText.marshal newRows oldRows i j) :
    (reconcileIngestionPartitions oldRows newRows labels current)[i]? = some current := by
  have none : ∀ j, ¬Matched RowText.marshal newRows oldRows i j := fun j h => fresh j (.inl h)
  rw [reconcileIngestionPartitions_eq ne]
  refine (getElem?_assignRows_none (unmatched lt none)).trans (congrArg some (if_neg ?_))
  rw [Nat.zero_add]
  rintro ⟨old, free⟩
  refine fresh i (.inr ⟨rfl, lt, old, none, fun i' taken => free ?_⟩)
  exact mem_filterMap.mpr ⟨_, mem_of_getElem? (matchRows_iff.mpr taken), rfl⟩

end

end

/-! ## By cells and by runes -/

/-- How labels are meant to be carried over: some map takes new rows to old ones, no two to the
same, and each row that has an equal old row left to the first of them. -/
structure Reconciled (oldRows newRows : List ByteRow) (labels : List String) (current : String)
    (result : List String) : Prop where
  length : result.length = newRows.length
  nonempty : ∀ label ∈ result, label ≠ ""
  mapped : ∃ m : Nat → Option Nat,
    (∀ i j, m i = some j → i < newRows.length ∧ j < oldRows.length) ∧
    (∀ i i' j, m i = some j → m i' = some j → i = i') ∧
    (∀ i < newRows.length, result[i]? = some ((m i).elim current (labelAt labels current))) ∧
    ∀ i j, FirstFree ByteRow.cells newRows oldRows m i j → m i = some j
  kept : newRows.map ByteRow.cells = oldRows.map ByteRow.cells →
    ∀ i < newRows.length, result[i]? = some (labelAt labels current i)

/-- The counterparts by cells are those that give the labels. -/
def CellsDecide (oldRows newRows : List ByteRow) : Prop :=
  ∀ i j, Matched ByteRow.cells newRows oldRows i j → Carried ByteRow.runes newRows oldRows i j

variable {oldRows newRows : List ByteRow} {labels : List String} {current : String}

theorem matched_runes {i j : Nat} :
    Matched RowText.marshal newRows oldRows i j ↔ Matched ByteRow.runes newRows oldRows i j :=
  ⟨Matched.congr fun _ _ => marshal_eq_iff, Matched.congr fun _ _ => marshal_eq_iff.symm⟩

theorem carried_runes {i j : Nat} :
    Carried RowText.marshal newRows oldRows i j ↔ Carried ByteRow.runes newRows oldRows i j := by
  simp only [Carried, matched_runes]

/-- Every result comes from one map, the one that `Carried` describes. -/
theorem exists_carried (oldRows newRows : List ByteRow) : ∃ m : Nat → Option Nat,
    (∀ i j, m i = some j ↔ Carried ByteRow.runes newRows oldRows i j) ∧
    ∀ labels current, current ≠ "" → ∀ i < newRows.length,
      (reconcileIngestionPartitions oldRows newRows labels current)[i]? =
        some ((m i).elim current (labelAt labels current)) := by
  classical
  refine ⟨fun i => if h : ∃ j, Carried ByteRow.runes newRows oldRows i j then some h.choose
    else none, fun i j => ?_, fun labels current ne i lt => ?_⟩
  · dsimp only
    split
    next h =>
      rw [Option.some.injEq]
      exact ⟨fun eq => eq ▸ h.choose_spec, fun carried => h.choose_spec.right_unique carried⟩
    next h => exact ⟨nofun, fun carried => absurd ⟨j, carried⟩ h⟩
  · dsimp only
    split
    next h =>
      exact reconcileIngestionPartitions_carried ne (carried_runes.mpr h.choose_spec)
    next h =>
      exact reconcileIngestionPartitions_fresh ne lt fun j carried =>
        h ⟨j, carried_runes.mp carried⟩

theorem matched_self (same : newRows.map ByteRow.cells = oldRows.map ByteRow.cells) {i : Nat}
    (lt : i < newRows.length) : Matched ByteRow.cells newRows oldRows i i := by
  have ranks (rows : List ByteRow) (k : List Json.Bytes) :
      rank ByteRow.cells rows k i = ((rows.map ByteRow.cells).take i).countP (· = k) := by
    rw [← map_take, countP_map]
    rfl
  refine ⟨ByteRow.cells newRows[i], by rw [getElem?_eq_getElem lt]; rfl, ?_, ?_⟩
  · rw [← getElem?_map, ← same, getElem?_map, getElem?_eq_getElem lt]
    rfl
  · rw [ranks, ranks, same]

theorem reconciled_of_cellsDecide (ne : current ≠ "") (h : CellsDecide oldRows newRows) :
    Reconciled oldRows newRows labels current
      (reconcileIngestionPartitions oldRows newRows labels current) := by
  obtain ⟨m, carried, result⟩ := exists_carried oldRows newRows
  have inj : ∀ i i' j, m i = some j → m i' = some j → i = i' := fun i i' j h h' =>
    ((carried i j).mp h).left_unique ((carried i' j).mp h')
  have takes : ∀ i j, Matched ByteRow.cells newRows oldRows i j → m i = some j :=
    fun i j matched => (carried i j).mpr (h i j matched)
  refine ⟨length_reconcileIngestionPartitions ne, fun _ => reconcileIngestionPartitions_ne ne,
    ⟨m, fun i j mapped => ?_, inj, result labels current ne, (firstFree_iff inj).mpr takes⟩,
    fun same i lt => ?_⟩
  · rcases (carried i j).mp mapped with matched | ⟨-, new, old, -⟩
    · exact ⟨matched.lt_left, matched.lt_right⟩
    · exact ⟨new, old⟩
  · rw [result labels current ne i lt, takes i i (matched_self same lt)]
    rfl

/-- A label of its own for each old row. -/
def distinctLabels (n : Nat) : List String :=
  (List.range n).map fun k => String.ofList (List.replicate (k + 1) 'a')

theorem labelAt_distinctLabels {n j : Nat} (lt : j < n) :
    labelAt (distinctLabels n) "b" j = String.ofList (List.replicate (j + 1) 'a') := by
  refine labelAt_of_some ?_ fun empty => ?_
  · rw [distinctLabels, getElem?_map, getElem?_range lt]
    rfl
  · exact absurd (String.ofList_injective (empty.trans String.ofList_nil.symm)) nofun

/-- The labels of the rows come out right, whatever labels the old rows have, if and only if the
counterparts by cells decide them. -/
theorem reconciled_iff (oldRows newRows : List ByteRow) :
    (∀ labels current, current ≠ "" → Reconciled oldRows newRows labels current
      (reconcileIngestionPartitions oldRows newRows labels current)) ↔
      CellsDecide oldRows newRows := by
  refine ⟨fun always i j matched => ?_, fun h _ _ ne => reconciled_of_cellsDecide ne h⟩
  obtain ⟨m, carried, result⟩ := exists_carried oldRows newRows
  obtain ⟨m', within, inj, result', rule⟩ :=
    (always (distinctLabels oldRows.length) "b" (by decide)).mapped
  have takes := (firstFree_iff inj).mp rule i j matched
  refine (carried i j).mp ?_
  -- distinct labels tell which old row was used
  have same := (result' i matched.lt_left).symm.trans
    (result _ "b" (by decide) i matched.lt_left)
  rw [takes, Option.some.injEq, Option.elim_some, labelAt_distinctLabels matched.lt_right] at same
  cases used : m i with
  | none =>
    rw [used] at same
    exact absurd (congrArg String.toList same) (by simp [replicate_succ])
  | some j' =>
    have lt : j' < oldRows.length := by
      rcases (carried i j').mp used with matched | ⟨-, -, old, -⟩
      · exact matched.lt_right
      · exact old
    rw [used, Option.elim_some, labelAt_distinctLabels lt] at same
    have lengths := congrArg List.length (String.ofList_injective same)
    rw [length_replicate, length_replicate] at lengths
    rw [Nat.succ.inj lengths]

/-- Two bytes that are not UTF-8 change places, and their labels do not. -/
theorem invalid_bytes_not_reconciled :
    ¬Reconciled [some [[0xff]], some [[0xfe]]] [some [[0xfe]], some [[0xff]]]
      ["20240101", "20240102"] "20240103"
      (reconcileIngestionPartitions (ρ := ByteRow) [some [[0xff]], some [[0xfe]]]
        [some [[0xfe]], some [[0xff]]] ["20240101", "20240102"] "20240103") := by
  intro h
  obtain ⟨m, -, -, result, rule⟩ := h.mapped
  have first : m 0 = some 1 := by
    refine rule 0 1 ⟨⟨_, rfl, rfl⟩, fun i' lt => absurd lt (Nat.not_lt_zero i'), ?_⟩
    intro j' lt same
    cases Nat.lt_one_iff.mp lt
    exact absurd same (by decide)
  have label := result 0 (by decide)
  rw [first] at label
  exact absurd label (by decide)

end LocaQL
