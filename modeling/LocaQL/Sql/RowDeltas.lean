import LocaQL.Sql.Statements
import LocaQL.Catalog.Partitioning
import LocaQL.Lib.CountMap

/-!
# Affected rows

For a `MERGE` the driver reports no count, and the number of affected rows is read off the rows
before and after it: how many went and how many came, by their JSON texts.  The numbers are the
differences of the two tables, in whatever rows they hold, exactly if texts tell apart
what the values of the table's columns do (`exactDelta_iff`).  A row that is shorter than the
schema has another text than the same row with its NULLs, and bytes that are not UTF-8 have the
same text as others.
-/

namespace LocaQL.Sql

open CountMap

section

variable {ρ : Type} [RowText ρ]

/-- How many rows went and how many came. -/
def storedRowMultisetDelta (before after : List ρ) : Nat × Nat :=
  delta (before.map RowText.marshal) (after.map RowText.marshal)

/-- `effectiveDMLAffectedRows`, where the driver's count is not negative. -/
def effectiveDMLAffectedRows (t : StatementType) (driverRows : Nat) (before after : List ρ) :
    Nat :=
  if driverRows > 0 then driverRows
  else
    match t with
    | .insert => after.length - before.length
    | .delete | .truncateTable => before.length - after.length
    | .merge =>
      let (removed, added) := storedRowMultisetDelta before after
      max removed added
    | _ => driverRows

end

/-! ## The values of a row -/

def nullBytes : Json.Bytes := storedNullCell.toUTF8.data.toList

def escapedBytes : Json.Bytes := storedEscapedCellPrefix.toUTF8.data.toList

/-- `loadStoredCell` on bytes. -/
def loadStoredBytes (cell : Json.Bytes) : Option Json.Bytes :=
  if cell = nullBytes then none
  else if escapedBytes.isPrefixOf cell then some (cell.drop escapedBytes.length)
  else some cell

/-- The values of the columns, NULL where the row is too short. -/
def rowValues (schema : List TableField) (row : ByteRow) : List (Option Json.Bytes) :=
  schema.zipIdx.map fun column => loadStoredBytes (row.cells.getD column.2 nullBytes)

/-- The numbers are those of the two tables as multisets of rows. -/
structure ExactDelta (schema : List TableField) (before after : List ByteRow) : Prop where
  removed : (storedRowMultisetDelta before after).1 =
    missing (before.map (rowValues schema)) (after.map (rowValues schema))
  added : (storedRowMultisetDelta before after).2 =
    missing (after.map (rowValues schema)) (before.map (rowValues schema))
  balance : ((storedRowMultisetDelta before after).1 : Int) -
    (storedRowMultisetDelta before after).2 = before.length - after.length
  merge : effectiveDMLAffectedRows .merge 0 before after =
    max (missing (before.map (rowValues schema)) (after.map (rowValues schema)))
      (missing (after.map (rowValues schema)) (before.map (rowValues schema)))
  unchanged : effectiveDMLAffectedRows .merge 0 before after = 0 ↔
    (before.map (rowValues schema)).Perm (after.map (rowValues schema))

theorem storedRowMultisetDelta_eq (before after : List ByteRow) :
    storedRowMultisetDelta before after =
      (missing (before.map ByteRow.runes) (after.map ByteRow.runes),
        missing (after.map ByteRow.runes) (before.map ByteRow.runes)) := by
  have same (l l' : List ByteRow) :
      missing (l.map RowText.marshal) (l'.map RowText.marshal) =
        missing (l.map ByteRow.runes) (l'.map ByteRow.runes) :=
    missing_congr (R := fun _ => True) (fun _ _ _ _ => marshal_eq_iff) (fun _ _ => trivial)
      fun _ _ => trivial
  rw [storedRowMultisetDelta, delta_eq, same, same]

/-- Affected rows are differences of multisets of table rows, for all tables with rows from `R`,
if and only if rows from `R` have the same runes just when they have the same values. -/
theorem exactDelta_iff (schema : List TableField) (R : ByteRow → Prop) :
    (∀ before after : List ByteRow, (∀ row ∈ before, R row) → (∀ row ∈ after, R row) →
      ExactDelta schema before after) ↔
      ∀ row row', R row → R row' →
        (row.runes = row'.runes ↔ rowValues schema row = rowValues schema row') := by
  constructor
  · intro exact row row' h h'
    have one := (exact [row] [row'] (by simpa using h) (by simpa using h')).removed
    have single {κ : Type} [DecidableEq κ] (a b : κ) : missing [a] [b] = 0 ↔ a = b := by
      rw [missing_eq_zero, Multiset.coe_singleton, Multiset.coe_singleton, Multiset.singleton_le,
        Multiset.mem_singleton]
    rw [storedRowMultisetDelta_eq] at one
    exact (single _ _).symm.trans ((iff_of_eq (congrArg (· = 0) one)).trans (single _ _))
  · intro same before after hb ha
    have delta := storedRowMultisetDelta_eq before after
    rw [missing_congr same hb ha, missing_congr same ha hb] at delta
    have merge : effectiveDMLAffectedRows .merge 0 before after = max _ _ :=
      congrArg (fun p : Nat × Nat => max p.1 p.2) delta
    refine ⟨congrArg Prod.fst delta, congrArg Prod.snd delta, ?_, merge, ?_⟩
    · have sizes := missing_add (before.map (rowValues schema)) (after.map (rowValues schema))
      rw [List.length_map, List.length_map] at sizes
      rw [delta]
      omega
    · rw [merge, max_missing_eq_zero]

/-- A row from before a column was appended, and the same row read back. -/
theorem appended_column_counted :
    ¬ExactDelta [⟨"a", "STRING", "NULLABLE", []⟩, ⟨"b", "STRING", "NULLABLE", []⟩]
      [some [[0x78]]] [some [[0x78], nullBytes]] := by
  intro exact
  have unchanged := exact.unchanged.mpr (.refl _)
  exact absurd unchanged (by decide)

end LocaQL.Sql
