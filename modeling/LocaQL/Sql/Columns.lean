import LocaQL.Catalog.Framing
import LocaQL.Lib.Fallible
import LocaQL.Sql.Alterations

/-!
# Rows under `ALTER TABLE`

`ADD`, `DROP` and `RENAME COLUMN` change the schema of a table and, by position, its rows.  A
row may have fewer cells than the schema has columns, and is then NULL in the columns that it
has no cell for.

A column that is left after the statement should have the values that it had before, and an
added column should be NULL.  This is so unless a row has fewer cells than there are columns to
drop, on which the statement panics, or a row goes on behind the schema, where an added column
finds what is there (`columnsKept_iff`).
-/

namespace LocaQL

open TableService

open List

/-! ## Cells by position -/

variable {i k n : Nat}

theorem getElem?_filter_zipIdx {α : Type} (p : Nat → Bool) (columns : List α) {m : Nat}
    (h : ((List.range' m n).filter p)[k]? = some i) :
    (((columns.zipIdx m).filter fun c => p c.2).map (·.1))[k]? = columns[i - m]? := by
  induction columns generalizing m n k with
  | nil => simp
  | cons c columns ih =>
    cases n with
    | zero => simp at h
    | succ n =>
      rw [range'_succ] at h
      -- what stands behind the first column has a later position
      have later {k : Nat} (h : ((List.range' (m + 1) n).filter p)[k]? = some i) :
          columns[i - (m + 1)]? = (c :: columns)[i - m]? := by
        have mem := mem_of_mem_filter (mem_of_getElem? h)
        have le := (mem_range'_1.mp mem).1
        rw [show i - m = i - (m + 1) + 1 by omega, getElem?_cons_succ]
      rw [zipIdx_cons]
      cases here : p m with
      | true =>
        rw [filter_cons_of_pos here] at h
        rw [filter_cons_of_pos (a := (c, m)) here, map_cons]
        cases k with
        | zero =>
          cases h
          rw [Nat.sub_self]
          rfl
        | succ k =>
          rw [getElem?_cons_succ] at h ⊢
          rw [ih h, later h]
      | false =>
        rw [filter_cons_of_neg (by simp [here])] at h
        rw [filter_cons_of_neg (a := (c, m)) (by simp [here]), ih h, later h]

/-- The positions that are left of `n` columns. -/
def survivors (n : Nat) (drop : List Nat) : List Nat := (List.range n).filter (· ∉ drop)

/-- What is left is found under its new position. -/
theorem getElem?_filterColumns {α : Type} (columns : List α) {drop : List Nat}
    (h : (survivors n drop)[k]? = some i) : (filterColumns columns drop)[k]? = columns[i]? := by
  rw [survivors, range_eq_range'] at h
  exact getElem?_filter_zipIdx (fun j => decide (j ∉ drop)) columns h

theorem length_filterColumns {α : Type} (columns : List α) (drop : List Nat) :
    (filterColumns columns drop).length = (survivors columns.length drop).length := by
  have positions : columns.zipIdx.map (·.2) = List.range columns.length := by
    rw [zipIdx_map_snd, range_eq_range']
  rw [filterColumns, survivors, ← positions, filter_map, length_map, length_map]
  rfl

theorem filterColumns_nil {α : Type} (columns : List α) : filterColumns columns [] = columns := by
  have all : columns.zipIdx.filter (fun c => decide (c.2 ∉ [])) = columns.zipIdx :=
    filter_eq_self.mpr fun _ _ => rfl
  rw [filterColumns, all, zipIdx_map_fst]

theorem cellAt_eq (row : Row) (i : Nat) : cellAt row i = row[i]?.getD storedNullCell :=
  getD_eq_getElem?_getD ..

theorem cellAt_append_null (row : Row) (k i : Nat) :
    cellAt (row ++ List.replicate k storedNullCell) i = cellAt row i := by
  rw [cellAt_eq, cellAt_eq]
  by_cases there : i < row.length
  · rw [getElem?_append_left there]
  rw [getElem?_append_right (by omega), getElem?_eq_none (l := row) (by omega), getElem?_replicate]
  split
  · rfl
  · rfl

namespace Sql

open TableService (stamp torn tears panicsOn)

/-! ## The statements -/

/-- What an `ALTER TABLE` on columns comes to once its clauses are resolved. -/
inductive ColumnChange where
  | add (newFields : List TableField)
  | drop (dropNames : List String)
  | rename (renames : List (String × String))

namespace ColumnChange

/-- The old positions of the columns that are there before and after, in their new order. -/
def survivors (t : TableRecord) : ColumnChange → List Nat
  | .add _ | .rename _ => List.range t.schema.length
  | .drop names => LocaQL.survivors t.schema.length (dropColumnIndexSet t.schema names)

/-- The table with the change made. -/
def apply (t : TableRecord) : ColumnChange → TableRecord
  | .add newFields => addColumns t newFields
  | .drop names => dropColumns t names
  | .rename renames => renameColumns t renames

/-- Every row has enough cells for the columns that are dropped, and no values where columns are
added. -/
def Fits (t : TableRecord) : ColumnChange → Prop
  | .add newFields => ∀ row ∈ t.rows, ∀ k, t.schema.length ≤ k →
      k < t.schema.length + newFields.length → loadStoredCell (cellAt row k) = none
  | .drop names => ∀ row ∈ t.rows, (dropColumnIndexSet t.schema names).dedup.length ≤ row.length
  | .rename _ => True

/-- The commit of the change. -/
def commit (tables : TableService) (now : Time) (path : TableReference) (version : Nat) :
    ColumnChange → TableService × Result Unit
  | .add newFields =>
    commitColumns tables (.ok newFields) (tables.addColumnsIfVersion now path version)
  | .drop names =>
    commitColumns tables (.ok names) (tables.dropColumnsIfVersion now path version)
  | .rename renames =>
    commitColumns tables (.ok renames) (tables.renameColumnsIfVersion now path version)

end ColumnChange

/-- The values of the columns that are left are the same, with a missing cell read as NULL, and
the other columns are NULL. -/
structure Kept (c : ColumnChange) (t t' : TableRecord) : Prop where
  columns : ∀ k i : Nat, (c.survivors t)[k]? = some i →
    ∃ (f : TableField) (name : String), t.schema[i]? = some f ∧
      t'.schema[k]? = some { f with name := name }
  rows : t'.rows.length = t.rows.length
  values : ∀ (n : Nat) (row row' : Row), t.rows[n]? = some row → t'.rows[n]? = some row' →
    ∀ k i : Nat, (c.survivors t)[k]? = some i →
      loadStoredCell (cellAt row' k) = loadStoredCell (cellAt row i)
  added : ∀ (n : Nat) (row' : Row), t'.rows[n]? = some row' → ∀ k, (c.survivors t).length ≤ k →
    k < t'.schema.length → loadStoredCell (cellAt row' k) = none

variable {t : TableRecord} {now : Time} {path : TableReference} {s : TableService}

/-- Only the schema and the rows are looked at. -/
theorem Kept.congr {c : ColumnChange} {t' u : TableRecord} (h : Kept c t t')
    (schema : u.schema = t'.schema) (rows : u.rows = t'.rows) : Kept c t u := by
  obtain ⟨columns, length, values, added⟩ := h
  rw [← schema] at columns
  rw [← rows] at length
  refine ⟨columns, length, ?_, ?_⟩
  · rwa [rows]
  · rwa [rows, schema]

/-- A column under its own name. -/
theorem with_name (f : TableField) : (⟨f.name, f.type, f.mode, f.fields⟩ : TableField) = f := by
  cases f
  rfl

theorem getElem?_range_eq (h : (List.range n)[k]? = some i) : k = i ∧ i < n := by
  obtain ⟨lt, is⟩ := List.getElem?_eq_some_iff.mp h
  rw [getElem_range] at is
  rw [length_range] at lt
  omega

theorem kept_add {newFields : List TableField} :
    Kept (.add newFields) t (addColumns t newFields) ↔ ColumnChange.Fits t (.add newFields) := by
  have cells (row : Row) (k : Nat) :
      cellAt (row ++ newFields.map fun _ => storedNullCell) k = cellAt row k := by
    rw [map_const']
    exact cellAt_append_null row _ k
  have width : (addColumns t newFields).schema.length = t.schema.length + newFields.length :=
    length_append
  constructor
  · intro kept row mem k le lt
    obtain ⟨n, found⟩ := mem_iff_getElem?.mp mem
    rw [← cells row k]
    refine kept.added n _ ?_ k (by simpa [ColumnChange.survivors] using le) (by rwa [width])
    show (t.rows.map _)[n]? = _
    rw [getElem?_map, found]
    rfl
  · intro fits
    refine ⟨fun k i here => ?_, length_map .., fun n row row' found found' k i here => ?_,
      fun n row' found' k le lt => ?_⟩
    · obtain ⟨rfl, lt⟩ := getElem?_range_eq here
      refine ⟨t.schema[k], t.schema[k].name, getElem?_eq_getElem lt, ?_⟩
      show (t.schema ++ newFields)[k]? = _
      rw [getElem?_append_left lt, getElem?_eq_getElem lt, with_name]
    · obtain ⟨rfl, -⟩ := getElem?_range_eq here
      rw [show (addColumns t newFields).rows = t.rows.map _ from rfl, getElem?_map, found]
        at found'
      cases found'
      rw [cells]
    · rw [show (addColumns t newFields).rows = t.rows.map _ from rfl, getElem?_map,
        Option.map_eq_some_iff] at found'
      obtain ⟨row, found, rfl⟩ := found'
      rw [cells]
      refine fits row (mem_of_getElem? found) k ?_ (by rwa [width] at lt)
      simpa [ColumnChange.survivors] using le

theorem kept_drop (t : TableRecord) (names : List String) :
    Kept (.drop names) t (dropColumns t names) := by
  refine ⟨fun k i here => ?_, length_map .., fun n row row' found found' k i here => ?_,
    fun n row' found' k le lt => ?_⟩
  · have column := getElem?_filterColumns t.schema here
    have lt := mem_range.mp (mem_of_mem_filter (mem_of_getElem? here))
    have there := getElem?_eq_getElem lt
    refine ⟨_, t.schema[i].name, there, ?_⟩
    rw [with_name, ← there]
    exact column
  · rw [show (dropColumns t names).rows = t.rows.map _ from rfl, getElem?_map, found]
      at found'
    cases found'
    rw [cellAt_eq, getElem?_filterColumns row here, ← cellAt_eq]
  · have width := length_filterColumns t.schema (dropColumnIndexSet t.schema names)
    change k < (filterColumns t.schema (dropColumnIndexSet t.schema names)).length at lt
    rw [width] at lt
    exact absurd le (Nat.not_le.mpr lt)

theorem kept_rename (t : TableRecord) (renames : List (String × String)) :
    Kept (.rename renames) t (renameColumns t renames) := by
  have width : (renameColumns t renames).schema.length = t.schema.length := length_map ..
  refine ⟨fun k i here => ?_, rfl, fun n row row' found found' k i here => ?_,
    fun n row' found' k le lt => ?_⟩
  · obtain ⟨rfl, lt⟩ := getElem?_range_eq here
    have there := getElem?_eq_getElem lt
    have renamed (f : TableField) : ∃ name, renameField renames f = { f with name := name } := by
      rw [renameField]
      split
      · exact ⟨_, rfl⟩
      · exact ⟨f.name, (with_name f).symm⟩
    obtain ⟨name, is⟩ := renamed t.schema[k]
    refine ⟨_, name, there, ?_⟩
    show (t.schema.map _)[k]? = _
    rw [getElem?_map, there, Option.map_some, is]
  · obtain ⟨rfl, -⟩ := getElem?_range_eq here
    rw [show (renameColumns t renames).rows = t.rows from rfl, found] at found'
    cases found'
    rfl
  · rw [width] at lt
    simp only [ColumnChange.survivors, length_range] at le
    omega

/-! ## Committing a change -/

theorem commitIfVersion_found (change : TableRecord → TableRecord) (found : s.record? path = some t) :
    s.commitIfVersion now path t.version (fun t => .ok (change t)) =
      (s.commit now path (change t), .ok ()) := by
  obtain ⟨tables, there⟩ := Option.isSome_iff_exists.mp (present_of_record found)
  have checked : checkVersion (s.tables path.projectID path.datasetID) path
      t.version = .ok t := by
    rw [checkVersion, get?_tables, found]
    exact if_neg (not_not.mpr rfl)
  simp only [commitIfVersion, ensure_of_present there, checked]

/-- The commit of the columns leaves the table with these columns and these rows. -/
def Leaves (path : TableReference) (t : TableRecord) (result : TableService × Result Unit) : Prop :=
  result.2 = .ok () ∧ ∃ t', result.1.record? path = some t' ∧ t'.schema = t.schema ∧
    t'.rows = t.rows

theorem fits_drop_iff {names : List String} :
    ColumnChange.Fits t (.drop names) ↔ panicsOn names t = false := by
  rw [panicsOn, any_eq_false]
  simp only [ColumnChange.Fits, tooShort, decide_eq_true_eq, Nat.not_lt]

theorem leaves_commitIfVersion (change : TableRecord → TableRecord)
    (found : s.record? path = some t) :
    Leaves path (change t) (s.commitIfVersion now path t.version fun t => .ok (change t)) := by
  rw [commitIfVersion_found change found]
  exact ⟨rfl, _, (record?_commit s now path _ path).trans (if_pos rfl), rfl, rfl⟩

/-- A row of the table is too short for the columns to drop. -/
def ColumnChange.panics (t : TableRecord) : ColumnChange → Bool
  | .drop names => panicsOn names t
  | _ => false

theorem tears_of_found (found : s.record? path = some t) (names : List String) :
    s.tears now (.dropColumnsIfVersion path t.version names) path = panicsOn names t := by
  rw [tears, record?_ensure _ _ _ found, Option.any_some, beq_self_eq_true,
    beq_self_eq_true, Bool.true_and, Bool.true_and]

theorem panicsOn_nil (t : TableRecord) : panicsOn [] t = false := by
  rw [panicsOn, any_eq_false]
  intro row mem short
  exact absurd (of_decide_eq_true short) (Nat.not_lt_zero _)

/-- What the commit of a change does: it makes the change, or panics on a row that is too
short. -/
theorem ColumnChange.commit_cases (c : ColumnChange) (now : Time) (found : s.record? path = some t) :
    c.panics t = false ∧ Leaves path (c.apply t) (c.commit s now path t.version) ∨
      c.panics t = true ∧ (c.commit s now path t.version).2.isOk = false := by
  -- without columns to change the table is left as it is
  have same {t' : TableRecord} (schema : t.schema = t'.schema) (rows : t.rows = t'.rows) :
      Leaves path t' (s, .ok ()) := ⟨rfl, t, found, schema, rows⟩
  cases c with
  | add newFields =>
    refine .inl ⟨rfl, ?_⟩
    cases newFields with
    | nil => exact same (by simp [apply, addColumns]) (by simp [apply, addColumns])
    | cons f fs => exact leaves_commitIfVersion (addColumns · (f :: fs)) found
  | rename renames =>
    refine .inl ⟨rfl, ?_⟩
    cases renames with
    | nil =>
      refine same ?_ rfl
      show t.schema = t.schema.map (renameField [])
      exact (map_id'' (fun _ => rfl) t.schema).symm
    | cons r rs => exact leaves_commitIfVersion (renameColumns · (r :: rs)) found
  | drop names =>
    cases names with
    | nil =>
      refine .inl ⟨panicsOn_nil t, same (filterColumns_nil _).symm ?_⟩
      show t.rows = t.rows.map fun row => filterColumns row []
      exact (map_id'' filterColumns_nil t.rows).symm
    | cons name names =>
      have cases := dropColumnsIfVersion_cases s now path t.version (name :: names)
      rw [tears_of_found found] at cases
      rcases cases with ⟨whole, is⟩ | ⟨_, tears, -, is⟩
      · refine .inl ⟨whole, ?_⟩
        rw [ColumnChange.commit, commitColumns, is]
        exact leaves_commitIfVersion (dropped (name :: names)) found
      · refine .inr ⟨tears, ?_⟩
        rw [ColumnChange.commit, commitColumns, is]
        rfl

theorem kept_iff (c : ColumnChange) (whole : c.panics t = false) :
    Kept c t (c.apply t) ↔ c.Fits t := by
  cases c with
  | add newFields => exact kept_add
  | drop names => exact iff_of_true (kept_drop t names) (fits_drop_iff.mpr whole)
  | rename renames => exact iff_of_true (kept_rename t renames) trivial

theorem not_fits (c : ColumnChange) (panics : c.panics t = true) : ¬c.Fits t := by
  cases c with
  | add newFields => cases panics
  | drop names =>
    intro fits
    have whole := fits_drop_iff.mp fits
    rw [ColumnChange.panics, whole] at panics
    cases panics
  | rename renames => cases panics

/-! ## Executing them -/

section

variable [GoFloat]

/-- The statement is one on the columns of the table `t` at the path, and all its checks pass:
the clauses resolve to the change `c`. -/
inductive Accepts (now : Time) (s : Server) (projectID : String) (queryText : List Char) :
    TableReference → TableRecord → ColumnChange → Prop where
  | add {stmt : AlterTable (List AddColumnClause)} {t : TableRecord} {fields : List TableField} :
      parsePersistentAlterTableAddColumns projectID queryText = some (.ok stmt) →
      GoText.equalFold stmt.target.projectID projectID →
      (s.tables.get now (localPath projectID stmt.target)).2 = some t → t.view.isSome = false →
      resolveAlterTableNewFields t.schema stmt.action = .ok fields →
      Accepts now s projectID queryText (localPath projectID stmt.target) t (.add fields)
  | drop {stmt : AlterTable (List DropColumnClause)} {t : TableRecord} {names : List String} :
      parsePersistentAlterTableAddColumns projectID queryText = none →
      parsePersistentAlterTableDropColumns projectID queryText = some (.ok stmt) →
      GoText.equalFold stmt.target.projectID projectID →
      (s.tables.get now (localPath projectID stmt.target)).2 = some t → t.view.isSome = false →
      resolveAlterTableDropNames t.schema stmt.action = .ok names →
      Accepts now s projectID queryText (localPath projectID stmt.target) t (.drop names)
  | rename {stmt : AlterTable (List RenameColumnClause)} {t : TableRecord}
      {renames : GoMap String String} :
      parsePersistentAlterTableAddColumns projectID queryText = none →
      parsePersistentAlterTableDropColumns projectID queryText = none →
      parsePersistentAlterTableRenameColumns projectID queryText = some (.ok stmt) →
      GoText.equalFold stmt.target.projectID projectID →
      (s.tables.get now (localPath projectID stmt.target)).2 = some t → t.view.isSome = false →
      resolveAlterTableRenames t.schema stmt.action ∅ = .ok renames →
      Accepts now s projectID queryText (localPath projectID stmt.target) t
        (.rename (renames.entries.map fun e => (e.1, e.2)))

variable {now : Time} {s : Server} {projectID : String} {queryText : List Char}
  {path : TableReference} {t : TableRecord} {c : ColumnChange}

theorem executeAlterTable_ok {α : Type} {stmt : AlterTable α} {refusesViews : Bool}
    {change : TableService → TableReference → TableRecord → α → TableService × Result Unit}
    (here : GoText.equalFold stmt.target.projectID projectID)
    (found : (s.tables.get now (localPath projectID stmt.target)).2 = some t)
    (native : t.view.isSome = false) :
    executeAlterTable now s projectID (some (.ok stmt)) refusesViews change =
      .commit (s.getTable now (localPath projectID stmt.target)).1 .alterTable
        (change (s.tables.get now (localPath projectID stmt.target)).1
          (localPath projectID stmt.target) t stmt.action) := by
  have read : (s.getTable now (localPath projectID stmt.target)).2 = some t := found
  simp only [executeAlterTable, here, Bool.not_true, Bool.false_eq_true, if_false, read, native,
    Bool.and_false]
  rfl

theorem Accepts.found (h : Accepts now s projectID queryText path t c) :
    (s.tables.get now path).1.record? path = some t := by
  cases h with
  | add _ _ found _ _ => exact found
  | drop _ _ _ found _ _ => exact found
  | rename _ _ _ _ found _ _ => exact found

/-- An accepted statement is the commit of its change. -/
theorem Accepts.execute (h : Accepts now s projectID queryText path t c) :
    executePersistentAlterTableStatement now s projectID queryText =
      .commit (s.getTable now path).1 .alterTable
        (c.commit (s.tables.get now path).1 now path t.version) := by
  have first {o : Outcome} {rest : Server → Outcome} {result : TableService × Result Unit}
      {s' : Server} (taken : o = .commit s' .alterTable result) : orElse o rest = o := by
    rw [taken]
    rfl
  have skip {α : Type} {refusesViews : Bool} {rest : Server → Outcome}
      {change : TableService → TableReference → TableRecord → α → TableService × Result Unit} :
      orElse (executeAlterTable now s projectID none refusesViews change) rest = rest s := rfl
  rw [executePersistentAlterTableStatement]
  cases h with
  | add parsed here found native resolved =>
    rw [executePersistentAlterTableAddColumnsStatement, parsed,
      executeAlterTable_ok here found native, resolved]
    exact first rfl
  | drop notAdd parsed here found native resolved =>
    rw [executePersistentAlterTableAddColumnsStatement, notAdd, skip,
      executePersistentAlterTableDropColumnsStatement, parsed,
      executeAlterTable_ok here found native, resolved]
    exact first rfl
  | rename notAdd notDrop parsed here found native resolved =>
    rw [executePersistentAlterTableAddColumnsStatement, notAdd, skip,
      executePersistentAlterTableDropColumnsStatement, notDrop, skip,
      executePersistentAlterTableRenameColumnsStatement, parsed,
      executeAlterTable_ok here found native, resolved]
    exact first rfl

end

section

attribute [local instance] GoFloat.texts

def eventsPath : TableReference := ⟨"p", "ds", "events"⟩

/-- Whether the text is a drop of the given columns of `events`, as the server has it. -/
def dropsColumns (s : Server) (queryText : List Char) (names : List String) : Bool :=
  (parsePersistentAlterTableAddColumns "p" queryText).isNone &&
    (parsePersistentAlterTableDropColumns "p" queryText).any fun parsed =>
      parsed.toOption.any fun stmt => stmt.target = eventsPath &&
        (s.tables.get 2 eventsPath).2.any fun t => t.view.isNone &&
          (resolveAlterTableDropNames t.schema stmt.action).toOption = some names

theorem accepts_of_dropsColumns {s : Server} {queryText : List Char} {names : List String}
    (h : dropsColumns s queryText names = true) :
    ∃ t, Accepts 2 s "p" queryText eventsPath t (.drop names) := by
  obtain ⟨notAdd, h⟩ := (Bool.and_eq_true_iff).mp h
  obtain ⟨parsed, isParsed, h⟩ := (Option.any_eq_true _ _).mp h
  obtain ⟨stmt, isStmt, h⟩ := (Option.any_eq_true _ _).mp h
  obtain ⟨target, h⟩ := (Bool.and_eq_true_iff).mp h
  obtain ⟨t, found, h⟩ := (Option.any_eq_true _ _).mp h
  obtain ⟨native, resolved⟩ := (Bool.and_eq_true_iff).mp h
  have target := of_decide_eq_true target
  have path : localPath "p" stmt.target = eventsPath := by
    rw [target]
    rfl
  have here : GoText.equalFold stmt.target.projectID "p" := by
    rw [target]
    decide
  have accepts := Accepts.drop (s := s) (Option.isNone_iff_eq_none.mp notAdd)
    (isParsed.trans (congrArg some (Fallible.ok_of_toOption isStmt))) here (path ▸ found)
    (by rw [Option.isNone_iff_eq_none.mp native]; rfl)
    (Fallible.ok_of_toOption (of_decide_eq_true resolved))
  exact ⟨t, path ▸ accepts⟩

def dropName : List Char := "ALTER TABLE ds.events DROP COLUMN event_name".toList

/-- `events` with three columns that its rows have no cells for. -/
def widened : Server := { tables := widenedEvents }

def dropFour : List Char :=
  ("ALTER TABLE ds.events DROP COLUMN event_name, DROP COLUMN a, DROP COLUMN b, " ++
    "DROP COLUMN c").toList

def addOne : List Char := "ALTER TABLE ds.events ADD COLUMN x STRING".toList

/-- What the server has of `events` once the statement has been executed. -/
def eventsAfter (s : Server) (queryText : List Char) : Option TableRecord :=
  (executePersistentAlterTableStatement 2 s "p" queryText).1.tables.record? eventsPath

def panicked {α : Type} : Result α → Bool
  | .error (.panic _) => true
  | _ => false

end

end Sql

end LocaQL
