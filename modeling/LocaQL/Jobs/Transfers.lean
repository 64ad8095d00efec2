import LocaQL.Catalog.Invariants
import LocaQL.Sql.Server

/-!
# Load and copy jobs

`resolveTableRows` is how all consumers read the rows of a table: a view runs its query, an
external table reads its files, and any other table gives the rows of its record.
`executeCopyJob` and `executeLoadJob` collect rows from tables or from files and hand them to
`upsertCopyDestination`, which does not ask what kind of table the destination is.

The files are a parameter (`Files`), as is the SQL engine (`Backend`).  A job that succeeds
returns the rows it wrote; its statistics report their number.
-/

namespace LocaQL.Jobs

open Sql

/-- `jobRecord`, as a load job reads it. -/
structure LoadJob where
  projectID : String
  targetDataset : String
  targetTable : String
  createDisposition : String := ""
  writeDisposition : String := ""
  loadSchema : List TableField := []
  loadSourceURIs : List String := []
  loadSourceFormat : String := ""
  loadFieldDelimiter : String := ""
  loadSkipLeadingRows : Nat := 0
  loadAutodetect : Bool := false
  loadInline : Bool := false
  loadInlineData : String := ""

/-- `jobRecord`, as a copy job reads it. -/
structure CopyJob where
  projectID : String
  targetDataset : String
  targetTable : String
  createDisposition : String := ""
  writeDisposition : String := ""
  sourceTables : List TableReference

/-- What the files outside of the catalog hold. -/
structure Files where
  /-- `readRowsFromURIs` with the settings of an external table. -/
  external : ExternalTableConfig → List TableField → Except String (List Row)
  /-- `detectLoadJobSchema`: the columns, and how many leading rows to skip. -/
  detect : LoadJob → Except String (List TableField × Nat)
  /-- `readRowsFromData` or `loadRowsFromSourceURIs`, with the leading rows to skip. -/
  rows : LoadJob → Nat → List TableField → Except String (List Row)

/-! ## Reading tables -/

section

variable [GoFloat]

/-- The error of an operation, behind a text that says where it happened. -/
def wrap (context : String) : Failure → Failure
  | .error text => .error (context ++ text)
  | .panic text => .panic text

/-- `none` stands for `ok = false`: there is no such table. -/
def resolveTableRows (b : Backend) (files : Files) (s : TableService) (now : Time)
    (path : TableReference) : TableService × Option (Result (List TableField × List Row)) :=
  let datasetID := path.datasetID
  let tableID := path.tableID
  match s.get now path with
  | (s, none) => (s, none)
  | (s, some record) =>
    match record.view with
    | some view =>
      let r := b.query s now path.projectID view.query.toList none
      let context := s!"resolve view {datasetID}.{tableID}: "
      (r.1, some ((r.2.map fun q => (q.1, q.2.1)).mapError (wrap context)))
    | none =>
      match record.external with
      | none =>
        let r := s.getData now path
        (r.1, r.2.map .ok)
      | some ext =>
        match files.external ext record.schema with
        | .error err =>
          (s, some (fail s!"failed to read external table {datasetID}.{tableID} from sourceUris: {err}"))
        | .ok rows => (s, some (.ok (record.schema, rows)))

/-! ## Copy jobs -/

/-- The loop over the source tables, with the schema of the first one and the rows so far. -/
def copySources (b : Backend) (files : Files) (now : Time) (projectID : String) :
    Option (List TableField) → List Row → Server → List TableReference →
    Server × Result (List TableField × List Row)
  | schema, rows, s, [] => (s, .ok (schema.getD [], rows))
  | schema, rows, s, source :: sources =>
    let source := if source.projectID = "" then { source with projectID := projectID } else source
    match s.datasets.present source.projectID source.datasetID with
    | (datasets, false) => ({ s with datasets := datasets }, fail "source dataset not found")
    | (datasets, true) =>
      match resolveTableRows b files s.tables now source with
      | (tables, none) =>
        ({ s with datasets := datasets, tables := tables }, fail "source table not found")
      | (tables, some (.error err)) =>
        ({ s with datasets := datasets, tables := tables }, .error err)
      | (tables, some (.ok (sourceSchema, sourceRows))) =>
        let s := { s with datasets := datasets, tables := tables }
        if schema.any fun schema => !sameSchema schema sourceSchema then
          (s, fail "source tables must share the same schema")
        else
          copySources b files now projectID (some (schema.getD sourceSchema))
            (rows ++ sourceRows) s sources

/-- The end of both jobs: the rows go to the destination. -/
def writeRows (s : Server) (now : Time) (dest : TableReference) (schema : List TableField)
    (rows : List Row) (createDisposition writeDisposition : String) : Server × Result (List Row) :=
  let r := s.tables.upsertCopyDestination now dest schema rows createDisposition writeDisposition
  ({ s with tables := r.1 }, r.2.map fun _ => rows)

def executeCopyJob (b : Backend) (files : Files) (now : Time) (s : Server) (job : CopyJob) :
    Server × Result (List Row) :=
  if GoText.trimSpaceStr job.targetDataset = "" ∨ GoText.trimSpaceStr job.targetTable = "" then
    (s, fail "destinationTable is required")
  else if job.sourceTables = [] then (s, fail "copy job requires at least one source table")
  else
    match s.datasets.present job.projectID job.targetDataset with
    | (datasets, false) => ({ s with datasets := datasets }, fail "destination dataset not found")
    | (datasets, true) =>
      match copySources b files now job.projectID none [] { s with datasets := datasets }
          job.sourceTables with
      | (s, .error err) => (s, .error err)
      | (s, .ok (schema, rows)) =>
        writeRows s now ⟨job.projectID, job.targetDataset, job.targetTable⟩ schema rows
          job.createDisposition job.writeDisposition

/-! ## Load jobs -/

/-- The columns and rows of a load job; without any source it only creates the table. -/
def loadSource (files : Files) (job : LoadJob) : Except String (List TableField × List Row) :=
  if job.loadSourceURIs = [] ∧ !job.loadInline then
    .ok (if job.loadSchema = [] then [⟨"col_1", "STRING", "", []⟩] else job.loadSchema, [])
  else do
    let (schema, skipLeadingRows) ←
      if job.loadSchema ≠ [] then .ok (job.loadSchema, job.loadSkipLeadingRows)
      else if !job.loadAutodetect then
        .error "schema.fields is required to ingest uploaded media or rows from sourceUris unless configuration.load.autodetect is true"
      else (files.detect job).mapError fun err => s!"schema autodetect failed: {err}"
    let rows ← files.rows job skipLeadingRows schema
    validateStoredRows schema rows
    return (schema, rows)

def executeLoadJob (files : Files) (now : Time) (s : Server) (job : LoadJob) :
    Server × Result (List Row) :=
  if GoText.trimSpaceStr job.targetDataset = "" ∨ GoText.trimSpaceStr job.targetTable = "" then
    (s, fail "destinationTable is required")
  else
    match s.datasets.present job.projectID job.targetDataset with
    | (datasets, false) => ({ s with datasets := datasets }, fail "destination dataset not found")
    | (datasets, true) =>
      match loadSource files job with
      | .error err => ({ s with datasets := datasets }, fail err)
      | .ok (schema, rows) =>
        writeRows { s with datasets := datasets } now
          ⟨job.projectID, job.targetDataset, job.targetTable⟩ schema rows
          job.createDisposition job.writeDisposition

/-! ## What they do to the catalog -/

open TableService (TouchedAt touchedAt_get trimPath)

/-- Running a query seeds and purges the catalog like any other read. -/
def QueriesReadAt (b : Backend) : Prop :=
  ∀ (s : TableService) (now : Time) projectID queryText sess,
    TouchedAt now s (b.query s now projectID queryText sess).1

/-- The rows that a table got, and whether over or behind those it had. -/
structure Ack where
  path : TableReference
  rows : List Row
  write : WriteDisposition

/-- What is acknowledged to a client whose rows were taken. -/
def acknowledged (dest : TableReference) (writeDisposition : String) (rows : Option (List Row)) :
    Option Ack :=
  rows.bind fun rows =>
    (trimPath dest.projectID dest.datasetID dest.tableID).map fun path =>
      ⟨path, rows, normalizeWriteDisposition writeDisposition⟩

/-- The catalog once the rows are in their table. -/
def written (s : TableService) (now : Time) (schema : List TableField) (ack : Ack) :
    TableService :=
  s.commit now ack.path
    (TableService.merge (TableService.destination (s.record? ack.path) ack.path now) schema
      ack.rows ack.write now)

/-- All that a request for a write does to the catalog: it reads, and either stops there or
gives the rows to their table. -/
inductive Effect (moment : Time) (s : TableService) : TableService → Option Ack → Prop where
  | reads {s' : TableService} : TouchedAt moment s s' → Effect moment s s' none
  | writes {s' : TableService} (now : Time) (schema : List TableField) (ack : Ack) :
      TouchedAt moment s s' → Effect moment s (written s' now schema ack) (some ack)

variable {moment : Time} {s s' : TableService}

theorem effect_upsertCopyDestination (reads : TouchedAt moment s s') (now : Time)
    (dest : TableReference) (schema : List TableField) (rows : List Row) (create write : String) :
    Effect moment s (s'.upsertCopyDestination now dest schema rows create write).1
      (acknowledged dest write
        ((s'.upsertCopyDestination now dest schema rows create write).2.toOption.map
          fun _ => rows)) := by
  rw [TableService.upsertCopyDestination.eq_def]
  split
  · exact .reads reads
  next path trim =>
    have touched := reads.seed now path.projectID path.datasetID
    dsimp only
    split
    · exact .reads touched
    split
    · exact .reads touched
    split
    · exact .reads touched
    have wrote := Effect.writes now schema ⟨path, rows, normalizeWriteDisposition write⟩ touched
    rw [written, ← TableService.get?_tables] at wrote
    simpa only [acknowledged, trim, Except.toOption, Option.map_some, Option.bind_some]
      using wrote

section

variable {b : Backend} {files : Files} {now : Time}

theorem touched_resolveTableRows (queries : QueriesReadAt b) (files : Files) (s : TableService)
    (now : Time) (path : TableReference) : TouchedAt now s (resolveTableRows b files s now path).1 := by
  have reads := touchedAt_get s now path
  rw [resolveTableRows]
  dsimp only
  split
  next s' read => rwa [read] at reads
  next s' record read =>
    rw [read] at reads
    split
    · exact reads.trans (queries s' now _ _ _)
    split
    · exact reads.trans (touchedAt_get s' now path)
    split
    · exact reads
    · exact reads

/-- A table that is neither a view nor external gives the rows of its record. -/
theorem resolveTableRows_of_record {path : TableReference} {t : TableRecord}
    (found : s.record? path = some t) (lasting : TableService.purgeRecord now t = some t)
    (view : t.view = none) (external : t.external = none) :
    (resolveTableRows b files s now path).2 = some (.ok (t.schema, t.rows)) := by
  have read (s : TableService) (found : s.record? path = some t) :
      (s.get now path).2 = some t := (touchedAt_get s now path).record?_eq lasting found
  have again := read _ ((touchedAt_get s now path).record?_eq lasting found)
  have first := read s found
  rw [resolveTableRows]
  dsimp only
  generalize s.get now path = r at first again
  obtain ⟨s', record⟩ := r
  dsimp only at first
  subst first
  simp only [view, external, TableService.getData, again, Option.map_some]

theorem touched_copySources (queries : QueriesReadAt b) (files : Files) (now : Time)
    (projectID : String) (sources : List TableReference) (schema : Option (List TableField))
    (rows : List Row) (s : Server) :
    TouchedAt now s.tables (copySources b files now projectID schema rows s sources).1.tables := by
  induction sources generalizing schema rows s with
  | nil => exact .refl
  | cons source sources ih =>
    rw [copySources]
    dsimp only
    split
    · exact .refl
    next datasets _ =>
      have reads := touched_resolveTableRows queries files s.tables now
        (if source.projectID = "" then { source with projectID := projectID } else source)
      split
      next tables read => rwa [read] at reads
      next tables err read => rwa [read] at reads
      next tables sourceSchema sourceRows read =>
        rw [read] at reads
        split
        · exact reads
        · exact reads.trans (ih _ _ { s with datasets := datasets, tables := tables })

theorem effect_writeRows {s : TableService} {s' : Server} (reads : TouchedAt moment s s'.tables)
    (dest : TableReference) (schema : List TableField) (rows : List Row) (create write : String) :
    Effect moment s (writeRows s' now dest schema rows create write).1.tables
      (acknowledged dest write (writeRows s' now dest schema rows create write).2.toOption) := by
  have wrote := effect_upsertCopyDestination reads now dest schema rows create write
  rw [writeRows]
  dsimp only
  generalize s'.tables.upsertCopyDestination now dest schema rows create write = r at wrote ⊢
  obtain ⟨tables, outcome⟩ := r
  cases outcome with
  | error err => exact wrote
  | ok n => exact wrote

theorem effect_executeCopyJob (queries : QueriesReadAt b) (s : Server) (job : CopyJob) :
    Effect now s.tables (executeCopyJob b files now s job).1.tables
      (acknowledged ⟨job.projectID, job.targetDataset, job.targetTable⟩ job.writeDisposition
        (executeCopyJob b files now s job).2.toOption) := by
  rw [executeCopyJob]
  split
  · exact .reads .refl
  split
  · exact .reads .refl
  split
  · exact .reads .refl
  next datasets _ =>
    have reads := touched_copySources queries files now job.projectID job.sourceTables none []
      { s with datasets := datasets }
    split
    next s' err read =>
      rw [read] at reads
      exact .reads reads
    next s' schema rows read =>
      rw [read] at reads
      exact effect_writeRows reads _ _ _ _ _

theorem effect_executeLoadJob (s : Server) (job : LoadJob) :
    Effect now s.tables (executeLoadJob files now s job).1.tables
      (acknowledged ⟨job.projectID, job.targetDataset, job.targetTable⟩ job.writeDisposition
        (executeLoadJob files now s job).2.toOption) := by
  rw [executeLoadJob]
  split
  · exact .reads .refl
  split
  · exact .reads .refl
  split
  · exact .reads .refl
  · exact effect_writeRows .refl _ _ _ _ _

end

end

end LocaQL.Jobs
