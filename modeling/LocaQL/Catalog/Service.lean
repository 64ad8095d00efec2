import LocaQL.Catalog.Partitioning

/-!
# The table service

`tableService`: all tables of all projects, and the operations on them.  Every
operation takes the lock, so it is one step on the state; it reads the clock once.

A dataset that has not been touched, or whose tables were deleted with it, has no
table map.  The first operation that touches it fills in the default tables.
-/

namespace LocaQL

/-- The tables of one dataset. -/
abbrev TableMap := GoMap String TableRecord

/-- `tableService`, with the two outer maps keyed by project and dataset together. -/
structure TableService where
  datasets : GoMap (String × String) TableMap := ∅
  datasetVersions : GoMap String Nat := ∅

/-- `tableInsert`. -/
structure TableInsert where
  projectID : String
  datasetID : String
  tableID : String
  friendlyName : String := ""
  description : String := ""
  labels : GoMap String String := ∅
  schema : List TableField := []
  rows : List Row := []
  external : Option ExternalTableConfig := none
  view : Option ViewConfig := none
  timePartitioning : Option TimePartitioningConfig := none
  rangePartitioning : Option RangePartitioningConfig := none
  clustering : List String := []
  requirePartitionFilter : Bool := false
  expirationTime : Time := 0

/-- `tablePatch`; a field is present where its `Has` flag is set. -/
structure TablePatch where
  projectID : String
  datasetID : String
  tableID : String
  friendlyName : Option String := none
  description : Option String := none
  labels : Option (GoMap String String) := none
  expirationTime : Option Time := none
  schema : Option (List TableField) := none
  timePartitioning : Option (Option TimePartitioningConfig) := none
  rangePartitioning : Option (Option RangePartitioningConfig) := none
  clustering : Option (List String) := none
  requirePartitionFilter : Option Bool := none

/-- `tableUpdate`. -/
structure TableUpdate where
  projectID : String
  datasetID : String
  tableID : String
  friendlyName : String := ""
  description : String := ""
  labels : GoMap String String := ∅
  expirationTime : Time := 0
  timePartitioning : Option TimePartitioningConfig := none
  rangePartitioning : Option RangePartitioningConfig := none
  clustering : List String := []
  requirePartitionFilter : Bool := false

/-! ## Defaults and small helpers -/

def defaultTables : List String := ["events", "daily_metrics", "users", "raw_import"]

def defaultTableData (tableID : String) : List TableField × List Row :=
  let column (name type : String) : TableField := ⟨name, type, "", []⟩
  if tableID = "daily_metrics" then
    ([column "metric_date" "DATE", column "metric_name" "STRING", column "metric_value" "INT64"],
     [["2026-07-18", "signups", "12"], ["2026-07-19", "signups", "15"],
      ["2026-07-20", "signups", "11"], ["2026-07-21", "signups", "19"]])
  else if tableID = "events" then
    ([column "event_id" "INT64", column "event_name" "STRING"],
     [["1", "page_view"], ["2", "checkout"], ["3", "purchase"], ["4", "refund"]])
  else if tableID = "users" then
    ([column "user_id" "INT64", column "user_name" "STRING"],
     [["1", "alice"], ["2", "bob"], ["3", "carol"], ["4", "dave"]])
  else
    ([column "col_1" "STRING", column "col_2" "STRING"],
     [["1", "alpha"], ["2", "beta"], ["3", "gamma"], ["4", "delta"]])

def defaultTable (projectID datasetID : String) (now : Time) (tableID : String) : TableRecord :=
  let data := defaultTableData tableID
  { projectID := projectID
    datasetID := datasetID
    tableID := tableID
    schema := data.1
    rows := data.2
    createdAt := now
    updatedAt := now
    version := 1 }

def defaultTableMap (projectID datasetID : String) (now : Time) : TableMap :=
  defaultTables.foldl (fun m id => m.set id (defaultTable projectID datasetID now id)) ∅

def inferSchemaFromRows (rows : List Row) : List TableField :=
  match rows with
  | [] => []
  | row :: _ => (List.range row.length).map fun i =>
    ⟨"col_" ++ Nat.repr (i + 1), "STRING", "", []⟩

def sameSchema (left right : List TableField) : Bool :=
  left.length == right.length &&
    (left.zip right).all fun p => p.1.name == p.2.name && p.1.type == p.2.type

inductive CreateDisposition where
  | createNever
  | createIfNeeded
deriving Repr, DecidableEq

inductive WriteDisposition where
  | writeTruncate
  | writeAppend
  | writeEmpty
deriving Repr, DecidableEq

def normalizeCreateDisposition (v : String) : CreateDisposition :=
  if GoText.toUpperStr (GoText.trimSpaceStr v) = "CREATE_NEVER" then .createNever
  else .createIfNeeded

def normalizeWriteDisposition (v : String) : WriteDisposition :=
  let upper := GoText.toUpperStr (GoText.trimSpaceStr v)
  if upper = "WRITE_TRUNCATE" then .writeTruncate
  else if upper = "WRITE_APPEND" then .writeAppend
  else .writeEmpty

/-- The index of each named column, by `dropColumnIndexSet`. -/
def dropColumnIndexSet (schema : List TableField) (dropNames : List String) : List Nat :=
  dropNames.filterMap fun name => schema.findIdx? fun f => GoText.equalFold f.name name

/-- `filterColumns` and, on the cells of one row, the inner loop of `filterRowColumns`. -/
def filterColumns {α : Type} (columns : List α) (drop : List Nat) : List α :=
  (columns.zipIdx.filter fun c => c.2 ∉ drop).map (·.1)

/-- A row with fewer cells than there are columns to drop. -/
def tooShort (drop : List Nat) (row : Row) : Bool := row.length < drop.dedup.length

/-- `filterRowColumns`.  Each new row is made with room for the cells that are left if it had
all the columns to drop; for a row that is too short this is negative, and `make` panics. -/
def filterRowColumns (rows : List Row) (drop : List Nat) : Result (List Row) :=
  if rows.any (tooShort drop) then .error (.panic "runtime error: makeslice: cap out of range")
  else .ok (rows.map fun row => filterColumns row drop)

def renameField (renames : List (String × String)) (f : TableField) : TableField :=
  match renames.find? fun r => GoText.equalFold f.name r.1 with
  | some r => { f with name := r.2 }
  | none => f

namespace TableService

/-! ## Reading and writing the maps -/

def datasetKey (projectID datasetID : String) : String := projectID ++ ":" ++ datasetID

/-- `s.datasetVersions[key]++`. -/
def bump (s : TableService) (projectID datasetID : String) : TableService :=
  let key := datasetKey projectID datasetID
  { s with datasetVersions := s.datasetVersions.set key ((s.datasetVersions.get? key).getD 0 + 1) }

def setTables (s : TableService) (projectID datasetID : String) (tables : TableMap) :
    TableService :=
  { s with datasets := s.datasets.set (projectID, datasetID) tables }

/-- The record at a path, without touching the dataset. -/
def record? (s : TableService) (path : TableReference) : Option TableRecord :=
  (s.datasets.get? (path.projectID, path.datasetID)).bind fun tables => tables.get? path.tableID

/-- `ensureDatasetLocked`, which seeds a dataset without a table map. -/
def ensureDatasetLocked (s : TableService) (now : Time) (projectID datasetID : String) :
    TableService :=
  match s.datasets.get? (projectID, datasetID) with
  | some _ => s
  | none =>
    let s := s.setTables projectID datasetID (defaultTableMap projectID datasetID now)
    match s.datasetVersions.get? (datasetKey projectID datasetID) with
    | some _ => s
    | none =>
      { s with datasetVersions := s.datasetVersions.set (datasetKey projectID datasetID) 1 }

/-- The table map that `ensureDatasetLocked` returns. -/
def tables (s : TableService) (projectID datasetID : String) : TableMap :=
  (s.datasets.get? (projectID, datasetID)).getD ∅

/-- Stores a changed record and counts the change. -/
def store (s : TableService) (projectID datasetID : String) (tables : TableMap) : TableService :=
  (s.setTables projectID datasetID tables).bump projectID datasetID

section Purge

variable [GoFloat]

/-- Whether a table has ceased to exist at `now`. -/
def expired (now : Time) (t : TableRecord) : Bool :=
  t.expirationTime != 0 && t.expirationTime ≤ now

/-- What is left of a record when its dataset is purged. -/
def purgeRecord (now : Time) (t : TableRecord) : Option TableRecord :=
  if expired now t then none else some (purgeExpiredPartitions t now).1

/-- Whether a purge of the tables removes anything. -/
def hasExpired (now : Time) (tables : TableMap) : Bool :=
  tables.entries.any fun e => expired now e.2 || (purgeExpiredPartitions e.2 now).2

/-- `purgeExpiredLocked`, with the version of the dataset that its callers then count. -/
def purge (s : TableService) (now : Time) (projectID datasetID : String) : TableService :=
  let tables := s.tables projectID datasetID
  if hasExpired now tables then
    s.store projectID datasetID (tables.filterMap (purgeRecord now))
  else s

/-! ## Reads

Reading touches the dataset and, except for `listAll`, purges it. -/

def list (s : TableService) (now : Time) (projectID datasetID : String) (start size : Nat) :
    TableService × List TableRecord × Option Nat × Nat :=
  let s := (s.ensureDatasetLocked now projectID datasetID).purge now projectID datasetID
  let tables := s.tables projectID datasetID
  let version := (s.datasetVersions.get? (datasetKey projectID datasetID)).getD 0
  let ids := (tables.keys).insertionSort (· ≤ ·)
  let start := min start ids.length
  let stop := min (start + size) ids.length
  let page := ((ids.drop start).take (stop - start)).filterMap fun id => tables.get? id
  (s, page, if stop < ids.length then some stop else none, version)

def listAll (s : TableService) (now : Time) (projectID datasetID : String) :
    TableService × List TableRecord :=
  let s := s.ensureDatasetLocked now projectID datasetID
  (s, (s.tables projectID datasetID).entries.map (·.2))

def get (s : TableService) (now : Time) (path : TableReference) :
    TableService × Option TableRecord :=
  let s := (s.ensureDatasetLocked now path.projectID path.datasetID).purge now path.projectID
    path.datasetID
  (s, s.record? path)

def getData (s : TableService) (now : Time) (path : TableReference) :
    TableService × Option (List TableField × List Row) :=
  let (s, found) := s.get now path
  (s, found.map fun t => (t.schema, t.rows))

def datasetTableCount (s : TableService) (now : Time) (projectID datasetID : String) :
    TableService × Nat :=
  match s.datasets.get? (projectID, datasetID) with
  | none => (s, 0)
  | some _ =>
    let s := s.purge now projectID datasetID
    (s, (s.tables projectID datasetID).keys.length)

end Purge

/-! ## Writes -/

/-- The trimmed path of a request, if all its parts are there. -/
def trimPath (projectID datasetID tableID : String) : Option TableReference :=
  let projectID := GoText.trimSpaceStr projectID
  let datasetID := GoText.trimSpaceStr datasetID
  let tableID := GoText.trimSpaceStr tableID
  if projectID = "" ∨ datasetID = "" ∨ tableID = "" then none
  else some ⟨projectID, datasetID, tableID⟩

section Writes

variable [GoFloat]

/-- The record `insert` builds, before its rows are checked. -/
def newRecord (input : TableInsert) (path : TableReference) (now : Time) : TableRecord :=
  { projectID := path.projectID
    datasetID := path.datasetID
    tableID := path.tableID
    friendlyName := GoText.trimSpaceStr input.friendlyName
    description := GoText.trimSpaceStr input.description
    labels := input.labels
    schema :=
      if input.schema = [] ∧ input.rows ≠ [] then inferSchemaFromRows input.rows else input.schema
    rows := input.rows
    ingestionPartitions := newIngestionPartitions input.timePartitioning input.rows.length now
    external := input.external
    view := input.view
    timePartitioning := input.timePartitioning
    rangePartitioning := input.rangePartitioning
    clustering := input.clustering
    requirePartitionFilter := input.requirePartitionFilter
    createdAt := now
    updatedAt := now
    version := 1
    expirationTime := input.expirationTime }

/-- `insert`; `none` stands for the result `nil, false`.  A panic of the row check leaves
the call with the dataset seeded. -/
def insert (s : TableService) (now : Time) (input : TableInsert) :
    TableService × Option TableRecord :=
  match trimPath input.projectID input.datasetID input.tableID with
  | none => (s, none)
  | some path =>
    let s := s.ensureDatasetLocked now path.projectID path.datasetID
    let tables := s.tables path.projectID path.datasetID
    match tables.get? path.tableID with
    | some _ => (s, none)
    | none =>
      let t := newRecord input path now
      match validateRowsForPartitioning t.schema t.rows t.timePartitioning
          t.rangePartitioning with
      | .error _ => (s, none)
      | .ok () => (s.store path.projectID path.datasetID (tables.set path.tableID t), some t)

def delete (s : TableService) (now : Time) (path : TableReference) : TableService × Bool :=
  let s := s.ensureDatasetLocked now path.projectID path.datasetID
  let tables := s.tables path.projectID path.datasetID
  match tables.get? path.tableID with
  | none => (s, false)
  | some _ => (s.store path.projectID path.datasetID (tables.delete path.tableID), true)

/-- The compare-and-swap check of the version-checked commits. -/
def checkVersion (tables : TableMap) (path : TableReference) (expectedVersion : Nat) :
    Result TableRecord :=
  let datasetID := path.datasetID
  let tableID := path.tableID
  match tables.get? tableID with
  | none => fail s!"table not found: {datasetID}.{tableID}"
  | some t =>
    if t.version ≠ expectedVersion then
      fail s!"table {datasetID}.{tableID} changed concurrently; retry the statement"
    else .ok t

def deleteIfVersion (s : TableService) (now : Time) (path : TableReference)
    (expectedVersion : Nat) : TableService × Result Unit :=
  let s := s.ensureDatasetLocked now path.projectID path.datasetID
  let tables := s.tables path.projectID path.datasetID
  match checkVersion tables path expectedVersion with
  | .error err => (s, .error err)
  | .ok _ => (s.store path.projectID path.datasetID (tables.delete path.tableID), .ok ())

/-- Replaces the record at the path by a changed one: a new modification time and the
next version. -/
def commit (s : TableService) (now : Time) (path : TableReference) (t : TableRecord) :
    TableService :=
  let t := { t with updatedAt := now, version := t.version + 1 }
  s.store path.projectID path.datasetID
    ((s.tables path.projectID path.datasetID).set path.tableID t)

/-- The common shape of the version-checked commits: `change` is what the statement makes
of the record. -/
def commitIfVersion (s : TableService) (now : Time) (path : TableReference)
    (expectedVersion : Nat) (change : TableRecord → Result TableRecord) :
    TableService × Result Unit :=
  let s := s.ensureDatasetLocked now path.projectID path.datasetID
  match checkVersion (s.tables path.projectID path.datasetID) path expectedVersion with
  | .error err => (s, .error err)
  | .ok t =>
    match change t with
    | .error err => (s, .error err)
    | .ok t => (s.commit now path t, .ok ())

/-- The partitions of the new row image of a DML statement: those it carries, or those
carried over from the old rows. -/
def replacedPartitions (now : Time) (t : TableRecord) (rows : List Row)
    (ingestionPartitions : List String) : List String :=
  let currentPartition := ingestionPartitionID t.timePartitioning now
  if currentPartition ≠ "" ∧ ingestionPartitions.length = rows.length then
    ingestionPartitions.map fun p => if p = "" then currentPartition else p
  else reconcileIngestionPartitions t.rows rows t.ingestionPartitions currentPartition

/-- The new row image of a DML statement. -/
def replaceRows (now : Time) (path : TableReference) (rows : List Row)
    (ingestionPartitions : List String) (t : TableRecord) : Result TableRecord :=
  let datasetID := path.datasetID
  let tableID := path.tableID
  if t.view.isSome then fail s!"DML target {datasetID}.{tableID} is a view"
  else if t.external.isSome then fail s!"DML target {datasetID}.{tableID} is an external table"
  else
    match check (validateStoredRows t.schema rows) with
    | .error err => .error err
    | .ok () =>
      match validateRowsForPartitioning t.schema rows t.timePartitioning
          t.rangePartitioning with
      | .error err => .error err
      | .ok () =>
        .ok { t with
          rows := rows
          ingestionPartitions := replacedPartitions now t rows ingestionPartitions }

def replaceRowsIfVersion (s : TableService) (now : Time) (path : TableReference)
    (expectedVersion : Nat) (rows : List Row) (ingestionPartitions : List String) :
    TableService × Result Unit :=
  s.commitIfVersion now path expectedVersion (replaceRows now path rows ingestionPartitions)

/-- The record without the attributes that `CREATE OR REPLACE` clears. -/
def redefine (t : TableRecord) (schema : List TableField) (rows : List Row)
    (view : Option ViewConfig) : TableRecord :=
  { t with
    schema := schema
    rows := rows
    view := view
    external := none
    timePartitioning := none
    rangePartitioning := none
    clustering := []
    requirePartitionFilter := false
    ingestionPartitions := [] }

def replaceTableIfVersion (s : TableService) (now : Time) (path : TableReference)
    (expectedVersion : Nat) (schema : List TableField) (rows : List Row) :
    TableService × Result Unit :=
  s.commitIfVersion now path expectedVersion fun t =>
    match check (validateStoredRows schema rows) with
    | .error err => .error err
    | .ok () => .ok (redefine t schema rows none)

def replaceViewIfVersion (s : TableService) (now : Time) (path : TableReference)
    (expectedVersion : Nat) (schema : List TableField) (view : ViewConfig) :
    TableService × Result Unit :=
  s.commitIfVersion now path expectedVersion fun t => .ok (redefine t schema [] (some view))

def addColumnsIfVersion (s : TableService) (now : Time) (path : TableReference)
    (expectedVersion : Nat) (newFields : List TableField) : TableService × Result Unit :=
  s.commitIfVersion now path expectedVersion fun t =>
    .ok { t with
      schema := t.schema ++ newFields
      rows := t.rows.map fun row => row ++ newFields.map fun _ => storedNullCell }

/-- `dropColumnsIfVersion`.  The schema is replaced before the rows are filtered, so a panic
leaves a table without the columns and with all the cells, at its old version. -/
def dropColumnsIfVersion (s : TableService) (now : Time) (path : TableReference)
    (expectedVersion : Nat) (dropNames : List String) : TableService × Result Unit :=
  let s := s.ensureDatasetLocked now path.projectID path.datasetID
  let tables := s.tables path.projectID path.datasetID
  match checkVersion tables path expectedVersion with
  | .error err => (s, .error err)
  | .ok t =>
    let drop := dropColumnIndexSet t.schema dropNames
    let t := { t with schema := filterColumns t.schema drop }
    match filterRowColumns t.rows drop with
    | .error err => (s.setTables path.projectID path.datasetID (tables.set path.tableID t),
        .error err)
    | .ok rows => (s.commit now path { t with rows := rows }, .ok ())

def renameColumnsIfVersion (s : TableService) (now : Time) (path : TableReference)
    (expectedVersion : Nat) (renames : List (String × String)) : TableService × Result Unit :=
  s.commitIfVersion now path expectedVersion fun t =>
    .ok { t with schema := t.schema.map (renameField renames) }

def renameTableIfVersion (s : TableService) (now : Time) (path : TableReference)
    (newTableID : String) (expectedVersion : Nat) : TableService × Result Unit :=
  let datasetID := path.datasetID
  let s := s.ensureDatasetLocked now path.projectID path.datasetID
  let tables := s.tables path.projectID path.datasetID
  match checkVersion tables path expectedVersion with
  | .error err => (s, .error err)
  | .ok t =>
    match tables.get? newTableID with
    | some _ => (s, fail s!"table already exists: {datasetID}.{newTableID}")
    | none =>
      let t := { t with tableID := newTableID, updatedAt := now, version := t.version + 1 }
      (s.store path.projectID path.datasetID
        ((tables.delete path.tableID).set newTableID t), .ok ())

/-- The common shape of `patch` and `update`. -/
def edit (s : TableService) (now : Time) (path : Option TableReference)
    (change : TableRecord → TableRecord) : TableService × Bool :=
  match path with
  | none => (s, false)
  | some path =>
    let s := s.ensureDatasetLocked now path.projectID path.datasetID
    match (s.tables path.projectID path.datasetID).get? path.tableID with
    | none => (s, false)
    | some t => (s.commit now path (change t), true)

def patch (s : TableService) (now : Time) (input : TablePatch) : TableService × Bool :=
  s.edit now (trimPath input.projectID input.datasetID input.tableID) fun t =>
    { t with
      friendlyName := (input.friendlyName.map GoText.trimSpaceStr).getD t.friendlyName
      description := (input.description.map GoText.trimSpaceStr).getD t.description
      labels := input.labels.getD t.labels
      expirationTime := input.expirationTime.getD t.expirationTime
      schema := input.schema.getD t.schema
      timePartitioning := input.timePartitioning.getD t.timePartitioning
      rangePartitioning := input.rangePartitioning.getD t.rangePartitioning
      clustering := input.clustering.getD t.clustering
      requirePartitionFilter := input.requirePartitionFilter.getD t.requirePartitionFilter }

def update (s : TableService) (now : Time) (input : TableUpdate) : TableService × Bool :=
  s.edit now (trimPath input.projectID input.datasetID input.tableID) fun t =>
    { t with
      friendlyName := GoText.trimSpaceStr input.friendlyName
      description := GoText.trimSpaceStr input.description
      labels := input.labels
      expirationTime := input.expirationTime
      timePartitioning := input.timePartitioning
      rangePartitioning := input.rangePartitioning
      clustering := input.clustering
      requirePartitionFilter := input.requirePartitionFilter }

/-- The record `upsertCopyDestination` writes to, as it was or newly made. -/
def destination (existing : Option TableRecord) (path : TableReference) (now : Time) :
    TableRecord :=
  existing.getD
    { projectID := path.projectID
      datasetID := path.datasetID
      tableID := path.tableID
      createdAt := now
      updatedAt := now
      version := 1 }

/-- The checks on the dispositions before any row is looked at. -/
def checkDispositions (existing : Option TableRecord) (schema : List TableField)
    (create : CreateDisposition) (write : WriteDisposition) : Result Unit :=
  match existing with
  | none =>
    if create = .createNever then fail "destination table not found with CREATE_NEVER"
    else .ok ()
  | some t =>
    if write = .writeEmpty ∧ t.rows ≠ [] then fail "destination table is not empty"
    else if write = .writeAppend ∧ t.schema ≠ [] ∧ schema ≠ [] ∧ !sameSchema t.schema schema then
      fail "source and destination schemas do not match for WRITE_APPEND"
    else .ok ()

/-- The content the destination gets. -/
def merge (t : TableRecord) (schema : List TableField) (rows : List Row)
    (write : WriteDisposition) (now : Time) : TableRecord :=
  let newPartitions := newIngestionPartitions t.timePartitioning rows.length now
  let newRows := if write = .writeAppend then t.rows ++ rows else rows
  let newSchema := if write = .writeAppend ∧ t.schema ≠ [] then t.schema else schema
  { t with
    schema := if newSchema = [] ∧ newRows ≠ [] then inferSchemaFromRows newRows else newSchema
    rows := newRows
    ingestionPartitions :=
      if write = .writeAppend then t.ingestionPartitions ++ newPartitions else newPartitions }

def upsertCopyDestination (s : TableService) (now : Time) (dest : TableReference)
    (schema : List TableField) (rows : List Row) (createDisposition writeDisposition : String) :
    TableService × Result Nat :=
  match trimPath dest.projectID dest.datasetID dest.tableID with
  | none => (s, fail "destinationTable is required")
  | some path =>
    let create := normalizeCreateDisposition createDisposition
    let write := normalizeWriteDisposition writeDisposition
    let s := s.ensureDatasetLocked now path.projectID path.datasetID
    let existing := (s.tables path.projectID path.datasetID).get? path.tableID
    match checkDispositions existing schema create write with
    | .error err => (s, .error err)
    | .ok () =>
      let t := merge (destination existing path now) schema rows write now
      match check (validateStoredRows t.schema t.rows) with
      | .error err => (s, .error err)
      | .ok () =>
        match validateRowsForPartitioning t.schema t.rows t.timePartitioning
            t.rangePartitioning with
        | .error err => (s, .error err)
        | .ok () => (s.commit now path t, .ok rows.length)

end Writes

def deleteAllForDataset (s : TableService) (projectID datasetID : String) : TableService :=
  match s.datasets.get? (projectID, datasetID) with
  | none => s
  | some _ =>
    { s with datasets := s.datasets.delete (projectID, datasetID) }.bump projectID datasetID

end TableService

end LocaQL
