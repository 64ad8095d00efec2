import LocaQL.Catalog.CellStorage
import LocaQL.Lib.GoTime
import LocaQL.Lib.JsonBytes

/-!
# Partitions

Partition identifiers of time-partitioned tables, the partition each row belongs to,
and what the catalog does with them: checking rows, assigning ingestion partitions,
carrying them over an update, dropping expired ones, and the two columns that show
them to a query.
-/

namespace LocaQL

/-- What the server takes from Go's 64-bit floats: the cell text and the JSON text of a
number literal, and the instant that a text denotes as seconds since 1970. -/
class GoFloat where
  plain : List Char → String
  marshal : List Char → List Char
  unix : List Char → Option Time

/-- Numbers kept as they are written. -/
@[reducible] def GoFloat.texts : GoFloat := ⟨String.ofList, id, fun _ => none⟩

def findTopLevelField (schema : List TableField) (name : String) : Option (TableField × Nat) :=
  let trimmed := GoText.trimSpaceStr name
  (schema.zipIdx.find? fun f => GoText.equalFold f.1.name trimmed)

def ingestionPartitionTimeColumn : String := "__locaql_partition_time"

def ingestionPartitionDateColumn : String := "__locaql_partition_date"

/-! ## Partition identifiers -/

open GoTime (Layout)

/-- The layout of a partition identifier. -/
def partitionLayout : PartitionType → Layout
  | .hour => [.year, .month, .day, .hour]
  | .day => [.year, .month, .day]
  | .month => [.year, .month]
  | .year => [.year]

def formatTimePartitionID (value : Time) (type : PartitionType) : String :=
  GoTime.format (partitionLayout type) value

def parseTimePartitionID (partitionID : String) (type : PartitionType) : Option Time :=
  if partitionID = "" ∨ GoText.hasPrefixStr partitionID "__" then none
  else GoTime.parse (partitionLayout type) partitionID.toList

/-- `2006-01-02`. -/
def dateLayout : Layout := [.year, .lit '-', .month, .lit '-', .day]

/-- `15:04:05`. -/
def clockLayout : Layout := [.hour, .lit ':', .minute, .lit ':', .second]

/-- `time.RFC3339Nano`. -/
def rfc3339Nano : Layout := dateLayout ++ [.lit 'T'] ++ clockLayout ++ [.fraction, .zoneISO]

def timestampLayouts : List Layout :=
  let base := dateLayout ++ [.lit ' '] ++ clockLayout
  [rfc3339Nano,
   base ++ [.fraction, .lit ' ', .zoneName],
   base ++ [.lit ' ', .zoneName],
   base ++ [.fraction, .zoneColon],
   base ++ [.zoneColon],
   base ++ [.fraction, .zoneHour],
   base ++ [.zoneHour],
   base ++ [.fraction],
   base]

section

variable [GoFloat]

def parsePartitionTimestamp (value : String) : Option Time :=
  let trimmed := GoText.trimSpace value.toList
  match timestampLayouts.findSome? fun layout => GoTime.parse layout trimmed with
  | some parsed => some parsed
  | none => GoFloat.unix trimmed

def timePartitionIDFromCell (fieldType cell : String) (type : PartitionType) : Option String :=
  match loadStoredCell cell with
  | none => none
  | some decoded =>
    let parsed :=
      if GoText.equalFold fieldType "DATE" then GoTime.parse dateLayout decoded.toList
      else parsePartitionTimestamp decoded
    parsed.map fun t => formatTimePartitionID t type

end

/-! ## Ingestion partitions -/

def ingestionPartitionID (config : Option TimePartitioningConfig) (now : Time) : String :=
  match config with
  | none => ""
  | some config => if config.field ≠ "" then "" else formatTimePartitionID now config.type

def newIngestionPartitions (config : Option TimePartitioningConfig) (count : Nat) (now : Time) :
    List String :=
  let id := ingestionPartitionID config now
  if id = "" ∨ count = 0 then [] else List.replicate count id

/-- The entry of a list of partition labels, `fallback` where it is missing or empty. -/
def labelAt (labels : List String) (fallback : String) (i : Nat) : String :=
  match labels[i]? with
  | some label => if label = "" then fallback else label
  | none => fallback

/-- A representation of rows with the text that `json.Marshal` makes of a row. -/
class RowText (ρ : Type) where
  marshal : ρ → List Char

instance : RowText Row := ⟨Json.encodeStrings⟩

/-- A row as Go has it: a slice of byte strings, `none` for the nil slice. -/
abbrev ByteRow := Option (List Json.Bytes)

instance : RowText ByteRow := ⟨Json.marshalStrings⟩

def ByteRow.cells (row : ByteRow) : List Json.Bytes := row.getD []

/-- What the JSON text of a row shows. -/
def ByteRow.runes (row : ByteRow) : Option (List (List (Option Char))) :=
  row.map (List.map Json.runes)

theorem marshal_eq_iff {row row' : ByteRow} :
    RowText.marshal row = RowText.marshal row' ↔ row.runes = row'.runes :=
  Json.marshalStrings_eq_iff

section

variable {ρ : Type} [RowText ρ]

/-- The rows of the old table by their JSON text, each with its positions in order. -/
def availableRows : Nat → List ρ → GoMap (List Char) (List Nat)
  | _, [] => ∅
  | i, row :: rows =>
    let available := availableRows (i + 1) rows
    let key := RowText.marshal row
    available.set key (i :: (available.get? key).getD [])

/-- The first loop of `reconcileIngestionPartitions`: each new row takes the first old row
with the same cells that is still free.  It gives the old position for each new row. -/
def matchRows : GoMap (List Char) (List Nat) → List ρ → List (Option Nat)
  | _, [] => []
  | available, row :: rows =>
    let key := RowText.marshal row
    match (available.get? key).getD [] with
    | [] => none :: matchRows available rows
    | old :: rest => some old :: matchRows (available.set key rest) rows

/-- The second loop: an unmatched row takes over the old row at its own position, if that
one is free, and is otherwise new. -/
def assignRows (oldCount : Nat) (oldLabel : Nat → String) (current : String) (used : List Nat) :
    Nat → List (Option Nat) → List String
  | _, [] => []
  | i, some old :: rest => oldLabel old :: assignRows oldCount oldLabel current used (i + 1) rest
  | i, none :: rest =>
    if i < oldCount ∧ i ∉ used then
      oldLabel i :: assignRows oldCount oldLabel current (i :: used) (i + 1) rest
    else current :: assignRows oldCount oldLabel current used (i + 1) rest

def reconcileIngestionPartitions (oldRows newRows : List ρ) (oldPartitions : List String)
    (currentPartition : String) : List String :=
  if currentPartition = "" ∨ newRows.isEmpty then []
  else
    let matched := matchRows (availableRows 0 oldRows) newRows
    assignRows oldRows.length (labelAt oldPartitions currentPartition) currentPartition
      (matched.filterMap id) 0 matched

end

/-! ## Checking rows -/

section

variable [GoFloat]

/-- The cell of the partition column.  Where the column does not resolve, its index is -1
and reading the row panics. -/
def partitionCell (schema : List TableField) (name : String) (row : Row) :
    Result (TableField × String) :=
  match findTopLevelField schema name with
  | some (field, index) => .ok (field, cellAt row index)
  | none => .error (.panic "runtime error: index out of range [-1]")

def validateTimePartitionRows (schema : List TableField) (config : TimePartitioningConfig) :
    Nat → List Row → Result Unit
  | _, [] => .ok ()
  | i, row :: rows =>
    match partitionCell schema config.field row with
    | .error err => .error err
    | .ok (field, cell) =>
      if (loadStoredCell cell).isSome ∧
          (timePartitionIDFromCell field.type cell config.type).isNone then
        let quoted := GoText.quote field.name
        let type := field.type
        fail s!"row {i} partition field {quoted} is not a valid {type} value"
      else validateTimePartitionRows schema config (i + 1) rows

def validateRangePartitionRows (schema : List TableField) (config : RangePartitioningConfig) :
    Nat → List Row → Result Unit
  | _, [] => .ok ()
  | i, row :: rows =>
    match partitionCell schema config.field row with
    | .error err => .error err
    | .ok (field, cell) =>
      match loadStoredCell cell with
      | none => validateRangePartitionRows schema config (i + 1) rows
      | some decoded =>
        if (GoText.parseInt64 decoded.toList).isNone then
          let quoted := GoText.quote field.name
          fail s!"row {i} partition field {quoted} is not a valid INT64 value"
        else validateRangePartitionRows schema config (i + 1) rows

def validateRowsForPartitioning (schema : List TableField) (rows : List Row)
    (timeConfig : Option TimePartitioningConfig) (rangeConfig : Option RangePartitioningConfig) :
    Result Unit := do
  match timeConfig with
  | some config => if config.field ≠ "" then validateTimePartitionRows schema config 0 rows
  | none => pure ()
  match rangeConfig with
  | some config => validateRangePartitionRows schema config 0 rows
  | none => pure ()

/-! ## Expired partitions -/

/-- The partition column: `some none` for ingestion time, `none` if it does not resolve. -/
def partitionColumn (schema : List TableField) (config : TimePartitioningConfig) :
    Option (Option (TableField × Nat)) :=
  if config.field = "" then some none else (findTopLevelField schema config.field).map some

/-- The partition that `purgeExpiredPartitions` looks at for row `i`. -/
def expiringPartition (table : TableRecord) (config : TimePartitioningConfig)
    (column : Option (TableField × Nat)) (i : Nat) (row : Row) : String :=
  match column with
  | none =>
    labelAt table.ingestionPartitions (ingestionPartitionID (some config) table.createdAt) i
  | some (field, index) =>
    (timePartitionIDFromCell field.type (cellAt row index) config.type).getD ""

/-- The rows with their partitions. -/
def labelledRows (table : TableRecord) (config : TimePartitioningConfig)
    (column : Option (TableField × Nat)) : List (Row × String) :=
  table.rows.zipIdx.map fun r => (r.1, expiringPartition table config column r.2 r.1)

/-- Whether the partition has run out at `now`. -/
def partitionExpired (config : TimePartitioningConfig) (now : Time) (partitionID : String) : Bool :=
  match parseTimePartitionID partitionID config.type with
  | none => false
  | some start => start + (config.expirationMs * 1000000).toInt ≤ now

/-- The record with only the given rows, each with its partition. -/
def keepRows (table : TableRecord) (config : TimePartitioningConfig) (now : Time)
    (kept : List (Row × String)) : TableRecord :=
  { table with
    rows := kept.map (·.1)
    ingestionPartitions :=
      if config.field = "" then kept.map (·.2) else table.ingestionPartitions
    updatedAt := now
    version := table.version + 1 }

/-- `purgeExpiredPartitions`, with whether anything was removed. -/
def purgeExpiredPartitions (table : TableRecord) (now : Time) : TableRecord × Bool :=
  match table.timePartitioning with
  | none => (table, false)
  | some config =>
    if config.expirationMs ≤ 0 ∨ table.rows = [] ∨ table.external.isSome ∨ table.view.isSome then
      (table, false)
    else
      match partitionColumn table.schema config with
      | none => (table, false)
      | some column =>
        let labelled := labelledRows table config column
        let kept := labelled.filter fun r => !partitionExpired config now r.2
        if kept.length = labelled.length then (table, false)
        else (keepRows table config now kept, true)

/-- Either nothing has expired, or only the rows that have not are kept. -/
theorem purgeExpiredPartitions_cases (t : TableRecord) (now : Time) :
    purgeExpiredPartitions t now = (t, false) ∨
      ∃ config column, t.timePartitioning = some config ∧
        partitionColumn t.schema config = some column ∧
        purgeExpiredPartitions t now =
          (keepRows t config now ((labelledRows t config column).filter fun r =>
            !partitionExpired config now r.2), true) := by
  cases partitioning : t.timePartitioning with
  | none => exact .inl (by simp only [purgeExpiredPartitions, partitioning])
  | some config =>
    simp only [purgeExpiredPartitions, partitioning]
    split
    · exact .inl rfl
    cases resolves : partitionColumn t.schema config with
    | none => exact .inl rfl
    | some column =>
      simp only
      split
      · exact .inl rfl
      · exact .inr ⟨config, column, rfl, resolves, rfl⟩

end

/-! ## Pseudocolumns -/

/-- The two extra cells of a row in the given partition. -/
def pseudocolumnCells (partitionID : String) (type : PartitionType) : List String :=
  match parseTimePartitionID partitionID type with
  | none => [storedNullCell, storedNullCell]
  | some start =>
    [storeStringCell (GoTime.format rfc3339Nano start),
     storeStringCell (GoTime.format dateLayout start)]

def materializeIngestionPseudocolumns (table : Option TableRecord) (fields : List TableField)
    (rows : List Row) : List TableField × List Row :=
  match table with
  | none => (fields, rows)
  | some table =>
    match table.timePartitioning with
    | none => (fields, rows)
    | some config =>
      if config.field ≠ "" ∨ table.view.isSome ∨ table.external.isSome then (fields, rows)
      else
        let fallback := ingestionPartitionID (some config) table.createdAt
        (fields ++ [⟨ingestionPartitionTimeColumn, "TIMESTAMP", "", []⟩,
            ⟨ingestionPartitionDateColumn, "DATE", "", []⟩],
         rows.zipIdx.map fun r =>
           r.1 ++ pseudocolumnCells (labelAt table.ingestionPartitions fallback r.2) config.type)

end LocaQL
