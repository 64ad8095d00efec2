import LocaQL.Catalog.Service
import LocaQL.Sql.Statements

/-!
# Job records

A job is inserted with `JobInsertOptions`, kept as a `JobRecord`, and shown to clients by
`renderJobResource`.  The key that serializes jobs on one table (`buildResourceKey`), the split
of a script (`splitScriptStatements`) and the result of a job that has no executor
(`applyExecutorResult`) depend on the record alone.
-/

namespace LocaQL

open Sql (StatementType)

/-! ## States, types and priorities -/

inductive JobState where
  | pending
  | running
  | done
deriving Repr, DecidableEq

def JobState.text : JobState → String
  | .pending => "PENDING"
  | .running => "RUNNING"
  | .done => "DONE"

/-- How far a job has come. -/
def JobState.rank : JobState → Nat
  | .pending => 0
  | .running => 1
  | .done => 2

inductive JobType where
  | query
  | load
  | extract
  | copy
  | script
deriving Repr, DecidableEq

def JobType.text : JobType → String
  | .query => "query"
  | .load => "load"
  | .extract => "extract"
  | .copy => "copy"
  | .script => "script"

inductive Priority where
  | interactive
  | batch
deriving Repr, DecidableEq

def Priority.text : Priority → String
  | .interactive => "INTERACTIVE"
  | .batch => "BATCH"

def CreateDisposition.text : CreateDisposition → String
  | .createNever => "CREATE_NEVER"
  | .createIfNeeded => "CREATE_IF_NEEDED"

def WriteDisposition.text : WriteDisposition → String
  | .writeTruncate => "WRITE_TRUNCATE"
  | .writeAppend => "WRITE_APPEND"
  | .writeEmpty => "WRITE_EMPTY"

def Sql.StatementType.text : StatementType → String
  | .insert => "INSERT"
  | .update => "UPDATE"
  | .delete => "DELETE"
  | .merge => "MERGE"
  | .truncateTable => "TRUNCATE_TABLE"
  | .createTable => "CREATE_TABLE"
  | .dropTable => "DROP_TABLE"
  | .createView => "CREATE_VIEW"
  | .createMaterializedView => "CREATE_MATERIALIZED_VIEW"
  | .dropView => "DROP_VIEW"
  | .dropMaterializedView => "DROP_MATERIALIZED_VIEW"
  | .createSchema => "CREATE_SCHEMA"
  | .alterTable => "ALTER_TABLE"
  | .script => "SCRIPT"
  | .select => "SELECT"

def isDMLStatementType : Option StatementType → Bool
  | some .insert | some .update | some .delete | some .merge | some .truncateTable => true
  | _ => false

/-! ## Records -/

/-- `jobError`. -/
structure JobError where
  reason : String
  message : String
  location : String := ""
deriving Repr, DecidableEq

/-- `jobStatistics`.  No result is cached where the schema is nil. -/
structure JobStatistics where
  executor : String
  simulated : Bool
  totalSlotMs : Int := 0
  processedBytes : Int := 0
  outputRows : Int := 0
  statementType : Option StatementType := none
  dmlAffectedRows : Int := 0
  resultSchema : Option (List TableField) := none
  resultRows : List Row := []
deriving DecidableEq

/-- `storedQueryParameter`. -/
structure StoredQueryParameter where
  name : String
  type : String
  value : String
  isNull : Bool
deriving Repr, DecidableEq

/-- The settings that both an insertion and a job record have. -/
structure JobSettings where
  projectID : String
  parentJobID : String := ""
  userEmail : String := ""
  queryText : String := ""
  parameterMode : String := ""
  queryParameters : List StoredQueryParameter := []
  sourceTables : List TableReference := []
  loadSchema : List TableField := []
  loadSourceURIs : List String := []
  loadInlineData : Option (List UInt8) := none
  loadInlineName : String := ""
  loadInline : Bool := false
  loadSourceFormat : String := ""
  loadFieldDelimiter : String := ""
  loadSkipLeadingRows : Int := 0
  loadCompression : String := ""
  loadAutodetect : Bool := false
  extractSourceTable : TableReference := ⟨"", "", ""⟩
  extractDestinationURIs : List String := []
  extractDestinationFormat : String := ""
  extractFieldDelimiter : String := ""
  extractPrintHeader : Bool := false
  extractCompression : String := ""
  targetDataset : String := ""
  targetTable : String := ""
  isScript : Bool := false
  sessionID : String := ""
  requestID : String := ""
deriving DecidableEq

/-- `jobInsertOptions`. -/
structure JobInsertOptions extends JobSettings where
  jobType : String := ""
  priority : String := ""
  createDisposition : String := ""
  writeDisposition : String := ""
  requestedJobID : String := ""
deriving DecidableEq

/-- `jobRecord`. -/
structure JobRecord extends JobSettings where
  jobID : String
  jobType : JobType
  priority : Priority
  resourceKey : String
  createDisposition : CreateDisposition
  writeDisposition : WriteDisposition
  state : JobState
  statistics : JobStatistics
  createdAt : Time
  startedAt : Time := 0
  endedAt : Time := 0
  cancelRequested : Bool := false
  errorReason : String := ""
  errorMessage : String := ""
  errors : List JobError := []
deriving DecidableEq

def normalizePriority (p : String) : Priority :=
  if GoText.toUpperStr (GoText.trimSpaceStr p) = "BATCH" then .batch else .interactive

def normalizeJobType (opts : JobInsertOptions) : JobType :=
  if opts.isScript then .script
  else
    match [JobType.query, .load, .extract, .copy].find? fun t =>
        t.text.toList = GoText.toLower (GoText.trimSpace opts.jobType.toList) with
    | some t => t
    | none => .query

def newSimulatedStatistics (jobType : JobType) : JobStatistics where
  executor := jobType.text
  simulated := true

/-- The key that serializes the jobs that write to one table. -/
def buildResourceKey (opts : JobInsertOptions) : String :=
  if opts.targetDataset = "" ∨ opts.targetTable = "" then ""
  else opts.projectID ++ ":" ++ opts.targetDataset ++ "." ++ opts.targetTable

/-- The record of a new job. -/
def newJob (opts : JobInsertOptions) (jobID : String) (now : Time) : JobRecord :=
  { opts.toJobSettings with
    jobID := jobID
    jobType := normalizeJobType opts
    priority := normalizePriority opts.priority
    resourceKey := buildResourceKey opts
    loadInlineName := GoText.trimSpaceStr opts.loadInlineName
    loadSourceFormat := GoText.trimSpaceStr opts.loadSourceFormat
    loadCompression := GoText.trimSpaceStr opts.loadCompression
    extractDestinationFormat := GoText.trimSpaceStr opts.extractDestinationFormat
    extractCompression := GoText.trimSpaceStr opts.extractCompression
    targetDataset := GoText.trimSpaceStr opts.targetDataset
    targetTable := GoText.trimSpaceStr opts.targetTable
    createDisposition := normalizeCreateDisposition opts.createDisposition
    writeDisposition := normalizeWriteDisposition opts.writeDisposition
    state := .pending
    statistics := newSimulatedStatistics (normalizeJobType opts)
    createdAt := now }

/-! ## Scripts -/

/-- The text is cut at every semicolon, wherever it stands. -/
def splitScriptStatements (query : String) : List String :=
  let parts := (query.toList.splitOn ';').map GoText.trimSpace
  match parts.filter fun p => !p.isEmpty with
  | [] => ["noop"]
  | out => out.map String.ofList

/-! ## Jobs without an executor -/

/-- `strings.Contains`. -/
def containsText (s sub : List Char) : Bool := (GoText.cutAfter sub s).isSome

/-- The made-up statistics of each type of job. -/
def simulatedTotals : JobType → Int × Int × Int
  | .load => (75, 2048, 20)
  | .extract => (40, 1024, 10)
  | .copy => (30, 768, 8)
  | .script => (90, 1536, 12)
  | .query => (60, 512, 5)

def applyExecutorResult (j : JobRecord) : JobRecord :=
  if containsText (GoText.toUpper j.queryText.toList) "FORCE_ERROR".toList then
    { j with
      errorReason := "invalid"
      errorMessage := "Simulated forced error from query text"
      errors :=
        [⟨"invalid", "Simulated forced error from query text", "query"⟩,
         ⟨"secondary", "Additional error detail", "execution"⟩] }
  else
    let totals := simulatedTotals j.jobType
    { j with
      statistics.totalSlotMs := totals.1
      statistics.processedBytes := totals.2.1
      statistics.outputRows := totals.2.2 }

/-! ## Rendering -/

def restFieldTypeName (t : String) : String :=
  let upper := GoText.toUpperStr (GoText.trimSpaceStr t)
  if upper = "INT64" then "INTEGER"
  else if upper = "FLOAT64" then "FLOAT"
  else if upper = "BOOL" then "BOOLEAN"
  else if upper = "STRUCT" then "RECORD"
  else t

mutual

def renderTableSchemaField : TableField → Json
  | ⟨name, type, mode, fields⟩ =>
    .obj ([("name", .str name), ("type", .str (restFieldTypeName type)),
        ("mode", .str (normalizeMode mode))] ++
      if isRecordType type ∧ fields ≠ [] then
        [("fields", .arr (renderTableSchemaFields fields))]
      else [])

def renderTableSchemaFields : List TableField → List Json
  | [] => []
  | f :: fs => renderTableSchemaField f :: renderTableSchemaFields fs

end

/-- `strconv.FormatInt`, as a JSON string. -/
def renderCount (n : Int) : Json := .str (toString n)

def renderJobError (e : JobError) : Json :=
  .obj ([("reason", .str e.reason), ("message", .str e.message)] ++
    if e.location = "" then [] else [("location", .str e.location)])

def renderJobStatus (j : JobRecord) : Json :=
  .obj ([("state", .str j.state.text)] ++
    (if j.errorReason = "" then []
     else [("errorResult", .obj [("reason", .str j.errorReason), ("message", .str j.errorMessage)])])
    ++ if j.errors = [] then [] else [("errors", .arr (j.errors.map renderJobError))])

/-- `dmlStats` of the statements that have it. -/
def renderDMLStats (statementType : StatementType) (rows : Int) : List (String × Json) :=
  let stats (inserted updated deleted : Json) : List (String × Json) :=
    [("dmlStats", .obj [("insertedRowCount", inserted), ("updatedRowCount", updated),
      ("deletedRowCount", deleted)])]
  match statementType with
  | .insert => stats (renderCount rows) (.str "0") (.str "0")
  | .update => stats (.str "0") (renderCount rows) (.str "0")
  | .delete => stats (.str "0") (.str "0") (renderCount rows)
  | _ => []

def renderQueryStatistics (j : JobRecord) (statementType : StatementType) : Json :=
  .obj ([("statementType", .str statementType.text),
      ("totalBytesProcessed", renderCount j.statistics.processedBytes)] ++
    if isDMLStatementType (some statementType) then
      [("numDmlAffectedRows", renderCount j.statistics.dmlAffectedRows)] ++
        renderDMLStats statementType j.statistics.dmlAffectedRows
    else [])

def renderJobStatistics (j : JobRecord) : Json :=
  .obj ([("totalSlotMs", renderCount j.statistics.totalSlotMs),
      ("processedBytes", renderCount j.statistics.processedBytes),
      ("outputRows", renderCount j.statistics.outputRows),
      ("simulation", .obj [("enabled", .bool j.statistics.simulated),
        ("executor", .str j.statistics.executor)])] ++
    (if j.sessionID = "" then [] else [("sessionInfo", .obj [("sessionId", .str j.sessionID)])]) ++
    (if j.jobType = .load then
      [("load", .obj [("outputRows", renderCount j.statistics.outputRows),
        ("outputBytes", renderCount j.statistics.processedBytes)])]
     else []) ++
    match j.jobType, j.statistics.statementType with
    | .query, some statementType => [("query", renderQueryStatistics j statementType)]
    | _, _ => [])

def anonymousQueryResultsDatasetID : String := "_anon"

def anonymousQueryResultsTableID (jobID : String) : String := "anon" ++ jobID

def renderTableReference (projectID datasetID tableID : String) : Json :=
  .obj [("projectId", .str projectID), ("datasetId", .str datasetID), ("tableId", .str tableID)]

def renderQueryConfiguration (j : JobRecord) : Json :=
  .obj [("query", .obj [("query", .str j.queryText), ("priority", .str j.priority.text),
    ("destinationTable", renderTableReference j.projectID anonymousQueryResultsDatasetID
      (anonymousQueryResultsTableID j.jobID))])]

def renderLoadConfiguration (j : JobRecord) : Json :=
  .obj [("load", .obj ([
    ("destinationTable", renderTableReference j.projectID j.targetDataset j.targetTable),
    ("schema", .obj [("fields", .arr (renderTableSchemaFields j.loadSchema))]),
    ("sourceFormat", .str j.loadSourceFormat),
    ("createDisposition", .str j.createDisposition.text),
    ("writeDisposition", .str j.writeDisposition.text),
    ("fieldDelimiter", .str j.loadFieldDelimiter),
    ("skipLeadingRows", .num (toString j.loadSkipLeadingRows).toList),
    ("compression", .str j.loadCompression)] ++
    if j.loadSourceURIs = [] then []
    else [("sourceUris", .arr (j.loadSourceURIs.map Json.str))]))]

def renderJobResource (j : JobRecord) : Json :=
  .obj ([("kind", .str "bigquery#job"),
    ("id", .str (j.projectID ++ ":" ++ j.jobID)),
    ("jobReference", .obj [("projectId", .str j.projectID), ("jobId", .str j.jobID)]),
    ("user_email", .str j.userEmail),
    ("parentJobId", .str j.parentJobID),
    ("jobType", .str j.jobType.text),
    ("statistics", renderJobStatistics j),
    ("status", renderJobStatus j)] ++
    match j.jobType with
    | .query | .script => [("configuration", renderQueryConfiguration j)]
    | .load => [("configuration", renderLoadConfiguration j)]
    | .copy | .extract => [])

/-- The record without what no client is shown: the uploaded bytes, when the job started and
ended, and whether its cancellation was asked for. -/
def JobRecord.shown (j : JobRecord) : JobRecord :=
  { j with
    loadInlineData := none
    startedAt := 0
    endedAt := 0
    cancelRequested := false }

end LocaQL
