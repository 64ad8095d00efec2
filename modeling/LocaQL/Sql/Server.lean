import LocaQL.Sql.RowDeltas
import LocaQL.Catalog.Service

/-!
# Executing a statement

`executeQueryStatement` and the executors it tries in turn: session control,
`INFORMATION_SCHEMA`, views, `CREATE SCHEMA`, `ALTER TABLE`, the other table statements, and
last a query of the SQL engine.  An executor that does not take a text returns `none` (the
source's `handled = false`).

The SQL engine and the contents of the `INFORMATION_SCHEMA` views are a parameter
(`Backend`), with the query parameters bound.
-/

namespace LocaQL.Sql

open Pattern

/-! ## Datasets -/

/-- The datasets of each project; a project that is not there yet gets the default ones. -/
structure DatasetService where
  projects : GoMap String (List String) := ∅
  defaults : List String := []

namespace DatasetService

/-- `ensureProjectLocked`. -/
def ensureProject (s : DatasetService) (projectID : String) : DatasetService :=
  match s.projects.get? projectID with
  | some _ => s
  | none => { s with projects := s.projects.set projectID s.defaults }

/-- The datasets that `ensureProjectLocked` returns. -/
def datasets (s : DatasetService) (projectID : String) : List String :=
  (s.projects.get? projectID).getD s.defaults

/-- `exists`, which touches the project. -/
def present (s : DatasetService) (projectID datasetID : String) : DatasetService × Bool :=
  (s.ensureProject projectID, decide (datasetID ∈ s.datasets projectID))

/-- `insert`, with whether the dataset was created. -/
def insert (s : DatasetService) (projectID datasetID : String) : DatasetService × Bool :=
  let projectID := GoText.trimSpaceStr projectID
  let datasetID := GoText.trimSpaceStr datasetID
  if projectID = "" ∨ datasetID = "" then (s, false)
  else
    let s := s.ensureProject projectID
    if datasetID ∈ s.datasets projectID then (s, false)
    else
      ({ s with projects := s.projects.set projectID (datasetID :: s.datasets projectID) }, true)

theorem datasets_ensureProject (s : DatasetService) (p q : String) :
    (s.ensureProject p).datasets q = s.datasets q := by
  unfold ensureProject
  split
  · rfl
  next absent =>
    simp only [datasets, GoMap.get?_set]
    split
    next eq =>
      rw [eq, absent]
      rfl
    · rfl

theorem defaults_ensureProject (s : DatasetService) (p : String) :
    (s.ensureProject p).defaults = s.defaults := by
  unfold ensureProject
  split <;> rfl

end DatasetService

/-! ## Sessions -/

/-- `sessionTempTable`. -/
structure SessionTempTable where
  fields : List TableField
  rows : List Row
deriving DecidableEq

/-- `sessionRecord`.  No snapshot means that no transaction is open. -/
structure SessionRecord where
  lastUsedAt : Time
  tempTables : GoMap String SessionTempTable := ∅
  txSnapshot : Option (GoMap String SessionTempTable) := none

namespace SessionRecord

def inTransaction (r : SessionRecord) : Bool := r.txSnapshot.isSome

def beginTransaction (r : SessionRecord) : Result SessionRecord :=
  match r.txSnapshot with
  | some _ => fail "a transaction is already active in this session"
  | none => .ok { r with txSnapshot := some r.tempTables }

def commitTransaction (r : SessionRecord) : Result SessionRecord :=
  match r.txSnapshot with
  | none => fail "no active transaction in this session"
  | some _ => .ok { r with txSnapshot := none }

def rollbackTransaction (r : SessionRecord) : Result SessionRecord :=
  match r.txSnapshot with
  | none => fail "no active transaction in this session"
  | some tables => .ok { r with tempTables := tables, txSnapshot := none }

def setTempTable (r : SessionRecord) (name : String) (t : SessionTempTable) : SessionRecord :=
  { r with tempTables := r.tempTables.set name t }

end SessionRecord

structure SessionService where
  sessions : GoMap (String × String) SessionRecord := ∅
  idleTimeout : Int := 24 * 3600 * 1000000000

namespace SessionService

def store (s : SessionService) (projectID sessionID : String) (r : SessionRecord) :
    SessionService :=
  { s with sessions := s.sessions.set (projectID, sessionID) r }

/-- `get`: a session that was idle for too long is removed, any other is touched. -/
def get (s : SessionService) (now : Time) (projectID sessionID : String) :
    SessionService × Option SessionRecord :=
  match s.sessions.get? (projectID, sessionID) with
  | none => (s, none)
  | some r =>
    if now - r.lastUsedAt > s.idleTimeout then
      ({ s with sessions := s.sessions.delete (projectID, sessionID) }, none)
    else
      let r := { r with lastUsedAt := now }
      (s.store projectID sessionID r, some r)

end SessionService

/-! ## The server -/

/-- The state that statements act on. -/
structure Server where
  tables : TableService := {}
  datasets : DatasetService := {}
  sessions : SessionService := {}

/-- `persistentSQLResult`. -/
structure PersistentSQLResult where
  schema : List TableField := []
  rows : List Row := []
  statementType : StatementType
  dmlAffectedRows : Nat := 0
  processedBytes : Nat := 0
deriving DecidableEq

/-- What a statement left of its target in the engine's database. -/
structure TableImage where
  schema : List TableField
  rows : List Row
  partitions : List String
  affectedRows : Nat
  processedBytes : Nat

/-- What is not part of the statement executors.  `query` runs a text that is taken for a
query, `exec` runs a table statement on a copy of its target, and `informationSchema` is what
the builder of a view returns for a project, a dataset filter and a user.  All of them read
the catalog, which may seed and purge it. -/
structure Backend where
  query : TableService → Time → (projectID : String) → List Char → Option SessionRecord →
    TableService × Result (List TableField × List Row × Nat)
  exec : TableService → Time → (projectID : String) → List Char → TableReference →
    Option SessionRecord → TableService × Result TableImage
  informationSchema : Server → Time → (view projectID datasetID userEmail : String) →
    Server × List TableField × List Row

/-- The outcome of an executor: the new state, and the answer if it took the text. -/
abbrev Outcome := Server × Option (Result PersistentSQLResult)

namespace Outcome

def pass (s : Server) : Outcome := (s, none)

def refuse (s : Server) (text : String) : Outcome := (s, some (fail text))

/-- Success without rows. -/
def done (s : Server) (t : StatementType) : Outcome := (s, some (.ok { statementType := t }))

/-- The outcome of a commit to the table catalog. -/
def commit (s : Server) (t : StatementType) (result : TableService × Result Unit) : Outcome :=
  ({ s with tables := result.1 }, some (result.2.map fun _ => { statementType := t }))

end Outcome

/-! ## Session control -/

/-- The answer of a statement that controls the session. -/
def sessionControlResult (msg : String) : PersistentSQLResult :=
  { schema := [{ name := "statement_result", type := "STRING" }]
    rows := [[msg]]
    statementType := .script }

/-- A change of the session's record, with the message that reports it. -/
def controlSession (s : Server) (projectID sessionID msg : String)
    (changed : Result SessionRecord) : Outcome :=
  match changed with
  | .error err => (s, some (.error err))
  | .ok r =>
    ({ s with sessions := s.sessions.store projectID sessionID r },
      some (.ok (sessionControlResult msg)))

/-- The cases of `executeSessionControlStatement` for a session that is there. -/
def executeInSession (b : Backend) (now : Time) (s : Server) (projectID sessionID : String)
    (r : SessionRecord) (stmt : List Char) : Outcome :=
  if sessionBeginPattern.Matches stmt then
    controlSession s projectID sessionID "BEGIN TRANSACTION" r.beginTransaction
  else if sessionCommitPattern.Matches stmt then
    controlSession s projectID sessionID "COMMIT TRANSACTION" r.commitTransaction
  else if sessionRollbackPattern.Matches stmt then
    controlSession s projectID sessionID "ROLLBACK TRANSACTION" r.rollbackTransaction
  else
    match sessionCreateTempTablePattern.find stmt with
    | none => .pass s
    | some m =>
      let name := String.ofList m.1.1
      let (tables, result) := b.query s.tables now projectID m.1.2 (some r)
      let s := { s with tables := tables }
      match result with
      | .error (.error text) => .refuse s s!"create temp table {name}: {text}"
      | .error err => (s, some (.error err))
      | .ok (fields, rows, _) =>
        controlSession s projectID sessionID ("CREATE TEMP TABLE " ++ name)
          (.ok (r.setTempTable name ⟨fields, rows⟩))

/-- `executeSessionControlStatement`, with the session for the executors that follow. -/
def executeSessionControlStatement (b : Backend) (now : Time) (s : Server)
    (projectID sessionID : String) (stmt : List Char) : Outcome × Option SessionRecord :=
  let (sessions, found) := s.sessions.get now projectID sessionID
  let s := { s with sessions := sessions }
  match found with
  | none => (.refuse s s!"session not found or expired: {sessionID}", none)
  | some r => (executeInSession b now s projectID sessionID r stmt, some r)

/-! ## `INFORMATION_SCHEMA` -/

/-- `resolveInformationSchemaTarget`: the project and the dataset filter. -/
def resolveInformationSchemaTarget (s : Server) (projectID rawProject rawDataset : String) :
    Server × String × String :=
  let dataset := GoText.trimSpaceStr rawDataset
  let candidate := GoText.trimSpaceStr rawProject
  if dataset ≠ "" then (s, if candidate ≠ "" then candidate else projectID, dataset)
  else if candidate = "" then (s, projectID, "")
  else if candidate = projectID then (s, candidate, "")
  else
    let (datasets, present) := s.datasets.present projectID candidate
    let s := { s with datasets := datasets }
    if present then (s, projectID, candidate) else (s, candidate, "")

/-- The first reference to a view in a text: qualifiers and the name of the view. -/
def informationSchemaMatch (queryText : List Char) :
    Option (Option (List Char) × Option (List Char) × List Char) :=
  if (GoText.cutAfter "information_schema.".toList (GoText.toLower queryText)).isSome then
    informationSchemaPattern.search queryText
  else none

/-- The key of `informationSchemaBuilders` that is looked up. -/
def objectType (view : List Char) : String :=
  String.ofList (GoText.toLower (GoText.trimSpace view))

/-- Whether a text is answered from a view, whatever else it says. -/
def asksInformationSchema (queryText : List Char) : Bool :=
  (informationSchemaMatch queryText).any fun m => decide (objectType m.2.2 ∈ informationSchemaViews)

/-- `simulateInformationSchemaQuery` and the result built from it. -/
def simulateInformationSchemaQuery (b : Backend) (now : Time) (s : Server) (projectID : String)
    (queryText : List Char) (callingUserEmail : String) : Outcome :=
  match informationSchemaMatch queryText with
  | none => .pass s
  | some (project, dataset, view) =>
    let name (part : Option (List Char)) : String := String.ofList (part.getD [])
    let (s, targetProjectID, targetDatasetID) :=
      resolveInformationSchemaTarget s projectID (name project) (name dataset)
    -- the datasets are listed before the view is looked up
    let s := { s with datasets := s.datasets.ensureProject targetProjectID }
    if objectType view ∈ informationSchemaViews then
      let (s, schema, rows) := b.informationSchema s now (objectType view) targetProjectID
        targetDatasetID callingUserEmail
      (s, some (.ok { schema := schema, rows := rows, statementType := .select }))
    else .pass s

/-! ## Views -/

section Executors

variable [GoFloat]

/-- The target of a statement in the project of the request. -/
def localPath (projectID : String) (target : TableReference) : TableReference :=
  ⟨projectID, target.datasetID, target.tableID⟩

/-- `tables.get` on the server. -/
def Server.getTable (s : Server) (now : Time) (path : TableReference) :
    Server × Option TableRecord :=
  let (tables, found) := s.tables.get now path
  ({ s with tables := tables }, found)

def PersistentViewStatement.type (stmt : PersistentViewStatement) : StatementType :=
  match stmt.drop, stmt.materialized with
  | false, false => .createView
  | false, true => .createMaterializedView
  | true, false => .dropView
  | true, true => .dropMaterializedView

def dropView (now : Time) (s : Server) (path : TableReference) (stmt : PersistentViewStatement)
    (existing : Option TableRecord) : Outcome :=
  let datasetID := path.datasetID
  let tableID := path.tableID
  match existing with
  | none =>
    if stmt.ifExists then .done s stmt.type
    else .refuse s s!"table not found: {datasetID}.{tableID}"
  | some t =>
    if t.view.isNone then .refuse s s!"{datasetID}.{tableID} is not a view"
    else .commit s stmt.type (s.tables.deleteIfVersion now path t.version)

def createView (b : Backend) (now : Time) (s : Server) (path : TableReference)
    (stmt : PersistentViewStatement) (existing : Option TableRecord) : Outcome :=
  let datasetID := path.datasetID
  let tableID := path.tableID
  if existing.isSome && stmt.ifNotExists then .done s stmt.type
  else if existing.isSome && !stmt.orReplace then
    .refuse s s!"table already exists: {datasetID}.{tableID}"
  else
    let (datasets, present) := s.datasets.present path.projectID datasetID
    let s := { s with datasets := datasets }
    if !present then .refuse s s!"dataset not found: {datasetID}"
    else
      -- the query runs once, to validate it and to infer its schema
      let (tables, result) := b.query s.tables now path.projectID stmt.selectBody none
      let s := { s with tables := tables }
      match result with
      | .error (.error text) => .refuse s s!"invalid view query: {text}"
      | .error err => (s, some (.error err))
      | .ok (schema, _, _) =>
        let view : ViewConfig := ⟨String.ofList stmt.selectBody, stmt.materialized⟩
        match existing with
        | some t =>
          .commit s stmt.type (s.tables.replaceViewIfVersion now path t.version schema view)
        | none =>
          let input : TableInsert :=
            { projectID := path.projectID
              datasetID := datasetID
              tableID := tableID
              schema := schema
              view := some view }
          let (tables, created) := s.tables.insert now input
          let s := { s with tables := tables }
          if created.isSome then .done s stmt.type
          else .refuse s
            s!"table {datasetID}.{tableID} was created concurrently; retry the statement"

/-- The refusal of a target in another project. -/
def crossProject (s : Server) (kind : String) (target : TableReference) : Outcome :=
  let projectID := target.projectID
  let datasetID := target.datasetID
  let tableID := target.tableID
  .refuse s s!"cross-project {kind} target {projectID}.{datasetID}.{tableID} is not supported"

def executePersistentViewStatement (b : Backend) (now : Time) (s : Server) (projectID : String)
    (queryText : List Char) (sess : Option SessionRecord) : Outcome :=
  match parsePersistentViewStatement projectID queryText with
  | none => .pass s
  | some (.error err) => (s, some (.error err))
  | some (.ok stmt) =>
    if !GoText.equalFold stmt.target.projectID projectID then crossProject s "DDL" stmt.target
    else if sess.any SessionRecord.inTransaction then
      .refuse s ("persistent DDL inside a session transaction is not supported yet; " ++
        "rollback or commit the transaction first")
    else
      let path := localPath projectID stmt.target
      let (s, existing) := s.getTable now path
      if stmt.drop then dropView now s path stmt existing
      else createView b now s path stmt existing

/-! ## Datasets -/

def executePersistentCreateSchemaStatement (s : Server) (projectID : String)
    (queryText : List Char) : Outcome :=
  match parseCreateSchemaStatement queryText with
  | none => .pass s
  | some (datasetID, ifNotExists) =>
    let (datasets, present) := s.datasets.present projectID datasetID
    let s := { s with datasets := datasets }
    if present then
      if ifNotExists then .done s .createSchema
      else .refuse s s!"dataset already exists: {datasetID}"
    else
      let (datasets, created) := s.datasets.insert projectID datasetID
      let s := { s with datasets := datasets }
      if created then .done s .createSchema
      else .refuse s s!"dataset {datasetID} was created concurrently; retry the statement"

/-! ## `ALTER TABLE` -/

def hasColumn (schema : List TableField) (name : String) : Bool :=
  schema.any fun f => GoText.equalFold f.name name

def resolveAlterTableNewFields (existingSchema : List TableField) :
    List AddColumnClause → Result (List TableField)
  | [] => .ok []
  | clause :: rest =>
    if hasColumn existingSchema clause.field.name then
      if clause.ifNotExists then resolveAlterTableNewFields existingSchema rest
      else
        let name := clause.field.name
        fail s!"column already exists: {name}"
    else (resolveAlterTableNewFields existingSchema rest).map (clause.field :: ·)

def resolveAlterTableDropNames (existingSchema : List TableField) :
    List DropColumnClause → Result (List String)
  | [] => .ok []
  | clause :: rest =>
    if hasColumn existingSchema clause.name then
      (resolveAlterTableDropNames existingSchema rest).map (clause.name :: ·)
    else if clause.ifExists then resolveAlterTableDropNames existingSchema rest
    else
      let name := clause.name
      fail s!"column not found: {name}"

/-- `resolveAlterTableRenames`: the map from old names to new ones.  A later clause for the
same old name overwrites an earlier one. -/
def resolveAlterTableRenames (existingSchema : List TableField) :
    List RenameColumnClause → GoMap String String → Result (GoMap String String)
  | [], renames => .ok renames
  | clause :: rest, renames =>
    let oldName := clause.oldName
    let newName := clause.newName
    if hasColumn existingSchema newName then fail s!"column already exists: {newName}"
    else if hasColumn existingSchema oldName then
      resolveAlterTableRenames existingSchema rest (renames.set oldName newName)
    else if clause.ifExists then resolveAlterTableRenames existingSchema rest renames
    else fail s!"column not found: {oldName}"

/-- The common shape of the executors of `ALTER TABLE`: `change` is what the action does to
the record that was found. -/
def executeAlterTable {α : Type} (now : Time) (s : Server) (projectID : String)
    (parsed : Option (Result (AlterTable α))) (refusesViews : Bool)
    (change : TableService → TableReference → TableRecord → α → TableService × Result Unit) :
    Outcome :=
  match parsed with
  | none => .pass s
  | some (.error err) => (s, some (.error err))
  | some (.ok stmt) =>
    if !GoText.equalFold stmt.target.projectID projectID then crossProject s "DDL" stmt.target
    else
      let path := localPath projectID stmt.target
      let datasetID := path.datasetID
      let tableID := path.tableID
      let (s, existing) := s.getTable now path
      match existing with
      | none =>
        if stmt.ifExists then .done s .alterTable
        else .refuse s s!"table not found: {datasetID}.{tableID}"
      | some t =>
        if refusesViews && t.view.isSome then
          .refuse s s!"ALTER TABLE target {datasetID}.{tableID} is a view"
        else .commit s .alterTable (change s.tables path t stmt.action)

/-- A change of columns, with nothing to do if no clause is left. -/
def commitColumns {β : Type} (tables : TableService) (resolved : Result (List β))
    (commit : List β → TableService × Result Unit) : TableService × Result Unit :=
  match resolved with
  | .error err => (tables, .error err)
  | .ok [] => (tables, .ok ())
  | .ok (c :: cs) => commit (c :: cs)

def executePersistentAlterTableAddColumnsStatement (now : Time) (s : Server)
    (projectID : String) (queryText : List Char) : Outcome :=
  executeAlterTable now s projectID (parsePersistentAlterTableAddColumns projectID queryText) true
    fun tables path t clauses =>
      commitColumns tables (resolveAlterTableNewFields t.schema clauses)
        (tables.addColumnsIfVersion now path t.version)

def executePersistentAlterTableDropColumnsStatement (now : Time) (s : Server)
    (projectID : String) (queryText : List Char) : Outcome :=
  executeAlterTable now s projectID (parsePersistentAlterTableDropColumns projectID queryText) true
    fun tables path t clauses =>
      commitColumns tables (resolveAlterTableDropNames t.schema clauses)
        (tables.dropColumnsIfVersion now path t.version)

def executePersistentAlterTableRenameColumnsStatement (now : Time) (s : Server)
    (projectID : String) (queryText : List Char) : Outcome :=
  executeAlterTable now s projectID
    (parsePersistentAlterTableRenameColumns projectID queryText) true
    fun tables path t clauses =>
      commitColumns tables
        ((resolveAlterTableRenames t.schema clauses ∅).map fun m =>
          m.entries.map fun e => (e.1, e.2))
        (tables.renameColumnsIfVersion now path t.version)

def executePersistentAlterTableRenameToStatement (now : Time) (s : Server)
    (projectID : String) (queryText : List Char) : Outcome :=
  executeAlterTable now s projectID (parsePersistentAlterTableRenameTo projectID queryText) false
    fun tables path t newTableID => tables.renameTableIfVersion now path newTableID t.version

/-- The options are discarded; only the target is looked up. -/
def executePersistentAlterTableSetOptionsStatement (now : Time) (s : Server)
    (projectID : String) (queryText : List Char) : Outcome :=
  executeAlterTable now s projectID (parsePersistentAlterTableSetOptions projectID queryText) false
    fun tables _ _ _ => (tables, .ok ())

/-- The first executor that takes the text. -/
def orElse (outcome : Outcome) (next : Server → Outcome) : Outcome :=
  match outcome.2 with
  | some _ => outcome
  | none => next outcome.1

def executePersistentAlterTableStatement (now : Time) (s : Server) (projectID : String)
    (queryText : List Char) : Outcome :=
  orElse (executePersistentAlterTableAddColumnsStatement now s projectID queryText) fun s =>
  orElse (executePersistentAlterTableDropColumnsStatement now s projectID queryText) fun s =>
  orElse (executePersistentAlterTableRenameColumnsStatement now s projectID queryText) fun s =>
  orElse (executePersistentAlterTableRenameToStatement now s projectID queryText) fun s =>
  executePersistentAlterTableSetOptionsStatement now s projectID queryText

/-! ## Other table statements -/

/-- The checks on the target before the engine sees a statement that is no `DROP TABLE`. -/
def checkTarget (stmt : PersistentSQLStatement) (existing : Option TableRecord) :
    Result Unit :=
  let datasetID := stmt.target.datasetID
  let tableID := stmt.target.tableID
  if stmt.create && existing.isSome && !stmt.orReplace then
    fail s!"table already exists: {datasetID}.{tableID}"
  else if stmt.dml then
    match existing with
    | none => fail s!"table not found: {datasetID}.{tableID}"
    | some t =>
      if t.view.isSome then fail s!"DML target {datasetID}.{tableID} is a view"
      else if t.external.isSome then fail s!"DML target {datasetID}.{tableID} is an external table"
      else .ok ()
  else .ok ()

/-- The commit of the engine's final image of the target. -/
def commitImage (now : Time) (s : Server) (path : TableReference) (stmt : PersistentSQLStatement)
    (existing : Option TableRecord) (image : TableImage) : TableService × Result Unit :=
  let datasetID := path.datasetID
  let tableID := path.tableID
  match existing with
  | some t =>
    if stmt.dml then
      match check (validateStoredRows t.schema image.rows) with
      | .error err => (s.tables, .error err)
      | .ok () =>
        if image.schema.length ≠ t.schema.length then
          (s.tables, fail s!"DML unexpectedly changed schema for {datasetID}.{tableID}")
        else s.tables.replaceRowsIfVersion now path t.version image.rows image.partitions
    else s.tables.replaceTableIfVersion now path t.version image.schema image.rows
  | none =>
    match check (validateStoredRows image.schema image.rows) with
    | .error err => (s.tables, .error err)
    | .ok () =>
      let input : TableInsert :=
        { projectID := path.projectID
          datasetID := datasetID
          tableID := tableID
          schema := image.schema
          rows := image.rows }
      let (tables, created) := s.tables.insert now input
      if created.isSome then (tables, .ok ())
      else (tables,
        fail s!"table {datasetID}.{tableID} was created concurrently; retry the statement")

def dropTable (now : Time) (s : Server) (path : TableReference) (stmt : PersistentSQLStatement)
    (existing : Option TableRecord) : Outcome :=
  let datasetID := path.datasetID
  let tableID := path.tableID
  match existing with
  | none =>
    if stmt.ifExists then .done s stmt.statementType
    else .refuse s s!"table not found: {datasetID}.{tableID}"
  | some t =>
    if t.view.isSome then
      .refuse s s!"DROP TABLE target {datasetID}.{tableID} is a view; use DROP VIEW"
    else .commit s stmt.statementType (s.tables.deleteIfVersion now path t.version)

/-- The part of `executePersistentSQLStatement` behind the checks on the statement. -/
def runStatement (b : Backend) (now : Time) (s : Server) (path : TableReference)
    (stmt : PersistentSQLStatement) (queryText : List Char) (sess : Option SessionRecord)
    (existing : Option TableRecord) : Outcome :=
  if stmt.drop then dropTable now s path stmt existing
  else if stmt.create && existing.isSome && stmt.ifNotExists then .done s stmt.statementType
  else
    match checkTarget stmt existing with
    | .error err => (s, some (.error err))
    | .ok () =>
      let (tables, run) := b.exec s.tables now path.projectID queryText path sess
      let s := { s with tables := tables }
      match run with
      | .error err => (s, some (.error err))
      | .ok image =>
        let (tables, committed) := commitImage now s path stmt existing image
        let before := (existing.map (·.rows)).getD []
        let affected :=
          if stmt.dml then
            effectiveDMLAffectedRows stmt.statementType image.affectedRows before image.rows
          else image.affectedRows
        ({ s with tables := tables },
          some (committed.map fun _ =>
            { statementType := stmt.statementType
              dmlAffectedRows := affected
              processedBytes := image.processedBytes }))

def executePersistentSQLStatement (b : Backend) (now : Time) (s : Server) (projectID : String)
    (queryText : List Char) (sess : Option SessionRecord) : Outcome :=
  match parsePersistentSQLStatement projectID queryText with
  | none => .pass s
  | some (.error err) => (s, some (.error err))
  | some (.ok stmt) =>
    let datasetID := stmt.target.datasetID
    if !GoText.equalFold stmt.target.projectID projectID then
      crossProject s "DDL/DML" stmt.target
    else if GoText.equalFold datasetID "_SESSION" then
      .refuse s ("persistent DDL/DML cannot target _SESSION; use CREATE TEMP TABLE for " ++
        "session-scoped data")
    else if sess.any SessionRecord.inTransaction then
      .refuse s ("persistent DDL/DML inside a session transaction is not supported yet; " ++
        "rollback or commit the transaction first")
    else
      let (datasets, present) := s.datasets.present projectID datasetID
      let s := { s with datasets := datasets }
      if !present then .refuse s s!"dataset not found: {datasetID}"
      else
        let path := localPath projectID stmt.target
        let (s, existing) := s.getTable now path
        runStatement b now s path stmt queryText sess existing

/-! ## The dispatcher -/

/-- The last resort: the text is run as a query. -/
def executeRealSQLQuery (b : Backend) (now : Time) (s : Server) (projectID : String)
    (queryText : List Char) (sess : Option SessionRecord) : Server × Result PersistentSQLResult :=
  let (tables, result) := b.query s.tables now projectID queryText sess
  ({ s with tables := tables },
    result.map fun r =>
      { schema := r.1, rows := r.2.1, statementType := .select, processedBytes := r.2.2 })

/-- A request to run a text. -/
structure Request where
  projectID : String
  sessionID : String := ""
  queryText : List Char
  callingUserEmail : String := ""

/-- The executors behind session control. -/
def executeTrimmed (b : Backend) (now : Time) (s : Server) (req : Request) (trimmed : List Char)
    (sess : Option SessionRecord) : Server × Result PersistentSQLResult :=
  let outcome :=
    orElse (simulateInformationSchemaQuery b now s req.projectID trimmed req.callingUserEmail)
      fun s =>
    orElse (executePersistentViewStatement b now s req.projectID trimmed sess) fun s =>
    orElse (executePersistentCreateSchemaStatement s req.projectID trimmed) fun s =>
    orElse (executePersistentAlterTableStatement now s req.projectID trimmed) fun s =>
    executePersistentSQLStatement b now s req.projectID trimmed sess
  match outcome with
  | (s, some result) => (s, result)
  | (s, none) => executeRealSQLQuery b now s req.projectID trimmed sess

def executeQueryStatement (b : Backend) (now : Time) (s : Server) (req : Request) :
    Server × Result PersistentSQLResult :=
  if GoText.trimSpace req.queryText = [] then
    (s, .ok
      { schema := [{ name := "result", type := "STRING" }]
        rows := [["query job executed"]]
        statementType := .select })
  else
    let trimmed := trimSemicolon req.queryText
    if req.sessionID = "" then executeTrimmed b now s req trimmed none
    else
      match executeSessionControlStatement b now s req.projectID req.sessionID trimmed with
      | ((s, some result), _) => (s, result)
      | ((s, none), sess) => executeTrimmed b now s req trimmed sess

end Executors

end LocaQL.Sql
