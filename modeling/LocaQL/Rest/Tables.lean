import LocaQL.Catalog.Evolution
import LocaQL.Catalog.Invariants
import LocaQL.Catalog.Requests
import LocaQL.Sql.Server

/-!
# Table requests

The handlers of `tables.insert`, `tables.patch` and `tables.update`.  Each of them reads the
table resource from the body of the request, checks it, and passes it on to the table service.

A handler reads the table at the path as it stands in the URL, while the service trims the
path of what it is asked to write.
-/

namespace LocaQL.Rest

open Fallible (bind_ok)

/-- The members of a JSON object. -/
abbrev Body := List (String × Json)

/-- How a request ends without success: with an error response, or with a panic in the
handler. -/
inductive Refusal where
  | response (status : Nat) (message reason : String)
  | panic (text : String)
deriving Repr, DecidableEq

abbrev Answer (α : Type) := Except Refusal α

def invalid (message : String) : Refusal := .response 400 message "invalid"

def required (message : String) : Refusal := .response 400 message "required"

def notFound (path : TableReference) : Refusal :=
  let projectID := path.projectID
  let datasetID := path.datasetID
  let tableID := path.tableID
  .response 404 s!"Not found: Table {projectID}:{datasetID}.{tableID}" "notFound"

/-- The answer to a check that failed. -/
def answer {α : Type} : Result α → Answer α
  | .ok a => .ok a
  | .error (.error text) => .error (invalid text)
  | .error (.panic text) => .error (.panic text)

/-- A check without panics. -/
def checked {α : Type} (outcome : Except String α) : Answer α := outcome.mapError invalid

/-! ## Members of a table resource -/

/-- A member that may be missing. -/
def optional {α : Type} (raw : Body) (name : String) (parse : Json → Except String α) :
    Answer (Option α) :=
  match Json.lookup? raw name with
  | none => .ok none
  | some v => checked ((parse v).map some)

def parseText (name : String) (v : Json) : Except String String :=
  orError s!"{name} must be a string" v.str?

def parseLabels : Json → Except String (GoMap String String)
  | .null => .ok ∅
  | .obj ms =>
    ms.foldlM (fun labels m =>
      (orError "labels values must be strings" (Json.lookup ms m.1).str?).map
        (labels.set m.1 ·)) ∅
  | _ => .error "labels must be an object"

def parseExpiration (v : Json) : Except String Time :=
  orError "expirationTime must be a numeric string or number" (parseExpirationTimeField v)

def parseRequirePartitionFilter (v : Json) : Except String Bool :=
  orError "requirePartitionFilter must be a boolean" v.bool?

/-- A new schema for a table, which must be a change that is allowed. -/
def parseNewSchema (current : List TableField) (v : Json) : Except String (List TableField) := do
  let newSchema := parseTableSchemaFields v
  validateSchemaEvolution current newSchema
  return newSchema

/-- Time partitioning for a table, which must be what the table has but for the expiration. -/
def parseSameTimePartitioning (current : TableRecord) (schema : List TableField) (v : Json) :
    Except String TimePartitioningConfig := do
  let parsed ← parseTimePartitioning v schema
  if current.timePartitioning.any fun config => sameTimePartitioningDefinition config parsed then
    return parsed
  else .error "time partitioning type and field are immutable after table creation"

def parseSameRangePartitioning (current : TableRecord) (schema : List TableField) (v : Json) :
    Except String RangePartitioningConfig := do
  let parsed ← parseRangePartitioning v schema
  if current.rangePartitioning.any fun config => sameRangePartitioning config parsed then
    return parsed
  else .error "range partitioning is immutable after table creation"

def managedOnly : String :=
  "standard partitioning and clustering are supported only for managed tables"

/-! ## `tables.patch` -/

section

variable [GoFloat]

/-- Whether the patch has any of its parts. -/
def patchesAnything (patch : TablePatch) : Bool :=
  patch.friendlyName.isSome || patch.description.isSome || patch.labels.isSome ||
    patch.expirationTime.isSome || patch.schema.isSome || patch.timePartitioning.isSome ||
    patch.rangePartitioning.isSome || patch.clustering.isSome ||
    patch.requirePartitionFilter.isSome

/-- The partitioning parts of the patch. -/
def patchesPartitioning (patch : TablePatch) : Bool :=
  patch.timePartitioning.isSome || patch.rangePartitioning.isSome || patch.clustering.isSome ||
    patch.requirePartitionFilter.isSome

/-- The patch as it is read from the body. -/
def readPatch (path : TableReference) (current : TableRecord) (raw : Body) :
    Answer TablePatch := do
  let friendlyName ← optional raw "friendlyName" (parseText "friendlyName")
  let description ← optional raw "description" (parseText "description")
  let labels ← optional raw "labels" parseLabels
  let expirationTime ← optional raw "expirationTime" parseExpiration
  let schema ← optional raw "schema" (parseNewSchema current.schema)
  let effectiveSchema := schema.getD current.schema
  let timePartitioning ← optional raw "timePartitioning"
    (parseSameTimePartitioning current effectiveSchema)
  let rangePartitioning ← optional raw "rangePartitioning"
    (parseSameRangePartitioning current effectiveSchema)
  let clustering ← optional raw "clustering" (parseClustering · effectiveSchema)
  let requirePartitionFilter ← optional raw "requirePartitionFilter" parseRequirePartitionFilter
  return {
    projectID := path.projectID
    datasetID := path.datasetID
    tableID := path.tableID
    friendlyName := friendlyName
    description := description
    labels := labels
    expirationTime := expirationTime
    schema := schema
    timePartitioning := timePartitioning.map some
    rangePartitioning := rangePartitioning.map some
    clustering := clustering
    requirePartitionFilter := requirePartitionFilter }

/-- The checks on a patch as a whole. -/
def checkPatch (current : TableRecord) (patch : TablePatch) : Answer Unit := do
  let effectiveSchema := patch.schema.getD current.schema
  let effectiveTime := patch.timePartitioning.getD current.timePartitioning
  let effectiveRange := patch.rangePartitioning.getD current.rangePartitioning
  let effectiveRequire := patch.requirePartitionFilter.getD current.requirePartitionFilter
  if (current.external.isSome || current.view.isSome) && patchesPartitioning patch then
    .error (invalid managedOnly)
  else
    checked (validatePartitioningCombination effectiveTime effectiveRange effectiveRequire)
    answer (validateRowsForPartitioning effectiveSchema current.rows effectiveTime effectiveRange)
    if patchesAnything patch then return ()
    else .error (required "at least one patchable field is required")

def patchTable (now : Time) (s : TableService) (path : TableReference) (body : Option Body) :
    TableService × Answer Unit :=
  match body with
  | none => (s, .error (invalid "Invalid request body"))
  | some raw =>
    let (s, found) := s.get now path
    match found with
    | none => (s, .error (notFound path))
    | some current =>
      match readPatch path current raw with
      | .error refusal => (s, .error refusal)
      | .ok patch =>
        match checkPatch current patch with
        | .error refusal => (s, .error refusal)
        | .ok () =>
          let (s, patched) := s.patch now patch
          (s, if patched then .ok () else .error (notFound path))

/-! ## `tables.update` -/

/-- The reference in the body must name the table of the path. -/
def checkReference (path : TableReference) (raw : Body) : Answer Unit :=
  match Json.lookup? raw "tableReference" with
  | none => .ok ()
  | some v =>
    match v.obj? with
    | none => .error (invalid "tableReference must be an object")
    | some ref =>
      let tableID := GoText.trimSpaceStr (textMember ref "tableId")
      if tableID ≠ "" ∧ tableID ≠ path.tableID then
        .error (invalid "tableReference.tableId does not match path")
      else .ok ()

/-- Whether a member is there and not nil. -/
def hasMember (raw : Body) (name : String) : Bool :=
  match Json.lookup raw name with
  | .null => false
  | _ => true

def readUpdate (path : TableReference) (current : TableRecord) (raw : Body) :
    Answer TableUpdate := do
  checkReference path raw
  let friendlyName ← optional raw "friendlyName" (parseText "friendlyName")
  let description ← optional raw "description" (parseText "description")
  let labels ← optional raw "labels" parseLabels
  let expirationTime ← optional raw "expirationTime" parseExpiration
  let timePartitioning ← optional raw "timePartitioning"
    (parseSameTimePartitioning current current.schema)
  let rangePartitioning ← optional raw "rangePartitioning"
    (parseSameRangePartitioning current current.schema)
  let clustering ← optional raw "clustering" (parseClustering · current.schema)
  let requirePartitionFilter ← optional raw "requirePartitionFilter" parseRequirePartitionFilter
  return {
    projectID := path.projectID
    datasetID := path.datasetID
    tableID := path.tableID
    friendlyName := friendlyName.getD ""
    description := description.getD ""
    labels := labels.getD ∅
    expirationTime := expirationTime.getD 0
    timePartitioning := timePartitioning.or current.timePartitioning
    rangePartitioning := rangePartitioning.or current.rangePartitioning
    clustering := clustering.getD []
    requirePartitionFilter := requirePartitionFilter.getD false }

def checkUpdate (current : TableRecord) (raw : Body) (update : TableUpdate) : Answer Unit :=
  if (current.external.isSome || current.view.isSome) &&
      (hasMember raw "timePartitioning" || hasMember raw "rangePartitioning" ||
        hasMember raw "clustering" || update.requirePartitionFilter) then
    .error (invalid managedOnly)
  else
    checked (validatePartitioningCombination update.timePartitioning update.rangePartitioning
      update.requirePartitionFilter)

def updateTable (now : Time) (s : TableService) (path : TableReference) (body : Option Body) :
    TableService × Answer Unit :=
  match body with
  | none => (s, .error (invalid "Invalid request body"))
  | some raw =>
    let (s, found) := s.get now path
    match found with
    | none => (s, .error (notFound path))
    | some current =>
      match readUpdate path current raw with
      | .error refusal => (s, .error refusal)
      | .ok update =>
        match checkUpdate current raw update with
        | .error refusal => (s, .error refusal)
        | .ok () =>
          let (s, updated) := s.update now update
          (s, if updated then .ok () else .error (notFound path))

/-! ## `tables.insert` -/

/-- `externalDataConfigParsed`. -/
structure ExternalDataConfigParsed where
  sourceURIs : List String
  sourceFormat : String
  fieldDelimiter : String
  skipLeadingRows : Nat
  autodetect : Bool

def extractStringList (v : Json) : List String :=
  ((v.arr?.getD []).filterMap fun raw => raw.str?.map GoText.trimSpaceStr).filter (· ≠ "")

def parseExternalDataConfig (raw : Body) : ExternalDataConfigParsed :=
  { sourceURIs := extractStringList (Json.lookup raw "sourceUris")
    sourceFormat := GoText.trimSpaceStr (textMember raw "sourceFormat")
    fieldDelimiter := textMember raw "fieldDelimiter"
    skipLeadingRows :=
      ((parseFlexibleInt64FromAny (Json.lookup raw "skipLeadingRows")).map
        fun n => n.toInt.toNat).getD 0
    autodetect := (Json.lookup raw "autodetect").bool?.getD false }

/-- What `tables.insert` asks outside of the catalog: `detect` reads the files of an external
table (`detectExternalTableSchema`), and `expirationMs` is the default expiration of the
tables of a dataset. -/
structure Surroundings where
  detect : ExternalDataConfigParsed → Except String (List TableField × Nat)
  expirationMs : (projectID datasetID : String) → Int64

def readTableID (raw : Body) : Answer String :=
  match (Json.lookup raw "tableReference").obj? with
  | none => .error (required "tableReference.tableId is required")
  | some ref =>
    let tableID := GoText.trimSpaceStr (textMember ref "tableId")
    if tableID = "" then .error (required "tableReference.tableId is required")
    else .ok tableID

/-- The external data of a new table with its schema, if the request has any. -/
def readExternal (around : Surroundings) (raw : Body) :
    Answer (Option (ExternalTableConfig × List TableField)) := do
  match (Json.lookup raw "externalDataConfiguration").obj? with
  | none => return none
  | some rawExternal =>
    let parsed := parseExternalDataConfig rawExternal
    if parsed.sourceURIs = [] then
      .error (required "externalDataConfiguration.sourceUris is required")
    else if parsed.sourceFormat = "" then
      .error (required "externalDataConfiguration.sourceFormat is required")
    else
      let config (skipLeadingRows : Nat) : ExternalTableConfig :=
        ⟨parsed.sourceURIs, parsed.sourceFormat, parsed.fieldDelimiter, skipLeadingRows,
          parsed.autodetect⟩
      let schema := parseTableSchemaFields (Json.lookup raw "schema")
      if schema ≠ [] then return some (config parsed.skipLeadingRows, schema)
      else if !parsed.autodetect then
        .error (required ("schema.fields is required for external tables unless " ++
          "externalDataConfiguration.autodetect is true"))
      else
        match around.detect parsed with
        | .error text => .error (invalid s!"schema autodetect failed: {text}")
        | .ok (detected, skip) => return some (config skip, detected)

/-- The query of a new view, if the request has one. -/
def readView (raw : Body) (external : Bool) : Answer (Option ViewConfig) :=
  let view := (Json.lookup raw "view").obj?
  let materialized := (Json.lookup raw "materializedView").obj?
  match materialized.or view with
  | none => .ok none
  | some target =>
    if view.isSome && materialized.isSome then
      .error (invalid "a table cannot have both view and materializedView")
    else if external then
      .error (invalid
        "a table cannot have both externalDataConfiguration and view/materializedView")
    else
      let query := GoText.trimSpaceStr (textMember target "query")
      if query = "" then
        .error (required "view.query (or materializedView.query) is required")
      else .ok (some ⟨query, materialized.isSome⟩)

/-- The schema of a view, by running its query once. -/
def deriveSchema (b : Sql.Backend) (now : Time) (s : TableService) (projectID : String)
    (view : Option ViewConfig) : TableService × Answer (List TableField) :=
  match view with
  | none => (s, .ok [])
  | some view =>
    let (s, result) := b.query s now projectID view.query.toList none
    match result with
    | .ok (schema, _, _) => (s, .ok schema)
    | .error (.error text) => (s, .error (invalid s!"invalid view query: {text}"))
    | .error (.panic text) => (s, .error (.panic text))

/-- The expiration of a new table: its own, or the default of its dataset. -/
def readExpiration (around : Surroundings) (now : Time) (datasets : Sql.DatasetService)
    (projectID datasetID : String) (raw : Body) : Answer (Sql.DatasetService × Time) := do
  match ← optional raw "expirationTime" parseExpiration with
  | some time => return (datasets, time)
  | none =>
    let (datasets, present) := datasets.present projectID datasetID
    let ms := around.expirationMs projectID datasetID
    return (datasets, if present && 0 < ms then now + (ms * 1000000).toInt else 0)

/-- The rest of a new table, once its schema is known. -/
def readInsert (projectID datasetID tableID : String) (schema : List TableField)
    (external : Option ExternalTableConfig) (view : Option ViewConfig) (raw : Body) :
    Answer TableInsert := do
  let timePartitioning ← optional raw "timePartitioning" (parseTimePartitioning · schema)
  let rangePartitioning ← optional raw "rangePartitioning" (parseRangePartitioning · schema)
  let clustering ← optional raw "clustering" (parseClustering · schema)
  let requirePartitionFilter ← optional raw "requirePartitionFilter" parseRequirePartitionFilter
  let input : TableInsert :=
    { projectID := projectID
      datasetID := datasetID
      tableID := tableID
      schema := schema
      external := external
      view := view
      timePartitioning := timePartitioning
      rangePartitioning := rangePartitioning
      clustering := clustering.getD []
      requirePartitionFilter := requirePartitionFilter.getD false }
  if (external.isSome || view.isSome) && (timePartitioning.isSome || rangePartitioning.isSome ||
      input.clustering ≠ [] || input.requirePartitionFilter) then
    .error (invalid managedOnly)
  else
    checked (validatePartitioningCombination timePartitioning rangePartitioning
      input.requirePartitionFilter)
    return input

/-- What stands in the body before a query has to be run. -/
structure NewTable where
  tableID : String
  friendlyName : String
  description : String
  labels : GoMap String String
  external : Option (ExternalTableConfig × List TableField)
  view : Option ViewConfig

def readNewTable (around : Surroundings) (raw : Body) : Answer NewTable := do
  let tableID ← readTableID raw
  let friendlyName ← optional raw "friendlyName" (parseText "friendlyName")
  let description ← optional raw "description" (parseText "description")
  let labels ← optional raw "labels" parseLabels
  let external ← readExternal around raw
  let view ← readView raw external.isSome
  return ⟨tableID, friendlyName.getD "", description.getD "", labels.getD ∅, external, view⟩

/-- The schema of a new table: that of its files, of its query, or of the request. -/
def newSchema (raw : Body) (table : NewTable) (derived : List TableField) : List TableField :=
  match table.view, table.external with
  | some _, _ => derived
  | none, some (_, schema) => schema
  | none, none => parseTableSchemaFields (Json.lookup raw "schema")

def insertTable (b : Sql.Backend) (around : Surroundings) (now : Time) (s : Sql.Server)
    (projectID datasetID : String) (body : Option Body) : Sql.Server × Answer Unit :=
  match body with
  | none => (s, .error (invalid "Invalid request body"))
  | some raw =>
    match readNewTable around raw with
    | .error refusal => (s, .error refusal)
    | .ok table =>
      let (tables, derived) := deriveSchema b now s.tables projectID table.view
      let s := { s with tables := tables }
      match derived with
      | .error refusal => (s, .error refusal)
      | .ok derived =>
        match readInsert projectID datasetID table.tableID (newSchema raw table derived)
            (table.external.map (·.1)) table.view raw with
        | .error refusal => (s, .error refusal)
        | .ok input =>
          match readExpiration around now s.datasets projectID datasetID raw with
          | .error refusal => (s, .error refusal)
          | .ok (datasets, expirationTime) =>
            let input := { input with
              friendlyName := table.friendlyName
              description := table.description
              labels := table.labels
              expirationTime := expirationTime }
            let (tables, created) := s.tables.insert now input
            let tableID := table.tableID
            ({ s with tables := tables, datasets := datasets },
              if created.isSome then .ok ()
              else .error (.response 409
                s!"Already Exists: Table {projectID}:{datasetID}.{tableID}" "duplicate"))

end

/-! ## What the handlers read -/

variable {raw : Body} {name : String} {current : TableRecord} {schema : List TableField} {v : Json}

theorem optional_some {α : Type} {parse : Json → Except String α} {a : α}
    (h : optional raw name parse = .ok (some a)) :
    ∃ v, Json.lookup? raw name = some v ∧ parse v = .ok a := by
  rw [optional] at h
  split at h
  · cases h
  next v found =>
    refine ⟨v, found, ?_⟩
    cases parsed : parse v with
    | error text =>
      rw [parsed] at h
      cases h
    | ok b =>
      rw [parsed] at h
      cases h
      rfl

theorem optional_none {α : Type} {parse : Json → Except String α}
    (h : optional raw name parse = .ok none) : Json.lookup? raw name = none := by
  rw [optional] at h
  split at h
  next missing => exact missing
  next v found =>
    cases parsed : parse v with
    | error text | ok b =>
      rw [parsed] at h
      cases h

theorem parseNewSchema_ok {current : List TableField} (h : parseNewSchema current v = .ok schema) :
    schema = parseTableSchemaFields v ∧ validateSchemaEvolution current schema = .ok () := by
  obtain ⟨⟨⟩, evolves, h⟩ := bind_ok.mp h
  cases h
  exact ⟨rfl, evolves⟩

theorem parseSameTimePartitioning_ok {config : TimePartitioningConfig}
    (h : parseSameTimePartitioning current schema v = .ok config) :
    parseTimePartitioning v schema = .ok config ∧ ∃ old, current.timePartitioning = some old ∧
      sameTimePartitioningDefinition old config := by
  obtain ⟨parsed, read, h⟩ := bind_ok.mp h
  split at h
  next same =>
    cases h
    cases has : current.timePartitioning with
    | none => simp [has] at same
    | some old => exact ⟨read, old, rfl, by simpa [has] using same⟩
  · cases h

theorem parseSameRangePartitioning_ok {config : RangePartitioningConfig}
    (h : parseSameRangePartitioning current schema v = .ok config) :
    parseRangePartitioning v schema = .ok config := by
  obtain ⟨parsed, read, h⟩ := bind_ok.mp h
  split at h
  · cases h
    exact read
  · cases h

/-- The request is answered, with success or with an error. -/
def Responds {α : Type} (a : Answer α) : Prop := ∀ text, a ≠ .error (.panic text)

theorem responds_ok {α : Type} (a : α) : Responds (.ok a) := by
  intro text eq
  cases eq

theorem responds_response {α : Type} (status : Nat) (message reason : String) :
    Responds (.error (.response status message reason) : Answer α) := by
  intro text eq
  cases eq

/-- A refusal ends the request as it ended one of its parts. -/
theorem responds_refusal {α β : Type} {x : Answer α} {refusal : Refusal} (h : Responds x)
    (is : x = .error refusal) : Responds (.error refusal : Answer β) := by
  intro text eq
  cases eq
  exact h text is

theorem responds_checked {α : Type} (outcome : Except String α) : Responds (checked outcome) := by
  cases outcome with
  | error message => exact responds_response 400 message "invalid"
  | ok a => exact responds_ok a

theorem responds_optional {α : Type} (raw : Body) (name : String) (parse : Json → Except String α) :
    Responds (optional raw name parse) := by
  rw [optional]
  split
  · exact responds_ok none
  · exact responds_checked _

theorem responds_bind {α β : Type} {x : Answer α} {f : α → Answer β} (first : Responds x)
    (rest : ∀ a, x = .ok a → Responds (f a)) : Responds (x >>= f) := by
  cases x with
  | error refusal =>
    intro text eq
    exact first text (by cases eq; rfl)
  | ok a => exact rest a rfl

theorem responds_readPatch (path : TableReference) (current : TableRecord) :
    Responds (readPatch path current raw) := by
  refine responds_bind (responds_optional _ _ _) fun _ _ => ?_
  refine responds_bind (responds_optional _ _ _) fun _ _ => ?_
  refine responds_bind (responds_optional _ _ _) fun _ _ => ?_
  refine responds_bind (responds_optional _ _ _) fun _ _ => ?_
  refine responds_bind (responds_optional _ _ _) fun _ _ => ?_
  refine responds_bind (responds_optional _ _ _) fun _ _ => ?_
  refine responds_bind (responds_optional _ _ _) fun _ _ => ?_
  refine responds_bind (responds_optional _ _ _) fun _ _ => ?_
  refine responds_bind (responds_optional _ _ _) fun _ _ => ?_
  exact responds_ok _

/-- A patch that was read from a body for a table. -/
structure PatchRead (path : TableReference) (current : TableRecord) (raw : Body)
    (patch : TablePatch) : Prop where
  path : (⟨patch.projectID, patch.datasetID, patch.tableID⟩ : TableReference) = path
  schema : optional raw "schema" (parseNewSchema current.schema) = .ok patch.schema
  time : ∃ config, optional raw "timePartitioning" (parseSameTimePartitioning current
    (patch.schema.getD current.schema)) = .ok config ∧ patch.timePartitioning = config.map some
  range : ∃ config, optional raw "rangePartitioning" (parseSameRangePartitioning current
    (patch.schema.getD current.schema)) = .ok config ∧ patch.rangePartitioning = config.map some
  clustering : optional raw "clustering"
    (parseClustering · (patch.schema.getD current.schema)) = .ok patch.clustering

theorem readPatch_ok {path : TableReference} {patch : TablePatch}
    (h : readPatch path current raw = .ok patch) : PatchRead path current raw patch := by
  obtain ⟨friendlyName, -, h⟩ := bind_ok.mp h
  obtain ⟨description, -, h⟩ := bind_ok.mp h
  obtain ⟨labels, -, h⟩ := bind_ok.mp h
  obtain ⟨expirationTime, -, h⟩ := bind_ok.mp h
  obtain ⟨schema, hs, h⟩ := bind_ok.mp h
  obtain ⟨time, ht, h⟩ := bind_ok.mp h
  obtain ⟨range, hr, h⟩ := bind_ok.mp h
  obtain ⟨clustering, hc, h⟩ := bind_ok.mp h
  obtain ⟨requirePartitionFilter, -, h⟩ := bind_ok.mp h
  cases h
  exact ⟨rfl, hs, ⟨time, ht, rfl⟩, ⟨range, hr, rfl⟩, hc⟩

/-- An update that was read from a body for a table. -/
structure UpdateRead (path : TableReference) (current : TableRecord) (raw : Body)
    (update : TableUpdate) : Prop where
  path : (⟨update.projectID, update.datasetID, update.tableID⟩ : TableReference) = path
  time : ∃ config, optional raw "timePartitioning" (parseSameTimePartitioning current
    current.schema) = .ok config ∧ update.timePartitioning = config.or current.timePartitioning
  range : ∃ config, optional raw "rangePartitioning" (parseSameRangePartitioning current
    current.schema) = .ok config ∧ update.rangePartitioning = config.or current.rangePartitioning
  clustering : ∃ names, optional raw "clustering" (parseClustering · current.schema) = .ok names ∧
    update.clustering = names.getD []

theorem readUpdate_ok {path : TableReference} {update : TableUpdate}
    (h : readUpdate path current raw = .ok update) : UpdateRead path current raw update := by
  obtain ⟨⟨⟩, -, h⟩ := bind_ok.mp h
  obtain ⟨friendlyName, -, h⟩ := bind_ok.mp h
  obtain ⟨description, -, h⟩ := bind_ok.mp h
  obtain ⟨labels, -, h⟩ := bind_ok.mp h
  obtain ⟨expirationTime, -, h⟩ := bind_ok.mp h
  obtain ⟨time, ht, h⟩ := bind_ok.mp h
  obtain ⟨range, hr, h⟩ := bind_ok.mp h
  obtain ⟨clustering, hc, h⟩ := bind_ok.mp h
  obtain ⟨requirePartitionFilter, -, h⟩ := bind_ok.mp h
  cases h
  exact ⟨rfl, ⟨time, ht, rfl⟩, ⟨range, hr, rfl⟩, ⟨clustering, hc, rfl⟩⟩

open TableService (trimPath)

/-- A new table that was read from a body. -/
structure InsertRead (raw : Body) (input : TableInsert) : Prop where
  rows : input.rows = []
  time : optional raw "timePartitioning" (parseTimePartitioning · input.schema) =
    .ok input.timePartitioning
  range : optional raw "rangePartitioning" (parseRangePartitioning · input.schema) =
    .ok input.rangePartitioning
  clustering : ∃ names, optional raw "clustering" (parseClustering · input.schema) = .ok names ∧
    input.clustering = names.getD []

theorem readInsert_ok {projectID datasetID tableID : String} {external : Option ExternalTableConfig}
    {view : Option ViewConfig} {input : TableInsert}
    (h : readInsert projectID datasetID tableID schema external view raw = .ok input) :
    InsertRead raw input ∧ trimPath input.projectID input.datasetID input.tableID =
      trimPath projectID datasetID tableID := by
  obtain ⟨time, ht, h⟩ := bind_ok.mp h
  obtain ⟨range, hr, h⟩ := bind_ok.mp h
  obtain ⟨clustering, hc, h⟩ := bind_ok.mp h
  obtain ⟨requirePartitionFilter, -, h⟩ := bind_ok.mp h
  dsimp only at h
  split at h
  · cases h
  obtain ⟨⟨⟩, -, h⟩ := bind_ok.mp h
  cases h
  exact ⟨⟨rfl, ht, hr, clustering, hc, rfl⟩, rfl⟩

/-! ## What the handlers write -/

open TableService (All Seeds Purges stamp)

/-- What a patch makes of a record. -/
def patched (patch : TablePatch) (t : TableRecord) : TableRecord :=
  { t with
    friendlyName := (patch.friendlyName.map GoText.trimSpaceStr).getD t.friendlyName
    description := (patch.description.map GoText.trimSpaceStr).getD t.description
    labels := patch.labels.getD t.labels
    expirationTime := patch.expirationTime.getD t.expirationTime
    schema := patch.schema.getD t.schema
    timePartitioning := patch.timePartitioning.getD t.timePartitioning
    rangePartitioning := patch.rangePartitioning.getD t.rangePartitioning
    clustering := patch.clustering.getD t.clustering
    requirePartitionFilter := patch.requirePartitionFilter.getD t.requirePartitionFilter }

theorem patch_eq (s : TableService) (now : Time) (patch : TablePatch) :
    s.patch now patch =
      s.edit now (trimPath patch.projectID patch.datasetID patch.tableID) (patched patch) := rfl

/-- What an update makes of a record. -/
def updated (update : TableUpdate) (t : TableRecord) : TableRecord :=
  { t with
    friendlyName := GoText.trimSpaceStr update.friendlyName
    description := GoText.trimSpaceStr update.description
    labels := update.labels
    expirationTime := update.expirationTime
    timePartitioning := update.timePartitioning
    rangePartitioning := update.rangePartitioning
    clustering := update.clustering
    requirePartitionFilter := update.requirePartitionFilter }

theorem update_eq (s : TableService) (now : Time) (update : TableUpdate) :
    s.update now update =
      s.edit now (trimPath update.projectID update.datasetID update.tableID) (updated update) := rfl

/-- The table at the path is the one that is written, or the property says nothing about
what is written. -/
def Written (P : TableReference → TableRecord → Prop) (path : TableReference) : Prop :=
  ∀ at_, trimPath path.projectID path.datasetID path.tableID = some at_ →
    at_ = path ∨ ∀ t, P at_ t

section

variable [GoFloat] {P : TableReference → TableRecord → Prop} {s : TableService} {now : Time}
  {path : TableReference} {body : Option Body}

section

variable (h : All P s) (seeds : Seeds P) (purges : Purges P) (written : Written P path)

include h seeds purges written

/-- The rule of `tables.patch`. -/
theorem all_patchTable (keeps : ∀ raw current patch,
      trimPath path.projectID path.datasetID path.tableID = some path →
      body = some raw → (s.get now path).2 = some current →
      PatchRead path current raw patch → checkPatch current patch = .ok () → P path current →
      P path (stamp now (patched patch current))) : All P (patchTable now s path body).1 := by
  have there := h.get seeds purges now path
  rw [patchTable.eq_def]
  split
  · exact h
  next raw =>
    dsimp only
    split
    · exact there
    next current found =>
      split
      · exact there
      next patch read =>
        split
        · exact there
        next fits =>
          have read := readPatch_ok read
          have reference := read.path
          simp only [TableReference.ext_iff] at reference
          dsimp only
          rw [patch_eq, reference.1, reference.2.1, reference.2.2]
          exact h.edit_read seeds purges found written
            fun trim => keeps raw current patch trim rfl found read fits

/-- The rule of `tables.update`. -/
theorem all_updateTable (keeps : ∀ raw current update,
      trimPath path.projectID path.datasetID path.tableID = some path →
      body = some raw → (s.get now path).2 = some current →
      UpdateRead path current raw update → P path current →
      P path (stamp now (updated update current))) : All P (updateTable now s path body).1 := by
  have there := h.get seeds purges now path
  rw [updateTable.eq_def]
  split
  · exact h
  next raw =>
    dsimp only
    split
    · exact there
    next current found =>
      split
      · exact there
      next update read =>
        split
        · exact there
        next fits =>
          have read := readUpdate_ok read
          have reference := read.path
          simp only [TableReference.ext_iff] at reference
          dsimp only
          rw [update_eq, reference.1, reference.2.1, reference.2.2]
          exact h.edit_read seeds purges found written
            fun trim => keeps raw current update trim rfl found read

end

/-- Running a query reads the catalog. -/
def QueriesRead (b : Sql.Backend) : Prop :=
  ∀ (tables : TableService) now projectID queryText sess,
    tables.Touched (b.query tables now projectID queryText sess).1

theorem touched_deriveSchema {b : Sql.Backend} (queries : QueriesRead b) (s : TableService)
    (now : Time) (projectID : String) (view : Option ViewConfig) :
    s.Touched (deriveSchema b now s projectID view).1 := by
  rw [deriveSchema.eq_def]
  split
  · exact .refl
  next view =>
    have reads := queries s now projectID view.query.toList none
    dsimp only
    split <;> exact reads

/-- The rule of `tables.insert`. -/
theorem all_insertTable {b : Sql.Backend} {around : Surroundings} {s : Sql.Server}
    {projectID datasetID : String} (queries : QueriesRead b) (h : All P s.tables) (seeds : Seeds P)
    (purges : Purges P) (keeps : ∀ raw input path, body = some raw → InsertRead raw input →
      P path (TableService.newRecord input path now)) :
    All P (insertTable b around now s projectID datasetID body).1.tables := by
  rw [insertTable.eq_def]
  split
  · exact h
  next raw =>
    dsimp only
    split
    · exact h
    next table read =>
      have there := h.of_touched seeds purges
        (touched_deriveSchema queries s.tables now projectID table.view)
      split
      · exact there
      next derived _ =>
        split
        · exact there
        next input read =>
          have read := (readInsert_ok read).1
          split
          · exact there
          · exact there.insert seeds fun path _ =>
              keeps raw _ path rfl ⟨read.rows, read.time, read.range, read.clustering⟩

end

end LocaQL.Rest
