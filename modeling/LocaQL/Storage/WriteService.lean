import LocaQL.Catalog.History

/-!
# The Storage Write service

`storageWriteService`: explicit write streams, the connections that append to them, and
`BatchCommitWriteStreams`.  A handler that takes one lock is one function on the state.
`BatchCommitWriteStreams` takes the lock of each stream in turn, in three passes, with the
append to the table between the second and the third; what it does under one lock is one
step of a request under way (`advance`).

Streams are objects: requests and connections hold on to the stream itself, here its
position in `streams`, while clients name it by `names`.  `applied` records the rows that
`BatchCommitWriteStreams` has appended to a table, with the buffer slot each came from and
the request that brought it.
-/

namespace LocaQL.StorageWrite

/-- gRPC status codes. -/
inductive Code where
  | invalidArgument
  | notFound
  | alreadyExists
  | failedPrecondition
  | outOfRange
  | unimplemented
  | internal
deriving Repr, DecidableEq

structure Status where
  code : Code
  message : String
deriving Repr, DecidableEq

def storageWriteDefaultStreamID : String := "_default"

/-- `writeStreamKind`. -/
inductive WriteStreamKind where
  | committed
  | pending
deriving Repr, DecidableEq

abbrev StreamID := Nat

/-- `storageWriteStream`. -/
structure StorageWriteStream where
  name : String
  table : TableReference
  kind : WriteStreamKind
  fields : List TableField
  createdAt : Time
  commitTime : Option Time := none
  finalized : Bool := false
  committed : Bool := false
  buffered : List Row := []
  nextOffset : Nat := 0

/-- A slot in the buffer of a stream. -/
structure Origin where
  stream : StreamID
  index : Nat
deriving Repr, DecidableEq

/-- A buffered row with its slot. -/
structure BufferedRow where
  origin : Origin
  row : Row
deriving Repr, DecidableEq

/-- A buffered row that a request for the given streams appended to its table. -/
structure Applied extends BufferedRow where
  dest : TableReference
  streams : List StreamID
deriving Repr, DecidableEq

structure Service where
  catalog : TableService := {}
  counter : Nat := 0
  streams : List StorageWriteStream := []
  names : GoMap String StreamID := ∅
  applied : List Applied := []

/-! ## Names -/

/-- `strings.Trim(strings.TrimSpace(name), "/")`, split at the slashes. -/
def nameParts (name : String) : List String :=
  let trimmed := (GoText.trimSpaceStr name).toList.dropWhile (· = '/')
  let trimmed := (trimmed.reverse.dropWhile (· = '/')).reverse
  (trimmed.splitOn '/').map String.ofList

def parseStorageTableName (name : String) : Except String TableReference :=
  match nameParts name with
  | ["projects", p, "datasets", d, "tables", t] => .ok ⟨p, d, t⟩
  | _ =>
    let quoted := GoText.quote name
    .error s!"invalid table name {quoted}: expected projects/\x7bproject\x7d/datasets/\x7bdataset\x7d/tables/\x7btable\x7d"

/-- The table and whether it is the table's default stream. -/
def parseStorageWriteStreamName (name : String) : Except String (TableReference × Bool) :=
  match nameParts name with
  | ["projects", p, "datasets", d, "tables", t, "streams", id] =>
    .ok (⟨p, d, t⟩, id == storageWriteDefaultStreamID)
  | _ =>
    let quoted := GoText.quote name
    .error s!"invalid write stream name {quoted}: expected projects/\x7bproject\x7d/datasets/\x7bdataset\x7d/tables/\x7btable\x7d/streams/\x7bstream\x7d"

def streamName (table : TableReference) (counter : Nat) : String :=
  "projects/" ++ table.projectID ++ "/datasets/" ++ table.datasetID ++ "/tables/" ++
    table.tableID ++ "/streams/stream_" ++ Nat.repr counter

def rejectNestedFields (format : String) : List TableField → Except String Unit
  | [] => .ok ()
  | f :: fields =>
    if f.mode = "REPEATED" ∨ isRecordType f.type then
      let quoted := GoText.quote f.name
      .error s!"{format} does not support RECORD/REPEATED schema fields yet (column {quoted}); use NEWLINE_DELIMITED_JSON for nested data"
    else rejectNestedFields format fields

/-! ## Streams -/

section Streams

variable [GoFloat]

/-- `write_stream.type`. -/
inductive StreamType where
  | unspecified
  | committed
  | buffered
  | pending
deriving Repr, DecidableEq

def StreamType.kind : StreamType → Except Status WriteStreamKind
  | .committed => .ok .committed
  | .pending => .ok .pending
  | .buffered =>
    .error ⟨.unimplemented, "BUFFERED write streams are not supported; use COMMITTED or PENDING"⟩
  | .unspecified =>
    .error ⟨.invalidArgument, "write_stream.type is required (COMMITTED or PENDING)"⟩

/-- The table that a stream or a connection writes to, and its columns. -/
def writableTable (v : Service) (now : Time) (table : TableReference) :
    Service × Except Status (List TableField) :=
  let datasetID := table.datasetID
  let tableID := table.tableID
  match v.catalog.get now table with
  | (catalog, none) =>
    ({ v with catalog := catalog }, .error ⟨.notFound, s!"table not found: {datasetID}.{tableID}"⟩)
  | (catalog, some rec) =>
    match rejectNestedFields "the Storage Write API" rec.schema with
    | .error err => ({ v with catalog := catalog }, .error ⟨.invalidArgument, err⟩)
    | .ok () => ({ v with catalog := catalog }, .ok rec.schema)

def createWriteStream (v : Service) (now : Time) (parent : String) (type : StreamType) :
    Service × Except Status StreamID :=
  match parseStorageTableName parent with
  | .error err => (v, .error ⟨.invalidArgument, err⟩)
  | .ok table =>
    match writableTable v now table with
    | (v, .error err) => (v, .error err)
    | (v, .ok fields) =>
      match type.kind with
      | .error err => (v, .error err)
      | .ok kind =>
        let counter := v.counter + 1
        let name := streamName table counter
        let id := v.streams.length
        ({ v with
            counter := counter
            streams := v.streams ++
              [{ name := name, table := table, kind := kind, fields := fields,
                 createdAt := now }]
            names := v.names.set name id }, .ok id)

def lookupStream (v : Service) (name : String) : Except Status StreamID :=
  match v.names.get? name with
  | some id => .ok id
  | none => .error ⟨.notFound, s!"write stream not found: {name}"⟩

/-- What a handler does to a stream while it holds the stream's lock. -/
def Service.modify (v : Service) (id : StreamID)
    (f : StorageWriteStream → StorageWriteStream) : Service :=
  { v with streams := v.streams.modify id f }

def finalizeWriteStream (v : Service) (name : String) : Service × Except Status StreamID :=
  match lookupStream v name with
  | .error err => (v, .error err)
  | .ok id => (v.modify id fun st => { st with finalized := true }, .ok id)

/-! ## Appending -/

/-- Where a connection appends to. -/
inductive Target where
  | default (table : TableReference)
  | explicit (id : StreamID)
deriving Repr, DecidableEq

/-- An `AppendRows` call: its destination, once a request has named one. -/
structure Connection where
  currentStreamName : String := ""
  target : Option (Target × List TableField) := none

/-- The part of `AppendRows` that switches to the stream a request names. -/
def switchStream (v : Service) (now : Time) (c : Connection) (ws : String) :
    Service × Except Status Connection :=
  if ws = "" ∨ ws = c.currentStreamName then
    if c.currentStreamName = "" then
      (v, .error ⟨.invalidArgument, "write_stream is required on the first AppendRows request"⟩)
    else (v, .ok c)
  else
    match parseStorageWriteStreamName ws with
    | .error err => (v, .error ⟨.invalidArgument, err⟩)
    | .ok (table, true) =>
      match writableTable v now table with
      | (v, .error err) => (v, .error err)
      | (v, .ok fields) => (v, .ok ⟨ws, some (.default table, fields)⟩)
    | .ok (_, false) =>
      match lookupStream v ws with
      | .error err => (v, .error err)
      | .ok id => (v, .ok ⟨ws, some (.explicit id, ((v.streams[id]?).map (·.fields)).getD [])⟩)

/-- `upsertCopyDestination` as this service calls it. -/
def appendToTable (v : Service) (now : Time) (dest : TableReference) (fields : List TableField)
    (rows : List Row) : Service × Result Nat :=
  let r := v.catalog.upsertCopyDestination now dest fields rows "CREATE_NEVER" "WRITE_APPEND"
  ({ v with catalog := r.1 }, r.2)

/-- The text of a failure. -/
def failureText : Failure → String
  | .error text => text
  | .panic text => text

/-- The part of `AppendRows` after the rows are decoded.  An error that leaves the
connection open is `.ok (.error _)`. -/
def appendRows (v : Service) (now : Time) (c : Connection) (rows : List Row)
    (offset : Option Int) : Service × Except Status (Except Status (Option Nat)) :=
  match c.target with
  | none => (v, .error ⟨.invalidArgument, "write_stream is required on the first AppendRows request"⟩)
  | some (.default table, fields) =>
    if offset.isSome then
      (v, .error ⟨.invalidArgument, "offset is not allowed when appending to the _default stream"⟩)
    else
      match appendToTable v now table fields rows with
      | (v, .error err) => (v, .error ⟨.invalidArgument, failureText err⟩)
      | (v, .ok _) => (v, .ok (.ok none))
  | some (.explicit id, fields) =>
    match v.streams[id]? with
    | none => (v, .ok (.ok none))
    | some st =>
      let next : Int := st.nextOffset
      let want := offset.getD next
      if st.finalized then
        (v, .error ⟨.failedPrecondition, "cannot append to a finalized write stream"⟩)
      else if want < next then
        (v, .ok (.error ⟨.alreadyExists,
          s!"offset {want} already written; current end of stream is {next}"⟩))
      else if next < want then
        (v, .ok (.error ⟨.outOfRange,
          s!"offset {want} is beyond the current end of stream {next}"⟩))
      else
        let accept := fun (st : StorageWriteStream) =>
          { st with nextOffset := st.nextOffset + rows.length }
        match st.kind with
        | .committed =>
          match appendToTable v now st.table fields rows with
          | (v, .error err) => (v, .error ⟨.internal, failureText err⟩)
          | (v, .ok _) => (v.modify id accept, .ok (.ok (some st.nextOffset)))
        | .pending =>
          (v.modify id fun st => accept { st with buffered := st.buffered ++ rows },
            .ok (.ok (some st.nextOffset)))

/-! ## Batch commit -/

structure StreamError where
  entity : String
  errorMessage : String
deriving Repr, DecidableEq

/-- The answer of `BatchCommitWriteStreams`. -/
inductive Response where
  | streamErrors (errors : List StreamError)
  | commitTime (now : Time)
  | error (status : Status)
deriving Repr, DecidableEq

/-- How far a request has come; `todo` are the streams left in the current pass. -/
inductive Phase where
  | check (checked todo : List StreamID) (errors : List StreamError)
  | collect (collected todo : List StreamID) (allRows : List BufferedRow)
      (fields : List TableField)
  | append (allRows : List BufferedRow) (fields : List TableField)
  | mark (todo : List StreamID) (now : Time)
  | done (response : Response)

/-- A `BatchCommitWriteStreams` request under way. -/
structure BatchCommit where
  dest : TableReference
  streams : List StreamID
  phase : Phase

/-- The start of `BatchCommitWriteStreams`: the streams are looked up under one lock. -/
def startBatchCommit (v : Service) (parent : String) (names : List String) :
    Except Status BatchCommit :=
  match parseStorageTableName parent with
  | .error err => .error ⟨.invalidArgument, err⟩
  | .ok dest =>
    match names.mapM (lookupStream v) with
    | .error err => .error err
    | .ok streams => .ok ⟨dest, streams, .check [] streams []⟩

/-- What is wrong with a stream that a request wants to commit. -/
def checkStream (dest : TableReference) (st : StorageWriteStream) : List StreamError :=
  if st.kind ≠ .pending then [⟨st.name, "only PENDING streams can be committed"⟩]
  else if !st.finalized then [⟨st.name, "stream must be finalized before commit"⟩]
  else if st.committed then [⟨st.name, "stream already committed"⟩]
  else if st.table ≠ dest then [⟨st.name, "stream does not belong to parent table"⟩]
  else []

/-- The buffer of a stream, slot by slot. -/
def bufferedRows (id : StreamID) (st : StorageWriteStream) : List BufferedRow :=
  st.buffered.zipIdx.map fun r => ⟨⟨id, r.2⟩, r.1⟩

/-- The next step of a request: what it does under one lock. -/
def advance (v : Service) (now : Time) (r : BatchCommit) : Option (Service × Phase) :=
  match r.phase with
  | .check checked (id :: todo) errors =>
    v.streams[id]?.map fun st =>
      (v, .check (checked ++ [id]) todo (errors ++ checkStream r.dest st))
  | .check _ [] errors =>
    some (v, if errors = [] then .collect [] r.streams [] [] else .done (.streamErrors errors))
  | .collect collected (id :: todo) allRows fields =>
    v.streams[id]?.map fun st =>
      (v, .collect (collected ++ [id]) todo (allRows ++ bufferedRows id st)
        (if fields = [] then st.fields else fields))
  | .collect _ [] allRows fields => some (v, .append allRows fields)
  | .append allRows fields =>
    if allRows = [] then some (v, .mark r.streams now)
    else
      match appendToTable v now r.dest fields (allRows.map (·.row)) with
      | (v, .error err) => some (v, .done (.error ⟨.internal, failureText err⟩))
      | (v, .ok _) =>
        some ({ v with applied := v.applied ++ allRows.map fun b => ⟨b, r.dest, r.streams⟩ },
          .mark r.streams now)
  | .mark (id :: todo) now =>
    some (v.modify id fun st =>
      { st with committed := true, commitTime := some now, buffered := [] }, .mark todo now)
  | .mark [] now => some (v, .done (.commitTime now))
  | .done _ => none

end Streams

end LocaQL.StorageWrite
