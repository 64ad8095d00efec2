import LocaQL.Jobs.Transfers
import LocaQL.Storage.ExactlyOnce
import LocaQL.Streaming.InsertAll

/-!
# Acknowledged rows

Load jobs, copy jobs, `insertAll` and the Storage Write API all end in the same append.  Only
`insertAll` asks first what kind of table it writes to.  The other three give rows, and a load
or copy job also its own schema, to a view or an external table, which nobody reads there.

`steps` says all that one operation can do to the catalog: it is one of the catalog's own
operations, it reads, or it gives the rows of a request to their table.
-/

namespace LocaQL.Jobs

open StorageWrite Option

open Sql
open TableService (All Seeds Purges TouchedAt Everywhere stamp trimPath)

/-! ## The system -/

structure State where
  storage : StorageWrite.State := {}
  datasets : DatasetService := {}
  seen : Streaming.Seen := ∅

def State.catalog (s : State) : TableService := s.storage.service.catalog

def State.server (s : State) : Server := { tables := s.catalog, datasets := s.datasets }

def State.setCatalog (s : State) (catalog : TableService) : State :=
  { s with storage.service.catalog := catalog }

/-- The operations on tables.  Those of the catalog itself are among the labels of the Storage
Write API; the set of datasets may change in any way. -/
inductive Operation where
  | load (now : Time) (job : LoadJob)
  | copy (now : Time) (job : CopyJob)
  | insertAll (r : Streaming.InsertAllRequest)
  | storage (label : StorageWrite.Label)
  | datasets (datasets : DatasetService)

/-- What the handlers ask of the catalog: no view or external table is created with rows, and
rows are appended by the operations above only. -/
def issued : StorageWrite.Label → Bool
  | .catalog _ (.insert input) =>
    (input.view.isNone && input.external.isNone) || input.rows.isEmpty
  | .catalog _ (.upsertCopyDestination _ _ _ _ _) => false
  | _ => true

theorem catalog_finalizeWriteStream (v : Service) (name : String) :
    (StorageWrite.finalizeWriteStream v name).1.catalog = v.catalog := by
  rw [StorageWrite.finalizeWriteStream]
  split
  · rfl
  · rfl

section

variable [GoFloat] {b : Backend} {files : Files} {s : State} {op : Operation}

def step (b : Backend) (files : Files) (s : State) : Operation → Option State
  | .load now job =>
    let r := executeLoadJob files now s.server job
    some ({ s with datasets := r.1.datasets }.setCatalog r.1.tables)
  | .copy now job =>
    let r := executeCopyJob b files now s.server job
    some ({ s with datasets := r.1.datasets }.setCatalog r.1.tables)
  | .insertAll r =>
    let e := Streaming.insertAllTableData s.catalog s.seen r
    some ({ s with seen := e.seen }.setCatalog e.catalog)
  | .storage label =>
    if issued label then
      (StorageWrite.step s.storage label).map fun storage => { s with storage := storage }
    else none
  | .datasets datasets => some { s with datasets := datasets }

/-! ## Writes and their answers -/

/-- The table that a connection appends to. -/
def appendTarget? (v : Service) (c : Connection) :
    Option TableReference :=
  c.target.bind fun target =>
    match target.1 with
    | .default table => some table
    | .explicit id => v.streams[id]?.map (·.table)

/-- The table that a request of the Storage Write API appends to. -/
def appendsTo? (s : StorageWrite.State) : StorageWrite.Label → Option TableReference
  | .append c _ _ _ => s.connections[c]?.bind (appendTarget? s.service)
  | .advance i _ => s.requests[i]?.map (·.dest)
  | _ => none

/-- Whether a connection appends to the table itself and not to the buffer of a stream. -/
def appendsAtOnce (v : Service) (c : Connection) : Bool :=
  c.target.any fun target =>
    match target.1 with
    | .default _ => true
    | .explicit id => v.streams[id]?.any fun st => st.kind = .committed

/-- Whether an `AppendRows` request was answered without an error. -/
def answered : Except Status (Except Status (Option Nat)) → Bool
  | .ok (.ok _) => true
  | _ => false

/-- The rows that a step of `BatchCommitWriteStreams` appends. -/
def committedRows (v : Service) (now : Time) (r : BatchCommit) :
    Option (List Row) :=
  match r.phase with
  | .append allRows fields =>
    let rows := allRows.map (·.row)
    if !rows.isEmpty && (appendToTable v now r.dest fields rows).2.isOk then
      some rows
    else none
  | _ => none

/-- The rows that the table got. -/
def appended? (s : StorageWrite.State) : StorageWrite.Label → Option (List Row)
  | .append c now rows offset =>
    s.connections[c]?.bind fun conn =>
      if answered (appendRows s.service now conn rows offset).2 &&
          appendsAtOnce s.service conn then some rows
      else none
  | .advance i now => s.requests[i]?.bind (committedRows s.service now)
  | _ => none

/-- The table that an operation writes to, and the disposition it writes with. -/
def request? (s : State) : Operation → Option (TableReference × String)
  | .load _ job =>
    some (⟨job.projectID, job.targetDataset, job.targetTable⟩, job.writeDisposition)
  | .copy _ job =>
    some (⟨job.projectID, job.targetDataset, job.targetTable⟩, job.writeDisposition)
  | .insertAll r => some (r.table, "WRITE_APPEND")
  | .storage label => (appendsTo? s.storage label).map fun dest => (dest, "WRITE_APPEND")
  | .datasets _ => none

/-- The rows that were taken from the client. -/
def taken (b : Backend) (files : Files) (s : State) : Operation → Option (List Row)
  | .load now job => (executeLoadJob files now s.server job).2.toOption
  | .copy now job => (executeCopyJob b files now s.server job).2.toOption
  | .insertAll r =>
    let e := Streaming.insertAllTableData s.catalog s.seen r
    if e.committed then some (e.outcomes.filterMap fun o => o.2.row?) else none
  | .storage label => appended? s.storage label
  | .datasets _ => none

/-- The acknowledgement of an operation. -/
def answers (b : Backend) (files : Files) (s : State) (op : Operation) : Option Ack :=
  (request? s op).bind fun q => acknowledged q.1 q.2 (taken b files s op)

/-- The table that an operation writes to, as the catalog knows it. -/
def destination? (s : State) (op : Operation) : Option TableReference :=
  (request? s op).bind fun q => trimPath q.1.projectID q.1.datasetID q.1.tableID

theorem destination_of_answers {ack : Ack} (h : answers b files s op = some ack) :
    destination? s op = some ack.path := by
  obtain ⟨q, asked, h⟩ := bind_eq_some_iff.mp h
  obtain ⟨rows, -, h⟩ := bind_eq_some_iff.mp h
  obtain ⟨path, trim, rfl⟩ := map_eq_some_iff.mp h
  rw [destination?, asked, bind_some, trim]

/-- When an operation drops what has expired. -/
def moment? : Operation → Option Time
  | .load now _ | .copy now _ => some now
  | .insertAll r => some r.readAt
  | .storage label =>
    match label with
    | .createWriteStream now _ _ | .switch _ now _ | .append _ now _ _ | .advance _ now
    | .catalog now _ => some now
    | .finalizeWriteStream _ | .connect | .batchCommit _ _ => none
  | .datasets _ => none

/-! ## What an operation does to the catalog -/

theorem effect_insertAllTableData (catalog : TableService) (seen : Streaming.Seen)
    (r : Streaming.InsertAllRequest) :
    Effect r.readAt catalog (Streaming.insertAllTableData catalog seen r).catalog
      (acknowledged r.table "WRITE_APPEND"
        (if (Streaming.insertAllTableData catalog seen r).committed then
          some ((Streaming.insertAllTableData catalog seen r).outcomes.filterMap fun o => o.2.row?)
        else none)) := by
  have reads := TableService.touchedAt_get catalog r.readAt r.table
  rw [Streaming.insertAllTableData]
  dsimp only
  split
  next catalog' read =>
    rw [read] at reads
    exact .reads reads
  next catalog' record read =>
    rw [read] at reads
    split
    · exact .reads reads
    split
    · exact .reads reads
    split
    · exact .reads reads
    next body _ =>
      split
      · exact .reads reads
      split
      · exact .reads reads
      rw [Streaming.insertRows]
      dsimp only
      generalize Streaming.scanRows r.table r.now record.schema body.ignoreUnknownValues
        ⟨seen, []⟩ body.rows = scanned
      obtain ⟨d, outcomes⟩ := scanned
      dsimp only
      split
      · exact .reads reads
      split
      · exact .reads reads
      have wrote := effect_upsertCopyDestination reads r.writeAt r.table []
        (outcomes.filterMap fun o => o.2.row?) "CREATE_NEVER" "WRITE_APPEND"
      generalize catalog'.upsertCopyDestination r.writeAt r.table []
        (outcomes.filterMap fun o => o.2.row?) "CREATE_NEVER" "WRITE_APPEND" = result at wrote ⊢
      obtain ⟨after, outcome⟩ := result
      cases outcome with
      | error err =>
        cases err with
        | error text => exact wrote
        | panic text => exact wrote
      | ok n => exact wrote

variable {v : Service} {now : Time}

section

variable (v : Service) (now : Time)

theorem touched_writableTable (table : TableReference) :
    TouchedAt now v.catalog (writableTable v now table).1.catalog := by
  have reads := TableService.touchedAt_get v.catalog now table
  rw [writableTable]
  split
  next catalog read => rwa [read] at reads
  next catalog record read =>
    rw [read] at reads
    split
    · exact reads
    · exact reads

theorem touched_createWriteStream (parent : String) (type : StreamType) :
    TouchedAt now v.catalog (StorageWrite.createWriteStream v now parent type).1.catalog := by
  rw [StorageWrite.createWriteStream]
  split
  · exact .refl
  next table _ =>
    have reads := touched_writableTable v now table
    split
    next read => rwa [read] at reads
    next v' fields read =>
      rw [read] at reads
      split
      · exact reads
      · exact reads

theorem touched_switchStream (c : Connection) (ws : String) :
    TouchedAt now v.catalog (switchStream v now c ws).1.catalog := by
  rw [switchStream]
  split
  · split
    · exact .refl
    · exact .refl
  split
  · exact .refl
  next table _ =>
    have reads := touched_writableTable v now table
    split
    next read => rwa [read] at reads
    next read => rwa [read] at reads
  · split
    · exact .refl
    · exact .refl

theorem effect_appendToTable (dest : TableReference) (fields : List TableField) (rows : List Row) :
    Effect now v.catalog (appendToTable v now dest fields rows).1.catalog
      (acknowledged dest "WRITE_APPEND"
        ((appendToTable v now dest fields rows).2.toOption.map fun _ => rows)) :=
  effect_upsertCopyDestination .refl now dest fields rows "CREATE_NEVER" "WRITE_APPEND"

/-- The table and the rows of an `AppendRows` request, if the table got them. -/
def appendAck (v : Service) (now : Time) (conn : Connection)
    (rows : List Row) (offset : Option Int) : Option Ack :=
  (appendTarget? v conn).bind fun dest => acknowledged dest "WRITE_APPEND"
    (if answered (appendRows v now conn rows offset).2 && appendsAtOnce v conn then
      some rows
    else none)

theorem effect_appendRows (conn : Connection) (rows : List Row) (offset : Option Int) :
    Effect now v.catalog (appendRows v now conn rows offset).1.catalog
      (appendAck v now conn rows offset) := by
  obtain ⟨name, target⟩ := conn
  cases target with
  | none => exact .reads .refl
  | some target =>
    obtain ⟨target, fields⟩ := target
    cases target with
    | default table =>
      simp only [appendAck, appendTarget?, appendsAtOnce, appendRows,
        bind_some, any_some, Bool.and_true]
      split
      · exact .reads .refl
      have wrote := effect_appendToTable v now table fields rows
      generalize appendToTable v now table fields rows = result at wrote ⊢
      obtain ⟨v', outcome⟩ := result
      cases outcome with
      | error err => exact wrote
      | ok n => exact wrote
    | explicit id =>
      simp only [appendAck, appendTarget?, appendsAtOnce, appendRows, bind_some, any_some]
      cases found : v.streams[id]? with
      | none => exact .reads .refl
      | some st =>
        dsimp only [map_some, bind_some, any_some]
        split
        · exact .reads .refl
        split
        · exact .reads .refl
        split
        · exact .reads .refl
        cases kind : st.kind with
        | pending =>
          simp only [reduceCtorEq, decide_false, Bool.and_false, Bool.false_eq_true,
            if_false, acknowledged, bind_none]
          exact .reads .refl
        | committed =>
          have wrote := effect_appendToTable v now st.table fields rows
          generalize appendToTable v now st.table fields rows = result
            at wrote ⊢
          obtain ⟨v', outcome⟩ := result
          cases outcome with
          | error err => exact wrote
          | ok n => exact wrote

end

/-- The table and the rows of a step of `BatchCommitWriteStreams`, if the table got them. -/
def commitAck (v : Service) (now : Time) (r : BatchCommit) :
    Option Ack :=
  acknowledged r.dest "WRITE_APPEND" (committedRows v now r)

theorem effect_advance {v v' : Service} {r : BatchCommit} {phase : StorageWrite.Phase}
    (h : StorageWrite.advance v now r = some (v', phase)) :
    Effect now v.catalog v'.catalog (commitAck v now r) := by
  obtain ⟨dest, streams, before⟩ := r
  cases before with
  | check checked todo errors | collect collected todo allRows fields =>
    cases todo with
    | cons id todo =>
      obtain ⟨st, -, eq⟩ := map_eq_some_iff.mp h
      cases eq
      exact .reads .refl
    | nil =>
      cases h
      exact .reads .refl
  | append allRows fields =>
    simp only [StorageWrite.advance] at h
    simp only [commitAck, committedRows]
    split at h
    next empty =>
      subst empty
      cases h
      exact .reads .refl
    next some =>
      have wrote := effect_appendToTable v now dest fields (allRows.map (·.row))
      have rows : (allRows.map (·.row)).isEmpty = false := by simpa using some
      rw [rows]
      generalize appendToTable v now dest fields (allRows.map (·.row)) = result
        at wrote h ⊢
      obtain ⟨v1, outcome⟩ := result
      cases outcome with
      | error err | ok n =>
        cases h
        exact wrote
  | mark todo at_ =>
    cases todo with
    | cons id todo | nil =>
      cases h
      exact .reads .refl
  | done response => cases h

/-- All that an operation can do: it is one of the catalog, it is a request for a write or
another read, or it leaves the catalog alone. -/
inductive Steps (b : Backend) (files : Files) (s s' : State) : Operation → Prop where
  | catalog {at_ : Time} {op : CatalogOp} : issued (.catalog at_ op) →
      s'.catalog = (s.catalog.apply at_ op).1 → Steps b files s s' (.storage (.catalog at_ op))
  | request {op : Operation} {moment : Time} : moment? op = some moment →
      Effect moment s.catalog s'.catalog (answers b files s op) → Steps b files s s' op
  | other {op : Operation} : s'.catalog = s.catalog → answers b files s op = none →
      Steps b files s s' op

theorem Steps.reads {s' : State} {moment : Time} (at_ : moment? op = some moment)
    (answer : answers b files s op = none) (reads : TouchedAt moment s.catalog s'.catalog) :
    Steps b files s s' op :=
  .request at_ (answer ▸ .reads reads)

theorem steps_storage {storage : StorageWrite.State} {label : StorageWrite.Label} (asked : issued label)
    (h : StorageWrite.step s.storage label = some storage) :
    Steps b files s { s with storage := storage } (.storage label) := by
  cases label with
  | createWriteStream at_ parent type =>
    rw [StorageWrite.step, Option.some.injEq] at h
    subst h
    refine .reads rfl rfl ?_
    dsimp only [State.catalog]
    exact touched_createWriteStream s.storage.service at_ parent type
  | finalizeWriteStream name =>
    rw [StorageWrite.step, Option.some.injEq] at h
    subst h
    exact .other (catalog_finalizeWriteStream s.storage.service name) rfl
  | connect =>
    rw [StorageWrite.step, Option.some.injEq] at h
    subst h
    exact .other rfl rfl
  | switch c at_ ws =>
    obtain ⟨conn, -, rfl⟩ := map_eq_some_iff.mp h
    refine .reads rfl rfl ?_
    dsimp only [State.catalog]
    exact touched_switchStream s.storage.service at_ conn ws
  | append c at_ rows offset =>
    obtain ⟨conn, found, rfl⟩ := map_eq_some_iff.mp h
    have wrote := effect_appendRows s.storage.service at_ conn rows offset
    refine .request rfl ?_
    simp only [answers, request?, appendsTo?, taken, appended?, found, bind_some]
    rw [appendAck] at wrote
    cases target : appendTarget? s.storage.service conn with
    | none | some dest =>
      rw [target] at wrote
      exact wrote
  | batchCommit parent names =>
    rw [StorageWrite.step, Option.some.injEq] at h
    subst h
    exact .other rfl rfl
  | advance i at_ =>
    obtain ⟨r, found, h⟩ := bind_eq_some_iff.mp h
    obtain ⟨⟨v, phase⟩, advanced, rfl⟩ := map_eq_some_iff.mp h
    have wrote := effect_advance advanced
    refine .request rfl ?_
    simp only [answers, request?, appendsTo?, taken, appended?, found, bind_some, map_some]
    exact wrote
  | catalog at_ op =>
    rw [StorageWrite.step, Option.some.injEq] at h
    subst h
    exact .catalog asked rfl

theorem steps (queries : QueriesReadAt b) {s' : State} (h : step b files s op = some s') :
    Steps b files s s' op := by
  cases op with
  | load at_ job =>
    rw [step, Option.some.injEq] at h
    subst h
    have wrote : Effect at_ s.catalog (executeLoadJob files at_ s.server job).1.tables _ :=
      effect_executeLoadJob s.server job
    exact .request rfl wrote
  | copy at_ job =>
    rw [step, Option.some.injEq] at h
    subst h
    have wrote : Effect at_ s.catalog (executeCopyJob b files at_ s.server job).1.tables _ :=
      effect_executeCopyJob queries s.server job
    exact .request rfl wrote
  | insertAll r =>
    rw [step, Option.some.injEq] at h
    subst h
    exact .request rfl (effect_insertAllTableData s.catalog s.seen r)
  | datasets datasets =>
    rw [step, Option.some.injEq] at h
    subst h
    exact .other rfl rfl
  | storage label =>
    rw [step] at h
    split at h
    next asked =>
      obtain ⟨storage, taken, rfl⟩ := map_eq_some_iff.mp h
      exact steps_storage asked taken
    · cases h

end

end LocaQL.Jobs
