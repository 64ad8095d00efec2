import LocaQL.Storage.ExactlyOnce
import LocaQL.Catalog.Invariants
import LocaQL.Lib.AppendLog

/-!
# Offsets of a write stream

The `AppendRows` calls and `FinalizeWriteStream` requests on one explicit stream interleave in
any way.  Each of them holds the lock of the stream while it looks at the offset, hands the
rows on and moves the offset, so each is one step; what the clients are told is recorded in
the order of the steps.

The stream is an append log: its answers are those of `AppendLog.History`, and the rows it
holds, in its buffer or in its table, are the acknowledged batches (`Inv`).  An append that
the table refuses leaves the rows, the offset and the answers as they were.
-/

namespace LocaQL

open Option List

/-! ## The rows of a table -/

namespace TableService

/-- The rows that are found at a path; a dataset without tables gets the default ones. -/
def storedRows (s : TableService) (path : TableReference) : List Row :=
  match s.datasets.get? (path.projectID, path.datasetID) with
  | some tables => ((tables.get? path.tableID).map (·.rows)).getD []
  | none => if path.tableID ∈ defaultTables then (defaultTableData path.tableID).2 else []

variable {s : TableService} {path : TableReference} {now : Time}

theorem storedRows_of_record {t : TableRecord} (there : s.record? path = some t) :
    s.storedRows path = t.rows := by
  unfold record? at there
  unfold storedRows
  cases h : s.datasets.get? (path.projectID, path.datasetID) with
  | none =>
    rw [h] at there
    cases there
  | some tables =>
    rw [h, bind_some] at there
    simp [there]

/-- Seeding a dataset makes no difference to the rows that are found. -/
theorem storedRows_ensure (s : TableService) (now : Time) (path : TableReference) :
    (s.ensureDatasetLocked now path.projectID path.datasetID).storedRows path =
      s.storedRows path := by
  rw [storedRows, storedRows, datasets_ensure, if_pos rfl]
  cases s.datasets.get? (path.projectID, path.datasetID) with
  | some tables => rfl
  | none =>
    simp only [getD_none, get?_defaultTableMap]
    split
    · rfl
    · rfl

/-- A table that may not be created gets the rows at its end, or keeps what it has. -/
theorem storedRows_append [GoFloat] {s' : TableService} {dest : TableReference}
    {schema : List TableField} {rows : List Row} {result : Result Nat}
    (trim : trimPath dest.projectID dest.datasetID dest.tableID = some path)
    (h : s.upsertCopyDestination now dest schema rows "CREATE_NEVER" "WRITE_APPEND" =
      (s', result)) :
    s'.storedRows path = s.storedRows path ++ (if result.isOk then rows else []) := by
  have append : normalizeWriteDisposition "WRITE_APPEND" = .writeAppend := by decide
  have never : normalizeCreateDisposition "CREATE_NEVER" = .createNever := by decide
  have same := storedRows_ensure s now path
  have kept : (s.ensureDatasetLocked now path.projectID path.datasetID).storedRows path =
      s.storedRows path ++ [] := by rw [append_nil, same]
  rw [upsertCopyDestination, trim, append, never] at h
  dsimp only at h
  rw [get?_tables] at h
  cases there : (s.ensureDatasetLocked now path.projectID path.datasetID).record? path with
  | none =>
    rw [there, checkDispositions, if_pos rfl] at h
    cases h
    exact kept
  | some t =>
    rw [there] at h
    split at h
    · cases h
      exact kept
    split at h
    · cases h
      exact kept
    split at h
    · cases h
      exact kept
    cases h
    rw [storedRows_of_record ((record?_commit _ _ _ _ _).trans (if_pos rfl)), ← same,
      storedRows_of_record there]
    rfl

end TableService

namespace StorageWrite

open AppendLog (Answer History items intervals Tiles)

section

variable [GoFloat]

/-! ## What the clients are told -/

/-- The response of `AppendRows` that says that rows were accepted. -/
def appendAnswer (rows : List Row) (offset : Option Int) :
    Except Status (Except Status (Option Nat)) → Option (Answer Row)
  | .ok (.ok (some start)) => some (.appended offset start rows)
  | _ => none

/-- The response of `FinalizeWriteStream` for the stream `id`: its `RowCount`, which is read
under the lock that finalizes it. -/
def finalizeAnswer (v : Service) (id : StreamID) : Except Status StreamID → Option (Answer Row)
  | .ok found => if found = id then v.streams[id]?.map fun st => .closed st.nextOffset else none
  | .error _ => none

/-- What a step tells a client of the stream. -/
def answer (id : StreamID) (s : State) : Label → Option (Answer Row)
  | .append c now rows offset =>
    s.connections[c]?.bind fun conn =>
      appendAnswer rows offset (appendRows s.service now conn rows offset).2
  | .finalizeWriteStream name => finalizeAnswer s.service id (finalizeWriteStream s.service name).2
  | _ => none

/-- The service, and what the clients of one stream have been told. -/
structure Observed where
  state : State
  answers : List (Answer Row) := []

def observe (id : StreamID) (s : Observed) (l : Label) : Option Observed :=
  (step s.state l).map fun t => ⟨t, s.answers ++ (answer id s.state l).toList⟩

def namesDefault (ws : String) : Bool :=
  match parseStorageWriteStreamName ws with
  | .ok (_, isDefault) => isDefault
  | .error _ => false

/-- The requests on one stream: connections are opened and turn to explicit streams, rows are
appended to the stream over those that have turned to it, and streams are finalized. -/
def OnStream (id : StreamID) (s : Observed) : Label → Prop
  | .connect => True
  | .switch _ _ ws => namesDefault ws = false
  | .append c _ _ _ =>
    ∀ conn ∈ s.state.connections[c]?, conn.target.map (·.1) = some (.explicit id)
  | .finalizeWriteStream _ => True
  | _ => False

/-! ## The rows a stream holds -/

/-- The rows of the table that `upsertCopyDestination` writes to for a destination. -/
def tableRows (catalog : TableService) (dest : TableReference) : List Row :=
  match TableService.trimPath dest.projectID dest.datasetID dest.tableID with
  | some path => catalog.storedRows path
  | none => []

def heldRows (v : Service) (st : StorageWriteStream) : List Row :=
  match st.kind with
  | .committed => tableRows v.catalog st.table
  | .pending => st.buffered

variable {v v' : Service} {now : Time} {id : StreamID} {st : StorageWriteStream}

omit [GoFloat] in
theorem heldRows_modify (v : Service) (id : StreamID) (f : StorageWriteStream → StorageWriteStream)
    (st : StorageWriteStream) : heldRows (v.modify id f) st = heldRows v st := by
  rw [heldRows, heldRows, Service.modify]

theorem tableRows_appendToTable {dest : TableReference} {fields : List TableField} {rows : List Row}
    {result : Result Nat} (h : appendToTable v now dest fields rows = (v', result)) :
    v'.streams = v.streams ∧ tableRows v'.catalog dest =
      tableRows v.catalog dest ++ (if result.isOk then rows else []) := by
  unfold appendToTable at h
  obtain ⟨rfl, rfl⟩ := Prod.mk.inj h
  refine ⟨rfl, ?_⟩
  dsimp only
  unfold tableRows
  cases trim : TableService.trimPath dest.projectID dest.datasetID dest.tableID with
  | none =>
    rw [TableService.upsertCopyDestination, trim]
    rfl
  | some path => exact TableService.storedRows_append trim Prod.mk.eta.symm

omit [GoFloat] in
theorem streams_modify_self (found : v.streams[id]? = some st)
    (f : StorageWriteStream → StorageWriteStream) : (v.modify id f).streams[id]? = some (f st) := by
  rw [streams_modify, if_pos rfl, found, map_some]

/-- All that an `AppendRows` request does to its stream: nothing, or the rows are accepted at
the end of the stream. -/
inductive Appends (v : Service) (id : StreamID) (st : StorageWriteStream) (rows : List Row)
    (offset : Option Int) : Service → Except Status (Except Status (Option Nat)) → Prop where
  | refused {v' : Service} {result : Except Status (Except Status (Option Nat))} :
      v'.streams = v.streams → heldRows v' st = heldRows v st →
      (∀ start, result ≠ .ok (.ok (some start))) → Appends v id st rows offset v' result
  | accepted {v' : Service} {st' : StorageWriteStream} :
      st.finalized = false → (∀ position ∈ offset, position = st.nextOffset) →
      v'.streams[id]? = some st' → st'.kind = st.kind → st'.table = st.table →
      st'.finalized = false → st'.nextOffset = st.nextOffset + rows.length →
      heldRows v' st' = heldRows v st ++ rows →
      Appends v id st rows offset v' (.ok (.ok (some st.nextOffset)))

theorem appends_appendRows {c : Connection} {fields : List TableField} {rows : List Row}
    {offset : Option Int} (target : c.target = some (.explicit id, fields))
    (found : v.streams[id]? = some st) :
    Appends v id st rows offset (appendRows v now c rows offset).1
      (appendRows v now c rows offset).2 := by
  unfold appendRows
  rw [target]
  dsimp only
  rw [found]
  dsimp only
  split
  · exact .refused rfl rfl nofun
  next open_ =>
  rw [Bool.not_eq_true] at open_
  split
  · exact .refused rfl rfl nofun
  split
  · exact .refused rfl rfl nofun
  next early late =>
  have here : ∀ position ∈ offset, position = (st.nextOffset : Int) := by
    intro position asked
    cases mem_def.mp asked
    simp only [getD_some] at early late
    omega
  split
  next kind =>
    split
    next v' err wrote =>
      obtain ⟨streams, rows_⟩ := tableRows_appendToTable wrote
      refine .refused streams ?_ nofun
      rw [heldRows, heldRows, kind]
      exact rows_.trans (append_nil _)
    next v' count wrote =>
      obtain ⟨streams, rows_⟩ := tableRows_appendToTable wrote
      refine .accepted open_ here (streams_modify_self (streams ▸ found) _) rfl rfl open_ rfl ?_
      rw [heldRows_modify, heldRows, heldRows, kind]
      exact rows_
  next kind =>
    refine .accepted open_ here (streams_modify_self found _) rfl rfl open_ rfl ?_
    rw [heldRows, heldRows, kind]

/-! ## The invariant -/

/-- The stream is an append log that began with the rows `base`. -/
structure Logs (st₀ : StorageWriteStream) (base : List Row) (v : Service)
    (answers : List (Answer Row)) (st : StorageWriteStream) : Prop where
  kind : st.kind = st₀.kind
  table : st.table = st₀.table
  history : History answers st.finalized
  next : st.nextOffset = (items answers).length
  held : heldRows v st = base ++ items answers

def Logged (id : StreamID) (st₀ : StorageWriteStream) (base : List Row) (s : Observed) : Prop :=
  ∃ st, s.state.service.streams[id]? = some st ∧
    Logs st₀ base s.state.service s.answers st

variable {st₀ : StorageWriteStream} {base : List Row} {answers : List (Answer Row)}

section

variable (logs : Logs st₀ base v answers st) (found : v.streams[id]? = some st)

include logs found

omit [GoFloat] in
/-- The step of `AppendRows`. -/
theorem Logs.appends {rows : List Row} {offset : Option Int}
    {result : Except Status (Except Status (Option Nat))}
    (effect : Appends v id st rows offset v' result) :
    ∃ st', v'.streams[id]? = some st' ∧
      Logs st₀ base v' (answers ++ (appendAnswer rows offset result).toList) st' := by
  obtain ⟨kind, table, history, next, held⟩ := logs
  cases effect with
  | refused streams same none =>
    have silent : appendAnswer rows offset result = Option.none := by
      unfold appendAnswer
      split
      next start => exact absurd rfl (none start)
      · rfl
    rw [silent, toList_none, append_nil]
    exact ⟨st, streams ▸ found, kind, table, history, next, same.trans held⟩
  | @accepted st' open_ here there kind' table' open' grown held' =>
    refine ⟨st', there, kind'.trans kind, table'.trans table, ?_, ?_, ?_⟩
    · rw [open_] at history
      rw [open', next]
      exact .append offset rows history (next ▸ here)
    · rw [grown, next]
      simp [appendAnswer, Answer.batch]
    · rw [held', held]
      simp [appendAnswer, Answer.batch]

omit [GoFloat] in
/-- The step of `FinalizeWriteStream`, of this stream or of another one. -/
theorem Logs.finalizes (name : String) :
    ∃ st', (finalizeWriteStream v name).1.streams[id]? = some st' ∧
      Logs st₀ base (finalizeWriteStream v name).1
        (answers ++ (finalizeAnswer v id (finalizeWriteStream v name).2).toList) st' := by
  obtain ⟨kind, table, history, next, held⟩ := logs
  unfold finalizeWriteStream
  cases lookupStream v name with
  | error err =>
    rw [finalizeAnswer, toList_none, append_nil]
    exact ⟨st, found, kind, table, history, next, held⟩
  | ok other =>
    dsimp only [finalizeAnswer]
    by_cases same : other = id
    · subst same
      rw [if_pos rfl, found]
      refine ⟨_, streams_modify_self found _, kind, table, ?_, ?_, ?_⟩
      · rw [map_some, next]
        exact .close history
      · simpa [Answer.batch] using next
      · rw [heldRows_modify, AppendLog.items_append, map_some, toList_some, AppendLog.items_cons,
          AppendLog.items_nil, Answer.batch, append_nil, append_nil, ← held, heldRows, heldRows]
    · rw [if_neg same, toList_none, append_nil]
      refine ⟨st, ?_, kind, table, history, next, (heldRows_modify _ _ _ _).trans held⟩
      rw [streams_modify, if_neg (Ne.symm same), found]

end

/-- Turning to an explicit stream only looks it up. -/
theorem switchStream_explicit {conn : Connection} {ws : String} (explicit : namesDefault ws = false) :
    (switchStream v now conn ws).1 = v := by
  unfold namesDefault at explicit
  unfold switchStream
  cases parsed : parseStorageWriteStreamName ws with
  | error err =>
    dsimp only
    split
    · split <;> rfl
    · rfl
  | ok named =>
    obtain ⟨table, isDefault⟩ := named
    rw [parsed] at explicit
    cases explicit
    dsimp only
    split
    · split <;> rfl
    · split <;> rfl

theorem Logged.step {s t : Observed} {l : Label} (logged : Logged id st₀ base s)
    (on : OnStream id s l) (h : observe id s l = some t) : Logged id st₀ base t := by
  obtain ⟨st, found, logs⟩ := logged
  obtain ⟨next, stepped, rfl⟩ := map_eq_some_iff.mp h
  cases l with
  | connect =>
    cases stepped
    exact ⟨st, found, by simpa [answer] using logs⟩
  | switch c now ws =>
    obtain ⟨conn, there, rfl⟩ := map_eq_some_iff.mp stepped
    have same : (switchStream s.state.service now conn ws).1 = s.state.service :=
      switchStream_explicit on
    have silent : answer id s.state (.switch c now ws) = none := rfl
    rw [Logged, silent, toList_none, append_nil]
    dsimp only
    rw [same]
    exact ⟨st, found, logs⟩
  | append c now rows offset =>
    obtain ⟨conn, there, rfl⟩ := map_eq_some_iff.mp stepped
    obtain ⟨⟨_, fields⟩, target, rfl⟩ := map_eq_some_iff.mp (on conn there)
    rw [Logged, answer, there, bind_some]
    exact logs.appends found (appends_appendRows target found)
  | finalizeWriteStream name =>
    cases stepped
    exact logs.finalizes found name
  | createWriteStream now parent type | batchCommit parent names | advance i now | catalog now op =>
    exact on.elim

/-! ## Exactly once -/

/-- A stream of the service `v₀` whose clients have been told the answers: the accepted batches
lie end to end from offset 0 to the next offset, the stream holds them in this order after what
its table had in `v₀`, no offset was accepted twice from requests with rows that asked for it,
and nothing was accepted after the stream was finalized at its row count. -/
structure OffsetsOnce (v₀ v : Service) (answers : List (Answer Row)) (st : StorageWriteStream) :
    Prop where
  tiles : Tiles 0 (intervals answers) st.nextOffset
  pending : st.kind = .pending → st.buffered = items answers
  committed : st.kind = .committed →
    tableRows v.catalog st.table = tableRows v₀.catalog st.table ++ items answers
  asked_once : ∀ (i j : Nat) (position : Int) (start start' : Nat) (rows rows' : List Row),
    answers[i]? = some (.appended (some position) start rows) →
    answers[j]? = some (.appended (some position) start' rows') →
    rows ≠ [] → rows' ≠ [] → i = j
  finalized : ∀ (before after : List (Answer Row)) (rowCount : Nat),
    answers = before ++ .closed rowCount :: after →
    rowCount = (items before).length ∧ ∀ a ∈ after, ∃ count, a = .closed count

theorem logged_created {parent : String} {type : StreamType} {v₀ : Service}
    (created : createWriteStream v now parent type = (v₀, .ok id)) (requests : List BatchCommit)
    (connections : List Connection) :
    ∃ st₀ base, Logged id st₀ base ⟨⟨v₀, requests, connections⟩, []⟩ ∧
      (st₀.kind = .pending → base = []) ∧
      (st₀.kind = .committed → base = tableRows v₀.catalog st₀.table) := by
  unfold createWriteStream at created
  split at created
  · cases created
  split at created
  · cases created
  split at created
  · cases created
  next table _ _ v' fields _ _ kind _ =>
  cases created
  let st₀ : StorageWriteStream :=
    { name := streamName table (v'.counter + 1), table := table, kind := kind, fields := fields,
      createdAt := now }
  have there : (v'.streams ++ [st₀])[v'.streams.length]? = some st₀ := by simp
  refine ⟨st₀, _, ⟨st₀, there, rfl, rfl, .start, rfl, (append_nil _).symm⟩, ?_, ?_⟩
  · intro pending
    rw [heldRows, pending]
  · intro committed
    rw [heldRows, committed]

end

section Race

attribute [local instance] GoFloat.texts

instance (id : StreamID) (s : Observed) : (label : Label) → Decidable (OnStream id s label)
  | .connect | .finalizeWriteStream _ => .isTrue trivial
  | .switch _ _ ws => decEq (namesDefault ws) false
  | .append c _ _ _ => inferInstanceAs (Decidable (∀ conn ∈ s.state.connections[c]?, _))
  | .createWriteStream .. | .batchCommit .. | .advance .. | .catalog .. => .isFalse False.elim

def usersTable : String := "projects/p/datasets/d/tables/users"

def usersStream : String := "projects/p/datasets/d/tables/users/streams/stream_1"

/-- Two connections append to one stream from offset 0, one of them appends again, and the
stream is finalized before the last append. -/
def race : List Label :=
  [.connect, .connect, .switch 0 0 usersStream, .switch 1 0 usersStream,
    .append 0 0 [["5", "eve"]] (some 0), .append 1 0 [["6", "mallory"]] (some 0),
    .append 1 0 [["6", "mallory"], ["7", "trent"]] none, .finalizeWriteStream usersStream,
    .append 0 0 [["8", "walter"]] (some 3)]

end Race

end StorageWrite

end LocaQL
