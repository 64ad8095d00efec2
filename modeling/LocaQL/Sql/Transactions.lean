import LocaQL.Sql.Dispatch
import LocaQL.Catalog.Reading

/-!
# Session transactions

`BEGIN` takes a snapshot of the temp tables of a session and `ROLLBACK` puts it back.  The
persistent catalog has no snapshot: the executors of its statements refuse to run inside a
transaction.  Two of them, `CREATE SCHEMA` and `ALTER TABLE`, do not look at the session.

`noTrace_of_rollback` is about one session among any number of clients.  Inside a
transaction in which that session runs neither of the two, and no other mutating text that
mentions a view of `INFORMATION_SCHEMA`, its statements only read the catalog, the mutating
ones fail, and the rollback restores the temp tables.
-/

namespace LocaQL.Sql

open Outcome Run List

/-! ## Sessions -/

variable {r : SessionRecord} {q : List Char} {v : Server} {s : Server} {b : Backend} {p id : String}
  {snapshot : GoMap String SessionTempTable}

namespace SessionService

variable {s : SessionService} {now : Time} {p id : String}

/-- Looking up a session leaves the others alone. -/
theorem get_ne (s : SessionService) (now : Time) {key : String × String} (ne : key ≠ (p, id)) :
    (s.get now p id).1.sessions.get? key = s.sessions.get? key := by
  unfold get
  split
  · rfl
  · split
    · exact GoMap.get?_delete_ne _ ne
    · exact GoMap.get?_set_ne _ _ ne

/-- A session that is found is the one stored, touched. -/
theorem get_found (h : (s.get now p id).2 = some r) :
    (∃ r₀, s.sessions.get? (p, id) = some r₀ ∧ r.tempTables = r₀.tempTables ∧
      r.txSnapshot = r₀.txSnapshot) ∧
      (s.get now p id).1 = s.store p id r := by
  unfold get at h ⊢
  split at h
  · cases h
  next r₀ there =>
    split at h
    · cases h
    next fresh =>
      cases h
      exact ⟨⟨r₀, there, rfl, rfl⟩, by simp only [if_neg fresh]⟩

/-- A session that is not found is not stored any more. -/
theorem get_missing (h : (s.get now p id).2 = none) :
    (s.get now p id).1.sessions.get? (p, id) = none := by
  unfold get at h ⊢
  split at h
  next absent => simp only [absent]
  next r₀ there =>
    split at h
    next idle =>
      simp only [if_pos idle]
      exact GoMap.get?_delete_self _ _
    · cases h

theorem store_ne {key : String × String} (ne : key ≠ (p, id)) :
    (s.store p id r).sessions.get? key = s.sessions.get? key :=
  GoMap.get?_set_ne _ _ ne

theorem store_self (s : SessionService) (p id : String) (r : SessionRecord) :
    (s.store p id r).sessions.get? (p, id) = some r :=
  GoMap.get?_set_self _ _ _

end SessionService

/-! ## Statements that only read the persistent catalog -/

section

variable [GoFloat]

/-- What reading does to the persistent catalog. -/
structure CatalogRead (s s' : Server) : Prop where
  tables : s.tables.Touched s'.tables
  datasets : ∀ p, s'.datasets.datasets p = s.datasets.datasets p
  defaults : s'.datasets.defaults = s.datasets.defaults

theorem CatalogRead.refl (s : Server) : CatalogRead s s := ⟨.refl, fun _ => rfl, rfl⟩

theorem CatalogRead.trans {s' s'' : Server} (h1 : CatalogRead s s') (h2 : CatalogRead s' s'') :
    CatalogRead s s'' :=
  ⟨h1.tables.trans h2.tables, fun p => (h2.datasets p).trans (h1.datasets p),
    h2.defaults.trans h1.defaults⟩

/-- The sessions are no part of the persistent catalog. -/
theorem CatalogRead.of_eq {s' : Server} (tables : s'.tables = s.tables)
    (datasets : s'.datasets = s.datasets) : CatalogRead s s' := by
  refine ⟨?_, fun p => by rw [datasets], by rw [datasets]⟩
  rw [tables]
  exact .refl

theorem CatalogRead.of_tables {tables : TableService} (h : s.tables.Touched tables) :
    CatalogRead s { s with tables := tables } :=
  ⟨h, fun _ => rfl, rfl⟩

theorem CatalogRead.ensureProject (s : Server) (p : String) :
    CatalogRead s { s with datasets := s.datasets.ensureProject p } :=
  ⟨.refl, s.datasets.datasets_ensureProject p, s.datasets.defaults_ensureProject p⟩

/-- Queries and the builders of `INFORMATION_SCHEMA` read the catalog. -/
structure Backend.Reads (b : Backend) : Prop where
  query : ∀ (tables : TableService) now p q sess, tables.Touched (b.query tables now p q sess).1
  informationSchema : ∀ s now view p d email,
    CatalogRead s (b.informationSchema s now view p d email).1
  sessions : ∀ s now view p d email,
    (b.informationSchema s now view p d email).1.sessions = s.sessions

end

/-! ## The executors and the sessions -/

namespace Outcome

variable (s : Server)

@[simp] theorem fst_pass : (pass s).1 = s := rfl

@[simp] theorem fst_refuse (text : String) : (refuse s text).1 = s := rfl

@[simp] theorem fst_done (t : StatementType) : (done s t).1 = s := rfl

end Outcome

theorem sessions_orElse {o : Outcome} {next : Server → Outcome} (first : o.1.sessions = s.sessions)
    (second : ∀ s, (next s).1.sessions = s.sessions) : (orElse o next).1.sessions = s.sessions := by
  unfold orElse
  split
  · exact first
  · exact (second _).trans first

theorem sessions_createSchema (s : Server) (p : String) (q : List Char) :
    (executePersistentCreateSchemaStatement s p q).1.sessions = s.sessions := by
  unfold executePersistentCreateSchemaStatement
  split
  · rfl
  · dsimp only
    split_ifs <;> simp only [fst_done, fst_refuse]

section

variable [GoFloat]

theorem sessions_informationSchema {q : List Char} (reads : asksInformationSchema q → b.Reads)
    (now : Time) (s : Server) (p email : String) :
    (simulateInformationSchemaQuery b now s p q email).1.sessions = s.sessions := by
  have target (rawProject rawDataset : String) :
      (resolveInformationSchemaTarget s p rawProject rawDataset).1.sessions = s.sessions := by
    unfold resolveInformationSchemaTarget
    dsimp only
    split_ifs <;> rfl
  unfold simulateInformationSchemaQuery
  split
  · rfl
  next project dataset view found =>
    have kept := target (String.ofList (project.getD [])) (String.ofList (dataset.getD []))
    dsimp only
    split
    next known =>
      have asks : asksInformationSchema q := by
        rw [asksInformationSchema, found]
        exact decide_eq_true known
      rw [(reads asks).sessions, kept]
    · rw [fst_pass, kept]

theorem sessions_view (b : Backend) (now : Time) (s : Server) (p : String) (q : List Char)
    (sess : Option SessionRecord) :
    (executePersistentViewStatement b now s p q sess).1.sessions = s.sessions := by
  unfold executePersistentViewStatement
  split
  · rfl
  · rfl
  dsimp only
  split_ifs
  · rfl
  · rfl
  · unfold dropView
    split
    · split_ifs <;> rfl
    · split_ifs <;> rfl
  · unfold createView
    dsimp only
    split_ifs
    · rfl
    · rfl
    · rfl
    · split
      · rfl
      · rfl
      · split
        · rfl
        · split_ifs <;> rfl

theorem sessions_executeAlterTable {α : Type} (now : Time) (s : Server) (p : String)
    (parsed : Option (Result (AlterTable α))) (refusesViews : Bool)
    (change : TableService → TableReference → TableRecord → α → TableService × Result Unit) :
    (executeAlterTable now s p parsed refusesViews change).1.sessions = s.sessions := by
  unfold executeAlterTable
  split
  · rfl
  · rfl
  dsimp only
  split
  · rfl
  · split
    · split_ifs <;> rfl
    · split_ifs <;> rfl

theorem sessions_alterTable (now : Time) (s : Server) (p : String) (q : List Char) :
    (executePersistentAlterTableStatement now s p q).1.sessions = s.sessions := by
  refine sessions_orElse (sessions_executeAlterTable ..) fun s => ?_
  refine sessions_orElse (sessions_executeAlterTable ..) fun s => ?_
  refine sessions_orElse (sessions_executeAlterTable ..) fun s => ?_
  exact sessions_orElse (sessions_executeAlterTable ..) fun s => sessions_executeAlterTable ..

theorem sessions_sql (b : Backend) (now : Time) (s : Server) (p : String) (q : List Char)
    (sess : Option SessionRecord) :
    (executePersistentSQLStatement b now s p q sess).1.sessions = s.sessions := by
  unfold executePersistentSQLStatement
  split
  · rfl
  · rfl
  dsimp only
  split_ifs
  · rfl
  · rfl
  · rfl
  · rfl
  · unfold runStatement
    split_ifs
    · unfold dropTable
      split
      · split_ifs <;> rfl
      · split_ifs <;> rfl
    · rfl
    all_goals
      split
      · rfl
      · dsimp only
        split <;> rfl

/-- Behind session control no executor touches a session. -/
theorem sessions_executeTrimmed {trimmed : List Char}
    (reads : asksInformationSchema trimmed → b.Reads) (now : Time) (s : Server) (req : Request)
    (sess : Option SessionRecord) :
    (executeTrimmed b now s req trimmed sess).1.sessions = s.sessions := by
  have outcome : (orElse
      (simulateInformationSchemaQuery b now s req.projectID trimmed req.callingUserEmail)
      (executeMutation b now req.projectID trimmed sess)).1.sessions = s.sessions :=
    sessions_orElse (sessions_informationSchema reads ..) fun s =>
      sessions_orElse (sessions_view ..) fun s =>
        sessions_orElse (sessions_createSchema ..) fun s =>
          sessions_orElse (sessions_alterTable ..) fun s => sessions_sql ..
  rw [executeTrimmed_eq]
  generalize orElse _ _ = o at outcome
  obtain ⟨s', _ | result⟩ := o
  · exact outcome
  · exact outcome

end

/-! ## Inside a transaction -/

/-- An executor that leaves the state alone and does not succeed. -/
structure Outcome.Refuses (s : Server) (o : Outcome) : Prop where
  state : o.1 = s
  failed : ∀ r, o.2 ≠ some (.ok r)

namespace Outcome

theorem refuses_pass (s : Server) : (pass s).Refuses s := ⟨rfl, fun _ h => by cases h⟩

theorem refuses_error (s : Server) (err : Failure) : Refuses s (s, some (.error err)) :=
  ⟨rfl, fun _ h => by cases h⟩

theorem refuses_orElse {o : Outcome} {next : Server → Outcome} (first : o.Refuses s)
    (second : (next s).Refuses s) : (orElse o next).Refuses s := by
  unfold orElse
  split
  · exact first
  · rw [first.state]
    exact second

end Outcome

theorem refuses_createSchema (s : Server) (p : String) (h : parseCreateSchemaStatement q = none) :
    (executePersistentCreateSchemaStatement s p q).Refuses s := by
  rw [executePersistentCreateSchemaStatement, h]
  exact refuses_pass s

section

variable [GoFloat]

section

variable (b : Backend) (now : Time) (s : Server) (p : String) (q : List Char) (tx : r.inTransaction)

include tx

theorem refuses_view : (executePersistentViewStatement b now s p q (some r)).Refuses s := by
  unfold executePersistentViewStatement
  split
  · exact refuses_pass s
  · exact refuses_error ..
  dsimp only
  split
  · exact refuses_error ..
  · rw [Option.any_some, if_pos tx]
    exact refuses_error ..

theorem refuses_sql : (executePersistentSQLStatement b now s p q (some r)).Refuses s := by
  unfold executePersistentSQLStatement
  split
  · exact refuses_pass s
  · exact refuses_error ..
  dsimp only
  split
  · exact refuses_error ..
  split
  · exact refuses_error ..
  · rw [Option.any_some, if_pos tx]
    exact refuses_error ..

end

theorem refuses_alterTable (now : Time) (s : Server)
    (h : isPersistentAlterTableStatement p q = false) :
    (executePersistentAlterTableStatement now s p q).Refuses s := by
  have pass {α : Type} {parsed : Option (Result (AlterTable α))} (none : parsed.isSome = false)
      (refusesViews : Bool)
      (change : TableService → TableReference → TableRecord → α → TableService × Result Unit) :
      (executeAlterTable now s p parsed refusesViews change).Refuses s := by
    cases parsed with
    | none => exact refuses_pass s
    | some parsed => cases none
  simp only [isPersistentAlterTableStatement, Bool.or_eq_false_iff] at h
  obtain ⟨⟨⟨⟨add, drop⟩, rename⟩, renameTo⟩, options⟩ := h
  exact refuses_orElse (pass add ..) (refuses_orElse (pass drop ..)
    (refuses_orElse (pass rename ..) (refuses_orElse (pass renameTo ..) (pass options ..))))

/-- Inside a transaction the executors of mutating statements refuse, but for the two that
do not look at the session. -/
theorem refuses_executeMutation (b : Backend) (now : Time) (s : Server) (tx : r.inTransaction)
    (schema : parseCreateSchemaStatement q = none)
    (alter : isPersistentAlterTableStatement p q = false) :
    (executeMutation b now p q (some r) s).Refuses s :=
  refuses_orElse (refuses_view b now s p q tx) (refuses_orElse (refuses_createSchema s p schema)
    (refuses_orElse (refuses_alterTable now s alter) (refuses_sql b now s p q tx)))

theorem catalogRead_informationSchema (reads : b.Reads) (now : Time) (s : Server) (p email : String)
    (q : List Char) : CatalogRead s (simulateInformationSchemaQuery b now s p q email).1 := by
  have target (rawProject rawDataset : String) :
      CatalogRead s (resolveInformationSchemaTarget s p rawProject rawDataset).1 := by
    unfold resolveInformationSchemaTarget
    dsimp only
    split
    · exact .refl s
    split
    · exact .refl s
    · split
      · exact .refl s
      · split <;> exact .ensureProject s p
  unfold simulateInformationSchemaQuery
  split
  · exact .refl s
  next project dataset view _ =>
    have touched (p : String) := (target (String.ofList (project.getD []))
      (String.ofList (dataset.getD []))).trans (.ensureProject _ p)
    dsimp only
    split
    · exact (touched _).trans (reads.informationSchema ..)
    · exact touched _

/-- The condition on a statement of the session: `CREATE SCHEMA` and `ALTER TABLE` are not
allowed, nor is a mutating text that mentions a view of `INFORMATION_SCHEMA`. -/
structure Guarded (projectID : String) (trimmed : List Char) : Prop where
  schema : parseCreateSchemaStatement trimmed = none
  alter : isPersistentAlterTableStatement projectID trimmed = false
  view : recognized projectID trimmed → asksInformationSchema trimmed = false

/-- A text that the session passes on only reads the catalog, and fails if it is a mutation. -/
theorem executeTrimmed_inTransaction (reads : b.Reads) (now : Time) (s : Server) {req : Request}
    {trimmed : List Char} (tx : r.inTransaction) (guarded : Guarded req.projectID trimmed) :
    CatalogRead s (executeTrimmed b now s req trimmed (some r)).1 ∧
      (recognized req.projectID trimmed →
        ∃ err, (executeTrimmed b now s req trimmed (some r)).2 = .error err) := by
  have read := catalogRead_informationSchema reads now s req.projectID req.callingUserEmail trimmed
  have pass := not_taken_informationSchema b now s req.projectID req.callingUserEmail (q := trimmed)
  rw [executeTrimmed_eq, orElse]
  generalize simulateInformationSchemaQuery b now s req.projectID trimmed req.callingUserEmail = o
    at read pass
  obtain ⟨s', _ | result⟩ := o
  · dsimp only
    have refuses := refuses_executeMutation b now s' tx guarded.schema guarded.alter
    have mutates := mutates_executeMutation b now s' req.projectID trimmed (some r)
    generalize executeMutation b now req.projectID trimmed (some r) s' = o at refuses mutates
    obtain ⟨s'', answer⟩ := o
    obtain rfl : s'' = s' := refuses.state
    rcases answer with _ | err | result
    · refine ⟨read.trans (.of_tables (reads.query ..)), fun recognized => ?_⟩
      rw [← mutates.taken] at recognized
      cases recognized
    · exact ⟨read, fun _ => ⟨err, rfl⟩⟩
    · exact absurd rfl (refuses.failed result)
  · refine ⟨read, fun recognized => ?_⟩
    cases pass (guarded.view recognized)

end

/-! ## The statements of a session -/

/-- The names of the project and the session of a request. -/
def Request.key (req : Request) : String × String := (req.projectID, req.sessionID)

/-- The server once the session of the request has been looked up. -/
abbrev Request.looked (req : Request) (now : Time) (s : Server) : Server :=
  { s with sessions := (s.sessions.get now req.projectID req.sessionID).1 }

abbrev Request.session? (req : Request) (now : Time) (s : Server) : Option SessionRecord :=
  (s.sessions.get now req.projectID req.sessionID).2

/-- As long as the session is there, it is inside the transaction that began with the temp
tables `snapshot`. -/
def Open (key : String × String) (snapshot : GoMap String SessionTempTable) (s : Server) : Prop :=
  ∀ r, s.sessions.sessions.get? key = some r → r.txSnapshot = some snapshot

/-- Looking the session up leaves it inside its transaction. -/
theorem Open.found {now : Time} (isOpen : Open (p, id) snapshot s)
    (h : (s.sessions.get now p id).2 = some r) :
    r.txSnapshot = some snapshot ∧
      Open (p, id) snapshot { s with sessions := (s.sessions.get now p id).1 } := by
  obtain ⟨⟨r₀, there, -, same⟩, stored⟩ := SessionService.get_found h
  have tx : r.txSnapshot = some snapshot := same.trans (isOpen r₀ there)
  refine ⟨tx, fun r' there' => ?_⟩
  dsimp only at there'
  rw [stored, SessionService.store_self] at there'
  cases there'
  exact tx

/-- A statement that does not end the transaction. -/
structure Inside (trimmed : List Char) : Prop where
  commit : ¬sessionCommitPattern.Matches trimmed
  rollback : ¬sessionRollbackPattern.Matches trimmed

theorem executeInSession_pass (b : Backend) (now : Time) (s : Server) (p id : String)
    (r : SessionRecord) {stmt : List Char} (h : sessionControl stmt = false) :
    executeInSession b now s p id r stmt = pass s := by
  simp only [sessionControl, Bool.or_eq_false_iff, decide_eq_false_iff_not] at h
  obtain ⟨⟨⟨isBegin, isCommit⟩, isRollback⟩, isCreate⟩ := h
  rw [executeInSession, if_neg isBegin, if_neg isCommit, if_neg isRollback]
  split
  · rfl
  next found => exact absurd (Pattern.matches_of_find found) isCreate

theorem sessions_controlSession (s : Server) {msg : String} {changed : Result SessionRecord}
    {key : String × String} (ne : key ≠ (p, id)) :
    (controlSession s p id msg changed).1.sessions.sessions.get? key =
      s.sessions.sessions.get? key := by
  cases changed with
  | error err => rfl
  | ok r => exact SessionService.store_ne ne

/-- The statements of one session leave the other sessions alone. -/
theorem executeInSession_ne (b : Backend) (now : Time) (s : Server) (r : SessionRecord)
    (stmt : List Char) {key : String × String} (ne : key ≠ (p, id)) :
    (executeInSession b now s p id r stmt).1.sessions.sessions.get? key =
      s.sessions.sessions.get? key := by
  unfold executeInSession
  split
  · exact sessions_controlSession s ne
  split
  · exact sessions_controlSession s ne
  split
  · exact sessions_controlSession s ne
  · split
    · rfl
    · dsimp only
      split
      · rfl
      · rfl
      · exact sessions_controlSession _ ne

/-- What a transaction is rolled back to does not change before it ends. -/
theorem open_controlSession {msg : String} {changed : Result SessionRecord}
    (isOpen : Open (p, id) snapshot s) (kept : ∀ r, changed = .ok r → r.txSnapshot = some snapshot) :
    Open (p, id) snapshot (controlSession s p id msg changed).1 := by
  cases changed with
  | error err => exact isOpen
  | ok r =>
    intro r' there
    rw [controlSession] at there
    dsimp only at there
    rw [SessionService.store_self] at there
    cases there
    exact kept r rfl

section

variable [GoFloat]

theorem catalogRead_controlSession (s : Server) (p id msg : String) (changed : Result SessionRecord) :
    CatalogRead s (controlSession s p id msg changed).1 := by
  cases changed with
  | error err => exact .refl s
  | ok r => exact .of_eq rfl rfl

/-- A statement of the session's own that does not end the transaction. -/
theorem executeInSession_inside (reads : b.Reads) (now : Time) {stmt : List Char}
    (inside : Inside stmt) (isOpen : Open (p, id) snapshot s) (tx : r.txSnapshot = some snapshot) :
    CatalogRead s (executeInSession b now s p id r stmt).1 ∧
      Open (p, id) snapshot (executeInSession b now s p id r stmt).1 := by
  rw [executeInSession, if_neg inside.commit, if_neg inside.rollback]
  split
  · refine ⟨catalogRead_controlSession .., open_controlSession isOpen fun r' ok => ?_⟩
    rw [SessionRecord.beginTransaction, tx] at ok
    cases ok
  · split
    · exact ⟨.refl s, isOpen⟩
    next m _ =>
      have read : CatalogRead s { s with tables := (b.query s.tables now p m.1.2 (some r)).1 } :=
        .of_tables (reads.query ..)
      dsimp only
      split
      · exact ⟨read, isOpen⟩
      · exact ⟨read, isOpen⟩
      refine ⟨read.trans (catalogRead_controlSession ..),
        open_controlSession isOpen fun r' ok => ?_⟩
      cases ok
      exact tx

/-- How a request of a session is answered. -/
theorem executeQueryStatement_cases (b : Backend) (now : Time) (s : Server) {req : Request}
    (session : req.sessionID ≠ "") {motive : Server × Result PersistentSQLResult → Prop}
    (empty : GoText.trimSpace req.queryText = [] → ∀ r, motive (s, .ok r))
    (missing : req.session? now s = none → ∀ text, motive (req.looked now s, fail text))
    (own : ∀ r, req.session? now s = some r → ∀ s' result,
      executeInSession b now (req.looked now s) req.projectID req.sessionID r
        (trimSemicolon req.queryText) = (s', some result) →
      sessionControl (trimSemicolon req.queryText) → motive (s', result))
    (passed : ∀ r, req.session? now s = some r →
      sessionControl (trimSemicolon req.queryText) = false →
      motive (executeTrimmed b now (req.looked now s) req (trimSemicolon req.queryText) (some r))) :
    motive (executeQueryStatement b now s req) := by
  rw [executeQueryStatement]
  split
  next nothing => exact empty nothing _
  dsimp only
  cases found : req.session? now s with
  | none =>
    rw [executeSessionControl_missing found]
    exact missing found _
  | some r =>
    rw [executeSessionControl_found b _ found]
    have mutates := mutates_executeInSession b now (req.looked now s) req.projectID
      req.sessionID r (trimSemicolon req.queryText)
    cases control : sessionControl (trimSemicolon req.queryText) with
    | false =>
      rw [executeInSession_pass _ _ _ _ _ _ control]
      exact passed r found control
    | true =>
      have own := own r found
      generalize executeInSession _ _ _ _ _ _ _ = o at mutates own
      obtain ⟨s', _ | result⟩ := o
      · rw [control] at mutates
        cases mutates.taken
      · exact own s' result rfl control

/-- A statement of the session's own that succeeds. -/
theorem control_ok {b : Backend} {now : Time} {s' : Server} {req : Request}
    {result : PersistentSQLResult} (session : req.sessionID ≠ "")
    (control : sessionControl (trimSemicolon req.queryText))
    (h : executeQueryStatement b now s req = (s', .ok result)) :
    ∃ r, req.session? now s = some r ∧ executeInSession b now (req.looked now s) req.projectID
      req.sessionID r (trimSemicolon req.queryText) = (s', some (.ok result)) := by
  revert h
  refine executeQueryStatement_cases b now s session
    (motive := fun out => out = (s', .ok result) → _) (fun nothing _ _ => ?_)
    (fun _ _ h => by cases h) (fun r found s'' answer eq _ h => ?_) fun _ _ notControl => ?_
  · rw [trimSemicolon_of_empty nothing] at control
    exact absurd control (by decide)
  · cases h
    exact ⟨r, found, eq⟩
  · rw [control] at notControl
    cases notControl

end

/-! ## Runs -/

theorem not_recognized_nil (p : String) : recognized p [] = false := by
  by_contra found
  have mutating : isMutatingOrSessionControlStatement p [] := by
    simp only [recognized, Bool.not_eq_false, Bool.or_eq_true] at found
    simp only [isMutatingOrSessionControlStatement, Bool.or_eq_true]
    tauto
  exact trimSpace_ne_nil mutating rfl

/-- A request at some moment, or another call of the API, which may change the catalog in
any way. -/
inductive Label where
  | request (now : Time) (req : Request)
  | api (change : TableService × DatasetService → TableService × DatasetService)

def Label.Own (key : String × String) : Label → Prop
  | .request _ req => req.key = key
  | .api _ => False

/-- The transaction is not ended by a statement of its own session. -/
def Label.Inside (key : String × String) (_ : Server) : Label → Prop
  | .request _ req => req.key = key → Sql.Inside (trimSemicolon req.queryText)
  | .api _ => True

/-- Moreover, the statements of the session meet the condition. -/
def Label.Guarded (key : String × String) (_ : Server) : Label → Prop
  | .request _ req => req.key = key →
      Sql.Inside (trimSemicolon req.queryText) ∧
        Sql.Guarded req.projectID (trimSemicolon req.queryText)
  | .api _ => True

/-- Not a step of the session, nor one that asks a view of `INFORMATION_SCHEMA`: to list the
sessions is to remove those that have expired. -/
def Label.Other (key : String × String) (_ : Server) : Label → Prop
  | .request _ req =>
    req.key ≠ key ∧ asksInformationSchema (trimSemicolon req.queryText) = false
  | .api _ => True

section

variable [GoFloat]

def step (b : Backend) (s : Server) : Label → Option Server
  | .request now req => some (executeQueryStatement b now s req).1
  | .api change =>
    let catalog := change (s.tables, s.datasets)
    some { s with tables := catalog.1, datasets := catalog.2 }

/-- What a request of the session does inside a transaction. -/
structure OwnStep (b : Backend) (now : Time) (s : Server) (req : Request) : Prop where
  read : CatalogRead s (executeQueryStatement b now s req).1
  failed : recognized req.projectID (trimSemicolon req.queryText) →
    sessionControl (trimSemicolon req.queryText) = false →
    ∃ err, (executeQueryStatement b now s req).2 = .error err

end

theorem sessionControl_of_begin (h : sessionBeginPattern.Matches q) : sessionControl q := by
  rw [sessionControl, decide_eq_true h]
  rfl

theorem sessionControl_of_rollback (h : sessionRollbackPattern.Matches q) : sessionControl q := by
  rw [sessionControl, decide_eq_true h, Bool.or_true]
  rfl

/-- The first letter of a statement that controls a transaction. -/
theorem head_of_transactionPattern {c : Char} {k : String} {s : List Char}
    (hk : k.toList.head? = some c) (h : (transactionPattern [k]).Matches s) :
    s.head?.map GoText.foldRune = some (GoText.foldRune c) := by
  obtain ⟨⟨l, rest⟩, mem, -⟩ := Pattern.matches_bind.mp h
  rcases Pattern.mem_or.mp mem with mem | mem
  · obtain ⟨same, rfl⟩ := Pattern.mem_word.mp mem
    have heads : (Pattern.fold l).head? = (Pattern.fold k.toList).head? := congrArg _ same
    rw [Pattern.fold, Pattern.fold, head?_map, head?_map, hk] at heads
    cases l with
    | nil => cases heads
    | cons a l => exact heads
  · cases mem

theorem not_commit_of_rollback {s : List Char} (h : sessionRollbackPattern.Matches s) :
    ¬sessionCommitPattern.Matches s := by
  intro commit
  have r := head_of_transactionPattern (c := 'R') rfl h
  have c := head_of_transactionPattern (c := 'C') rfl commit
  rw [r] at c
  exact absurd c (by decide)

section

variable [GoFloat] {b : Backend} {key : String × String} {s s' : Server} {now : Time}
  {req : Request} {snapshot : GoMap String SessionTempTable}

theorem ownStep_of_control (control : sessionControl (trimSemicolon req.queryText))
    (read : CatalogRead s (executeQueryStatement b now s req).1) : OwnStep b now s req := by
  refine ⟨read, fun _ notControl => ?_⟩
  rw [control] at notControl
  cases notControl

/-- A request of the session that meets the condition, inside a transaction. -/
theorem own_step (reads : b.Reads) (session : key.2 ≠ "") (own : req.key = key)
    (inside : Inside (trimSemicolon req.queryText))
    (guarded : Guarded req.projectID (trimSemicolon req.queryText)) (isOpen : Open key snapshot s) :
    OwnStep b now s req ∧ Open key snapshot (executeQueryStatement b now s req).1 := by
  subst own
  have looked : CatalogRead s (req.looked now s) := .of_eq rfl rfl
  suffices goal : (CatalogRead s (executeQueryStatement b now s req).1 ∧
      (recognized req.projectID (trimSemicolon req.queryText) →
        sessionControl (trimSemicolon req.queryText) = false →
        ∃ err, (executeQueryStatement b now s req).2 = .error err)) ∧
      Open req.key snapshot (executeQueryStatement b now s req).1 from
    ⟨⟨goal.1.1, goal.1.2⟩, goal.2⟩
  refine executeQueryStatement_cases b now s session (motive := fun out => (CatalogRead s out.1 ∧
      (_ → _ → ∃ err, out.2 = .error err)) ∧ Open req.key snapshot out.1) (fun nothing r => ?_)
    (fun missing text => ?_) (fun r found s' result eq control => ?_) fun r found control => ?_
  · refine ⟨⟨.refl s, fun isMutation => ?_⟩, isOpen⟩
    rw [trimSemicolon_of_empty nothing, not_recognized_nil] at isMutation
    cases isMutation
  · refine ⟨⟨looked, fun _ _ => ⟨_, rfl⟩⟩, fun r there => ?_⟩
    rw [Request.key, SessionService.get_missing missing] at there
    cases there
  · obtain ⟨tx, found⟩ := isOpen.found found
    obtain ⟨read, isOpen'⟩ := executeInSession_inside reads now inside found tx
    rw [eq] at read isOpen'
    refine ⟨⟨looked.trans read, fun _ notControl => ?_⟩, isOpen'⟩
    rw [control] at notControl
    cases notControl
  · obtain ⟨tx, found⟩ := isOpen.found found
    have inTransaction : r.inTransaction := by
      rw [SessionRecord.inTransaction, tx]
      rfl
    obtain ⟨read, failed⟩ := executeTrimmed_inTransaction reads now (req.looked now s)
      inTransaction guarded
    refine ⟨⟨looked.trans read, fun isMutation _ => failed isMutation⟩, fun r there => ?_⟩
    rw [sessions_executeTrimmed fun _ => reads] at there
    exact found r there

/-- A request of another session, or of none, leaves the session alone. -/
theorem other_step (reads : asksInformationSchema (trimSemicolon req.queryText) → b.Reads)
    (other : req.key ≠ key) :
    (executeQueryStatement b now s req).1.sessions.sessions.get? key =
      s.sessions.sessions.get? key := by
  have ne : key ≠ (req.projectID, req.sessionID) := Ne.symm other
  by_cases session : req.sessionID = ""
  · rw [executeQueryStatement]
    split
    · rfl
    · dsimp only
      rw [sessions_executeTrimmed reads]
  · have looked := SessionService.get_ne s.sessions now ne
    refine executeQueryStatement_cases b now s session (motive := fun out =>
      out.1.sessions.sessions.get? key = s.sessions.sessions.get? key) (fun _ _ => rfl)
      (fun _ _ => looked) (fun r found s' result eq control => ?_) fun r found control => ?_
    · have kept := executeInSession_ne b now (req.looked now s) r
        (trimSemicolon req.queryText) ne
      rw [eq] at kept
      exact kept.trans looked
    · rw [sessions_executeTrimmed reads]
      exact looked

/-- A step of any client that meets the condition keeps the transaction open. -/
theorem open_step (reads : b.Reads) (session : key.2 ≠ "") {l : Label}
    (isOpen : Open key snapshot s) (guarded : l.Guarded key s) (h : step b s l = some s') :
    Open key snapshot s' := by
  cases l with
  | request now req =>
    cases h
    by_cases own : req.key = key
    · obtain ⟨inside, guarded⟩ := guarded own
      exact (own_step reads session own inside guarded isOpen).2
    · intro r there
      rw [other_step (fun _ => reads) own] at there
      exact isOpen r there
  | api change =>
    cases h
    exact isOpen

/-- `BEGIN` takes the snapshot. -/
theorem begin_step (session : key.2 ≠ "") (own : req.key = key)
    (begins : sessionBeginPattern.Matches (trimSemicolon req.queryText)) {r : PersistentSQLResult}
    (h : executeQueryStatement b now s req = (s', .ok r)) :
    CatalogRead s s' ∧
      ∃ r₀, s.sessions.sessions.get? key = some r₀ ∧ Open key r₀.tempTables s' := by
  subst own
  obtain ⟨r', found, eq⟩ := control_ok session (sessionControl_of_begin begins) h
  obtain ⟨⟨r₀, there, same, -⟩, stored⟩ := SessionService.get_found found
  rw [executeInSession, if_pos begins, SessionRecord.beginTransaction] at eq
  cases tx : r'.txSnapshot with
  | some snapshot =>
    rw [tx] at eq
    cases eq
  | none =>
    rw [tx] at eq
    cases eq
    refine ⟨.of_eq rfl rfl, r₀, there, fun r'' there'' => ?_⟩
    rw [Request.key, SessionService.store_self] at there''
    cases there''
    rw [same]

/-- `ROLLBACK` puts the snapshot back. -/
theorem rollback_step (session : key.2 ≠ "") (own : req.key = key)
    (rolls : sessionRollbackPattern.Matches (trimSemicolon req.queryText)) {r : PersistentSQLResult}
    (isOpen : Open key snapshot s) (h : executeQueryStatement b now s req = (s', .ok r)) :
    CatalogRead s s' ∧ ∃ r', s'.sessions.sessions.get? key = some r' ∧
      r'.tempTables = snapshot ∧ r'.txSnapshot = none := by
  subst own
  obtain ⟨r', found, eq⟩ := control_ok session (sessionControl_of_rollback rolls) h
  obtain ⟨tx, -⟩ := isOpen.found found
  rw [executeInSession, if_neg (not_commit_of_rollback rolls), if_pos rolls] at eq
  split at eq
  · rw [SessionRecord.beginTransaction, tx] at eq
    cases eq
  · rw [SessionRecord.rollbackTransaction, tx] at eq
    cases eq
    exact ⟨.of_eq rfl rfl, _, SessionService.store_self _ _ _ _, rfl, rfl⟩

/-- A transaction of the session `key` that is rolled back: `BEGIN` succeeds in `s`, the labels
in between meet the guard, and `ROLLBACK` succeeds and leads to `s'`. -/
inductive RolledBack (b : Backend) (guard : Server → Label → Prop) (key : String × String) :
    Server → List Label → Server → Prop where
  | intro {s u v s' : Server} {now now' : Time} {first last : Request} {between : List Label}
      {r r' : PersistentSQLResult} :
      key.2 ≠ "" →
      first.key = key → sessionBeginPattern.Matches (trimSemicolon first.queryText) →
      executeQueryStatement b now s first = (u, .ok r) →
      Exec (step b) guard u between v →
      last.key = key → sessionRollbackPattern.Matches (trimSemicolon last.queryText) →
      executeQueryStatement b now' v last = (s', .ok r') →
      RolledBack b guard key s (.request now first :: (between ++ [.request now' last])) s'

/-- The labels leave no trace of the session `key`: it has the temp tables it had, each of its
statements has only read the persistent catalog, and the mutating ones have failed. -/
structure NoTrace (b : Backend) (key : String × String) (s : Server) (labels : List Label)
    (s' : Server) : Prop where
  tempTables : ∃ r r', s.sessions.sessions.get? key = some r ∧
    s'.sessions.sessions.get? key = some r' ∧ r'.tempTables = r.tempTables ∧ r'.txSnapshot = none
  own : ∀ before now req after u, labels = before ++ .request now req :: after → req.key = key →
    Exec (step b) (fun _ _ => True) s before u → OwnStep b now u req
  alone : (∀ l ∈ labels, l.Own key) → CatalogRead s s'

/-- Inside the transaction, each statement of the session only reads. -/
theorem ownStep_between (reads : b.Reads) (session : key.2 ≠ "") {u w : Server}
    {before after : List Label} (isOpen : Open key snapshot u)
    (run : Exec (step b) (Label.Guarded key) u (before ++ .request now req :: after) v)
    (own : req.key = key) (here : Exec (step b) (fun _ _ => True) u before w) :
    OwnStep b now w req := by
  obtain ⟨w', first, rest⟩ := run.split
  cases here.deterministic (first.mono fun _ _ _ => trivial)
  have isOpen := first.invariant (fun _ _ _ => open_step reads session) isOpen
  cases rest with
  | cons guarded _ _ =>
    obtain ⟨inside, guarded⟩ := guarded own
    exact (own_step reads session own inside guarded isOpen).1

/-- Statements of the session alone only read the catalog. -/
theorem catalogRead_between (reads : b.Reads) (session : key.2 ≠ "") {u : Server}
    {labels : List Label} (isOpen : Open key snapshot u)
    (run : Exec (step b) (Label.Guarded key) u labels v) (alone : ∀ l ∈ labels, l.Own key) :
    CatalogRead u v := by
  induction run with
  | nil => exact .refl _
  | @cons u t v l labels guarded stepped rest ih =>
    obtain ⟨own, alone⟩ := forall_mem_cons.mp alone
    have read : CatalogRead u t := by
      cases l with
      | request now req =>
        cases stepped
        obtain ⟨inside, guarded⟩ := guarded own
        exact (own_step reads session own inside guarded isOpen).1.read
      | api change => cases own
    exact read.trans (ih (open_step reads session isOpen guarded stepped) alone)

end

/-! ## Two transactions -/

attribute [local instance] GoFloat.texts

theorem emptyEngine_reads : emptyEngine.Reads where
  query _ _ _ _ _ := .refl
  informationSchema s _ _ _ _ _ := .refl s
  sessions _ _ _ _ _ _ := rfl

/-- A text of the session `s1` of the project `p`. -/
def inSession (text : String) : Request where
  projectID := "p"
  sessionID := "s1"
  queryText := text.toList

/-- A server with the session `s1`. -/
def oneSession : Server where
  sessions := { sessions := (∅ : GoMap _ _).set ("p", "s1") { lastUsedAt := 0 } }

/-- The state after a text of the session. -/
def send (now : Time) (text : String) (s : Server) : Server :=
  (executeQueryStatement emptyEngine now s (inSession text)).1

/-- `BEGIN` and `ROLLBACK` around some texts of the session. -/
theorem rolledBack_of_run {guard : Server → Label → Prop} {between : List Label} (now : Time)
    (run : Exec (step emptyEngine) guard (send 0 "BEGIN" oneSession) between v)
    (rolled : (executeQueryStatement emptyEngine now v (inSession "ROLLBACK")).2 =
      .ok (sessionControlResult "ROLLBACK TRANSACTION")) :
    RolledBack emptyEngine guard ("p", "s1") oneSession
      (.request 0 (inSession "BEGIN") :: (between ++ [.request now (inSession "ROLLBACK")]))
      (send now "ROLLBACK" v) := by
  have began : (executeQueryStatement emptyEngine 0 oneSession (inSession "BEGIN")).2 =
      .ok (sessionControlResult "BEGIN TRANSACTION") := by decide +kernel
  exact .intro (by decide) rfl (by decide +kernel) (Prod.ext rfl began) run rfl (by decide +kernel)
    (Prod.ext rfl rolled)

/-- A temp table is created, and a text tries to insert into a persistent table. -/
def insertLabels : List Label :=
  [.request 1 (inSession "CREATE TEMP TABLE t AS SELECT 1"),
   .request 2 (inSession "INSERT INTO ds.orders VALUES (1)")]

end LocaQL.Sql
