import LocaQL.Sql.Classification
import LocaQL.Sql.Server

/-!
# A mutating statement is not answered as a read

The dispatcher tries `INFORMATION_SCHEMA` before the executors of the statements that change
the catalog, so a mutating text that mentions one of its views is answered with the view's
rows.  `notRead_iff` says that this is the only way in which a text that is classified as
mutating gets the answer of a query.

Without a session, a text such as `START` is classified by the session's patterns while no
executor takes it; it reaches the engine, which is assumed to reject the statements that
control a transaction.
-/

namespace LocaQL.Sql

/-! ## What executors answer -/

/-- An executor that takes the texts it recognizes, and does not answer them as a query. -/
structure Outcome.Mutates (recognized : Bool) (o : Outcome) : Prop where
  taken : o.2.isSome = recognized
  ne_select : ∀ r, o.2 = some (.ok r) → r.statementType ≠ .select

namespace Outcome

section

variable (s : Server)

theorem mutates_pass : (pass s).Mutates false := ⟨rfl, nofun⟩

theorem mutates_error (err : Failure) : Mutates true (s, some (.error err)) :=
  ⟨rfl, nofun⟩

theorem mutates_refuse (text : String) : (refuse s text).Mutates true :=
  ⟨rfl, nofun⟩

variable {t : StatementType}

/-- An answer of a fixed type. -/
theorem mutates_map {β : Type} (h : t ≠ .select) (result : Result β) {f : β → PersistentSQLResult}
    (type : ∀ x, (f x).statementType = t) : Mutates true (s, some (result.map f)) := by
  refine ⟨rfl, fun r eq => ?_⟩
  cases result with
  | error err => cases eq
  | ok x =>
    cases eq
    rw [type]
    exact h

theorem mutates_done (h : t ≠ .select) : (done s t).Mutates true := by
  refine ⟨rfl, fun r eq => ?_⟩
  cases eq
  exact h

theorem mutates_commit (h : t ≠ .select) (result : TableService × Result Unit) :
    (commit s t result).Mutates true :=
  mutates_map _ h result.2 fun _ => rfl

end

theorem mutates_orElse {o : Outcome} {next : Server → Outcome} {first second : Bool}
    (h : o.Mutates first) (hnext : ∀ s, (next s).Mutates second) :
    (orElse o next).Mutates (first || second) := by
  rw [orElse]
  split
  next taken =>
    have : first = true := by rw [← h.taken, taken]; rfl
    rw [this, Bool.true_or]
    exact ⟨by rw [taken]; rfl, h.ne_select⟩
  next none =>
    have : first = false := by rw [← h.taken, none]; rfl
    rw [this, Bool.false_or]
    exact hnext _

theorem mutates_controlSession (s : Server) (p id msg : String) (changed : Result SessionRecord) :
    (controlSession s p id msg changed).Mutates true := by
  cases changed with
  | error err => exact mutates_error s err
  | ok r =>
    refine ⟨rfl, fun r eq => ?_⟩
    cases eq
    exact StatementType.noConfusion

end Outcome

open Outcome

theorem mutates_executeInSession (b : Backend) (now : Time) (s : Server) (p id : String)
    (r : SessionRecord) (stmt : List Char) :
    (executeInSession b now s p id r stmt).Mutates (sessionControl stmt) := by
  rw [executeInSession, sessionControl]
  split_ifs with isBegin isCommit isRollback
  · rw [decide_eq_true isBegin, Bool.true_or, Bool.true_or, Bool.true_or]
    exact mutates_controlSession ..
  · rw [decide_eq_true isCommit, Bool.or_true, Bool.true_or, Bool.true_or]
    exact mutates_controlSession ..
  · rw [decide_eq_true isRollback, Bool.or_true, Bool.true_or]
    exact mutates_controlSession ..
  · rw [decide_eq_false isBegin, decide_eq_false isCommit, decide_eq_false isRollback,
      Bool.false_or, Bool.false_or, Bool.false_or]
    split
    next none =>
      rw [decide_eq_false (Pattern.not_matches_of_find none)]
      exact mutates_pass s
    next m found =>
      rw [decide_eq_true (Pattern.matches_of_find found)]
      dsimp only
      split
      · exact mutates_refuse ..
      · exact mutates_error ..
      · exact mutates_controlSession ..

theorem PersistentViewStatement.type_ne_select (stmt : PersistentViewStatement) :
    stmt.type ≠ .select := by
  rw [PersistentViewStatement.type]
  split <;> exact StatementType.noConfusion

theorem mutates_createSchema (s : Server) (p : String) (q : List Char) :
    (executePersistentCreateSchemaStatement s p q).Mutates
      (parseCreateSchemaStatement q).isSome := by
  have type : StatementType.createSchema ≠ .select := StatementType.noConfusion
  rw [executePersistentCreateSchemaStatement]
  cases parseCreateSchemaStatement q with
  | none => exact mutates_pass s
  | some stmt =>
    dsimp only
    split_ifs
    · exact mutates_done _ type
    · exact mutates_refuse ..
    · exact mutates_done _ type
    · exact mutates_refuse ..

variable {p : String} {q : List Char} {b : Backend} {now : Time} {s : Server}

theorem type_of_parse {stmt : PersistentSQLStatement}
    (h : parsePersistentSQLStatement p q = some (.ok stmt)) : stmt.statementType ≠ .select := by
  have type : ∀ c ∈ candidates, c.statementType ≠ .select := by decide
  rw [parsePersistentSQLStatement] at h
  split at h
  next parsed found =>
    obtain rfl := Option.some.inj h
    obtain ⟨c, mem, parse⟩ := List.exists_of_findSome?_eq_some found
    rw [Candidate.parse] at parse
    split at parse
    · cases parse
    next m _ =>
      cases target : parsePersistentTarget p m.1.target with
      | error err =>
        rw [target] at parse
        cases parse
      | ok ref =>
        rw [target] at parse
        cases parse
        exact type c mem
  · split at h
    · cases h
    · split at h
      · cases h
      · cases h

theorem executeSessionControl_missing {id : String} {stmt : List Char}
    (h : (s.sessions.get now p id).2 = none) :
    executeSessionControlStatement b now s p id stmt =
      (.refuse { s with sessions := (s.sessions.get now p id).1 }
        s!"session not found or expired: {id}", none) := by
  rw [executeSessionControlStatement]
  dsimp only
  rw [h]

theorem executeSessionControl_found (b : Backend) {id : String} (stmt : List Char)
    {r : SessionRecord} (h : (s.sessions.get now p id).2 = some r) :
    executeSessionControlStatement b now s p id stmt =
      (executeInSession b now { s with sessions := (s.sessions.get now p id).1 } p id r stmt,
        some r) := by
  rw [executeSessionControlStatement]
  dsimp only
  rw [h]

theorem trimSemicolon_of_empty (empty : GoText.trimSpace q = []) : trimSemicolon q = [] := by
  rw [trimSemicolon, empty]
  rfl

/-- A query text that is classified is not empty. -/
theorem trimSpace_ne_nil (h : isMutatingOrSessionControlStatement p q) :
    GoText.trimSpace q ≠ [] := by
  intro empty
  have trimmed := trimSemicolon_of_empty empty
  have text : statementText q = [] := by
    rw [statementText, trimLeadingSQLComments, empty, skipComments_nil]
    rfl
  rw [isMutating_iff, trimmed, text] at h
  rcases h with led | (⟨ks, -, drop⟩ | ⟨ks, -, create⟩) | control
  · obtain ⟨c, t, eq, -⟩ := led.head
    cases eq
  · exact not_matches_lead_nil not_matches_lastTarget_nil drop
  · exact not_matches_lead_nil Robust.target.nonempty create
  · exact absurd control (by unfold TransactionControl; decide)

/-- Whether one of the parsers recognizes the text. -/
def recognized (projectID : String) (q : List Char) : Bool :=
  (parsePersistentViewStatement projectID q).isSome ||
    ((parseCreateSchemaStatement q).isSome ||
      (isPersistentAlterTableStatement projectID q ||
        (parsePersistentSQLStatement projectID q).isSome))

/-- A text that the classification accepts is accepted without its last semicolon too. -/
theorem recognized_trimSemicolon (h : isMutatingOrSessionControlStatement p q) :
    recognized p (trimSemicolon q) ∨ TransactionControl (trimSemicolon q) := by
  have sql {s : List Char} (led : Led leads (statementText s)) : recognized p s := by
    rw [recognized, parsePersistentSQLStatement_isSome.mpr led]
    simp only [Bool.or_true]
  rcases isMutating_iff.mp h with led | view | control
  · refine .inl (sql ?_)
    rwa [statementText_trimSemicolon, led_trimSemicolon (trimmed_statementText q)]
  · have view := viewStatement_trimSemicolon (trimmed_statementText q) view
    rw [← statementText_trimSemicolon] at view
    rw [recognized, parsePersistentViewStatement_isSome.mpr view]
    exact .inl (Bool.true_or _)
  · exact .inr control

section

variable (b : Backend) (now : Time) (s : Server) (p email : String)

theorem not_taken_informationSchema (h : asksInformationSchema q = false) :
    (simulateInformationSchemaQuery b now s p q email).2 = none := by
  rw [simulateInformationSchemaQuery]
  rw [asksInformationSchema] at h
  split
  · rfl
  next found =>
    rw [found, Option.any_some, decide_eq_false_iff_not] at h
    dsimp only
    rw [if_neg h]
    rfl

/-- A text that mentions a view is answered as a query, whatever it says. -/
theorem select_of_informationSchema (h : asksInformationSchema q) :
    ∃ r, (simulateInformationSchemaQuery b now s p q email).2 = some (.ok r) ∧
      r.statementType = .select := by
  rw [simulateInformationSchemaQuery]
  rw [asksInformationSchema] at h
  split
  next none =>
    rw [none] at h
    cases h
  next found =>
    rw [found, Option.any_some, decide_eq_true_iff] at h
    dsimp only
    rw [if_pos h]
    exact ⟨_, rfl, rfl⟩

end

section Executors

variable [GoFloat] {req : Request}

theorem mutates_view (b : Backend) (now : Time) (s : Server) (p : String) (q : List Char)
    (sess : Option SessionRecord) :
    (executePersistentViewStatement b now s p q sess).Mutates
      (parsePersistentViewStatement p q).isSome := by
  rw [executePersistentViewStatement]
  rcases parsePersistentViewStatement p q with _ | err | stmt
  · exact mutates_pass s
  · exact mutates_error ..
  change Outcome.Mutates true _
  have type := stmt.type_ne_select
  dsimp only
  split_ifs
  · exact mutates_refuse ..
  · exact mutates_refuse ..
  · unfold dropView
    split
    · split_ifs
      · exact mutates_done _ type
      · exact mutates_refuse ..
    · split_ifs
      · exact mutates_refuse ..
      · exact mutates_commit _ type _
  · rw [createView]
    dsimp only
    split_ifs
    · exact mutates_done _ type
    · exact mutates_refuse ..
    · exact mutates_refuse ..
    · split
      · exact mutates_refuse ..
      · exact mutates_error ..
      · split
        · exact mutates_commit _ type _
        · split_ifs
          · exact mutates_done _ type
          · exact mutates_refuse ..

theorem mutates_executeAlterTable {α : Type} (now : Time) (s : Server) (p : String)
    (parsed : Option (Result (AlterTable α))) (refusesViews : Bool)
    (change : TableService → TableReference → TableRecord → α → TableService × Result Unit) :
    (executeAlterTable now s p parsed refusesViews change).Mutates parsed.isSome := by
  have type : StatementType.alterTable ≠ .select := StatementType.noConfusion
  unfold executeAlterTable
  split
  · exact mutates_pass s
  · exact mutates_error ..
  dsimp only
  split
  · exact mutates_refuse ..
  split
  · split_ifs
    · exact mutates_done _ type
    · exact mutates_refuse ..
  · split_ifs
    · exact mutates_refuse ..
    · exact mutates_commit _ type _

theorem mutates_alterTable (now : Time) (s : Server) (p : String) (q : List Char) :
    (executePersistentAlterTableStatement now s p q).Mutates
      (isPersistentAlterTableStatement p q) := by
  rw [isPersistentAlterTableStatement]
  simp only [Bool.or_assoc]
  refine mutates_orElse (mutates_executeAlterTable ..) fun s => ?_
  refine mutates_orElse (mutates_executeAlterTable ..) fun s => ?_
  refine mutates_orElse (mutates_executeAlterTable ..) fun s => ?_
  exact mutates_orElse (mutates_executeAlterTable ..) fun s => mutates_executeAlterTable ..

section

variable (b : Backend) (now : Time) (s : Server)

section

variable (p : String) (q : List Char) (sess : Option SessionRecord)

theorem mutates_sql :
    (executePersistentSQLStatement b now s p q sess).Mutates
      (parsePersistentSQLStatement p q).isSome := by
  rw [executePersistentSQLStatement]
  rcases parsed : parsePersistentSQLStatement p q with _ | err | stmt
  · exact mutates_pass s
  · exact mutates_error ..
  change Outcome.Mutates true _
  have type := type_of_parse parsed
  dsimp only
  split_ifs
  · exact mutates_refuse ..
  · exact mutates_refuse ..
  · exact mutates_refuse ..
  · exact mutates_refuse ..
  · rw [runStatement]
    split_ifs
    · unfold dropTable
      split
      · split_ifs
        · exact mutates_done _ type
        · exact mutates_refuse ..
      · split_ifs
        · exact mutates_refuse ..
        · exact mutates_commit _ type _
    · exact mutates_done _ type
    all_goals
      split
      · exact mutates_error ..
      dsimp only
      split
      · exact mutates_error ..
      · exact mutates_map _ type _ fun _ => rfl

/-! ## The dispatch -/

/-- The executors of the statements that change the catalog, in their order. -/
def executeMutation (b : Backend) (now : Time) (projectID : String) (trimmed : List Char)
    (sess : Option SessionRecord) (s : Server) : Outcome :=
  orElse (executePersistentViewStatement b now s projectID trimmed sess) fun s =>
  orElse (executePersistentCreateSchemaStatement s projectID trimmed) fun s =>
  orElse (executePersistentAlterTableStatement now s projectID trimmed) fun s =>
  executePersistentSQLStatement b now s projectID trimmed sess

theorem mutates_executeMutation : (executeMutation b now p q sess s).Mutates (recognized p q) :=
  mutates_orElse (mutates_view b now s p q sess) fun s =>
    mutates_orElse (mutates_createSchema s p q) fun s =>
      mutates_orElse (mutates_alterTable now s p q) fun s => mutates_sql b now s p q sess

end

theorem executeTrimmed_eq (req : Request) (trimmed : List Char) (sess : Option SessionRecord) :
    executeTrimmed b now s req trimmed sess =
      match orElse
          (simulateInformationSchemaQuery b now s req.projectID trimmed req.callingUserEmail)
          (executeMutation b now req.projectID trimmed sess) with
      | (s, some result) => (s, result)
      | (s, none) => executeRealSQLQuery b now s req.projectID trimmed sess := rfl

end

/-! ## Reads and writes -/

/-- The session is missing, or the text is one of its own statements. -/
def SessionTakes (now : Time) (s : Server) (req : Request) : Prop :=
  req.sessionID ≠ "" ∧
    ((s.sessions.get now req.projectID req.sessionID).2 = none ∨
      sessionControl (trimSemicolon req.queryText))

/-- The engine does not run a statement that controls a transaction. -/
def Backend.RejectsTransactionControl (b : Backend) : Prop :=
  ∀ tables now projectID q sess, TransactionControl q →
    ∃ err, (b.query tables now projectID q sess).2 = .error err

/-- The outcome is that of session control or of an executor of mutating statements. -/
def Performed (b : Backend) (now : Time) (req : Request)
    (out : Server × Result PersistentSQLResult) : Prop :=
  let trimmed := trimSemicolon req.queryText
  ∃ s, (executeSessionControlStatement b now s req.projectID req.sessionID trimmed).1 =
        (out.1, some out.2) ∨
    ∃ sess, executeMutation b now req.projectID trimmed sess s = (out.1, some out.2)

/-- An answer that is not that of a query: the statement failed, or it was performed. -/
def NotRead (b : Backend) (now : Time) (req : Request)
    (out : Server × Result PersistentSQLResult) : Prop :=
  (∃ err, out.2 = .error err) ∨
    ∃ r, out.2 = .ok r ∧ r.statementType ≠ .select ∧ Performed b now req out

/-- What an executor of mutating statements answers is not a read. -/
theorem notRead_of_taken {o : Outcome} {rec : Bool} {result : Result PersistentSQLResult}
    (mutates : o.Mutates rec) (taken : o.2 = some result)
    (performed : Performed b now req (o.1, result)) : NotRead b now req (o.1, result) := by
  cases result with
  | error err => exact .inl ⟨err, rfl⟩
  | ok r => exact .inr ⟨r, rfl, mutates.ne_select r taken, performed⟩

theorem notRead_executeTrimmed (rejects : b.RejectsTransactionControl) {sess : Option SessionRecord}
    (mutating : isMutatingOrSessionControlStatement req.projectID req.queryText)
    (asks : asksInformationSchema (trimSemicolon req.queryText) = false) :
    NotRead b now req (executeTrimmed b now s req (trimSemicolon req.queryText) sess) := by
  have pass := not_taken_informationSchema b now s req.projectID req.callingUserEmail asks
  rw [executeTrimmed_eq, orElse, pass]
  generalize (simulateInformationSchemaQuery _ _ _ _ _ _).1 = s'
  have mutates := mutates_executeMutation b now s' req.projectID (trimSemicolon req.queryText) sess
  obtain ⟨⟨s'', answer⟩, eq⟩ :
    ∃ o, executeMutation b now req.projectID (trimSemicolon req.queryText) sess s' = o := ⟨_, rfl⟩
  rw [eq] at mutates
  dsimp only
  rw [eq]
  cases answer with
  | some result => exact notRead_of_taken mutates rfl ⟨s', .inr ⟨sess, eq⟩⟩
  | none =>
    -- no executor takes it, so it controls a transaction, and the engine rejects it
    rcases recognized_trimSemicolon mutating with taken | control
    · rw [← mutates.taken] at taken
      cases taken
    · obtain ⟨err, failed⟩ := rejects s''.tables now req.projectID _ sess control
      refine .inl ⟨err, ?_⟩
      dsimp only
      rw [executeRealSQLQuery]
      dsimp only
      rw [failed]
      rfl

theorem not_notRead_executeTrimmed {sess : Option SessionRecord} {trimmed : List Char}
    (asks : asksInformationSchema trimmed) :
    ¬NotRead b now req (executeTrimmed b now s req trimmed sess) := by
  obtain ⟨r, answer, select⟩ := select_of_informationSchema b now s req.projectID
    req.callingUserEmail asks
  have eq : simulateInformationSchemaQuery b now s req.projectID trimmed req.callingUserEmail =
      (_, some (.ok r)) := Prod.ext rfl answer
  rw [executeTrimmed_eq, orElse, answer]
  dsimp only
  rw [eq]
  rintro (⟨err, failed⟩ | ⟨r', succeeded, type, -⟩)
  · cases failed
  · cases succeeded
    exact type select

end Executors

/-! ## A read where a write was asked for -/

attribute [local instance] GoFloat.texts

/-- An engine that rejects the control of transactions and finds no rows. -/
def emptyEngine : Backend where
  query tables _ _ q _ :=
    (tables,
      if sessionBeginPattern.Matches q ∨ sessionCommitPattern.Matches q ∨
          sessionRollbackPattern.Matches q then fail "Statement not supported"
      else .ok ([], [], 0))
  exec tables _ _ _ _ _ := (tables, .ok ⟨[], [], [], 0, 0⟩)
  informationSchema s _ _ _ _ _ := (s, [], [])

theorem emptyEngine_rejects : emptyEngine.RejectsTransactionControl := by
  intro tables now projectID q sess control
  exact ⟨.error "Statement not supported", if_pos control⟩

/-- A deletion, without a session. -/
def deleteRequest : Request where
  projectID := "p"
  queryText := "DELETE FROM ds.orders WHERE id = 1;".toList

/-- An insertion of what a view of `INFORMATION_SCHEMA` lists. -/
def insertTables : Request where
  projectID := "p"
  queryText := "INSERT INTO ds.names SELECT table_name FROM ds.INFORMATION_SCHEMA.TABLES".toList

end LocaQL.Sql
