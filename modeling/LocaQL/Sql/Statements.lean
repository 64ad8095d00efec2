import LocaQL.Sql.Patterns

/-!
# Recognizing statements

The parsers of the statements that change the catalog or a session, and
`isMutatingOrSessionControlStatement`, which asks each of them.  A parser that does not
recognize a text returns `none` (the source's `handled = false`); one that recognizes it
returns the statement or the reason it is refused.
-/

namespace LocaQL.Sql

open GoText

open Pattern

/-- `statementType` of a result. -/
inductive StatementType where
  | insert
  | update
  | delete
  | merge
  | truncateTable
  | createTable
  | dropTable
  | createView
  | createMaterializedView
  | dropView
  | dropMaterializedView
  | createSchema
  | alterTable
  | script
  | select
deriving Repr, DecidableEq

/-! ## Leading comments -/

/-- The loop of `trimLeadingSQLComments`; a round removes at least two characters. -/
def skipComments : Nat → List Char → List Char
  | 0, s => s
  | n + 1, s =>
    match s with
    | '-' :: '-' :: t =>
      match cutAfter ['\n'] t with
      | none => []
      | some rest => skipComments n (trimSpace rest)
    | '/' :: '*' :: t =>
      match cutAfter ['*', '/'] t with
      | none => s
      | some rest => skipComments n (trimSpace rest)
    | _ => s

def trimLeadingSQLComments (queryText : List Char) : List Char :=
  skipComments queryText.length (trimSpace queryText)

/-- `strings.TrimSpace(strings.TrimSuffix(strings.TrimSpace(s), ";"))`. -/
def trimSemicolon (s : List Char) : List Char :=
  trimSpace (trimSuffixChar (trimSpace s) ';')

/-- The text that the parsers look at. -/
def statementText (queryText : List Char) : List Char :=
  trimSemicolon (trimLeadingSQLComments queryText)

/-! ## Targets -/

def parsePersistentTarget (defaultProjectID : String) (raw : List Char) :
    Result TableReference :=
  let parts := ((trimSpace raw).splitOn '.').map fun p =>
    String.ofList (trimChar (trimSpace p) '\x60')
  match parts with
  | [datasetID, tableID] => .ok ⟨defaultProjectID, datasetID, tableID⟩
  | [projectID, datasetID, tableID] => .ok ⟨projectID, datasetID, tableID⟩
  | _ =>
    let text := quote (String.ofList raw)
    fail s!"invalid DDL/DML target {text}: expected dataset.table or project.dataset.table"

/-! ## Table statements -/

/-- `persistentSQLStatement`. -/
structure PersistentSQLStatement where
  statementType : StatementType
  target : TableReference
  dml : Bool
  create : Bool
  drop : Bool
  ifExists : Bool
  ifNotExists : Bool
  orReplace : Bool
deriving Repr, DecidableEq

/-- `candidate`. -/
structure Candidate where
  pattern : Pattern Heading
  statementType : StatementType
  dml : Bool
  create : Bool
  drop : Bool

def candidates : List Candidate :=
  [⟨insertTargetPattern, .insert, true, false, false⟩,
   ⟨updateTargetPattern, .update, true, false, false⟩,
   ⟨deleteTargetPattern, .delete, true, false, false⟩,
   ⟨mergeTargetPattern, .merge, true, false, false⟩,
   ⟨truncateTargetPattern, .truncateTable, true, false, false⟩,
   ⟨createTargetPattern, .createTable, false, true, false⟩,
   ⟨dropTargetPattern, .dropTable, false, false, true⟩]

/-- What a candidate makes of a text that its pattern matches. -/
def Candidate.parse (c : Candidate) (projectID : String) (stmt : List Char) :
    Option (Result PersistentSQLStatement) :=
  match c.pattern.find stmt with
  | none => none
  | some m => some do
      let target ← parsePersistentTarget projectID m.1.target
      pure
        { statementType := c.statementType
          target := target
          dml := c.dml
          create := c.create
          drop := c.drop
          orReplace := m.1.orReplace
          ifNotExists := m.1.ifNotExists
          ifExists := m.1.ifExists }

def parsePersistentSQLStatement (projectID : String) (queryText : List Char) :
    Option (Result PersistentSQLStatement) :=
  let stmt := statementText queryText
  match candidates.findSome? fun c => c.parse projectID stmt with
  | some parsed => some parsed
  | none =>
    if persistentLeadPattern.Matches stmt then
      some (fail ("unsupported DDL/DML target syntax; use dataset.table or " ++
        "project.dataset.table, with backticks either around the whole identifier or " ++
        "around each segment"))
    else if unsupportedMutationLeadPattern.Matches stmt then
      some (fail ("unsupported persistent SQL statement; supported single-statement " ++
        "mutations are INSERT, UPDATE, DELETE, MERGE, TRUNCATE TABLE, " ++
        "CREATE [OR REPLACE] TABLE [AS SELECT], and DROP TABLE"))
    else none

/-! ## Views -/

/-- `persistentViewStatement`. -/
structure PersistentViewStatement where
  target : TableReference
  materialized : Bool
  orReplace : Bool := false
  ifNotExists : Bool := false
  ifExists : Bool := false
  drop : Bool := false
  selectBody : List Char := []
deriving Repr, DecidableEq

/-- The text behind the parenthesis that closes the first one, if there is one. -/
def closeParen : Nat → List Char → Option (List Char)
  | _, [] => none
  | depth, c :: s =>
    if c == '(' then closeParen (depth + 1) s
    else if c == ')' then if depth = 1 then some s else closeParen (depth - 1) s
    else closeParen depth s

/-- `stripLeadingOptionsClause`.  The source compares the first seven bytes, so only
ASCII letters are equal to those of the word. -/
def stripLeadingOptionsClause (text : List Char) : List Char :=
  let lower (c : Char) : Char := if isUpper c then lowerRune c else c
  let trimmed := trimSpace text
  if (trimmed.take 7).map lower = "options".toList then
    let rest := trimSpace (trimmed.drop 7)
    if rest.head? = some '(' then
      match closeParen 0 rest with
      | some tail => trimSpace tail
      | none => text
    else text
  else text

def parsePersistentViewStatement (projectID : String) (queryText : List Char) :
    Option (Result PersistentViewStatement) :=
  let stmt := statementText queryText
  match dropViewTargetPattern.find stmt with
  | some m => some do
      let target ← parsePersistentTarget projectID m.1.target
      pure
        { target := target
          materialized := m.1.materialized
          ifExists := m.1.ifExists
          drop := true }
  | none =>
    match createViewTargetPattern.find stmt with
    | none => none
    | some m => some do
        let target ← parsePersistentTarget projectID m.1.target
        let rest := stripLeadingOptionsClause (trimSpace m.2)
        match viewAsClausePattern.find rest with
        | none =>
          fail ("invalid CREATE VIEW statement: expected AS <select> after the view " ++
            "name/options")
        | some asMatch =>
          pure
            { target := target
              materialized := m.1.materialized
              orReplace := m.1.orReplace
              ifNotExists := m.1.ifNotExists
              selectBody := trimSpace asMatch.1 }

/-! ## Datasets -/

/-- `parseCreateSchemaStatement`: the dataset and whether `IF NOT EXISTS` is there. -/
def parseCreateSchemaStatement (queryText : List Char) : Option (String × Bool) :=
  (createSchemaTargetPattern.find (statementText queryText)).map fun m =>
    (String.ofList m.1.target, m.1.ifNotExists)

/-! ## `ALTER TABLE` -/

/-- `alterTableLead`. -/
structure AlterTableLead where
  target : TableReference
  ifExists : Bool
  rest : List Char

def matchAlterTableLead (projectID : String) (queryText : List Char) :
    Option (Result AlterTableLead) :=
  match alterTableTargetPattern.find (statementText queryText) with
  | none => none
  | some m => some do
      let target ← parsePersistentTarget projectID m.1.1.target
      pure { target := target, ifExists := m.1.1.ifExists, rest := trimSpace m.1.2 }

/-- The statement of one kind of `ALTER TABLE`, with its parsed action. -/
structure AlterTable (α : Type) where
  target : TableReference
  ifExists : Bool
  action : α

/-- The common shape of the parsers of `ALTER TABLE`: `action` reads the part behind the
target, and does not recognize it with `none`. -/
def parseAlterTable {α : Type} (action : List Char → Option α) (projectID : String)
    (queryText : List Char) : Option (Result (AlterTable α)) :=
  match matchAlterTableLead projectID queryText with
  | none => none
  | some (.error err) => some (.error err)
  | some (.ok lead) =>
    (action lead.rest).map fun a =>
      .ok { target := lead.target, ifExists := lead.ifExists, action := a }

/-- Actions separated by commas, every one of which must be recognized. -/
def clauses {α : Type} (p : Pattern α) (rest : List Char) : Option (List α) :=
  (rest.splitOn ',').mapM fun clause => (p.find (trimSpace clause)).map (·.1)

def normalizeAlterTableColumnType (t : String) : String :=
  let upper := toUpperStr t
  if upper = "BOOLEAN" then "BOOL"
  else if upper = "INTEGER" then "INT64"
  else if upper = "FLOAT" then "FLOAT64"
  else upper

/-- `alterTableAddColumnClause`. -/
structure AddColumnClause where
  field : TableField
  ifNotExists : Bool

/-- `alterTableDropColumnClause`. -/
structure DropColumnClause where
  name : String
  ifExists : Bool

/-- `alterTableRenameColumnClause`. -/
structure RenameColumnClause where
  oldName : String
  newName : String
  ifExists : Bool

def addColumnClauses (rest : List Char) : Option (List AddColumnClause) :=
  (clauses addColumnClausePattern rest).map fun cs => cs.map fun c =>
    { field :=
        { name := String.ofList c.2.1
          type := normalizeAlterTableColumnType (String.ofList c.2.2)
          mode := "NULLABLE" }
      ifNotExists := c.1 }

def dropColumnClauses (rest : List Char) : Option (List DropColumnClause) :=
  (clauses dropColumnClausePattern rest).map fun cs => cs.map fun c =>
    { name := String.ofList c.2, ifExists := c.1 }

def renameColumnClauses (rest : List Char) : Option (List RenameColumnClause) :=
  (clauses renameColumnClausePattern rest).map fun cs => cs.map fun c =>
    { oldName := String.ofList c.2.1, newName := String.ofList c.2.2, ifExists := c.1 }

def renameTo (rest : List Char) : Option String :=
  (renameTableToPattern.find rest).map fun m => String.ofList m.1

def setOptions (rest : List Char) : Option Unit :=
  if setOptionsLeadPattern.Matches rest then
    let afterSet := trimSpace (dropBytes 3 rest)
    if trimSpace (stripLeadingOptionsClause afterSet) = [] then some () else none
  else none

def parsePersistentAlterTableAddColumns := parseAlterTable addColumnClauses

def parsePersistentAlterTableDropColumns := parseAlterTable dropColumnClauses

def parsePersistentAlterTableRenameColumns := parseAlterTable renameColumnClauses

def parsePersistentAlterTableRenameTo := parseAlterTable renameTo

def parsePersistentAlterTableSetOptions := parseAlterTable setOptions

def isPersistentAlterTableStatement (projectID : String) (queryText : List Char) : Bool :=
  (parsePersistentAlterTableAddColumns projectID queryText).isSome ||
  (parsePersistentAlterTableDropColumns projectID queryText).isSome ||
  (parsePersistentAlterTableRenameColumns projectID queryText).isSome ||
  (parsePersistentAlterTableRenameTo projectID queryText).isSome ||
  (parsePersistentAlterTableSetOptions projectID queryText).isSome

/-! ## The classification -/

/-- Whether a text is one of the statements that control a session. -/
def sessionControl (trimmed : List Char) : Bool :=
  sessionBeginPattern.Matches trimmed || sessionCommitPattern.Matches trimmed ||
  sessionRollbackPattern.Matches trimmed || sessionCreateTempTablePattern.Matches trimmed

def isMutatingOrSessionControlStatement (projectID : String) (queryText : List Char) : Bool :=
  (parsePersistentSQLStatement projectID queryText).isSome ||
  (parsePersistentViewStatement projectID queryText).isSome ||
  (parseCreateSchemaStatement queryText).isSome ||
  isPersistentAlterTableStatement projectID queryText ||
  sessionControl (trimSemicolon queryText)

end LocaQL.Sql
