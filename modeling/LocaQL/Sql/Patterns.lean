import LocaQL.Lib.Regex
import LocaQL.Catalog.Types

/-!
# The patterns of statements

The regular expressions by which statements are recognized, written with the
combinators of `Lib.Regex`.  Every one of them has the flag `i`; those with a dot have the
flag `s` too.  A group `(OR\s+REPLACE\s+)?` is captured as whether it took part in the
match, which is how the source reads it.
-/

namespace LocaQL.Sql

open Pattern

/-- The class of `\s`. -/
def isWhite (c : Char) : Bool :=
  c == ' ' || c == '\t' || c == '\n' || c == '\x0c' || c == '\r'

def isDigit (c : Char) : Bool := '0' ≤ c && c ≤ '9'

/-- The class `[A-Za-z]` under the flag `i`. -/
def isLetter (c : Char) : Bool := GoText.isLower (GoText.foldRune c)

/-- The class `[A-Za-z0-9_]` under the flag `i`. -/
def isNameChar (c : Char) : Bool := isLetter c || isDigit c || c == '_'

/-- The class `[A-Za-z0-9_-]` under the flag `i`. -/
def isPathChar (c : Char) : Bool := isNameChar c || c == '-'

/-! ## Pieces -/

/-- `\s*`. -/
def white : Pattern (List Char) := many isWhite

/-- `\s+`. -/
def spaces : Pattern (List Char) := many1 isWhite

def char (a : Char) : Pattern Char := one (· == a)

/-- An optional backtick. -/
def tick : Pattern (Option Char) := opt (char '\x60')

/-- Keywords, with white space behind each of them. -/
def words : List String → Pattern Unit
  | [] => pure ()
  | k :: ks => do
      let _ ← word k.toList
      let _ ← spaces
      words ks

/-- An optional group of keywords. -/
def optWords (ks : List String) : Pattern Bool := do
  let group ← opt (words ks)
  pure group.isSome

/-- The first of some keywords that leads to a match. -/
def anyKeyword : List String → Pattern Unit
  | [] => fun _ => []
  | k :: ks => keyword k.toList <|> anyKeyword ks

/-- One segment of a path, with or without backticks of its own. -/
def segment : Pattern (List Char) := do
  let opening ← tick
  let name ← many1 isPathChar
  let closing ← tick
  pure (opening.toList ++ name ++ closing.toList)

/-- A dot and a segment. -/
def dotSegment : Pattern (List Char) := do
  let dot ← char '.'
  let name ← segment
  pure (dot :: name)

/-- `persistentTargetExpression`: two segments or three. -/
def persistentTargetExpression : Pattern (List Char) := do
  let first ← segment
  let second ← dotSegment
  let third ← opt dotSegment
  pure (first ++ second ++ third.getD [])

/-- A name with optional backticks around it. -/
def quoted (p : Pattern (List Char)) : Pattern (List Char) := do
  let _ ← tick
  let name ← p
  let _ ← tick
  pure name

/-- `[A-Za-z_][A-Za-z0-9_]*`. -/
def columnName : Pattern (List Char) := do
  let a ← one fun c => isLetter c || c == '_'
  let l ← many isNameChar
  pure (a :: l)

/-- `.+`. -/
def anything : Pattern (List Char) := many1 fun _ => true

/-- `(?:\s|$)` and its variants: one character of a class, or the end where that is
allowed. -/
def closing (cls : Char → Bool) (atEnd : Bool) : Pattern Unit :=
  (do let _ ← one cls; pure ()) <|> ahead fun s => atEnd && s.isEmpty

/-- What the leading part of a statement says about its target. -/
structure Heading where
  target : List Char
  orReplace : Bool := false
  materialized : Bool := false
  ifNotExists : Bool := false
  ifExists : Bool := false
deriving Repr, DecidableEq

/-! ## Tables -/

/-- The common shape of the DML patterns: keywords, an optional keyword, the target. -/
def dmlTargetPattern (lead optional : List String) (stop : Char → Bool) (atEnd : Bool) :
    Pattern Heading := do
  let _ ← white
  let _ ← words lead
  let _ ← optWords optional
  let target ← persistentTargetExpression
  let _ ← closing stop atEnd
  pure { target := target }

def insertTargetPattern : Pattern Heading :=
  dmlTargetPattern ["INSERT"] ["INTO"] (fun c => isWhite c || c == '(') false

def updateTargetPattern : Pattern Heading := do
  let _ ← white
  let _ ← words ["UPDATE"]
  let target ← persistentTargetExpression
  let _ ← closing isWhite true
  pure { target := target }

def deleteTargetPattern : Pattern Heading := dmlTargetPattern ["DELETE"] ["FROM"] isWhite true

def mergeTargetPattern : Pattern Heading := dmlTargetPattern ["MERGE"] ["INTO"] isWhite true

def truncateTargetPattern : Pattern Heading := do
  let _ ← white
  let _ ← words ["TRUNCATE", "TABLE"]
  let target ← persistentTargetExpression
  let _ ← closing isWhite true
  pure { target := target }

def createTargetPattern : Pattern Heading := do
  let _ ← white
  let _ ← words ["CREATE"]
  let orReplace ← optWords ["OR", "REPLACE"]
  let _ ← words ["TABLE"]
  let ifNotExists ← optWords ["IF", "NOT", "EXISTS"]
  let target ← persistentTargetExpression
  let _ ← closing (fun c => isWhite c || c == '(') true
  pure { target := target, orReplace := orReplace, ifNotExists := ifNotExists }

def dropTargetPattern : Pattern Heading := do
  let _ ← white
  let _ ← words ["DROP", "TABLE"]
  let ifExists ← optWords ["IF", "EXISTS"]
  let target ← persistentTargetExpression
  let _ ← white
  let _ ← eos
  pure { target := target, ifExists := ifExists }

/-! ## Views and datasets -/

def createViewTargetPattern : Pattern Heading := do
  let _ ← white
  let _ ← words ["CREATE"]
  let orReplace ← optWords ["OR", "REPLACE"]
  let materialized ← optWords ["MATERIALIZED"]
  let _ ← words ["VIEW"]
  let ifNotExists ← optWords ["IF", "NOT", "EXISTS"]
  let target ← persistentTargetExpression
  let _ ← white
  pure
    { target := target
      orReplace := orReplace
      materialized := materialized
      ifNotExists := ifNotExists }

def dropViewTargetPattern : Pattern Heading := do
  let _ ← white
  let _ ← words ["DROP"]
  let materialized ← optWords ["MATERIALIZED"]
  let _ ← words ["VIEW"]
  let ifExists ← optWords ["IF", "EXISTS"]
  let target ← persistentTargetExpression
  let _ ← white
  let _ ← eos
  pure { target := target, materialized := materialized, ifExists := ifExists }

def viewAsClausePattern : Pattern (List Char) := do
  let _ ← words ["AS"]
  let body ← anything
  let _ ← eos
  pure body

def createSchemaTargetPattern : Pattern Heading := do
  let _ ← white
  let _ ← words ["CREATE", "SCHEMA"]
  let ifNotExists ← optWords ["IF", "NOT", "EXISTS"]
  let name ← quoted (many1 isPathChar)
  let _ ← white
  let _ ← eos
  pure { target := name, ifNotExists := ifNotExists }

/-! ## `ALTER TABLE` -/

def alterTableTargetPattern : Pattern (Heading × List Char) := do
  let _ ← white
  let _ ← words ["ALTER", "TABLE"]
  let ifExists ← optWords ["IF", "EXISTS"]
  let target ← persistentTargetExpression
  let _ ← spaces
  let rest ← anything
  let _ ← eos
  pure ({ target := target, ifExists := ifExists }, rest)

def addColumnClausePattern : Pattern (Bool × List Char × List Char) := do
  let _ ← words ["ADD", "COLUMN"]
  let ifNotExists ← optWords ["IF", "NOT", "EXISTS"]
  let name ← quoted columnName
  let _ ← spaces
  let a ← one isLetter
  let l ← many isNameChar
  let _ ← eos
  pure (ifNotExists, name, a :: l)

def dropColumnClausePattern : Pattern (Bool × List Char) := do
  let _ ← words ["DROP", "COLUMN"]
  let ifExists ← optWords ["IF", "EXISTS"]
  let name ← quoted columnName
  let _ ← eos
  pure (ifExists, name)

def renameColumnClausePattern : Pattern (Bool × List Char × List Char) := do
  let _ ← words ["RENAME", "COLUMN"]
  let ifExists ← optWords ["IF", "EXISTS"]
  let oldName ← quoted columnName
  let _ ← spaces
  let _ ← words ["TO"]
  let newName ← quoted columnName
  let _ ← eos
  pure (ifExists, oldName, newName)

def renameTableToPattern : Pattern (List Char) := do
  let _ ← words ["RENAME", "TO"]
  let name ← quoted (many1 isPathChar)
  let _ ← eos
  pure name

def setOptionsLeadPattern : Pattern Unit := do
  let _ ← words ["SET"]
  let _ ← word "OPTIONS".toList
  let _ ← white
  let _ ← char '('
  pure ()

/-! ## Leading keywords

The source closes each of these two groups of alternatives by `\b`.  Every alternative
ends with a keyword, and the boundary is written there. -/

def persistentLeadPattern : Pattern Unit := do
  let _ ← white
  anyKeyword ["INSERT", "UPDATE", "DELETE", "MERGE", "TRUNCATE"]
    <|> (do
      let _ ← words ["CREATE"]
      let _ ← optWords ["OR", "REPLACE"]
      keyword "TABLE".toList)
    <|> (do
      let _ ← words ["DROP"]
      keyword "TABLE".toList)

/-- `TEMP(?:ORARY)?\s+`. -/
def temporary : Pattern Unit := do
  let _ ← word "TEMP".toList
  let _ ← opt (word "ORARY".toList)
  let _ ← spaces
  pure ()

def unsupportedMutationLeadPattern : Pattern Unit := do
  let _ ← white
  (do
      let _ ← words ["ALTER"]
      keyword "TABLE".toList)
    <|> (do
      let _ ← words ["CREATE"]
      let _ ← optWords ["OR", "REPLACE"]
      (do
          let _ ← temporary
          keyword "TABLE".toList)
        <|> (do
          let _ ← opt temporary
          anyKeyword ["SCHEMA", "FUNCTION", "PROCEDURE", "MODEL"]))
    <|> (do
      let _ ← words ["DROP"]
      anyKeyword ["SCHEMA", "FUNCTION", "PROCEDURE", "MODEL"])
    <|> anyKeyword ["CALL", "GRANT", "REVOKE"]
    <|> (do
      let _ ← words ["EXPORT"]
      keyword "DATA".toList)
    <|> (do
      let _ ← words ["LOAD"]
      keyword "DATA".toList)
    <|> anyKeyword ["BEGIN"]
    <|> (do
      let _ ← words ["START"]
      keyword "TRANSACTION".toList)
    <|> anyKeyword ["COMMIT", "ROLLBACK"]

/-! ## Session control -/

/-- One of some words, then `\s*(?:TRANSACTION)?$`. -/
def transactionPattern (first : List String) : Pattern Unit := do
  let _ ← first.foldr (fun k p => word k.toList <|> p) fun _ => []
  let _ ← white
  let _ ← opt (word "TRANSACTION".toList)
  eos

def sessionBeginPattern : Pattern Unit := transactionPattern ["BEGIN", "START"]

def sessionCommitPattern : Pattern Unit := transactionPattern ["COMMIT"]

def sessionRollbackPattern : Pattern Unit := transactionPattern ["ROLLBACK"]

def sessionCreateTempTablePattern : Pattern (List Char × List Char) := do
  let _ ← words ["CREATE"]
  let _ ← words ["TEMP"] <|> words ["TEMPORARY"]
  let _ ← words ["TABLE"]
  let name ← quoted (many1 isNameChar)
  let _ ← spaces
  let _ ← words ["AS"]
  let body ← anything
  let _ ← eos
  pure (name, body)

/-! ## `INFORMATION_SCHEMA` -/

/-- The views of `INFORMATION_SCHEMA`, in the order of the pattern's alternatives. -/
def informationSchemaViews : List String :=
  ["schemata_options", "schemata", "table_options", "tables", "columns", "jobs_by_project",
   "jobs_by_user", "jobs", "partitions", "routines", "parameters", "models",
   "materialized_views", "views", "sessions_by_user"]

/-- A name and a dot behind it. -/
def qualifier : Pattern (List Char) := do
  let name ← quoted (many1 isPathChar)
  let _ ← char '.'
  pure name

def informationSchemaPattern : Pattern (Option (List Char) × Option (List Char) × List Char) := do
  let project ← opt qualifier
  let dataset ← opt qualifier
  let _ ← word "information_schema.".toList
  let view ← informationSchemaViews.foldr (fun k p => word k.toList <|> p) fun _ => []
  pure (project, dataset, view)

end LocaQL.Sql
