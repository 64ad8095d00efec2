import LocaQL.Sql.Statements

/-!
# The text for the engine

What a statement goes through before the engine runs it: its own project is taken out of the
names of tables, and an `INSERT` gets the list of the columns that it leaves out.
-/

namespace LocaQL.Sql

open Pattern

/-- `quoteIdent`. -/
def quoteIdent (id : String) : List Char :=
  ['\x60'] ++ id.toList.flatMap (fun c => if c = '\x60' then [c, c] else [c]) ++ ['\x60']

/-! ## The project -/

/-- `[A-Za-z0-9_-]+\.[A-Za-z0-9_-]+`. -/
def datasetTable : Pattern (List Char) := do
  let dataset ← many1 isPathChar
  let dot ← char '.'
  let table ← many1 isPathChar
  pure (dataset ++ [dot] ++ table)

/-- `wholeQuoted`: the path is in one pair of backticks. -/
def wholeQuoted (project : List Char) : Pattern (List Char) := do
  let _ ← char '\x60'
  let _ ← word project
  let _ ← char '.'
  let path ← datasetTable
  let _ ← char '\x60'
  pure path

/-- `perSegmentQuoted`: the project has its own backticks. -/
def perSegmentQuoted (project : List Char) : Pattern (List Char) := do
  let _ ← char '\x60'
  let _ ← word project
  let _ ← char '\x60'
  let _ ← char '.'
  let dataset ← segment
  let dot ← char '.'
  let table ← segment
  pure (dataset ++ [dot] ++ table)

/-- `bare`: no backticks, between boundaries of words. -/
def bare (project : List Char) (before : Option Char) : Pattern (List Char) := do
  let _ ← ahead (boundary before)
  let _ ← word project
  let _ ← char '.'
  let path ← datasetTable
  let _ ← ahead (boundary path.getLast?)
  pure path

def stripProjectPrefix (queryText : List Char) (projectID : String) : List Char :=
  if projectID = "" then queryText
  else
    let project := projectID.toList
    let queryText := replaceAll (fun _ => wholeQuoted project) 0 none queryText
    let queryText := replaceAll (fun _ => perSegmentQuoted project) 0 none queryText
    replaceAll (bare project) 0 none queryText

/-! ## The columns of an `INSERT` -/

/-- The list that names the columns of the schema. -/
def columnList (schema : List TableField) : List Char :=
  " (".toList ++ (", ".toList).intercalate (schema.map fun f => quoteIdent f.name) ++ ")".toList

def addImplicitInsertColumns (queryText : List Char) (schema : List TableField) : List Char :=
  match insertTargetPattern.find queryText with
  | none => queryText
  | some (heading, rest) =>
    if heading.target = [] then queryText
    else
      -- the pattern takes one more character behind the target
      let boundary := queryText.length - (rest.length + 1)
      if (GoText.trimSpace (queryText.drop boundary)).head? = some '(' then queryText
      else queryText.take boundary ++ columnList schema ++ queryText.drop boundary

/-- The statement that the engine gets for an `INSERT` into a table that is partitioned by
ingestion time. -/
def engineInsert (projectID : String) (queryText : List Char) (schema : List TableField) :
    List Char :=
  addImplicitInsertColumns (stripProjectPrefix (trimSemicolon queryText) projectID) schema

end LocaQL.Sql
