import LocaQL.Catalog.Values

/-!
# The values of an INSERT

Before a query runs, the rows of a table are inserted into the engine.  A table of scalar
columns binds one value per column (`scalarRowValues`).  A table with a `RECORD` or
`REPEATED` column writes an expression per column instead (`buildInsertValueExpr`), in which
every scalar is a parameter of its own.

The second path decodes a scalar cell and hands what it decoded to the conversion of the first
path, which decodes it once more.  The two agree on a cell for every scalar type exactly when
the decoded value does not itself look like an encoded one (`scalars_agree_iff`).
-/

namespace LocaQL.InsertValues

/-! ## Column types -/

def realSQLScalarTypes : List String :=
  ["INT64", "FLOAT64", "STRING", "BOOL", "BYTES", "DATE", "DATETIME", "TIME", "TIMESTAMP",
    "NUMERIC", "BIGNUMERIC"]

/-- `strings.ToUpper(strings.TrimSpace(t))`. -/
def typeName (t : String) : String := GoText.toUpperStr (GoText.trimSpaceStr t)

def quoteIdent (id : String) : String :=
  String.ofList ('\x60' :: id.toList.flatMap (fun c => if c = '\x60' then [c, c] else [c]) ++ ['\x60'])

/-- The name of a scalar type in the engine. -/
def scalarType (t : String) : String :=
  if typeName t ∈ realSQLScalarTypes then typeName t else "STRING"

def arrayOf (mode rendered : String) : String :=
  if mode = "REPEATED" then "ARRAY<" ++ rendered ++ ">" else rendered

mutual

def sqliteColumnType : TableField → String
  | ⟨_, type, mode, fields⟩ =>
    arrayOf mode
      (if isRecordType type then "STRUCT<" ++ ", ".intercalate (memberTypes fields) ++ ">"
      else scalarType type)

def memberTypes : List TableField → List String
  | [] => []
  | field :: fields =>
    (quoteIdent field.name ++ " " ++ sqliteColumnType field) :: memberTypes fields

end

/-! ## Scalar cells -/

/-- Whether a text is a decimal integer, of any size. -/
def isInteger (s : List Char) : Bool :=
  let ds := if s.head? = some '-' ∨ s.head? = some '+' then s.tail else s
  !ds.isEmpty && ds.all Json.isDigit

/-- `strconv.ParseInt(s, 10, 64)`. -/
def parseInt (s : String) : Except String Int64 :=
  match GoText.parseInt64 s.toList with
  | some n => .ok n
  | none =>
    let quoted := GoText.quote s
    let reason := if isInteger s.toList then "value out of range" else "invalid syntax"
    .error s!"strconv.ParseInt: parsing {quoted}: {reason}"

/-- `strconv.ParseBool`. -/
def parseBool (s : String) : Except String Bool :=
  if s ∈ ["1", "t", "T", "TRUE", "true", "True"] then .ok true
  else if s ∈ ["0", "f", "F", "FALSE", "false", "False"] then .ok false
  else
    let quoted := GoText.quote s
    .error s!"strconv.ParseBool: parsing {quoted}: invalid syntax"

section

variable [GoFormat]

/-- A text as a value of a scalar type. -/
def parseScalar (type text : String) : Except String GoValue :=
  if typeName type = "INT64" then (parseInt text).map .int
  else if typeName type = "FLOAT64" then (GoFormat.parseFloat text).map .float
  else if typeName type = "BOOL" then (parseBool text).map .bool
  else .ok (.text text)

/-- The types whose empty cell is NULL. -/
def emptyIsNull (type : String) : Bool := typeName type ∈ ["INT64", "FLOAT64", "BOOL"]

/-- The value of a cell that was decoded. -/
def convertLoaded (fieldType cell : String) : Except String GoValue :=
  if emptyIsNull fieldType && cell == "" then .ok .nil else parseScalar fieldType cell

def convertScalarForInsert (fieldType cell : String) : Except String GoValue :=
  match loadStoredCell cell with
  | none => .ok .nil
  | some cell => convertLoaded fieldType cell

/-- The arguments of the prepared INSERT, from column `index` on. -/
def scalarRowValuesFrom (row : Row) : Nat → List TableField → Except String (List GoValue)
  | _, [] => .ok []
  | index, field :: fields =>
    match convertScalarForInsert field.type (cellAt row index) with
    | .error err =>
      let name := field.name
      .error s!"column {name}: {err}"
    | .ok v => (scalarRowValuesFrom row (index + 1) fields).map (v :: ·)

def scalarRowValues (fields : List TableField) (row : Row) : Except String (List GoValue) :=
  scalarRowValuesFrom row 0 fields

/-! ## Value expressions -/

/-- The expression of a column with the parameters it binds. -/
inductive ValueExpr where
  | null
  | array (items : List ValueExpr)
  | struct (members : List (String × ValueExpr))
  | cast (type : String) (param : GoValue)
deriving Repr, Inhabited

namespace ValueExpr

mutual

/-- The text of an expression. -/
def render : ValueExpr → String
  | .null => "NULL"
  | .array items => "[" ++ ", ".intercalate (renderItems items) ++ "]"
  | .struct members => "STRUCT(" ++ ", ".intercalate (renderMembers members) ++ ")"
  | .cast type _ => "CAST(? AS " ++ type ++ ")"

def renderItems : List ValueExpr → List String
  | [] => []
  | e :: es => render e :: renderItems es

def renderMembers : List (String × ValueExpr) → List String
  | [] => []
  | (name, e) :: ms => (render e ++ " AS " ++ quoteIdent name) :: renderMembers ms

end

mutual

/-- The parameters of an expression, in the order of their placeholders. -/
def params : ValueExpr → List GoValue
  | .null => []
  | .array items => paramsItems items
  | .struct members => paramsMembers members
  | .cast _ param => [param]

def paramsItems : List ValueExpr → List GoValue
  | [] => []
  | e :: es => params e ++ paramsItems es

def paramsMembers : List (String × ValueExpr) → List GoValue
  | [] => []
  | (_, e) :: ms => params e ++ paramsMembers ms

end

mutual

/-- The value of an expression as the driver scans it, bound values unchanged; a struct is the
list of its members. -/
def scanned : ValueExpr → GoValue
  | .null => .nil
  | .array items => .list (scannedItems items)
  | .struct members => .list (scannedMembers members)
  | .cast _ param => param

def scannedItems : List ValueExpr → List GoValue
  | [] => []
  | e :: es => scanned e :: scannedItems es

def scannedMembers : List (String × ValueExpr) → List GoValue
  | [] => []
  | (_, e) :: ms => scanned e :: scannedMembers ms

end

end ValueExpr

/-- The verb `%T` of a decoded value. -/
def goType : GoValue → String
  | .nil => "<nil>"
  | .bool _ => "bool"
  | .int _ => "int64"
  | .float _ => "float64"
  | .text _ => "string"
  | .list _ => "[]interface \x7b\x7d"
  | .map _ => "map[string]interface \x7b\x7d"

/-- A number becomes an integer, and a string is parsed. -/
def decodedInt : GoValue → Except String GoValue
  | .float x => .ok (.int x.toInt64)
  | .text s => (parseInt s).map .int
  | v => .ok v

/-- A string is parsed, and any other value is taken as it is. -/
def decodedText (parse : String → Except String GoValue) : GoValue → Except String GoValue
  | .text s => parse s
  | v => .ok v

/-- The parameter of a decoded scalar. -/
def decodedScalar (type : String) (decoded : GoValue) : Except String GoValue :=
  if typeName type = "INT64" then decodedInt decoded
  else if typeName type = "FLOAT64" then
    decodedText (fun s => (GoFormat.parseFloat s).map .float) decoded
  else if typeName type = "BOOL" then decodedText (fun s => (parseBool s).map .bool) decoded
  else .ok (.text decoded.sprint)

/-- A decoded record; `struct` writes its members. -/
def exprForRecord (name : String)
    (struct : List (String × GoValue) → Except String (List (String × ValueExpr))) :
    GoValue → Except String ValueExpr
  | .map obj => (struct obj).map .struct
  | v =>
    let got := goType v
    .error s!"column {name}: expected a JSON object for RECORD, got {got}"

/-- A decoded value of a column. -/
def exprForValue (name type : String)
    (struct : List (String × GoValue) → Except String (List (String × ValueExpr)))
    (decoded : GoValue) : Except String ValueExpr :=
  match decoded with
  | .nil => .ok .null
  | decoded =>
    if isRecordType type then exprForRecord name struct decoded
    else (decodedScalar type decoded).map (.cast (scalarType type))

mutual

def exprForDecodedValue : TableField → GoValue → Except String ValueExpr
  | ⟨name, type, _, fields⟩ => exprForValue name type (structMembers fields)

/-- The members of `structExprForDecodedValue`. -/
def structMembers : List TableField → List (String × GoValue) →
    Except String (List (String × ValueExpr))
  | [], _ => .ok []
  | sub :: subs, obj =>
    match exprForDecodedValue sub (GoValue.lookup obj sub.name) with
    | .error err => .error err
    | .ok e => (structMembers subs obj).map ((sub.name, e) :: ·)

end

def structExprForDecodedValue (field : TableField) (obj : List (String × GoValue)) :
    Except String ValueExpr :=
  (structMembers field.fields obj).map .struct

/-- The loop over the elements of a REPEATED value. -/
def eachItem {α β : Type} (item : α → Except String β) : List α → Except String (List β)
  | [] => .ok []
  | v :: vs =>
    match item v with
    | .error err => .error err
    | .ok e => (eachItem item vs).map (e :: ·)

/-- The expression of a column.  The errors of `encoding/json` end with a reason of its own,
which is left out. -/
def buildInsertValueExpr (field : TableField) (cell : String) : Except String ValueExpr :=
  match loadStoredCell cell with
  | none => .ok .null
  | some cell =>
    let name := field.name
    if field.mode = "REPEATED" then
      if cell = "" then .ok .null
      else
        match Json.decode cell with
        | some (.arr items) =>
          (eachItem (exprForDecodedValue field) (GoValue.ofItems items)).map .array
        | some .null => .ok (.array [])
        | _ => .error s!"column {name}: invalid REPEATED JSON"
    else if isRecordType field.type then
      if cell = "" then .ok .null
      else
        match Json.decode cell with
        | some (.obj members) => structExprForDecodedValue field (GoValue.ofMembers members)
        | some .null => structExprForDecodedValue field []
        | _ => .error s!"column {name}: invalid RECORD JSON"
    else (convertScalarForInsert field.type cell).map (.cast (scalarType field.type))

/-! ## Scalar columns beside nested ones -/

/-- On a cell, both paths give every scalar column the same value or the same error. -/
def ScalarsAgree (cell : String) : Prop :=
  ∀ field : TableField, field.mode ≠ "REPEATED" → isRecordType field.type = false →
    (buildInsertValueExpr field cell).map ValueExpr.scanned =
      convertScalarForInsert field.type cell

theorem buildInsertValueExpr_scalar {field : TableField} (single : field.mode ≠ "REPEATED")
    (scalar : isRecordType field.type = false) {cell value : String}
    (h : loadStoredCell cell = some value) :
    (buildInsertValueExpr field cell).map ValueExpr.scanned =
      convertScalarForInsert field.type value := by
  simp only [buildInsertValueExpr, h, if_neg single, scalar, Bool.false_eq_true, if_false]
  cases convertScalarForInsert field.type value <;> rfl

omit [GoFormat] in
theorem loadStoredCell_eq_self_iff {value : String} :
    loadStoredCell value = some value ↔
      value ≠ storedNullCell ∧ GoText.hasPrefixStr value storedEscapedCellPrefix = false := by
  rw [loadStoredCell]
  split
  next null => simp [null]
  next notNull =>
    split
    next starts =>
      -- without its prefix the value is shorter
      have short : GoText.trimPrefixStr value storedEscapedCellPrefix ≠ value := by
        intro same
        have lengths := congrArg (fun s => s.toList.length) same
        have long := (List.isPrefixOf_iff_prefix.mp starts).length_le
        have some : storedEscapedCellPrefix.toList.length = 14 := by decide
        simp only [GoText.trimPrefixStr, if_pos starts, String.toList_ofList,
          List.length_drop] at lengths
        omega
      simp [short, starts]
    next plain => simp [notNull, plain]

/-- Adding a nested column changes nothing about a scalar cell exactly when the value in the cell
is neither the NULL tag nor begins with the escape prefix. -/
theorem scalars_agree_iff (cell : String) :
    ScalarsAgree cell ↔ ∀ value, loadStoredCell cell = some value →
      value ≠ storedNullCell ∧ GoText.hasPrefixStr value storedEscapedCellPrefix = false := by
  constructor
  · intro agree value loaded
    have same := agree ⟨"c", "STRING", "", []⟩ (by decide) (by decide)
    rw [buildInsertValueExpr_scalar (by decide) (by decide) loaded] at same
    have text (s : String) : convertLoaded "STRING" s = .ok (.text s) := rfl
    simp only [convertScalarForInsert, loaded, text] at same
    rw [← loadStoredCell_eq_self_iff]
    split at same
    · cases same
    next inner decoded =>
      cases same
      exact decoded
  · intro plain field single scalar
    cases loaded : loadStoredCell cell with
    | none =>
      simp only [buildInsertValueExpr, convertScalarForInsert, loaded]
      rfl
    | some value =>
      rw [buildInsertValueExpr_scalar single scalar loaded]
      simp only [convertScalarForInsert, loaded,
        loadStoredCell_eq_self_iff.mpr (plain value loaded)]

end

section

attribute [local instance] GoFormat.none

/-- A text equal to the NULL tag is itself in a table of scalars, and NULL beside a nested
column. -/
theorem nullTag_read_null :
    convertScalarForInsert "STRING" (storeStringCell storedNullCell) =
        .ok (.text storedNullCell) ∧
      (buildInsertValueExpr ⟨"s", "STRING", "", []⟩ (storeStringCell storedNullCell)).map
        ValueExpr.scanned = .ok .nil :=
  ⟨rfl, rfl⟩

end

end LocaQL.InsertValues
