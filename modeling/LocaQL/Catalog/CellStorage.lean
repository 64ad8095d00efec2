import LocaQL.Catalog.Types
import LocaQL.Lib.Json

/-!
# Stored cells

A cell is a string.  One reserved string is SQL NULL, and a value that begins like a
reserved string is stored behind a prefix.  A nested or repeated value is stored as
JSON, and `REQUIRED` is checked recursively before rows enter the catalog.
-/

namespace LocaQL

def storedNullCell : String := "\x00locaql:null"

def storedEscapedCellPrefix : String := "\x00locaql:value:"

def storeStringCell (value : String) : String :=
  if value = storedNullCell ∨ GoText.hasPrefixStr value storedEscapedCellPrefix then
    storedEscapedCellPrefix ++ value
  else value

/-- The value of a cell, and `none` for NULL. -/
def loadStoredCell (cell : String) : Option String :=
  if cell = storedNullCell then none
  else if GoText.hasPrefixStr cell storedEscapedCellPrefix then
    some (GoText.trimPrefixStr cell storedEscapedCellPrefix)
  else some cell

/-- The cell of a column, NULL where the row is too short. -/
def cellAt (row : Row) (index : Nat) : String := row.getD index storedNullCell

/-- The loop over the elements of a REPEATED value. -/
def validateItems (check : Json → Except String Unit) : Nat → List Json → Except String Unit
  | _, [] => .ok ()
  | i, .null :: _ => .error s!"REPEATED element {i} is NULL"
  | i, item :: items =>
    match check item with
    | .error err => .error s!"REPEATED element {i}: {err}"
    | .ok () => validateItems check (i + 1) items

/-- A value that is present and not repeated; `subfields` checks the members of a record. -/
def validateRecord (type : String) (subfields : List (String × Json) → Except String Unit)
    (value : Json) : Except String Unit :=
  if isRecordType type then
    match value with
    | .obj ms => subfields ms
    | _ => .error "RECORD field is not an object"
  else .ok ()

/-- A value of a column with the given type and mode. -/
def validateValue (type mode : String) (subfields : List (String × Json) → Except String Unit)
    (value : Json) : Except String Unit :=
  match value with
  | .null =>
    if normalizeMode mode = "REQUIRED" then .error "REQUIRED field is NULL or absent" else .ok ()
  | value =>
    if mode = "REPEATED" then
      match value with
      | .arr items => validateItems (validateRecord type subfields) 0 items
      | _ => .error "REPEATED field is not an array"
    else validateRecord type subfields value

mutual

def validateDecodedField : TableField → Json → Except String Unit
  | ⟨_, type, mode, fields⟩ => validateValue type mode (validateSubfields fields)

def validateSubfields : List TableField → List (String × Json) → Except String Unit
  | [], _ => .ok ()
  | sub :: subs, ms =>
    match validateDecodedField sub (Json.lookup ms sub.name) with
    | .error err =>
      let quoted := GoText.quote sub.name
      .error s!"nested field {quoted}: {err}"
    | .ok () => validateSubfields subs ms

end

def validateStoredField (field : TableField) (cell : String) : Except String Unit :=
  match loadStoredCell cell with
  | none =>
    if normalizeMode field.mode = "REQUIRED" then .error "REQUIRED field is NULL or absent"
    else .ok ()
  | some raw =>
    if field.mode ≠ "REPEATED" ∧ !isRecordType field.type then .ok ()
    else
      match Json.decode raw with
      | none => .error "invalid stored nested JSON"
      | some decoded => validateDecodedField field decoded

/-- The columns of one row, from column `index` on. -/
def validateRow (rowNumber : Nat) (row : Row) : Nat → List TableField → Except String Unit
  | _, [] => .ok ()
  | index, field :: fields =>
    match validateStoredField field (cellAt row index) with
    | .error err =>
      let quoted := GoText.quote field.name
      .error s!"row {rowNumber} column {quoted}: {err}"
    | .ok () => validateRow rowNumber row (index + 1) fields

/-- The rows from row `index` on. -/
def validateRowsFrom (schema : List TableField) : Nat → List Row → Except String Unit
  | _, [] => .ok ()
  | index, row :: rows =>
    match validateRow (index + 1) row 0 schema with
    | .error err => .error err
    | .ok () => validateRowsFrom schema (index + 1) rows

def validateStoredRows (schema : List TableField) (rows : List Row) : Except String Unit :=
  validateRowsFrom schema 0 rows

/-! ## What is accepted -/

theorem validateValue_of_ne_null {v : Json} (h : v ≠ .null) (type mode : String)
    (sub : List (String × Json) → Except String Unit) :
    validateValue type mode sub v =
      if mode = "REPEATED" then
        match v with
        | .arr items => validateItems (validateRecord type sub) 0 items
        | _ => .error "REPEATED field is not an array"
      else validateRecord type sub v := by
  cases v with
  | null => exact absurd rfl h
  | _ => rfl

theorem validateItems_ok {check : Json → Except String Unit} {i : Nat} {items : List Json} :
    validateItems check i items = .ok () ↔ ∀ v ∈ items, v ≠ .null ∧ check v = .ok () := by
  induction items generalizing i with
  | nil => simp [validateItems]
  | cons v items ih =>
    cases v with
    | null => simp [validateItems]
    | _ =>
      simp only [validateItems, List.forall_mem_cons, ne_eq, reduceCtorEq, not_false_eq_true,
        true_and, ← ih (i := i + 1)]
      split
      next err failed => simp [failed]
      next passed => simp [passed]

theorem validateSubfields_ok {fields : List TableField} {ms : List (String × Json)} :
    validateSubfields fields ms = .ok () ↔
      ∀ f ∈ fields, validateDecodedField f (Json.lookup ms f.name) = .ok () := by
  induction fields with
  | nil => simp [validateSubfields]
  | cons f fields ih =>
    rw [validateSubfields, List.forall_mem_cons, ← ih]
    split
    next err failed => simp [failed]
    next passed => simp [passed]

theorem validateRow_ok {n : Nat} {row : Row} {i : Nat} {schema : List TableField} :
    validateRow n row i schema = .ok () ↔
      ∀ j f, schema[j]? = some f → validateStoredField f (cellAt row (i + j)) = .ok () := by
  induction schema generalizing i with
  | nil => simp [validateRow]
  | cons f schema ih =>
    have rest : (∀ j g, (f :: schema)[j]? = some g →
          validateStoredField g (cellAt row (i + j)) = .ok ()) ↔
        validateStoredField f (cellAt row i) = .ok () ∧
          validateRow n row (i + 1) schema = .ok () := by
      rw [ih]
      constructor
      · intro h
        refine ⟨h 0 f rfl, fun j g found => ?_⟩
        have := h (j + 1) g (by simpa using found)
        rwa [show i + (j + 1) = i + 1 + j by omega] at this
      · rintro ⟨first, h⟩ j g found
        cases j with
        | zero =>
          cases found
          exact first
        | succ j =>
          rw [show i + (j + 1) = i + 1 + j by omega]
          exact h j g (by simpa using found)
    rw [rest, validateRow]
    split
    next err failed => simp [failed]
    next passed => simp [passed]

/-- The rows are accepted if every column accepts its cell in every row. -/
theorem validateStoredRows_ok {schema : List TableField} {rows : List Row} :
    validateStoredRows schema rows = .ok () ↔
      ∀ row ∈ rows, ∀ j f, schema[j]? = some f → validateStoredField f (cellAt row j) = .ok () := by
  suffices h : ∀ i, validateRowsFrom schema i rows = .ok () ↔ ∀ row ∈ rows, ∀ j f,
      schema[j]? = some f → validateStoredField f (cellAt row j) = .ok () from h 0
  intro i
  induction rows generalizing i with
  | nil => simp [validateRowsFrom]
  | cons row rows ih =>
    have first := @validateRow_ok (i + 1) row 0 schema
    simp only [Nat.zero_add] at first
    rw [List.forall_mem_cons, ← first, ← ih (i + 1), validateRowsFrom]
    split
    next err failed => simp [failed]
    next passed => simp [passed]

end LocaQL
