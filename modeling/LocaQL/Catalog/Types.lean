import LocaQL.Lib.GoMap
import LocaQL.Lib.GoText

/-!
# Catalog data

The records of the table catalog: schema columns, partitioning settings and the
table record itself.  Cells are strings; `Catalog.CellStorage` says how they
encode SQL values.
-/

namespace LocaQL

open GoText

/-- A point in time, in nanoseconds since 0001-01-01T00:00:00Z.  Go's zero time,
which the catalog reads as "not set", is `0`. -/
abbrev Time := Int

/-- How a call ends without a result: with an error, or with a panic that the caller
recovers from. -/
inductive Failure where
  | error (text : String)
  | panic (text : String)
deriving Repr, DecidableEq

abbrev Result (α : Type) := Except Failure α

/-- An error with the given text. -/
def fail {α : Type} (text : String) : Result α := .error (.error text)

theorem fail_ne_ok {α : Type} (msg : String) (a : α) : (fail msg : Result α) ≠ .ok a := nofun

/-- A check that can only end with an error. -/
def check (outcome : Except String Unit) : Result Unit := outcome.mapError .error

/-- One schema column.  An empty mode means `NULLABLE`; `fields` describes the
columns of a `RECORD`. -/
structure TableField where
  name : String
  type : String
  mode : String := ""
  fields : List TableField := []
deriving Repr, Inhabited

mutual

/-- Equality of columns is decided through their nested columns. -/
def TableField.decEq : (a b : TableField) → Decidable (a = b)
  | ⟨n, t, m, fs⟩, ⟨n', t', m', fs'⟩ =>
    match TableField.decEqList fs fs' with
    | isTrue hfs =>
      if h : n = n' ∧ t = t' ∧ m = m' then
        isTrue (by obtain ⟨rfl, rfl, rfl⟩ := h; rw [hfs])
      else isFalse (by rintro ⟨⟩; exact h ⟨rfl, rfl, rfl⟩)
    | isFalse hfs => isFalse (by rintro ⟨⟩; exact hfs rfl)

def TableField.decEqList : (as bs : List TableField) → Decidable (as = bs)
  | [], [] => isTrue rfl
  | [], _ :: _ => isFalse (by rintro ⟨⟩)
  | _ :: _, [] => isFalse (by rintro ⟨⟩)
  | a :: as, b :: bs =>
    match TableField.decEq a b, TableField.decEqList as bs with
    | isTrue h, isTrue hs => isTrue (by rw [h, hs])
    | isFalse h, _ => isFalse (by rintro ⟨⟩; exact h rfl)
    | _, isFalse hs => isFalse (by rintro ⟨⟩; exact hs rfl)

end

instance : DecidableEq TableField := TableField.decEq

/-- Induction over the nesting of columns. -/
@[elab_as_elim]
theorem TableField.nested_induction {P : TableField → Prop}
    (step : ∀ f : TableField, (∀ g ∈ f.fields, P g) → P f) (f : TableField) : P f :=
  @TableField.rec P (fun fields => ∀ g ∈ fields, P g)
    (fun name type mode fields ih => step ⟨name, type, mode, fields⟩ ih)
    (by simp) (fun f fields hf ih => by simpa using ⟨hf, ih⟩) f

def isRecordType (t : String) : Bool :=
  let upper := toUpperStr (trimSpaceStr t)
  upper == "RECORD" || upper == "STRUCT"

/-- Whether a type is that of a record does not depend on the case of its letters. -/
theorem isRecordType_congr {t t' : String} (h : equalFold t t') :
    isRecordType t = isRecordType t' := by
  have trimmed : (trimSpace t.toList).map foldRune =
      (trimSpace t'.toList).map foldRune := by
    rw [equalFold, beq_iff_eq] at h
    rw [← trimSpace_map_foldRune, h, trimSpace_map_foldRune]
  have named (k : String) (hk : k.toList.all fun c => isUpper c && (c != 'I' && c != 'K'))
      (s : String) : toUpperStr (trimSpaceStr s) == k ↔
        (trimSpace s.toList).map foldRune = k.toList.map foldRune := by
    simp only [List.all_eq_true, Bool.and_eq_true, bne_iff_ne] at hk
    rw [beq_iff_eq, toUpperStr, trimSpaceStr, String.toList_ofList,
      ← String.toList_inj, String.toList_ofList, toUpper_eq_iff hk]
  rw [Bool.eq_iff_iff]
  simp only [isRecordType, Bool.or_eq_true, named "RECORD" (by decide), named "STRUCT" (by decide),
    trimmed]

def normalizeMode (mode : String) : String := if mode = "" then "NULLABLE" else mode

/-- A stored row: one cell per column, possibly fewer than the schema has. -/
abbrev Row := List String

/-- Granularity of time partitioning. -/
inductive PartitionType where
  | hour
  | day
  | month
  | year
deriving Repr, DecidableEq

/-- `timePartitioningConfig`.  An empty field means partitioning by ingestion
time, and no expiration is `0`. -/
structure TimePartitioningConfig where
  type : PartitionType
  field : String
  expirationMs : Int64 := 0
deriving Repr, DecidableEq

/-- `rangePartitioningConfig`, with what `parseRangePartitioning` checks before
it builds one. -/
structure RangePartitioningConfig where
  field : String
  start : Int64
  stop : Int64
  interval : Int64
  start_lt_stop : start < stop
  interval_pos : 0 < interval
deriving DecidableEq

/-- `viewConfig`. -/
structure ViewConfig where
  query : String
  materialized : Bool
deriving Repr, DecidableEq

/-- `externalTableConfig`. -/
structure ExternalTableConfig where
  sourceURIs : List String
  sourceFormat : String
  fieldDelimiter : String
  skipLeadingRows : Nat
  autodetect : Bool
deriving Repr, DecidableEq

/-- The names that lead to a table. -/
@[ext]
structure TableReference where
  projectID : String
  datasetID : String
  tableID : String
deriving Repr, DecidableEq

/-- `tableRecord`. -/
structure TableRecord where
  projectID : String
  datasetID : String
  tableID : String
  friendlyName : String := ""
  description : String := ""
  labels : GoMap String String := ∅
  schema : List TableField := []
  rows : List Row := []
  ingestionPartitions : List String := []
  external : Option ExternalTableConfig := none
  view : Option ViewConfig := none
  timePartitioning : Option TimePartitioningConfig := none
  rangePartitioning : Option RangePartitioningConfig := none
  clustering : List String := []
  requirePartitionFilter : Bool := false
  createdAt : Time
  updatedAt : Time
  version : Nat
  expirationTime : Time := 0
deriving DecidableEq

end LocaQL
