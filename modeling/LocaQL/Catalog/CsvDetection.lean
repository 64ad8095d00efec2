import LocaQL.Catalog.Autodetect
import LocaQL.Storage.WriteService

/-!
# Detecting the schema of CSV data

The types of the columns are those that all the cells have once white space around them is cut off
and, for Booleans, letters are in lower case.  The cells are stored as they stand, though, and read
back by `convertScalarForInsert`, which does neither.  So a detected schema fits the rows it was
detected from just if the cells of columns that are no strings are written as they will be
read (`sound_iff`).  The order of the rows does not matter.
-/

namespace LocaQL.Autodetect

open GoText List

open InsertValues

section

variable [GoFormat]

def classifyCSVScalar (v : String) : Option Kind :=
  let v := trimSpaceStr v
  if v = "" then none
  else if (parseInt64 v.toList).isSome then some .int64
  else if (GoFormat.parseFloat v).isOk then some .float64
  else if (parseBool (String.ofList (toLower v.toList))).isOk then some .bool
  else some .string

/-- The types of the columns after one more row. -/
def widenRow : List (Option Kind) → Row → List (Option Kind)
  | t :: types, cell :: row => widenScalarType t (classifyCSVScalar cell) :: widenRow types row
  | types, _ => types

def inferCSVColumnTypes (rows : List Row) (width : Nat) : List (Option Kind) :=
  rows.foldl widenRow (List.replicate width none)

def looksLikeCSVHeader (firstRow : Row) (dataTypes : List (Option Kind)) : Bool :=
  (firstRow.zip dataTypes).any fun c =>
    c.2 ≠ none && c.2 ≠ some .string && classifyCSVScalar c.1 == some .string

def genericCSVColumnNames (width : Nat) : List String :=
  (List.range width).map fun i => "string_field_" ++ Nat.repr i

/-- The names of the columns and the index of the first data row. -/
def detectCSVHeader (sample : List Row) (width : Nat) : List String × Nat :=
  match sample with
  | first :: rest =>
    if rest ≠ [] ∧ looksLikeCSVHeader first (inferCSVColumnTypes rest width) then (first, 1)
    else (genericCSVColumnNames width, 0)
  | [] => (genericCSVColumnNames width, 0)

/-- `detectSchemaFromCSV` on the records that the CSV reader returns. -/
def detectSchemaFromCSV (records : List Row) (skipLeadingRows : Nat) :
    Except String (List TableField × Nat) :=
  match (records.drop skipLeadingRows).take autodetectSampleLimit with
  | [] => .error "no rows found to detect a schema from"
  | first :: rest =>
    let (names, startRow) := detectCSVHeader (first :: rest) first.length
    let dataTypes := inferCSVColumnTypes ((first :: rest).drop startRow) first.length
    .ok ((names.zip dataTypes).map fun c => column c.1 c.2, startRow)

end

/-- The loop over the records from number `n` on. -/
def csvRows (uri : String) (width : Nat) : Nat → List Row → Except String (List Row)
  | _, [] => .ok []
  | n, record :: records =>
    if record.length ≠ width then
      let quoted := quote uri
      let fields := record.length
      .error s!"CSV row {n} in sourceUri {quoted} has {fields} fields, expected {width} matching schema"
    else (csvRows uri width (n + 1) records).map (record :: ·)

/-- `parseCSVRows` on the records that the CSV reader returns. -/
def parseCSVRows (uri : String) (records : List Row) (schema : List TableField)
    (skipLeadingRows : Nat) : Except String (List Row) :=
  match StorageWrite.rejectNestedFields "CSV" schema with
  | .error err => .error err
  | .ok () =>
    let skipLeadingRows := min skipLeadingRows records.length
    csvRows uri schema.length (skipLeadingRows + 1) (records.drop skipLeadingRows)

/-! ## The order of the types -/

theorem widen_comm (a b : Option Kind) : widenScalarType a b = widenScalarType b a := by
  rcases a with _ | (_ | _ | _ | _) <;> rcases b with _ | (_ | _ | _ | _) <;> rfl

theorem widen_assoc (a b c : Option Kind) :
    widenScalarType (widenScalarType a b) c = widenScalarType a (widenScalarType b c) := by
  rcases a with _ | (_ | _ | _ | _) <;> rcases b with _ | (_ | _ | _ | _) <;>
    rcases c with _ | (_ | _ | _ | _) <;> rfl

theorem widen_self (a : Option Kind) : widenScalarType a a = a := by
  rcases a with _ | (_ | _ | _ | _) <;> rfl

/-- A type is no wider than another one. -/
def Within (a b : Option Kind) : Prop := widenScalarType a b = b

theorem within_right (a b : Option Kind) : Within b (widenScalarType a b) := by
  rw [Within, widen_comm a, ← widen_assoc, widen_self]

theorem Within.widen {a b : Option Kind} (h : Within a b) (c : Option Kind) :
    Within a (widenScalarType b c) := by
  rw [Within, ← widen_assoc, h]

section

variable [GoFormat] {rows : List Row} {cell : String}

theorem getElem?_widenRow (types : List (Option Kind)) (row : Row) (i : Nat) :
    (widenRow types row)[i]? = types[i]?.map fun t =>
      widenScalarType t (row[i]?.bind classifyCSVScalar) := by
  have right (t : Option Kind) : widenScalarType t none = t := by
    rw [widen_comm]
    rfl
  induction types, row using widenRow.induct generalizing i with
  | case1 t types cell row ih =>
    cases i with
    | zero => rfl
    | succ i => exact ih i
  | case2 types row no =>
    cases types with
    | nil => simp [widenRow]
    | cons t types =>
      cases row with
      | nil => cases i <;> simp [widenRow, right]
      | cons cell row => exact absurd rfl (no t types cell row rfl)

/-- The detected types do not depend on the order of the rows. -/
theorem inferCSVColumnTypes_perm {rows' : List Row} (perm : rows.Perm rows') (width : Nat) :
    inferCSVColumnTypes rows width = inferCSVColumnTypes rows' width := by
  refine perm.foldl_eq' (fun row _ row' _ types => ext_getElem? fun i => ?_) _
  simp only [getElem?_widenRow, Option.map_map]
  congr 1
  funext t
  rw [Function.comp_apply, Function.comp_apply, widen_assoc, widen_assoc,
    widen_comm (row[i]?.bind _)]

theorem within_foldl {types : List (Option Kind)} {i : Nat} {a t : Option Kind}
    (at_ : types[i]? = some t) (le : Within a t) :
    ∃ t', (rows.foldl widenRow types)[i]? = some t' ∧ Within a t' := by
  induction rows generalizing types t with
  | nil => exact ⟨t, at_, le⟩
  | cons row rows ih => exact ih (by rw [getElem?_widenRow, at_]; rfl) (le.widen _)

/-- The type of a column is that of all its cells, or wider. -/
theorem within_infer (types : List (Option Kind)) {row : Row} (mem : row ∈ rows) {i : Nat}
    (at_ : row[i]? = some cell) (lt : i < types.length) :
    ∃ t, (rows.foldl widenRow types)[i]? = some t ∧ Within (classifyCSVScalar cell) t := by
  induction rows generalizing types with
  | nil => cases mem
  | cons first rows ih =>
    have here : (widenRow types first)[i]? = some (widenScalarType types[i]
        (first[i]?.bind classifyCSVScalar)) := by
      rw [getElem?_widenRow, getElem?_eq_getElem lt]
      rfl
    rw [foldl_cons]
    rcases mem_cons.mp mem with rfl | mem
    · rw [at_] at here
      exact within_foldl here (within_right _ _)
    · exact ih _ mem (List.getElem?_eq_some_iff.mp here).1

/-! ## Cells -/

/-- A character that is neither white space nor NUL. -/
def solid (c : Char) : Bool := !isSpace c && c != '\x00'

/-- What holds of `strconv.ParseFloat`: it takes no white space and no NUL, and all integers. -/
class LawfulFloats : Prop where
  solid : ∀ s : String, (GoFormat.parseFloat s).isOk → s.toList.all Autodetect.solid
  ints : ∀ s : String, (parseInt64 s.toList).isSome → (GoFormat.parseFloat s).isOk

/-- The texts of a type that are no empty ones. -/
def accepts : Kind → String → Bool
  | .int64, s => (parseInt64 s.toList).isSome
  | .float64, s => (GoFormat.parseFloat s).isOk
  | .bool, s => (parseBool s).isOk
  | .string, _ => true

omit [GoFormat] in
theorem all_solid_of_parseBool {s : String} (h : (parseBool s).isOk) : s.toList.all solid := by
  have all {texts : List String} (mem : s ∈ texts) (fine : texts.all fun s => s.toList.all solid) :=
    all_eq_true.mp fine s mem
  unfold parseBool at h
  split at h
  next mem => exact all mem (by decide)
  · split at h
    next mem => exact all mem (by decide)
    · cases h

omit [GoFormat] in
theorem all_solid_of_parseInt64 {s : List Char} (h : (parseInt64 s).isSome) : s.all solid := by
  have ascii (c : Char) (low : 33 ≤ c.toNat) (high : c.toNat < 133) : solid c := by
    have plain : isSpace c = false := by
      by_contra space
      have := toNat_of_isSpace (Bool.not_eq_false _ ▸ space)
      omega
    have ne : c ≠ '\x00' := by
      rintro rfl
      exact absurd low (by decide)
    simp [solid, plain, ne]
  have digits {ds : List Char} (all : ds.all fun c => '0' ≤ c && c ≤ '9') : ds.all solid := by
    refine all_eq_true.mpr fun c mem => ?_
    have range := all_eq_true.mp all c mem
    rw [Bool.and_eq_true, decide_eq_true_eq, decide_eq_true_eq] at range
    have low : 48 ≤ c.toNat := range.1
    have high : c.toNat ≤ 57 := range.2
    exact ascii c (by omega) (by omega)
  unfold parseInt64 at h
  dsimp only at h
  have all {ds : List Char} {n : Option Int64}
      (h : (if ds.isEmpty || !ds.all fun c => '0' ≤ c && c ≤ '9' then none else n).isSome) :
      ds.all solid := by
    split at h
    · cases h
    next fine => exact digits (by simp_all)
  split at h
  next sign =>
    cases s with
    | nil => rfl
    | cons c s =>
      have ok : solid c := by
        rw [Bool.or_eq_true, beq_iff_eq, beq_iff_eq] at sign
        rcases sign with is | is <;> cases is <;> rfl
      exact Bool.and_eq_true_iff.mpr ⟨ok, all h⟩
  · exact all h

omit [GoFormat] in
theorem mem_trimSpace {s : List Char} {c : Char} (mem : c ∈ s) (visible : isSpace c = false) :
    c ∈ trimSpace s := by
  obtain ⟨l, r, eq, left, right, -⟩ := trimSpace_spec s
  rw [eq, mem_append, mem_append] at mem
  rcases mem with mem | mem | mem
  · exact absurd (left c mem) (by simp [visible])
  · exact mem
  · exact absurd (right c mem) (by simp [visible])

variable [LawfulFloats] {k : Kind}

theorem all_solid_of_accepts (ne : k ≠ .string) {s : String} (h : accepts k s) :
    s.toList.all solid := by
  cases k with
  | int64 => exact all_solid_of_parseInt64 h
  | float64 => exact LawfulFloats.solid s h
  | bool => exact all_solid_of_parseBool h
  | string => exact absurd rfl ne

/-- A cell whose type is detected is not one of the reserved texts. -/
theorem loadStoredCell_classified (ne : classifyCSVScalar cell ≠ some .string) :
    loadStoredCell cell = some cell := by
  by_contra reserved
  have nul : '\x00' ∈ (trimSpaceStr cell).toList := by
    rw [trimSpaceStr, String.toList_ofList]
    refine mem_trimSpace ?_ rfl
    rw [loadStoredCell_eq_self_iff, not_and_or, not_not, Bool.not_eq_false] at reserved
    rcases reserved with rfl | starts
    · decide
    · exact ( isPrefixOf_iff_prefix.mp starts).subset (by decide)
  have bare {s : String} (all : s.toList.all solid) : '\x00' ∉ s.toList := fun mem =>
    absurd (all_eq_true.mp all _ mem) (by decide)
  unfold classifyCSVScalar at ne
  dsimp only at ne
  split at ne
  next empty => rw [empty] at nul; cases nul
  split at ne
  next isInt => exact bare (all_solid_of_parseInt64 isInt) nul
  split at ne
  next isFloat => exact bare (LawfulFloats.solid _ isFloat) nul
  · split at ne
    next isBool =>
      have lower := bare (all_solid_of_parseBool isBool)
      rw [String.toList_ofList] at lower
      exact lower (mem_map.mpr ⟨_, nul, rfl⟩)
    · exact ne rfl

/-- The cell is written as it will be read. -/
def AsRead (k : Kind) (cell : String) : Prop :=
  trimSpaceStr cell = cell ∧ (k = .bool → cell = "" ∨ (parseBool cell).isOk)

omit [LawfulFloats] in
theorem convertLoaded_isOk (ne : k ≠ .string) (cell : String) :
    (convertLoaded k.name cell).isOk ↔ cell = "" ∨ accepts k cell := by
  have hi : typeName "INT64" = "INT64" := by decide
  have hf : typeName "FLOAT64" = "FLOAT64" := by decide
  have hb : typeName "BOOL" = "BOOL" := by decide
  have map {α : Type} (x : Except String α) (f : α → GoValue) : (x.map f).isOk = x.isOk := by
    cases x <;> rfl
  have parsed : (parseInt cell).isOk = (parseInt64 cell.toList).isSome := by
    unfold parseInt
    cases parseInt64 cell.toList <;> rfl
  rw [convertLoaded]
  split
  next empty => simp_all [Except.isOk, Except.toBool]
  next full =>
    have given : cell ≠ "" := by
      rintro rfl
      cases k <;> simp_all [emptyIsNull, Kind.name]
    rw [parseScalar]
    cases k <;> simp_all [Kind.name, accepts]

theorem converts_iff (ne : k ≠ .string) (fits : Within (classifyCSVScalar cell) (some k)) :
    (convertScalarForInsert k.name cell).isOk ↔ AsRead k cell := by
  have typed : classifyCSVScalar cell ≠ some .string := fun is => by
    rw [is] at fits
    cases k <;> cases fits
    exact ne rfl
  rw [convertScalarForInsert, loadStoredCell_classified typed]
  dsimp only
  rw [convertLoaded_isOk ne]
  constructor
  · rintro (rfl | accepted)
    · exact ⟨by decide, fun _ => .inl rfl⟩
    · have all := all_eq_true.mp (all_solid_of_accepts ne accepted)
      have plain : ∀ c ∈ cell.toList, ¬isSpace c := fun c mem => by
        have := all c mem
        simp_all [solid]
      refine ⟨?_, fun is => .inr (by subst is; exact accepted)⟩
      rw [trimSpaceStr, trimSpace_of_trimmed, String.ofList_toList]
      exact ⟨fun c head => plain c (mem_of_head? head),
        fun c last => plain c (mem_of_getLast? last)⟩
  · rintro ⟨trimmed, spelled⟩
    by_cases empty : cell = ""
    · exact .inl empty
    refine .inr ?_
    unfold classifyCSVScalar at fits
    rw [trimmed, if_neg empty] at fits
    split at fits
    next isInt =>
      cases k with
      | int64 => exact isInt
      | float64 => exact LawfulFloats.ints _ isInt
      | bool => cases fits
      | string => exact absurd rfl ne
    · split at fits
      next isFloat =>
        cases k with
        | float64 => exact isFloat
        | string => exact absurd rfl ne
        | _ => cases fits
      · split at fits
        · cases k with
          | bool => exact (spelled rfl).resolve_left empty
          | string => exact absurd rfl ne
          | _ => cases fits
        · cases k with
          | string => exact absurd rfl ne
          | _ => cases fits

/-- A cell fits its column just if it is written as it will be read, or all texts fit. -/
theorem converts_column_iff {t : Option Kind} (within : Within (classifyCSVScalar cell) t) :
    (convertScalarForInsert (t.getD .string).name cell).isOk ↔
      (t.getD .string ≠ .string → AsRead (t.getD .string) cell) := by
  by_cases text : t.getD .string = .string
  · refine iff_of_true ?_ fun ne => absurd text ne
    have type : typeName "STRING" = "STRING" := by decide
    rw [text, convertScalarForInsert]
    cases loadStoredCell cell <;> simp [convertLoaded, emptyIsNull, parseScalar, Kind.name, type,
      Except.isOk, Except.toBool]
  · cases t with
    | none => exact absurd rfl text
    | some k => exact (converts_iff text within).trans ⟨fun h _ => h, fun h => h text⟩

/-! ## Loading what was detected -/

/-- Loading with the detected schema stores every record but the header, all cells fit their
columns, and the order of the rows made no difference. -/
structure SoundDetection (uri : String) (records : List Row) (skip : Nat) (schema : List TableField)
    (header : Nat) : Prop where
  rows : parseCSVRows uri records schema (skip + header) = .ok (records.drop (skip + header))
  cells : ∀ row ∈ records.drop (skip + header), ∀ (i : Nat) (cell : String) (field : TableField),
    row[i]? = some cell → schema[i]? = some field →
      (convertScalarForInsert field.type cell).isOk
  order : ∀ rows, rows.Perm (records.drop (skip + header)) → ∀ width,
    inferCSVColumnTypes rows width = inferCSVColumnTypes (records.drop (skip + header)) width

omit [GoFormat] [LawfulFloats] in
theorem name_injective : Function.Injective Kind.name := by
  intro k k' same
  cases k <;> cases k' <;> simp_all [Kind.name]

omit [GoFormat] [LawfulFloats] in
theorem rejectNestedFields_columns (cs : List (String × Option Kind)) :
    StorageWrite.rejectNestedFields "CSV" (cs.map fun c => column c.1 c.2) = .ok () := by
  induction cs with
  | nil => rfl
  | cons c cs ih =>
    have scalar : ∀ k : Kind, isRecordType k.name = false := by
      intro k
      cases k <;> decide
    rw [map_cons, StorageWrite.rejectNestedFields, if_neg]
    · exact ih
    · simp [column, scalar]

omit [GoFormat] [LawfulFloats] in
theorem csvRows_ok {width : Nat} {records : List Row} (uri : String)
    (same : ∀ row ∈ records, row.length = width) (n : Nat) :
    csvRows uri width n records = .ok records := by
  induction records generalizing n with
  | nil => rfl
  | cons record records ih =>
    obtain ⟨here, rest⟩ := forall_mem_cons.mp same
    rw [csvRows, if_neg (not_not.mpr here), ih rest]
    rfl

omit [LawfulFloats] in
theorem length_inferCSVColumnTypes (rows : List Row) (width : Nat) :
    (inferCSVColumnTypes rows width).length = width := by
  have step (types : List (Option Kind)) (row : Row) :
      (widenRow types row).length = types.length := by
    induction types, row using widenRow.induct with
    | case1 t types cell row ih => rw [widenRow, length_cons, length_cons, ih]
    | case2 types row no => rw [widenRow.eq_2 _ _ no]
  have run (types : List (Option Kind)) : (rows.foldl widenRow types).length = types.length := by
    induction rows generalizing types with
    | nil => rfl
    | cons row rows ih => rw [foldl_cons, ih, step]
  rw [inferCSVColumnTypes, run, length_replicate]

omit [LawfulFloats] in
/-- A detected schema has the types of the data rows. -/
theorem detectSchemaFromCSV_spec {records : List Row} {skip width : Nat}
    (some : records.drop skip ≠ []) (sampled : (records.drop skip).length ≤ autodetectSampleLimit)
    (same : ∀ row ∈ records.drop skip, row.length = width) :
    ∃ (names : List String) (header : Nat), detectSchemaFromCSV records skip = .ok ((names.zip (inferCSVColumnTypes
        (records.drop (skip + header)) width)).map fun c => column c.1 c.2, header) ∧
      names.length = width ∧ skip + header ≤ records.length := by
  have lt : skip < records.length := by
    by_contra past
    exact some (drop_eq_nil_of_le (by omega))
  rw [detectSchemaFromCSV, take_of_length_le sampled]
  cases rows : records.drop skip with
  | nil => exact absurd rows some
  | cons first rest =>
    have first_length := same first (rows ▸ mem_cons_self)
    have data (header : Nat) : records.drop (skip + header) = (first :: rest).drop header := by
      rw [← drop_drop, rows]
    dsimp only
    rw [detectCSVHeader]
    split
    · exact ⟨first, 1, by rw [data, first_length], first_length, lt⟩
    · exact ⟨genericCSVColumnNames width, 0, by rw [data, first_length],
        by simp [genericCSVColumnNames], by omega⟩

/-- For records of one width within the sample, the detected schema is sound if and only if the
cells of the data rows in columns that are no strings are written as they will be read. -/
theorem sound_iff (uri : String) {records : List Row} {skip width : Nat}
    (some : records.drop skip ≠ [])
    (sampled : (records.drop skip).length ≤ autodetectSampleLimit)
    (same : ∀ row ∈ records.drop skip, row.length = width) :
    ∃ schema header, detectSchemaFromCSV records skip = .ok (schema, header) ∧
      (SoundDetection uri records skip schema header ↔
        ∀ row ∈ records.drop (skip + header), ∀ (i : Nat) (cell : String) (k : Kind),
          row[i]? = Option.some cell → schema[i]?.map (·.type) = Option.some k.name →
            k ≠ .string → AsRead k cell) := by
  obtain ⟨names, header, detected, length, le⟩ := detectSchemaFromCSV_spec some sampled same
  refine ⟨_, header, detected, ?_⟩
  generalize typesEq : inferCSVColumnTypes (records.drop (skip + header)) width = types
  have widths : ∀ row ∈ records.drop (skip + header), row.length = width := fun row mem =>
    same row (mem_of_mem_drop (by rwa [drop_drop]))
  have lengths : types.length = width := typesEq ▸ length_inferCSVColumnTypes ..
  -- the type of a column is that of its cells, or wider
  have typed {row : Row} (mem : row ∈ records.drop (skip + header)) {i : Nat} {cell : String}
      (at_ : row[i]? = Option.some cell) :
      ∃ name t, ((names.zip types).map fun c => column c.1 c.2)[i]? = Option.some (column name t) ∧
        Within (classifyCSVScalar cell) t := by
    have lt : i < width := by
      rw [← widths row mem]
      exact (List.getElem?_eq_some_iff.mp at_).1
    obtain ⟨t, found, within⟩ := within_infer (List.replicate width none) mem at_
      (by rwa [length_replicate])
    have found : types[i]? = Option.some t := typesEq ▸ found
    refine ⟨names[i], t, ?_, within⟩
    have pair : (names.zip types)[i]? = Option.some (names[i], t) :=
      getElem?_zip_eq_some.mpr ⟨getElem?_eq_getElem _, found⟩
    rw [getElem?_map, pair]
    rfl
  constructor
  · intro sound row mem i cell k at_ type ne
    obtain ⟨name, t, field, within⟩ := typed mem at_
    rw [field, Option.map_some, Option.some.injEq] at type
    obtain rfl : t.getD .string = k := name_injective type
    exact (converts_column_iff within).mp
      (sound.cells row mem i cell (column name t) at_ field) ne
  · intro read
    refine ⟨?_, fun row mem i cell field at_ found => ?_,
      fun rows perm width => inferCSVColumnTypes_perm perm width⟩
    · rw [parseCSVRows, rejectNestedFields_columns, Nat.min_eq_left le]
      refine csvRows_ok uri (fun row mem => ?_) _
      rw [widths row mem, length_map, length_zip, length, lengths, Nat.min_self]
    · obtain ⟨name, t, here, within⟩ := typed mem at_
      rw [here, Option.some.injEq] at found
      subst found
      show (convertScalarForInsert (t.getD .string).name cell).isOk
      exact (converts_column_iff within).mpr (read row mem i cell _ at_ (by rw [here]; rfl))

end

section

/-- Floats that are integers. -/
@[reducible] def integerFloats : GoFormat :=
  ⟨fun s => if (parseInt64 s.toList).isSome then .ok .nan else .error "", fun _ => ""⟩

attribute [local instance] integerFloats

instance : LawfulFloats where
  solid s h := by
    change (if (parseInt64 s.toList).isSome then Except.ok Float64.nan
      else Except.error "").isOk = true at h
    split at h
    next isInt => exact all_solid_of_parseInt64 isInt
    · cases h
  ints s h := by
    show (if (parseInt64 s.toList).isSome then Except.ok Float64.nan
      else Except.error "").isOk = true
    rw [if_pos h]
    rfl

theorem sound_iff_two : ∃ schema header,
    detectSchemaFromCSV [["id", "on"], ["7", "true"]] 0 = .ok (schema, header) ∧
      (SoundDetection "u" [["id", "on"], ["7", "true"]] 0 schema header ↔
        ∀ row ∈ [["id", "on"], ["7", "true"]].drop (0 + header), ∀ (i : Nat) (cell : String)
          (k : Kind), row[i]? = some cell → schema[i]?.map (·.type) = some k.name →
            k ≠ .string → AsRead k cell) :=
  sound_iff "u" (by decide) (by decide)
    (show ∀ row ∈ [["id", "on"], ["7", "true"]].drop 0, row.length = 2 by decide)

/-- A number behind a blank. -/
theorem padded_number_rejected : ∃ schema header,
    detectSchemaFromCSV [[" 7"]] 0 = .ok (schema, header) ∧
      ¬SoundDetection "u" [[" 7"]] 0 schema header :=
  ⟨[column "string_field_0" (some .int64)], 0, by decide, fun sound =>
    absurd (sound.cells [" 7"] mem_cons_self 0 " 7" _ rfl rfl) (by decide)⟩

end

end LocaQL.Autodetect
