import LocaQL.Catalog.Partitioning
import LocaQL.Lib.Fallible

/-!
# Table definitions in requests

The parts of a table resource as the table requests read them from JSON: the schema, the
partitioning, the clustering and the expiration.  The columns that partitioning and clustering
name are looked up in the schema, and must have a type that fits (`TimeColumn`,
`RangeColumn`, `ClusterColumn`).
-/

namespace LocaQL

open GoText List

open Fallible (bind_ok)

/-! ## Schemas -/

/-- The text member of an object, empty without one. -/
def textMember (ms : List (String × Json)) (name : String) : String :=
  (Json.lookup ms name).str?.getD ""

mutual

/-- One element of a field list; `none` if it is skipped. -/
def parseTableSchemaField : Json → Option TableField
  | .obj ms =>
    let name := trimSpaceStr (textMember ms "name")
    let type := toUpperStr (trimSpaceStr (textMember ms "type"))
    let type := if type = "" then "STRING" else type
    let mode := toUpperStr (trimSpaceStr (textMember ms "mode"))
    if name = "" then none
    else some ⟨name, type, mode, if isRecordType type then fieldsMember ms else []⟩
  | _ => none

def parseTableSchemaFieldList : List Json → List TableField
  | [] => []
  | v :: vs => (parseTableSchemaField v).toList ++ parseTableSchemaFieldList vs

/-- The columns in the last member `fields`. -/
def fieldsMember : List (String × Json) → List TableField
  | [] => []
  | (name, v) :: ms =>
    if ms.any fun m => m.1 == "fields" then fieldsMember ms
    else if name = "fields" then fieldArray v
    else []

def fieldArray : Json → List TableField
  | .arr items => parseTableSchemaFieldList items
  | _ => []

end

def parseTableSchemaFields : Json → List TableField
  | .obj ms => fieldsMember ms
  | _ => []

/-- The member is the one that a lookup finds. -/
theorem fieldsMember_eq (ms : List (String × Json)) :
    fieldsMember ms = fieldArray (Json.lookup ms "fields") := by
  induction ms with
  | nil => simp only [fieldsMember, Json.lookup, reverse_nil, find?_nil, fieldArray]
  | cons m ms ih =>
    obtain ⟨name, v⟩ := m
    rw [fieldsMember, ← any_reverse, ← isSome_find?, ih]
    simp only [Json.lookup, reverse_cons, find?_append]
    cases ms.reverse.find? fun m => m.1 == "fields" with
    | some m => rfl
    | none =>
      by_cases here : name = "fields"
      · simp [here]
      · simp [here, fieldArray]

/-! ## Integers -/

def parseExactInt64 : Json → Option Int64
  | .str s => parseInt64 (trimSpace s.toList)
  | .num literal =>
    let (n, exact) := Json.truncate literal
    if exact && -(2 ^ 63) ≤ n && n < 2 ^ 63 then some (Int64.ofInt n) else none
  | _ => none

/-- `parseFlexibleInt64FromAny`.  A float outside the range converts to the least integer,
as on amd64. -/
def parseFlexibleInt64FromAny : Json → Option Int64
  | .null => some 0
  | .str s => parseInt64 (trimSpace s.toList)
  | .num literal =>
    let n := (Json.truncate literal).1
    some (if -(2 ^ 63) ≤ n && n < 2 ^ 63 then Int64.ofInt n else Int64.minValue)
  | _ => none

/-- `time.UnixMilli`. -/
def unixMilli (ms : Int64) : Time := 62135596800 * 1000000000 + ms.toInt * 1000000

def parseExpirationTimeField (v : Json) : Option Time :=
  (parseFlexibleInt64FromAny v).map fun ms => if ms ≤ 0 then 0 else unixMilli ms

/-! ## Columns by name -/

/-- A name denotes a column with the given property. -/
def Denotes (schema : List TableField) (name : String) (fits : TableField → Prop) : Prop :=
  ∃ f i, findTopLevelField schema name = some (f, i) ∧ fits f

/-- What a column must be to partition by time. -/
structure TimeColumn (type : PartitionType) (f : TableField) : Prop where
  temporal : toUpperStr (trimSpaceStr f.type) = "DATE" ∨
    toUpperStr (trimSpaceStr f.type) = "TIMESTAMP"
  single : normalizeMode f.mode ≠ "REPEATED"
  hourly : ¬(toUpperStr (trimSpaceStr f.type) = "DATE" ∧ type = .hour)

/-- What a column must be to partition by integer ranges. -/
structure RangeColumn (f : TableField) : Prop where
  integer : equalFold f.type "INT64"
  single : normalizeMode f.mode ≠ "REPEATED"

/-- What a column must be to cluster by it. -/
structure ClusterColumn (f : TableField) : Prop where
  single : normalizeMode f.mode ≠ "REPEATED"
  scalar : isRecordType f.type = false

instance (type : PartitionType) (f : TableField) : Decidable (TimeColumn type f) :=
  decidable_of_iff
    ((toUpperStr (trimSpaceStr f.type) = "DATE" ∨
        toUpperStr (trimSpaceStr f.type) = "TIMESTAMP") ∧
      normalizeMode f.mode ≠ "REPEATED" ∧
      ¬(toUpperStr (trimSpaceStr f.type) = "DATE" ∧ type = .hour))
    ⟨fun h => ⟨h.1, h.2.1, h.2.2⟩, fun h => ⟨h.temporal, h.single, h.hourly⟩⟩

instance (f : TableField) : Decidable (RangeColumn f) :=
  decidable_of_iff (equalFold f.type "INT64" ∧ normalizeMode f.mode ≠ "REPEATED")
    ⟨fun h => ⟨h.1, h.2⟩, fun h => ⟨h.integer, h.single⟩⟩

instance (f : TableField) : Decidable (ClusterColumn f) :=
  decidable_of_iff (normalizeMode f.mode ≠ "REPEATED" ∧ isRecordType f.type = false)
    ⟨fun h => ⟨h.1, h.2⟩, fun h => ⟨h.single, h.scalar⟩⟩

variable {name : String} {schema : List TableField} {f : TableField} {v : Json}

/-- A name denotes the first column that has it. -/
theorem denotes_iff {fits : TableField → Prop} :
    Denotes schema name fits ↔
      ∃ f, schema.find? (fun f => equalFold f.name (trimSpaceStr name)) = some f ∧
        fits f := by
  have indexed : (findTopLevelField schema name).map (·.1) =
      schema.find? fun f => equalFold f.name (trimSpaceStr name) := by
    rw [findTopLevelField, ← Function.comp_def (fun f : TableField => equalFold f.name _)
      Prod.fst, ← find?_map, zipIdx_map_fst]
  constructor
  · intro h
    obtain ⟨f, i, found, holds⟩ := h
    rw [found] at indexed
    exact ⟨f, indexed.symm, holds⟩
  · intro h
    obtain ⟨f, found, holds⟩ := h
    rw [found] at indexed
    obtain ⟨⟨f', i⟩, there, rfl⟩ := Option.map_eq_some_iff.mp indexed
    exact ⟨f', i, there, holds⟩

instance (schema : List TableField) (name : String) (fits : TableField → Prop)
    [DecidablePred fits] : Decidable (Denotes schema name fits) :=
  decidable_of_iff
    ((schema.find? fun f => equalFold f.name (trimSpaceStr name)).any
      fun f => decide (fits f)) (by
    rw [denotes_iff]
    cases schema.find? fun f => equalFold f.name (trimSpaceStr name) with
    | none => simp
    | some f => simp)

theorem map_foldRune_trimSpaceStr {s t : String} (h : equalFold s t) :
    (trimSpaceStr s).toList.map foldRune = (trimSpaceStr t).toList.map foldRune := by
  simp only [equalFold, beq_iff_eq] at h
  simp only [trimSpaceStr, String.toList_ofList, ← trimSpace_map_foldRune, h]

/-- Names that are the same but for case and white space around them denote the same
column. -/
theorem findTopLevelField_congr {name' : String}
    (h : equalFold (trimSpaceStr name) (trimSpaceStr name')) :
    findTopLevelField schema name = findTopLevelField schema name' := by
  simp only [equalFold, beq_iff_eq] at h
  simp only [findTopLevelField, equalFold, h]

theorem equalFold_of_findTopLevelField {i : Nat} (h : findTopLevelField schema name = some (f, i)) :
    equalFold f.name (trimSpaceStr name) := by
  have := find?_some (p := fun f : TableField × Nat =>
    equalFold f.1.name (trimSpaceStr name)) h
  exact this

theorem findTopLevelField_eq_none :
    findTopLevelField schema name = none ↔ ∀ f ∈ schema, ¬equalFold f.name (trimSpaceStr name) := by
  simp only [findTopLevelField, find?_eq_none]
  constructor
  · intro h f mem
    obtain ⟨i, at_⟩ := mem_iff_getElem?.mp mem
    exact h (f, i) (mk_mem_zipIdx_iff_getElem?.mpr at_)
  · intro h f mem
    exact h f.1 (fst_mem_of_mem_zipIdx mem)

/-- A column that was found is found under its own name. -/
theorem findTopLevelField_self {i : Nat} (h : findTopLevelField schema name = some (f, i)) :
    findTopLevelField schema f.name = some (f, i) := by
  have folds := map_foldRune_trimSpaceStr (equalFold_of_findTopLevelField h)
  have again : trimSpaceStr (trimSpaceStr name) = trimSpaceStr name := by
    simp only [trimSpaceStr, String.toList_ofList,
      trimSpace_of_trimmed (trimmed_trimSpace name.toList)]
  rw [again] at folds
  rw [← h]
  exact findTopLevelField_congr (by simp only [equalFold, folds, beq_self_eq_true])

/-! ## Partitioning -/

/-- A value that has to be there. -/
def orError {α : Type} (text : String) : Option α → Except String α
  | some a => .ok a
  | none => .error text

theorem orError_ok {α : Type} {text : String} {o : Option α} {a : α} :
    orError text o = .ok a ↔ o = some a := by
  cases o with
  | none | some b => simp [orError]

def partitionType? (type : String) : Option PartitionType :=
  if type = "DAY" then some .day
  else if type = "HOUR" then some .hour
  else if type = "MONTH" then some .month
  else if type = "YEAR" then some .year
  else none

def parsePartitionType (obj : List (String × Json)) : Except String PartitionType :=
  match Json.lookup? obj "type" with
  | none => .ok .day
  | some (.str s) =>
    orError "timePartitioning.type must be DAY, HOUR, MONTH, or YEAR"
      (partitionType? (toUpperStr (trimSpaceStr s)))
  | some _ => .error "timePartitioning.type must be a string"

def parsePartitionExpiration (obj : List (String × Json)) : Except String Int64 :=
  let allowed (ms : Int64) : Bool := 0 < ms && ms ≤ 9223372036854775807 / 1000000
  match Json.lookup? obj "expirationMs" with
  | none | some .null => .ok 0
  | some v =>
    orError "timePartitioning.expirationMs must be a positive integer string or number"
      ((parseExactInt64 v).filter allowed)

/-- The columns of an ingestion-time partitioned table that are not stored. -/
def reservedColumns : List String :=
  ["_PARTITIONTIME", "_PARTITIONDATE", ingestionPartitionTimeColumn, ingestionPartitionDateColumn]

/-- The checks on the column of time partitioning. -/
def checkTimeColumn (type : PartitionType) (field : TableField) : Except String String :=
  let quoted := quote field.name
  let fieldType := toUpperStr (trimSpaceStr field.type)
  if fieldType ≠ "DATE" ∧ fieldType ≠ "TIMESTAMP" then
    .error s!"timePartitioning.field {quoted} must have type DATE or TIMESTAMP"
  else if normalizeMode field.mode = "REPEATED" then
    .error s!"timePartitioning.field {quoted} cannot be REPEATED"
  else if fieldType = "DATE" ∧ type = .hour then
    .error "HOUR partitioning requires a TIMESTAMP field"
  else .ok field.name

def parsePartitionField (schema : List TableField) (type : PartitionType)
    (obj : List (String × Json)) : Except String String :=
  match Json.lookup? obj "field" with
  | none =>
    match reservedColumns.findSome? (findTopLevelField schema) with
    | some (field, _) =>
      let quoted := quote field.name
      .error s!"field {quoted} is reserved for ingestion-time partition pseudocolumns"
    | none => .ok ""
  | some v => do
      let name := v.str?.getD ""
      if trimSpaceStr name = "" then
        .error "timePartitioning.field must be a non-empty string"
      else
        let quoted := quote (trimSpaceStr name)
        let (field, _) ← orError
          s!"timePartitioning.field {quoted} is not a top-level schema field"
          (findTopLevelField schema name)
        checkTimeColumn type field

def parseTimePartitioning (v : Json) (schema : List TableField) :
    Except String TimePartitioningConfig := do
  let obj ← orError "timePartitioning must be an object" v.obj?
  let type ← parsePartitionType obj
  let expirationMs ← parsePartitionExpiration obj
  let field ← parsePartitionField schema type obj
  return ⟨type, field, expirationMs⟩

/-- The bounds of range partitioning, checked. -/
def rangeConfig (field : String) (start stop interval : Int64) :
    Except String RangePartitioningConfig :=
  if less : start < stop then
    if positive : 0 < interval then .ok ⟨field, start, stop, interval, less, positive⟩
    else .error "rangePartitioning.range.interval must be positive"
  else .error "rangePartitioning.range.start must be less than end"

def parseRangePartitioning (v : Json) (schema : List TableField) :
    Except String RangePartitioningConfig := do
  let obj ← orError "rangePartitioning must be an object" v.obj?
  let name := textMember obj "field"
  if trimSpaceStr name = "" then .error "rangePartitioning.field is required"
  else
    let quoted := quote (trimSpaceStr name)
    let (field, _) ← orError
      s!"rangePartitioning.field {quoted} is not a top-level schema field"
      (findTopLevelField schema name)
    if !equalFold field.type "INT64" ∨ normalizeMode field.mode = "REPEATED" then
      let quoted := quote field.name
      .error s!"rangePartitioning.field {quoted} must be a non-repeated INT64 field"
    else
      let range ← orError "rangePartitioning.range is required" (Json.lookup obj "range").obj?
      let bound (name : String) := orError
        "rangePartitioning.range.start, end, and interval must be integer strings or numbers"
        (parseExactInt64 (Json.lookup range name))
      let start ← bound "start"
      let stop ← bound "end"
      let interval ← bound "interval"
      rangeConfig field.name start stop interval

/-- One element of `clustering.fields`. -/
def clusteringField (schema : List TableField) (raw : Json) : Except String TableField := do
  let name := raw.str?.getD ""
  if trimSpaceStr name = "" then
    .error "clustering.fields values must be non-empty strings"
  else
    let quoted := quote (trimSpaceStr name)
    let (field, _) ← orError s!"clustering field {quoted} is not a top-level schema field"
      (findTopLevelField schema name)
    if normalizeMode field.mode = "REPEATED" ∨ isRecordType field.type then
      let quoted := quote field.name
      .error s!"clustering field {quoted} must be a non-repeated scalar field"
    else .ok field

/-- The loop of `parseClustering`; `seen` holds the names so far in lower case. -/
def clusteringFields (schema : List TableField) :
    List (List Char) → List Json → Except String (List String)
  | _, [] => .ok []
  | seen, raw :: rest => do
      let field ← clusteringField schema raw
      let key := toLower field.name.toList
      if key ∈ seen then
        let quoted := quote field.name
        .error s!"clustering field {quoted} is duplicated"
      else
        let names ← clusteringFields schema (key :: seen) rest
        return field.name :: names

def parseClustering (v : Json) (schema : List TableField) : Except String (List String) :=
  match v with
  | .null => .ok []
  | v => do
      let obj ← orError "clustering must be an object" v.obj?
      let rawFields ← orError "clustering.fields must be an array" (Json.lookup obj "fields").arr?
      if rawFields.length > 4 then .error "clustering.fields supports at most 4 columns"
      else clusteringFields schema [] rawFields

/-- `sameTimePartitioningDefinition`, where both are there. -/
def sameTimePartitioningDefinition (a b : TimePartitioningConfig) : Bool :=
  a.type = b.type && equalFold a.field b.field

/-- `sameRangePartitioning`, where both are there. -/
def sameRangePartitioning (a b : RangePartitioningConfig) : Bool :=
  equalFold a.field b.field && a.start = b.start && a.stop = b.stop &&
    a.interval = b.interval

def validatePartitioningCombination (timeConfig : Option TimePartitioningConfig)
    (rangeConfig : Option RangePartitioningConfig) (requireFilter : Bool) : Except String Unit :=
  if timeConfig.isSome ∧ rangeConfig.isSome then
    .error "timePartitioning and rangePartitioning are mutually exclusive"
  else if requireFilter ∧ timeConfig.isNone ∧ rangeConfig.isNone then
    .error "requirePartitionFilter can only be true for a partitioned table"
  else .ok ()

/-! ## What the parsers accept -/

theorem checkTimeColumn_ok {type : PartitionType} (h : checkTimeColumn type f = .ok name) :
    TimeColumn type f ∧ name = f.name := by
  simp only [checkTimeColumn] at h
  split at h
  · cases h
  next other =>
    split at h
    · cases h
    next single =>
      split at h
      · cases h
      next hourly =>
        refine ⟨⟨?_, single, hourly⟩, (Except.ok.inj h).symm⟩
        rw [not_and_or, not_not, not_not] at other
        exact other

theorem parsePartitionField_ok {type : PartitionType} {obj : List (String × Json)}
    (h : parsePartitionField schema type obj = .ok name) :
    (name = "" ∧ ∀ reserved ∈ reservedColumns, findTopLevelField schema reserved = none) ∨
      (name ≠ "" ∧ Denotes schema name (TimeColumn type)) := by
  rw [parsePartitionField] at h
  split at h
  · split at h
    · cases h
    next none =>
      cases h
      exact .inl ⟨rfl, fun c mem => findSome?_eq_none_iff.mp none c mem⟩
  · dsimp only at h
    split at h
    · cases h
    next given =>
      obtain ⟨⟨f, i⟩, found, checked⟩ := bind_ok.mp h
      obtain ⟨fits, rfl⟩ := checkTimeColumn_ok checked
      have found := orError_ok.mp found
      refine .inr ⟨?_, f, i, findTopLevelField_self found, fits⟩
      intro empty
      have folds := equalFold_of_findTopLevelField found
      rw [show f.name = "" from empty] at folds
      simp only [equalFold, String.toList_empty, map_nil, beq_iff_eq, nil_eq,
        map_eq_nil_iff, String.toList_eq_nil_iff] at folds
      exact given folds

/-- Time partitioning is by ingestion time, if no column has a reserved name, or by a column
that fits. -/
theorem parseTimePartitioning_ok {config : TimePartitioningConfig}
    (h : parseTimePartitioning v schema = .ok config) :
    (config.field = "" ∧ ∀ reserved ∈ reservedColumns, findTopLevelField schema reserved = none) ∨
      (config.field ≠ "" ∧ Denotes schema config.field (TimeColumn config.type)) := by
  obtain ⟨obj, -, h⟩ := bind_ok.mp h
  obtain ⟨type, -, h⟩ := bind_ok.mp h
  obtain ⟨expirationMs, -, h⟩ := bind_ok.mp h
  obtain ⟨field, parsed, h⟩ := bind_ok.mp h
  cases h
  exact parsePartitionField_ok parsed

theorem parseRangePartitioning_ok {config : RangePartitioningConfig}
    (h : parseRangePartitioning v schema = .ok config) :
    Denotes schema config.field RangeColumn := by
  obtain ⟨obj, -, h⟩ := bind_ok.mp h
  dsimp only at h
  split at h
  · cases h
  obtain ⟨⟨f, i⟩, found, h⟩ := bind_ok.mp h
  dsimp only at h
  split at h
  · cases h
  next fits =>
    obtain ⟨range, -, h⟩ := bind_ok.mp h
    obtain ⟨start, -, h⟩ := bind_ok.mp h
    obtain ⟨stop, -, h⟩ := bind_ok.mp h
    obtain ⟨interval, -, h⟩ := bind_ok.mp h
    rw [rangeConfig] at h
    split at h
    · split at h
      · cases h
        simp only [not_or, Bool.not_eq_true', Bool.not_eq_false] at fits
        exact ⟨f, i, findTopLevelField_self (orError_ok.mp found), fits.1, fits.2⟩
      · cases h
    · cases h

theorem clusteringField_ok {raw : Json} (h : clusteringField schema raw = .ok f) :
    Denotes schema f.name ClusterColumn := by
  simp only [clusteringField] at h
  split at h
  · cases h
  obtain ⟨⟨g, i⟩, found, h⟩ := bind_ok.mp h
  dsimp only at h
  split at h
  · cases h
  next fits =>
    cases h
    simp only [not_or, Bool.not_eq_true] at fits
    exact ⟨f, i, findTopLevelField_self (orError_ok.mp found), fits.1, fits.2⟩

theorem clusteringFields_ok {raws : List Json} {seen : List (List Char)} {names : List String}
    (h : clusteringFields schema seen raws = .ok names) :
    ∀ name ∈ names, Denotes schema name ClusterColumn := by
  induction raws generalizing seen names with
  | nil =>
    cases h
    simp
  | cons raw rest ih =>
    obtain ⟨f, parsed, h⟩ := bind_ok.mp h
    dsimp only at h
    split at h
    · cases h
    obtain ⟨others, checked, h⟩ := bind_ok.mp h
    cases h
    intro name mem
    cases mem with
    | head => exact clusteringField_ok parsed
    | tail _ mem => exact ih checked name mem

theorem parseClustering_ok {names : List String} (h : parseClustering v schema = .ok names) :
    ∀ name ∈ names, Denotes schema name ClusterColumn := by
  rw [parseClustering.eq_def] at h
  split at h
  · cases h
    simp
  · obtain ⟨obj, -, h⟩ := bind_ok.mp h
    obtain ⟨raws, -, h⟩ := bind_ok.mp h
    split at h
    · cases h
    · exact clusteringFields_ok h

end LocaQL
