import LocaQL.Catalog.Requests
import LocaQL.Catalog.IngestionLabels
import Mathlib.Data.List.Count

/-!
# Partitions of rows

`rowPartitionID` says in which partition a row lies, `partitionCounts` counts the rows of each
partition, `purgeExpiredPartitions` drops the expired ones, and `partitionTargetFromComparison`
turns a comparison of the partition column with a literal into a partition.  They find the
partition of a row independently of each other.

The buckets of integer ranges are computed in 64 bits.  They are exact as long as the distance
of a value from the start of the range fits into a signed 64-bit integer
(`isBucket_rangeBucket_iff`).
-/

namespace LocaQL

open GoText (equalFold hasPrefixStr parseInt64)

open List

open Fallible (bind_ok)

/-! ## Buckets of integer ranges -/

/-- The start of the bucket of a value, in wrapping 64-bit arithmetic with truncating
division. -/
def rangeBucket (config : RangePartitioningConfig) (value : Int64) : Int64 :=
  config.start + ((value - config.start) / config.interval) * config.interval

/-- `strconv.FormatInt`. -/
def formatInt (n : Int64) : String := toString n.toInt

/-- The bucket of a value over the integers: the start of the interval it lies in. -/
structure IsBucket (config : RangePartitioningConfig) (value bucket : Int) : Prop where
  start_le : config.start.toInt ≤ bucket
  le_value : bucket ≤ value
  near : value - bucket < config.interval.toInt
  aligned : config.interval.toInt ∣ bucket - config.start.toInt

section Buckets

variable {config : RangePartitioningConfig} {value : Int64}

theorem IsBucket.le {value b b' : Int} (h : IsBucket config value b) (h' : IsBucket config value b') :
    b ≤ b' := by
  by_contra less
  have aligned := Int.dvd_sub h.aligned h'.aligned
  have zero := Int.eq_zero_of_dvd_of_nonneg_of_lt (m := b - b') (n := config.interval.toInt)
    (by omega) (by have := h'.near; have := h.le_value; omega)
    (by rwa [sub_sub_sub_cancel_right] at aligned)
  omega

theorem IsBucket.unique {value b b' : Int} (h : IsBucket config value b)
    (h' : IsBucket config value b') : b = b' :=
  Int.le_antisymm (h.le h') (h'.le h)

/-- A result that fits into 64 bits is not wrapped. -/
theorem bmod_of_fits {n : Int} (low : -2 ^ 63 ≤ n) (high : n < 2 ^ 63) : n.bmod (2 ^ 64) = n :=
  Int.bmod_eq_of_le (by omega) (by omega)

theorem interval_pos (config : RangePartitioningConfig) : 0 < config.interval.toInt :=
  Int64.lt_iff_toInt_lt.mp config.interval_pos

/-- The quotient of a distance, rounded towards zero, and its product with the interval. -/
theorem quotient_bounds {d i : Int} (nonneg : 0 ≤ d) (positive : 0 < i) :
    0 ≤ d / i ∧ d / i ≤ d ∧ 0 ≤ d / i * i ∧ d / i * i ≤ d :=
  ⟨Int.ediv_nonneg nonneg positive.le, Int.ediv_le_self i nonneg,
    Int.mul_nonneg (Int.ediv_nonneg nonneg positive.le) positive.le,
    Int.ediv_mul_le d positive.ne'⟩

/-- The bucket of a value whose distance from the start fits. -/
theorem toInt_rangeBucket_of_fits (le : config.start.toInt ≤ value.toInt)
    (fits : value.toInt - config.start.toInt < 2 ^ 63) :
    (rangeBucket config value).toInt = config.start.toInt +
      (value.toInt - config.start.toInt) / config.interval.toInt * config.interval.toInt := by
  have low := config.start.le_toInt
  have high := value.toInt_lt
  obtain ⟨q0, q1, p0, p1⟩ := quotient_bounds (d := value.toInt - config.start.toInt) (by omega)
    (interval_pos config)
  have quotient : ((value - config.start) / config.interval).toInt =
      (value.toInt - config.start.toInt) / config.interval.toInt := by
    rw [Int64.toInt_div, Int64.toInt_sub, bmod_of_fits (by omega) fits,
      Int.tdiv_eq_ediv_of_nonneg (by omega), bmod_of_fits (by omega) (by omega)]
  have product : ((value - config.start) / config.interval * config.interval).toInt =
      (value.toInt - config.start.toInt) / config.interval.toInt * config.interval.toInt := by
    rw [Int64.toInt_mul, quotient, bmod_of_fits (by omega) (by omega)]
  rw [rangeBucket, Int64.toInt_add, product, bmod_of_fits (by omega) (by omega)]

/-- The bucket of a value whose distance from the start does not fit: the distance is taken
for the negative number that is short of it by `2 ^ 64`. -/
theorem toInt_rangeBucket_of_not_fits (config : RangePartitioningConfig) (value : Int64)
    (large : 2 ^ 63 ≤ value.toInt - config.start.toInt) :
    (rangeBucket config value).toInt = (value.toInt +
      (2 ^ 64 - (value.toInt - config.start.toInt)) % config.interval.toInt).bmod (2 ^ 64) := by
  have low := config.start.le_toInt
  have high := value.toInt_lt
  obtain ⟨e, short⟩ : ∃ e, e = 2 ^ 64 - (value.toInt - config.start.toInt) := ⟨_, rfl⟩
  obtain ⟨q0, q1, p0, p1⟩ := quotient_bounds (d := e) (by omega) (interval_pos config)
  have wrapped : (value.toInt - config.start.toInt).bmod (2 ^ 64) = -e := by
    rw [Int.bmod_eq_iff (by decide)]
    omega
  have quotient : ((value - config.start) / config.interval).toInt =
      -(e / config.interval.toInt) := by
    rw [Int64.toInt_div, Int64.toInt_sub, wrapped, Int.neg_tdiv,
      Int.tdiv_eq_ediv_of_nonneg (by omega), bmod_of_fits (by omega) (by omega)]
  have product : ((value - config.start) / config.interval * config.interval).toInt =
      -(e / config.interval.toInt * config.interval.toInt) := by
    rw [Int64.toInt_mul, quotient, Int.neg_mul, bmod_of_fits (by omega) (by omega)]
  have sum : config.start.toInt + -(e / config.interval.toInt * config.interval.toInt) =
      value.toInt + e % config.interval.toInt - (2 ^ 64 : Nat) := by
    have rest := Int.mul_ediv_add_emod e config.interval.toInt
    rw [Int.mul_comm] at rest
    omega
  rw [rangeBucket, Int64.toInt_add, product, sum, Int.sub_bmod_right, short]

/-- The bucket of a value is exact if the distance of the value from the start fits into 64
bits, or if the interval divides both the distance and `2 ^ 64`. -/
theorem isBucket_rangeBucket_iff (le : config.start.toInt ≤ value.toInt) :
    IsBucket config value.toInt (rangeBucket config value).toInt ↔
      value.toInt - config.start.toInt < 2 ^ 63 ∨
        (config.interval.toInt ∣ value.toInt - config.start.toInt ∧
          config.interval.toInt ∣ 2 ^ 64) := by
  have positive := interval_pos config
  have small := config.interval.toInt_lt
  by_cases fits : value.toInt - config.start.toInt < 2 ^ 63
  · refine iff_of_true ?_ (.inl fits)
    obtain ⟨-, -, p0, p1⟩ := quotient_bounds (d := value.toInt - config.start.toInt) (by omega)
      positive
    have rest := Int.mul_ediv_add_emod (value.toInt - config.start.toInt) config.interval.toInt
    have short := Int.emod_lt_of_pos (value.toInt - config.start.toInt) positive
    rw [Int.mul_comm] at rest
    rw [toInt_rangeBucket_of_fits le fits]
    refine ⟨by omega, by omega, by omega, ?_⟩
    rw [add_sub_cancel_left]
    exact Int.dvd_mul_left _ _
  · rw [toInt_rangeBucket_of_not_fits config value (by omega), or_iff_right fits]
    have nonneg := Int.emod_nonneg (2 ^ 64 - (value.toInt - config.start.toInt)) positive.ne'
    have short := Int.emod_lt_of_pos (2 ^ 64 - (value.toInt - config.start.toInt)) positive
    constructor
    · intro exact
      obtain ⟨start_le, le_value, near, aligned⟩ := exact
      obtain ⟨r, rest⟩ : ∃ r, r =
        (2 ^ 64 - (value.toInt - config.start.toInt)) % config.interval.toInt := ⟨_, rfl⟩
      rw [← rest] at start_le le_value near aligned nonneg short
      -- the wrapped sum is below `value` by less than the interval only if it is `value`
      have wraps := ((Int.bmod_eq_iff (by decide)).mp
        (rfl : (value.toInt + r).bmod (2 ^ 64) = _)).2.2
      obtain ⟨bucket, is⟩ : ∃ bucket, bucket = (value.toInt + r).bmod (2 ^ 64) := ⟨_, rfl⟩
      rw [← is] at start_le le_value near aligned wraps
      have none : value.toInt + r - bucket = 0 :=
        Int.eq_zero_of_dvd_of_nonneg_of_lt (by omega) (by omega)
          ((Int.dvd_neg.mpr wraps).trans (dvd_of_eq (by omega)))
      have divides : config.interval.toInt ∣ value.toInt - config.start.toInt := by
        rwa [show bucket = value.toInt by omega] at aligned
      have whole : config.interval.toInt ∣ 2 ^ 64 - (value.toInt - config.start.toInt) :=
        Int.dvd_of_emod_eq_zero (by omega)
      refine ⟨divides, ?_⟩
      have total := Int.dvd_add whole divides
      rwa [Int.sub_add_cancel] at total
    · rintro ⟨divides, power⟩
      rw [Int.emod_eq_zero_of_dvd (Int.dvd_sub power divides), Int.add_zero,
        bmod_of_fits value.le_toInt value.toInt_lt]
      exact ⟨le, le_refl _, by omega, divides⟩

/-- The configurations all of whose values have an exact bucket. -/
theorem forall_isBucket_iff (config : RangePartitioningConfig) :
    (∀ value : Int64, config.start ≤ value → value < config.stop →
      IsBucket config value.toInt (rangeBucket config value).toInt) ↔
    config.stop.toInt - config.start.toInt ≤ 2 ^ 63 ∨ config.interval.toInt = 1 ∨
      (config.stop.toInt - config.start.toInt = 2 ^ 63 + 1 ∧ config.interval.toInt ∣ 2 ^ 63) := by
  have low := config.start.le_toInt
  have high := config.stop.toInt_lt
  have positive := interval_pos config
  constructor
  · intro exact
    -- the value at the given distance from the start, if the range is that long
    have at_ (d : Int) (far : 2 ^ 63 ≤ d) (inside : config.start.toInt + d < config.stop.toInt) :
        config.interval.toInt ∣ d := by
      have is : (Int64.ofInt (config.start.toInt + d)).toInt = config.start.toInt + d := by
        rw [Int64.toInt_ofInt]
        exact bmod_of_fits (by omega) (by omega)
      have bucket := exact (Int64.ofInt (config.start.toInt + d))
        (Int64.le_iff_toInt_le.mpr (by omega)) (Int64.lt_iff_toInt_lt.mpr (by omega))
      rw [isBucket_rangeBucket_iff (by omega), is, add_sub_cancel_left] at bucket
      exact (bucket.resolve_left (by omega)).1
    by_cases short : config.stop.toInt - config.start.toInt ≤ 2 ^ 63
    · exact .inl short
    have power := at_ (2 ^ 63) (le_refl _) (by omega)
    by_cases next : config.stop.toInt - config.start.toInt = 2 ^ 63 + 1
    · exact .inr (.inr ⟨next, power⟩)
    · have one := Int.dvd_sub (at_ (2 ^ 63 + 1) (by omega) (by omega)) power
      rw [add_sub_cancel_left] at one
      exact .inr (.inl (Int.eq_one_of_dvd_one positive.le one))
  · intro shape value le less
    rw [Int64.le_iff_toInt_le] at le
    rw [Int64.lt_iff_toInt_lt] at less
    rw [isBucket_rangeBucket_iff le]
    rcases shape with short | one | ⟨next, power⟩
    · exact .inl (by omega)
    · rw [one]
      exact .inr ⟨Int.one_dvd _, Int.one_dvd _⟩
    · by_cases fits : value.toInt - config.start.toInt < 2 ^ 63
      · exact .inl fits
      · have last : value.toInt - config.start.toInt = 2 ^ 63 := by omega
        rw [last]
        exact .inr ⟨power, power.trans ⟨2, by decide⟩⟩

end Buckets

/-! ## The partition of a row -/

section

variable [GoFloat]

def rowPartitionID (table : TableRecord) (rowIndex : Nat) (row : Row) : Option String :=
  match table.timePartitioning, table.rangePartitioning with
  | some config, _ =>
    if config.field = "" then
      let fallback := ingestionPartitionID (some config) table.createdAt
      let partitionID := labelAt table.ingestionPartitions fallback rowIndex
      if partitionID ≠ "" then some partitionID else none
    else
      match findTopLevelField table.schema config.field with
      | none => none
      | some (field, index) =>
        let cell := cellAt row index
        if (loadStoredCell cell).isNone then some "__NULL__"
        else
          match timePartitionIDFromCell field.type cell config.type with
          | none => some "__UNPARTITIONED__"
          | some partitionID => some partitionID
  | none, some config =>
    match findTopLevelField table.schema config.field with
    | none => none
    | some (_, index) =>
      match loadStoredCell (cellAt row index) with
      | none => some "__NULL__"
      | some decoded =>
        match parseInt64 decoded.toList with
        | none => some "__UNPARTITIONED__"
        | some value =>
          if value < config.start ∨ config.stop ≤ value then some "__UNPARTITIONED__"
          else some (formatInt (rangeBucket config value))
  | none, none => none

/-- The count of `partitionCounts` for one row of a table partitioned by a column. -/
def countTimeRow (config : TimePartitioningConfig) (field : TableField) (index : Nat)
    (counts : GoMap String Nat) (row : Row) : GoMap String Nat :=
  let cell := cellAt row index
  if (loadStoredCell cell).isNone then counts.increment "__NULL__"
  else
    counts.increment
      ((timePartitionIDFromCell field.type cell config.type).getD "__UNPARTITIONED__")

/-- The count of `partitionCounts` for one row of a table partitioned by an integer range. -/
def countRangeRow (config : RangePartitioningConfig) (index : Nat) (counts : GoMap String Nat)
    (row : Row) : GoMap String Nat :=
  match loadStoredCell (cellAt row index) with
  | none => counts.increment "__NULL__"
  | some decoded =>
    match parseInt64 decoded.toList with
    | none => counts.increment "__UNPARTITIONED__"
    | some value =>
      if value < config.start ∨ config.stop ≤ value then counts.increment "__UNPARTITIONED__"
      else counts.increment (formatInt (rangeBucket config value))

def partitionCounts (table : TableRecord) : GoMap String Nat :=
  match table.timePartitioning, table.rangePartitioning with
  | some config, _ =>
    if config.field = "" then
      let fallback := ingestionPartitionID (some config) table.createdAt
      (List.range table.rows.length).foldl
        (fun counts i => counts.increment (labelAt table.ingestionPartitions fallback i)) ∅
    else
      match findTopLevelField table.schema config.field with
      | none => ∅
      | some (field, index) => table.rows.foldl (countTimeRow config field index) ∅
  | none, some config =>
    match findTopLevelField table.schema config.field with
    | none => ∅
    | some (_, index) => table.rows.foldl (countRangeRow config index) ∅
  | none, none => (∅ : GoMap String Nat).set storedNullCell table.rows.length

/-- The literal that a comparison has on its other side. -/
inductive ComparedLiteral where
  | int (image : String)
  | dateOrTime (value : String)
  | other
deriving Repr, DecidableEq

/-- The type under which the literal of a comparison with a time partition is read. -/
def comparedType (table : TableRecord) (config : TimePartitioningConfig) (column : String) :
    Option String :=
  if config.field = "" then
    if equalFold column "_PARTITIONDATE" then some "DATE"
    else if equalFold column "_PARTITIONTIME" then some "TIMESTAMP"
    else none
  else if equalFold column config.field then
    (findTopLevelField table.schema config.field).map (·.1.type)
  else none

/-- The partition that a comparison of the column path with the literal selects. -/
def partitionTargetFromComparison (parts : List String) (literal : ComparedLiteral)
    (table : TableRecord) : Option String :=
  match parts.getLast? with
  | none => none
  | some column =>
    match table.rangePartitioning.filter fun config => equalFold column config.field with
    | some config =>
      match literal with
      | .int image =>
        (parseInt64 image.toList).map fun value =>
          if value < config.start ∨ config.stop ≤ value then "__UNPARTITIONED__"
          else formatInt (rangeBucket config value)
      | _ => none
    | none =>
      table.timePartitioning.bind fun config =>
        (comparedType table config column).bind fun fieldType =>
          match literal with
          | .dateOrTime value =>
            timePartitionIDFromCell fieldType (storeStringCell value) config.type
          | _ => none

/-! ### Rows with a value in the range -/

/-- The row has the value in the column by whose range the table is partitioned. -/
structure RangeRow (table : TableRecord) (config : RangePartitioningConfig) (row : Row)
    (value : Int64) : Prop where
  time : table.timePartitioning = none
  range : table.rangePartitioning = some config
  cell : ∃ field index decoded, findTopLevelField table.schema config.field = some (field, index) ∧
    loadStoredCell (cellAt row index) = some decoded ∧
    parseInt64 decoded.toList = some value

section InRange

variable {table : TableRecord} {config : RangePartitioningConfig} {row : Row} {value : Int64}

omit [GoFloat] in
theorem not_outside (le : config.start ≤ value) (less : value < config.stop) :
    ¬ (value < config.start ∨ config.stop ≤ value) := by
  rw [Int64.le_iff_toInt_le] at le
  rw [Int64.lt_iff_toInt_lt] at less
  rw [Int64.le_iff_toInt_le, Int64.lt_iff_toInt_lt]
  omega

theorem rowPartitionID_inRange (h : RangeRow table config row value) (le : config.start ≤ value)
    (less : value < config.stop) (i : Nat) :
    rowPartitionID table i row = some (formatInt (rangeBucket config value)) := by
  obtain ⟨time, range, field, index, decoded, column, cell, parsed⟩ := h
  rw [rowPartitionID, time, range]
  simp only [column, cell, parsed, if_neg (not_outside le less)]

theorem partitionCounts_inRange (h : RangeRow table config row value) (only : table.rows = [row])
    (le : config.start ≤ value) (less : value < config.stop) :
    (partitionCounts table).get? (formatInt (rangeBucket config value)) = some 1 := by
  obtain ⟨time, range, field, index, decoded, column, cell, parsed⟩ := h
  rw [partitionCounts, time, range, only]
  simp only [column, foldl_cons, foldl_nil, countRangeRow, cell, parsed,
    if_neg (not_outside le less), GoMap.increment, GoMap.get?_set_self, GoMap.get?_empty,
    Option.getD_none, Nat.zero_add]

theorem partitionTarget_inRange {parts : List String} {column image : String}
    (range : table.rangePartitioning = some config) (last : parts.getLast? = some column)
    (named : equalFold column config.field = true) (parsed : parseInt64 image.toList = some value)
    (le : config.start ≤ value) (less : value < config.stop) :
    partitionTargetFromComparison parts (.int image) table =
      some (formatInt (rangeBucket config value)) := by
  rw [partitionTargetFromComparison, last, range]
  simp only [Option.filter_some, named, if_true, parsed, Option.map_some,
    if_neg (not_outside le less)]

end InRange

/-- The three functions find the same bucket for each value in the range, and the buckets of a
range are those of the integers if and only if the range has at most `2 ^ 63` values, or every
value is a bucket of its own, or the range has one value more and the interval is a power of
two. -/
theorem rangeBuckets_exact (config : RangePartitioningConfig) :
    (∀ value : Int64, config.start ≤ value → value < config.stop →
      (∀ table row i, RangeRow table config row value →
        rowPartitionID table i row = some (formatInt (rangeBucket config value))) ∧
      (∀ table row, RangeRow table config row value → table.rows = [row] →
        (partitionCounts table).get? (formatInt (rangeBucket config value)) = some 1) ∧
      (∀ table parts column image, table.rangePartitioning = some config →
        parts.getLast? = some column → equalFold column config.field = true →
        parseInt64 image.toList = some value →
        partitionTargetFromComparison parts (.int image) table =
          some (formatInt (rangeBucket config value)))) ∧
    ((∀ value : Int64, config.start ≤ value → value < config.stop →
        IsBucket config value.toInt (rangeBucket config value).toInt ∧
        ∀ bucket, IsBucket config value.toInt bucket →
          bucket = (rangeBucket config value).toInt) ↔
      config.stop.toInt - config.start.toInt ≤ 2 ^ 63 ∨ config.interval.toInt = 1 ∨
        (config.stop.toInt - config.start.toInt = 2 ^ 63 + 1 ∧
          config.interval.toInt ∣ 2 ^ 63)) := by
  constructor
  · intro value le less
    refine ⟨?_, ?_, ?_⟩
    · intro table row i h
      exact rowPartitionID_inRange h le less i
    · intro table row h only
      exact partitionCounts_inRange h only le less
    · intro table parts column image range last named parsed
      exact partitionTarget_inRange range last named parsed le less
  · rw [← forall_isBucket_iff]
    constructor
    · intro exact value le less
      exact (exact value le less).1
    · intro exact value le less
      have bucket := exact value le less
      exact ⟨bucket, fun _ other => other.unique bucket⟩

end

section Wide

attribute [local instance] GoFloat.texts

/-- Nearly all 64-bit integers, ten to a bucket. -/
def wideRange : RangePartitioningConfig :=
  ⟨"n", Int64.minValue, Int64.maxValue, 10, by decide, by decide⟩

/-- The value 0 is put into a bucket that starts at 8. -/
theorem wideRange_zero :
    rangeConfig "n" Int64.minValue Int64.maxValue 10 = .ok wideRange ∧
    (∀ table row i, RangeRow table wideRange row 0 → rowPartitionID table i row = some "8") ∧
    ¬ IsBucket wideRange 0 (rangeBucket wideRange 0).toInt := by
  refine ⟨rfl, ?_, ?_⟩
  · intro table row i h
    exact rowPartitionID_inRange h (by decide) (by decide) i
  · intro bucket
    exact absurd bucket.le_value (by decide)

end Wide

/-! ## Agreement on all rows -/

section

variable [GoFloat]

/-- A table is partitioned, and its partition column resolves. -/
def PartitionResolves (table : TableRecord) : Prop :=
  match table.timePartitioning, table.rangePartitioning with
  | some config, _ => (partitionColumn table.schema config).isSome
  | none, some config => (findTopLevelField table.schema config.field).isSome
  | none, none => False

/-- The rows of a table with the partitions that `rowPartitionID` finds. -/
def rowPartitionIDs (table : TableRecord) : List (Option String) :=
  table.rows.zipIdx.map fun r => rowPartitionID table r.2 r.1

/-- The start of a time partition plus the expiration is not after `now`. -/
def partitionOver (config : TimePartitioningConfig) (now : Time) (partitionID : Option String) :
    Bool :=
  match partitionID.bind (parseTimePartitionID · config.type) with
  | none => false
  | some start => start + config.expirationMs.toInt * 1000000 ≤ now

/-- Whether row `i` of a managed table with a partition expiration has expired. -/
def rowExpired (table : TableRecord) (now : Time) (i : Nat) (row : Row) : Bool :=
  match table.timePartitioning with
  | none => false
  | some config =>
    table.external.isNone && table.view.isNone && 0 < config.expirationMs.toInt &&
      partitionOver config now (rowPartitionID table i row)

/-- The three functions agree on the table at the moment. -/
structure PartitionsAgree (table : TableRecord) (now : Time) : Prop where
  counts : ∀ id, (partitionCounts table).get? id =
    if some id ∈ rowPartitionIDs table then some ((rowPartitionIDs table).count (some id)) else none
  rows : (purgeExpiredPartitions table now).1.rows =
    (table.rows.zipIdx.filter fun r => !rowExpired table now r.2 r.1).map (·.1)
  labels : rowPartitionIDs (purgeExpiredPartitions table now).1 =
    (table.rows.zipIdx.filter fun r => !rowExpired table now r.2 r.1).map fun r =>
      rowPartitionID table r.2 r.1
  version : (purgeExpiredPartitions table now).1.version =
    if table.rows.zipIdx.any fun r => rowExpired table now r.2 r.1 then table.version + 1
    else table.version

/-! ### Counting -/

variable {table : TableRecord} {now : Time} {field : TableField} {index : Nat}
  {config : TimePartitioningConfig}

/-- A loop that counts the row with the partition that `rowPartitionID` finds. -/
theorem counts_of_ids {ids : List String}
    (counted : partitionCounts table = ids.foldl GoMap.increment ∅)
    (found : rowPartitionIDs table = ids.map some) (id : String) :
    (partitionCounts table).get? id = if some id ∈ rowPartitionIDs table then
      some ((rowPartitionIDs table).count (some id)) else none := by
  rw [counted, found, GoMap.get?_foldl_increment, GoMap.get?_empty]
  simp only [mem_map, Option.some.injEq, exists_eq_right, Option.getD_none, Nat.zero_add]
  rw [count_map_of_injective _ _ (Option.some_injective _)]

section Ingestion

variable (partitioning : table.timePartitioning = some config) (own : config.field = "")

include partitioning own

/-- The label of each row of a table that is partitioned by ingestion time. -/
theorem rowPartitionID_ingestion (i : Nat) (row : Row) :
    rowPartitionID table i row = some (expiringPartition table config none i row) := by
  have fallback : ingestionPartitionID (some config) table.createdAt ≠ "" := by
    rw [ingestionPartitionID, if_neg (not_not.mpr own)]
    exact formatTimePartitionID_ne _ _
  rw [rowPartitionID, partitioning]
  simp only [own, if_true, expiringPartition]
  rw [if_pos (labelAt_ne fallback i)]

theorem partitionCounts_ingestion : partitionCounts table = (table.rows.zipIdx.map fun r =>
    expiringPartition table config none r.2 r.1).foldl GoMap.increment ∅ := by
  rw [partitionCounts, partitioning]
  simp only [own, if_true, expiringPartition]
  rw [range_eq_range', ← zipIdx_map_snd, foldl_map, foldl_map]

end Ingestion

/-- The partition of a row by the cell of a column. -/
def cellPartitionID (config : TimePartitioningConfig) (field : TableField) (index : Nat)
    (row : Row) : String :=
  if (loadStoredCell (cellAt row index)).isNone then "__NULL__"
  else (timePartitionIDFromCell field.type (cellAt row index) config.type).getD
    "__UNPARTITIONED__"

section Column

variable (partitioning : table.timePartitioning = some config) (named : config.field ≠ "")
  (column : findTopLevelField table.schema config.field = some (field, index))

include partitioning named column

theorem rowPartitionID_column (i : Nat) (row : Row) :
    rowPartitionID table i row = some (cellPartitionID config field index row) := by
  rw [rowPartitionID, partitioning]
  simp only [if_neg named, column, cellPartitionID]
  split
  · rfl
  · cases timePartitionIDFromCell field.type (cellAt row index) config.type with
    | none => rfl
    | some partitionID => rfl

theorem partitionCounts_column : partitionCounts table =
    (table.rows.map (cellPartitionID config field index)).foldl GoMap.increment ∅ := by
  have each : countTimeRow config field index =
      fun counts row => counts.increment (cellPartitionID config field index row) := by
    funext counts row
    rw [countTimeRow, cellPartitionID]
    split
    · rfl
    · rfl
  rw [partitionCounts, partitioning]
  simp only [if_neg named, column]
  rw [each, foldl_map]

end Column

/-- The partition of a row by the integer in the cell of a column. -/
def integerPartitionID (config : RangePartitioningConfig) (index : Nat) (row : Row) : String :=
  match (loadStoredCell (cellAt row index)).map fun decoded => parseInt64 decoded.toList with
  | none => "__NULL__"
  | some none => "__UNPARTITIONED__"
  | some (some value) =>
    if value < config.start ∨ config.stop ≤ value then "__UNPARTITIONED__"
    else formatInt (rangeBucket config value)

section Range

variable {config : RangePartitioningConfig} (time : table.timePartitioning = none)
  (range : table.rangePartitioning = some config)
  (column : findTopLevelField table.schema config.field = some (field, index))

include time range column

theorem rowPartitionID_range (i : Nat) (row : Row) :
    rowPartitionID table i row = some (integerPartitionID config index row) := by
  rw [rowPartitionID, time, range]
  simp only [column, integerPartitionID]
  rcases loadStoredCell (cellAt row index) with _ | decoded
  · rfl
  · simp only [Option.map_some]
    rcases parseInt64 decoded.toList with _ | value
    · rfl
    · exact (apply_ite some _ _ _).symm

theorem partitionCounts_range : partitionCounts table =
    (table.rows.map (integerPartitionID config index)).foldl GoMap.increment ∅ := by
  have each : countRangeRow config index =
      fun counts row => counts.increment (integerPartitionID config index row) := by
    funext counts row
    rw [countRangeRow, integerPartitionID]
    rcases loadStoredCell (cellAt row index) with _ | decoded
    · rfl
    · simp only [Option.map_some]
      rcases parseInt64 decoded.toList with _ | value
      · rfl
      · exact (apply_ite counts.increment _ _ _).symm
  rw [partitionCounts, time, range]
  simp only [column]
  rw [each, foldl_map]

end Range

/-- The partitions of rows that do not depend on their position. -/
theorem rowPartitionIDs_of_rows {f : Row → String}
    (found : ∀ i row, rowPartitionID table i row = some (f row)) :
    rowPartitionIDs table = (table.rows.map f).map some := by
  have rows : table.rows.zipIdx.map (·.1) = table.rows := zipIdx_map_fst ..
  rw [rowPartitionIDs]
  simp only [found]
  conv => rhs; rw [← rows, map_map, map_map]
  rfl

/-- `partitionCounts` counts each row once, in its partition. -/
theorem get?_partitionCounts (resolves : PartitionResolves table) (id : String) :
    (partitionCounts table).get? id = if some id ∈ rowPartitionIDs table then
      some ((rowPartitionIDs table).count (some id)) else none := by
  unfold PartitionResolves at resolves
  cases partitioning : table.timePartitioning with
  | some config =>
    rw [partitioning] at resolves
    by_cases named : config.field = ""
    · refine counts_of_ids (partitionCounts_ingestion partitioning named) ?_ id
      simp only [rowPartitionIDs, rowPartitionID_ingestion partitioning named, map_map,
        Function.comp_def]
    · simp only [partitionColumn, if_neg named, Option.isSome_map] at resolves
      obtain ⟨⟨field, index⟩, column⟩ := Option.isSome_iff_exists.mp resolves
      exact counts_of_ids (partitionCounts_column partitioning named column)
        (rowPartitionIDs_of_rows (rowPartitionID_column partitioning named column)) id
  | none =>
    cases range : table.rangePartitioning with
    | none =>
      rw [partitioning, range] at resolves
      exact resolves.elim
    | some config =>
      rw [partitioning, range] at resolves
      obtain ⟨⟨field, index⟩, column⟩ := Option.isSome_iff_exists.mp resolves
      exact counts_of_ids (partitionCounts_range partitioning range column)
        (rowPartitionIDs_of_rows (rowPartitionID_range partitioning range column)) id

/-! ### Expired partitions -/

/-- An expiration that a request may ask for. -/
def AllowedExpiration (config : TimePartitioningConfig) : Prop :=
  config.expirationMs.toInt ≤ 9223372036854

omit [GoFloat] in
theorem allowed_of_parsed {v : Json} {schema : List TableField}
    (h : parseTimePartitioning v schema = .ok config) : AllowedExpiration config := by
  obtain ⟨obj, -, h⟩ := bind_ok.mp h
  obtain ⟨type, -, h⟩ := bind_ok.mp h
  obtain ⟨expirationMs, expiration, h⟩ := bind_ok.mp h
  obtain ⟨field, -, h⟩ := bind_ok.mp h
  cases h
  have small : expirationMs.toInt ≤ 9223372036854 := by
    rw [parsePartitionExpiration] at expiration
    split at expiration
    · cases expiration
      decide
    · cases expiration
      decide
    · obtain ⟨-, kept⟩ := Option.filter_eq_some_iff.mp (orError_ok.mp expiration)
      have below := of_decide_eq_true (Bool.and_eq_true_iff.mp kept).2
      exact Int64.le_iff_toInt_le.mp below
  exact small

omit [GoFloat] in
/-- A row has expired for the purge if it has by its partition. -/
theorem partitionExpired_eq (allowed : AllowedExpiration config)
    (positive : 0 < config.expirationMs.toInt) (now : Time) (partitionID : String) :
    partitionExpired config now partitionID = partitionOver config now (some partitionID) := by
  have exact : (config.expirationMs * 1000000).toInt = config.expirationMs.toInt * 1000000 := by
    unfold AllowedExpiration at allowed
    rw [Int64.toInt_mul]
    exact bmod_of_fits (by simp; omega) (by simp; omega)
  rewrite [partitionExpired, partitionOver, Option.bind_some, exact]
  cases parseTimePartitionID partitionID config.type with
  | none => rfl
  | some start => rfl

omit [GoFloat] in
/-- The names of the partitions without a time are not taken for one. -/
theorem partitionOver_reserved {partitionID : String}
    (reserved : partitionID = "" ∨ hasPrefixStr partitionID "__") :
    partitionOver config now (some partitionID) = false := by
  rw [partitionOver, Option.bind_some, parseTimePartitionID, if_pos reserved]

theorem partitionExpired_row {column : Option (TableField × Nat)}
    (partitioning : table.timePartitioning = some config)
    (resolves : partitionColumn table.schema config = some column)
    (allowed : AllowedExpiration config) (positive : 0 < config.expirationMs.toInt) (i : Nat)
    (row : Row) :
    partitionExpired config now (expiringPartition table config column i row) =
      partitionOver config now (rowPartitionID table i row) := by
  rw [partitionExpired_eq allowed positive]
  rw [partitionColumn] at resolves
  split at resolves
  next ingestion =>
    cases resolves
    rw [rowPartitionID_ingestion partitioning ingestion]
  next named =>
    obtain ⟨⟨field, index⟩, found, rfl⟩ := Option.map_eq_some_iff.mp resolves
    rw [rowPartitionID_column partitioning named found, expiringPartition, cellPartitionID]
    split
    next null =>
      have none : timePartitionIDFromCell field.type (cellAt row index) config.type = none := by
        rw [timePartitionIDFromCell, Option.isNone_iff_eq_none.mp null]
      rw [none, Option.getD_none, partitionOver_reserved (.inl rfl),
        partitionOver_reserved (.inr (by decide))]
    · cases timePartitionIDFromCell field.type (cellAt row index) config.type with
      | some partitionID => rfl
      | none =>
        rw [Option.getD_none, Option.getD_none, partitionOver_reserved (.inl rfl),
          partitionOver_reserved (.inr (by decide))]

/-- The rows that have not expired, with their positions. -/
def lastingRows (table : TableRecord) (now : Time) : List (Row × Nat) :=
  table.rows.zipIdx.filter fun r => !rowExpired table now r.2 r.1

theorem lastingRows_of_none (none : ∀ r ∈ table.rows.zipIdx, rowExpired table now r.2 r.1 = false) :
    lastingRows table now = table.rows.zipIdx := by
  refine filter_eq_self.mpr fun r mem => ?_
  rw [none r mem, Bool.not_false]

/-- Nothing has expired, or the rows that have are dropped. -/
theorem purge_cases (resolves : PartitionResolves table)
    (allowed : ∀ config ∈ table.timePartitioning, AllowedExpiration config) (now : Time) :
    ((∀ r ∈ table.rows.zipIdx, rowExpired table now r.2 r.1 = false) ∧
      (purgeExpiredPartitions table now).1 = table) ∨
    ((∃ r ∈ table.rows.zipIdx, rowExpired table now r.2 r.1 = true) ∧
      ∃ config column, table.timePartitioning = some config ∧
        partitionColumn table.schema config = some column ∧
        (purgeExpiredPartitions table now).1 = keepRows table config now
          ((lastingRows table now).map fun r =>
            (r.1, expiringPartition table config column r.2 r.1))) := by
  unfold PartitionResolves at resolves
  cases partitioning : table.timePartitioning with
  | none =>
    refine .inl ⟨fun r _ => ?_, ?_⟩
    · rw [rowExpired, partitioning]
    · rw [purgeExpiredPartitions, partitioning]
  | some config =>
    rw [partitioning] at resolves
    obtain ⟨column, resolved⟩ := Option.isSome_iff_exists.mp resolves
    have fits := allowed config partitioning
    rw [purgeExpiredPartitions, partitioning]
    dsimp only
    split
    next idle =>
      refine .inl ⟨fun r mem => ?_, rfl⟩
      rw [rowExpired, partitioning]
      rcases idle with none | none | isExternal | isView
      · have : ¬ 0 < config.expirationMs.toInt := by
          rw [Int64.le_iff_toInt_le] at none
          exact Int.not_lt.mpr none
        simp [this]
      · rw [none] at mem
        cases mem
      · simp [Option.isNone_eq_false_iff.mpr isExternal]
      · simp [Option.isNone_eq_false_iff.mpr isView]
    next active =>
      have expired : ∀ i row, rowExpired table now i row =
          partitionExpired config now (expiringPartition table config column i row) := by
        intro i row
        simp only [not_or, Bool.not_eq_true, Option.isSome_eq_false_iff] at active
        obtain ⟨positive, -, isManaged, isStored⟩ := active
        have positive : 0 < config.expirationMs.toInt := by
          rw [Int64.le_iff_toInt_le] at positive
          exact Int.not_le.mp positive
        rw [rowExpired, partitioning, partitionExpired_row partitioning resolved fits positive]
        simp [isManaged, isStored, positive]
      have kept : (labelledRows table config column).filter
          (fun r => !partitionExpired config now r.2) =
          (lastingRows table now).map fun r =>
            (r.1, expiringPartition table config column r.2 r.1) := by
        rw [labelledRows, lastingRows, filter_map]
        simp only [Function.comp_def, expired]
      rw [resolved]
      dsimp only
      rw [kept, length_map, labelledRows, length_map]
      split
      next all =>
        refine .inl ⟨fun r mem => ?_, rfl⟩
        have lasting := length_filter_eq_length_iff.mp all r mem
        simpa using lasting
      next some_ =>
        refine .inr ⟨?_, config, column, rfl, resolved, rfl⟩
        by_contra none
        simp only [not_exists, not_and, Bool.not_eq_true] at none
        exact some_ (congrArg List.length (lastingRows_of_none none))

/-- The kept rows lie in the partitions they were in. -/
theorem rowPartitionIDs_keepRows {column : Option (TableField × Nat)}
    (partitioning : table.timePartitioning = some config)
    (resolved : partitionColumn table.schema config = some column) (now at_ : Time) :
    rowPartitionIDs (keepRows table config at_ ((lastingRows table now).map fun r =>
        (r.1, expiringPartition table config column r.2 r.1))) =
      (lastingRows table now).map fun r => rowPartitionID table r.2 r.1 := by
  have sub : ∀ r ∈ (lastingRows table now).map fun r =>
      (r.1, expiringPartition table config column r.2 r.1),
      r ∈ labelledRows table config column := by
    intro r mem
    obtain ⟨source, lasting, rfl⟩ := mem_map.mp mem
    exact mem_map_of_mem (mem_filter.mp lasting).1
  have labelled := labelledRows_keepRows at_ resolved sub
  rw [partitionColumn] at resolved
  split at resolved
  next ingestion =>
    cases resolved
    have ids (t : TableRecord) (h : t.timePartitioning = some config) :
        rowPartitionIDs t = (labelledRows t config none).map fun r => some r.2 := by
      simp only [rowPartitionIDs, labelledRows, map_map, Function.comp_def,
        rowPartitionID_ingestion h ingestion]
    rw [ids (keepRows table config at_ _) partitioning, labelled, map_map]
    simp only [Function.comp_def, rowPartitionID_ingestion partitioning ingestion]
  next named =>
    obtain ⟨⟨field, index⟩, found, rfl⟩ := Option.map_eq_some_iff.mp resolved
    have byCell (kept : List (Row × String)) (i : Nat) (row : Row) :
        rowPartitionID (keepRows table config at_ kept) i row =
          some (cellPartitionID config field index row) :=
      @rowPartitionID_column _ (keepRows table config at_ kept) field index config partitioning
        named found i row
    rw [rowPartitionIDs_of_rows (byCell _)]
    simp only [keepRows, map_map, Function.comp_def, rowPartitionID_column partitioning named found]

/-- For every partitioned table whose column resolves, with a configuration that a request may
ask for, the three functions agree at every moment. -/
theorem partitions_agree (resolves : PartitionResolves table)
    (accepted : ∀ config ∈ table.timePartitioning,
      ∃ v schema, parseTimePartitioning v schema = .ok config) (now : Time) :
    PartitionsAgree table now := by
  have allowed : ∀ config ∈ table.timePartitioning, AllowedExpiration config := by
    intro config is
    obtain ⟨v, schema, parsed⟩ := accepted config is
    exact allowed_of_parsed parsed
  have rows : table.rows.zipIdx.map (·.1) = table.rows := zipIdx_map_fst ..
  rcases purge_cases resolves allowed now with ⟨none, same⟩ | ⟨⟨r, mem, expired⟩, config, column,
    partitioning, resolved, kept⟩
  · have all := lastingRows_of_none none
    rw [lastingRows] at all
    refine ⟨get?_partitionCounts resolves, ?_, ?_, ?_⟩
    · rw [same, all, rows]
    · rw [same, all, rowPartitionIDs]
    · rw [same, if_neg]
      simpa using none
  · refine ⟨get?_partitionCounts resolves, ?_, ?_, ?_⟩
    · rw [kept, keepRows, map_map]
      rfl
    · rw [kept]
      exact rowPartitionIDs_keepRows partitioning resolved now now
    · rw [kept, if_pos (any_eq_true.mpr ⟨r, mem, expired⟩), keepRows]

end

section Visits

attribute [local instance] GoFloat.texts

/-- A request for daily partitions that expire after one day. -/
def dailyForOneDay : Json :=
  .obj [("type", .str "DAY"), ("expirationMs", .str "86400000")]

/-- The start of 2026. -/
def newYear : Time := 63902822400000000000

/-- Two rows that came in on different days, the second one without a label of its own. -/
def dailyVisits : TableRecord :=
  { projectID := "p", datasetID := "d", tableID := "visits", schema := [⟨"page", "STRING", "", []⟩],
    rows := [["home"], ["cart"]], ingestionPartitions := ["20251231"],
    timePartitioning := some ⟨.day, "", 86400000⟩, createdAt := newYear, updatedAt := newYear,
    version := 4 }

/-- At the start of the year the first row has expired, and the second one has not. -/
theorem partitions_agree_dailyVisits :
    parseTimePartitioning dailyForOneDay dailyVisits.schema = .ok ⟨.day, "", 86400000⟩ ∧
    rowPartitionIDs dailyVisits = [some "20251231", some "20260101"] ∧
    (purgeExpiredPartitions dailyVisits newYear).1.rows = [["cart"]] ∧
    PartitionsAgree dailyVisits newYear := by
  have parsed : parseTimePartitioning dailyForOneDay dailyVisits.schema =
      .ok ⟨.day, "", 86400000⟩ := by decide +kernel
  have resolves : PartitionResolves dailyVisits := rfl
  refine ⟨parsed, by decide +kernel, by decide +kernel, partitions_agree resolves ?_ newYear⟩
  intro config is
  cases is
  exact ⟨_, _, parsed⟩

end Visits

end LocaQL
