import LocaQL.Catalog.IngestionLabels
import LocaQL.Lib.Fallible
import LocaQL.Lib.GoCalendar

/-!
# Pseudocolumns

A query sees the partition of a row of a table that is partitioned by ingestion time in two more
columns, and a statement that changes the table brings them back: `partitionIDsFromEngineRows`
takes the two columns off and reads the partitions from them.

The cells of the two columns are appended to the cells that a row has.  So the two functions are
inverse exactly if every row has a cell for every column and every label is one of the
granularity of the table (`round_trip_iff`).  In a row that is narrower than the schema the
partition time stands in a column of the user, and the partition is lost
(`shifted_after_patch`).
-/

namespace LocaQL

open List hiding format

/-! ## Taking the pseudocolumns off -/

/-- The last column with the name, in lower case. -/
def pseudocolumnIndex (schema : List TableField) (name : String) : Option Nat :=
  schema.zipIdx.foldl
    (fun found f => if GoText.toLower f.1.name.toList = name.toList then some f.2 else found) none

/-- The elements that stand at neither index. -/
def keptColumns {α : Type} (timeIndex dateIndex : Option Nat) (l : List α) : List α :=
  (l.zipIdx.filter fun c => some c.2 ≠ timeIndex ∧ some c.2 ≠ dateIndex).map Prod.fst

/-- The value of the cell at the index, if there is one, without quotes around it. -/
def decodedAt (row : Row) (index : Option Nat) : Option (List Char) := do
  let i ← index
  let cell ← row[i]?
  let decoded ← loadStoredCell cell
  some (GoText.trimChar decoded.toList '"')

section

variable [GoFloat]

/-- The partition that a row of the engine carries, the current one if it carries none. -/
def partitionOfRow (config : Option TimePartitioningConfig) (current : String)
    (timeIndex dateIndex : Option Nat) (row : Row) : Result String :=
  let parsed :=
    match (decodedAt row timeIndex).bind fun d => parsePartitionTimestamp (String.ofList d) with
    | some parsed => some parsed
    | none => (decodedAt row dateIndex).bind fun d => GoTime.parse dateLayout d
  match parsed, config with
  | none, _ => .ok current
  | some parsed, some config => .ok (formatTimePartitionID parsed config.type)
  | some _, none =>
    .error (.panic "runtime error: invalid memory address or nil pointer dereference")

def partitionIDsFromEngineRows (schema : List TableField) (rows : List Row)
    (config : Option TimePartitioningConfig) (now : Time) :
    Result (List TableField × List Row × List String) :=
  let timeIndex := pseudocolumnIndex schema ingestionPartitionTimeColumn
  let dateIndex := pseudocolumnIndex schema ingestionPartitionDateColumn
  if timeIndex = none ∧ dateIndex = none then .ok (schema, rows, [])
  else if schema.length < 2 then .error (.panic "runtime error: makeslice: cap out of range")
  else do
    let current := ingestionPartitionID config now
    let partitions ← rows.mapM (partitionOfRow config current timeIndex dateIndex)
    pure (keptColumns timeIndex dateIndex schema, rows.map (keptColumns timeIndex dateIndex),
      partitions)

end

/-! ## Cells -/

theorem loadStoredCell_storeStringCell (value : String) :
    loadStoredCell (storeStringCell value) = some value := by
  rw [storeStringCell]
  split
  · have ne : storedEscapedCellPrefix ++ value ≠ storedNullCell := by
      intro same
      have lengths := congrArg String.length same
      have short : storedNullCell.length = 12 := by decide
      have long : storedEscapedCellPrefix.length = 14 := by decide
      rw [String.length_append, short, long] at lengths
      omega
    have starts : GoText.hasPrefixStr (storedEscapedCellPrefix ++ value)
        storedEscapedCellPrefix = true := by
      rw [GoText.hasPrefixStr, String.toList_append, isPrefixOf_iff_prefix]
      exact prefix_append _ _
    rw [loadStoredCell, if_neg ne, if_pos starts, GoText.trimPrefixStr, if_pos starts,
      String.toList_append, drop_left, String.ofList_toList]
  next ne =>
    rw [not_or] at ne
    rw [loadStoredCell, if_neg ne.1, if_neg ne.2]

/-! ## Texts of partitions -/

section

open GoTime

/-- The first instant of the partition, as calendar and clock show it. -/
def partitionStart (at_ : Time) (type : PartitionType) : Civil :=
  shown (civil at_) (partitionLayout type)

theorem plain_partitionStart {at_ : Time} (type : PartitionType)
    (year : 0 ≤ (civil at_).year ∧ (civil at_).year < 10000) : (partitionStart at_ type).Plain := by
  obtain ⟨month, day, hour, -, -, -⟩ := valid_civil at_
  have january : 1 ≤ daysIn (civil at_).year 1 := (by decide : (1 : Int) ≤ 28).trans (daysIn_bounds _ _).1
  have first : 1 ≤ daysIn (civil at_).year (civil at_).month :=
    (by decide : (1 : Int) ≤ 28).trans (daysIn_bounds _ _).1
  have clock : (0 : Int) ≤ 0 ∧ (0 : Int) < 60 := by decide
  have early : (0 : Int) ≤ 0 ∧ (0 : Int) < 24 := by decide
  have whole : (0 : Int) ≤ 0 ∧ (0 : Int) < nanosPerSecond := by decide
  cases type with
  | hour => exact ⟨⟨month, day, hour, clock, clock, whole⟩, year, rfl⟩
  | day => exact ⟨⟨month, day, early, clock, clock, whole⟩, year, rfl⟩
  | month => exact ⟨⟨month, ⟨Int.le_refl _, first⟩, early, clock, clock, whole⟩, year, rfl⟩
  | year =>
    have months : 1 ≤ 1 ∧ 1 ≤ 12 := by decide
    exact ⟨⟨months, ⟨Int.le_refl _, january⟩, early, clock, clock, whole⟩, year, rfl⟩

theorem readable_partitionLayout (type : PartitionType) : Readable (partitionLayout type) := by
  cases type <;> decide

/-- The text of a partition is the text of its start. -/
theorem format_partitionStart (at_ : Time) (type : PartitionType) :
    (partitionLayout type).flatMap (formatItem (civil at_)) =
      (partitionLayout type).flatMap (formatItem (partitionStart at_ type)) := by
  cases type <;> rfl

theorem shown_partitionStart (at_ : Time) (type : PartitionType) :
    shown (partitionStart at_ type) (partitionLayout type) = partitionStart at_ type := by
  cases type <;> rfl

/-- The identifier of a partition is read as its start, which has this identifier. -/
theorem parseTimePartitionID_format {at_ : Time} (type : PartitionType)
    (year : 0 ≤ (civil at_).year ∧ (civil at_).year < 10000) :
    parseTimePartitionID (formatTimePartitionID at_ type) type =
        some (partitionStart at_ type).instant ∧
      formatTimePartitionID (partitionStart at_ type).instant type =
        formatTimePartitionID at_ type := by
  have plain := plain_partitionStart type year
  have text : (formatTimePartitionID at_ type).toList =
      (partitionLayout type).flatMap (formatItem (partitionStart at_ type)) := by
    rw [formatTimePartitionID, format, String.toList_ofList, format_partitionStart]
  have named : ¬GoText.hasPrefixStr (formatTimePartitionID at_ type) "__" = true := by
    intro starts
    rw [GoText.hasPrefixStr, isPrefixOf_iff_prefix] at starts
    have mem := starts.subset (mem_cons_self : '_' ∈ "__".toList)
    rw [text] at mem
    rcases mem_format plain (readable_partitionLayout type) mem with digit | lit | zone
    · revert digit
      decide
    · revert lit
      cases type <;> decide
    · revert zone
      decide
  constructor
  · rw [parseTimePartitionID, if_neg (not_or.mpr ⟨formatTimePartitionID_ne at_ type, named⟩), text,
      parse_format plain (readable_partitionLayout type), shown_partitionStart]
    rw [shown_partitionStart]
    exact plain.valid
  · rw [formatTimePartitionID, format, civil_instant plain.valid, ← format_partitionStart]
    rfl

/-- A partition starts with a full second of a year with four digits. -/
theorem plain_of_parseTimePartitionID {label : String} {type : PartitionType} {start : Time}
    (parsed : parseTimePartitionID label type = some start) :
    ∃ c : Civil, c.Plain ∧ start = c.instant := by
  rw [parseTimePartitionID] at parsed
  split at parsed
  · cases parsed
  · refine plain_of_parse (fun item mem => ?_) parsed
    revert item
    cases type <;> decide

theorem solid_of_isDigit {ch : Char} (h : isDigit ch = true) :
    GoText.isSpace ch = false ∧ ch ≠ '"' := by
  have digits : ∀ n < 10, GoText.isSpace (Char.ofNat (48 + n)) = false ∧
      Char.ofNat (48 + n) ≠ '"' := by decide
  obtain ⟨low, high⟩ := Bool.and_eq_true_iff.mp h
  have low : 48 ≤ ch.toNat := of_decide_eq_true low
  have high : ch.toNat ≤ 57 := of_decide_eq_true high
  have is := digits (ch.toNat - 48) (by omega)
  rwa [show 48 + (ch.toNat - 48) = ch.toNat by omega, Char.ofNat_toNat] at is

theorem trimChar_of_not_mem {s : List Char} {c : Char} (h : c ∉ s) : GoText.trimChar s c = s := by
  have kept : ∀ l : List Char, c ∉ l → l.dropWhile (· == c) = l := by
    intro l absent
    cases l with
    | nil => rfl
    | cons a l =>
      have ne : (a == c) = false := beq_false_of_ne fun same => absent (same ▸ mem_cons_self)
      rw [dropWhile_cons, ne]
      rfl
  rw [GoText.trimChar, kept s h, kept s.reverse (fun mem => h (mem_reverse.mp mem)),
    reverse_reverse]

variable [GoFloat]

/-- A time without a fraction of a second is read back. -/
theorem parsePartitionTimestamp_format {c : Civil} (plain : c.Plain) :
    parsePartitionTimestamp (String.ofList
      (GoText.trimChar (format rfc3339Nano c.instant).toList '"')) = some c.instant := by
  have readable : Readable rfc3339Nano := by decide
  have all : shown c rfc3339Nano = c := by
    obtain ⟨y, m, d, h, mi, s, n⟩ := c
    have whole : n = 0 := plain.whole
    rw [whole]
    rfl
  have chars : ∀ ch ∈ rfc3339Nano.flatMap (formatItem c), GoText.isSpace ch = false ∧ ch ≠ '"' := by
    intro ch mem
    rcases mem_format plain readable mem with digit | lit | zone
    · exact solid_of_isDigit digit
    · simp only [rfc3339Nano, dateLayout, clockLayout, mem_append, mem_cons,
        not_mem_nil, Item.lit.injEq, reduceCtorEq, or_false, false_or] at lit
      rcases lit with (((rfl | rfl) | rfl) | rfl | rfl) <;> decide
    · subst zone
      decide
  have text : (format rfc3339Nano c.instant).toList = rfc3339Nano.flatMap (formatItem c) := by
    rw [format, String.toList_ofList, civil_instant plain.valid]
  have trimmed : GoText.trimSpace (GoText.trimChar (rfc3339Nano.flatMap (formatItem c)) '"') =
      rfc3339Nano.flatMap (formatItem c) := by
    rw [trimChar_of_not_mem fun mem => (chars _ mem).2 rfl]
    refine GoText.trimSpace_of_trimmed ⟨fun ch mem space => ?_, fun ch mem space => ?_⟩
    · exact absurd ((chars ch (mem_of_mem_head? mem)).1.symm.trans space) Bool.false_ne_true
    · exact absurd ((chars ch (mem_of_mem_getLast? mem)).1.symm.trans space) Bool.false_ne_true
  rw [parsePartitionTimestamp, text, String.toList_ofList, trimmed]
  have parsed : parse rfc3339Nano (rfc3339Nano.flatMap (formatItem c)) = some c.instant := by
    rw [parse_format plain readable (by rw [all]; exact plain.valid), all]
  have first : timestampLayouts.findSome? (fun layout =>
      parse layout (rfc3339Nano.flatMap (formatItem c))) = some c.instant := by
    rw [timestampLayouts, findSome?_cons, parsed]
  simp only [first]

end

/-! ## Columns -/

/-- The two columns that are added. -/
def pseudocolumns : List TableField :=
  [⟨ingestionPartitionTimeColumn, "TIMESTAMP", "", []⟩,
    ⟨ingestionPartitionDateColumn, "DATE", "", []⟩]

theorem pseudocolumnIndex_append (schema : List TableField) :
    pseudocolumnIndex (schema ++ pseudocolumns) ingestionPartitionTimeColumn =
        some schema.length ∧
      pseudocolumnIndex (schema ++ pseudocolumns) ingestionPartitionDateColumn =
        some (schema.length + 1) := by
  have time : GoText.toLower ingestionPartitionTimeColumn.toList =
      ingestionPartitionTimeColumn.toList := by decide
  have date : GoText.toLower ingestionPartitionDateColumn.toList =
      ingestionPartitionDateColumn.toList := by decide
  have apart : ingestionPartitionTimeColumn.toList ≠ ingestionPartitionDateColumn.toList := by
    decide
  constructor
  · rw [pseudocolumnIndex, zipIdx_append, foldl_append]
    simp only [pseudocolumns, zipIdx_cons, zipIdx_nil, foldl_cons, foldl_nil,
      time, date, if_neg apart.symm, if_true, Nat.zero_add]
  · rw [pseudocolumnIndex, zipIdx_append, foldl_append]
    simp only [pseudocolumns, zipIdx_cons, zipIdx_nil, foldl_cons, foldl_nil,
      date, if_true, Nat.zero_add]

theorem keptColumns_append {α : Type} (l : List α) (a b : α) :
    keptColumns (some l.length) (some (l.length + 1)) (l ++ [a, b]) = l := by
  have front : l.zipIdx.filter (fun c => decide (some c.2 ≠ some l.length ∧
      some c.2 ≠ some (l.length + 1))) = l.zipIdx := by
    refine filter_eq_self.mpr fun c mem => decide_eq_true ?_
    have lt := snd_lt_of_mem_zipIdx mem
    rw [Nat.add_zero] at lt
    rw [ne_eq, ne_eq, Option.some_inj, Option.some_inj]
    omega
  rw [keptColumns, zipIdx_append, filter_append, front, map_append]
  simp [zipIdx_cons]

/-! ## The round trip -/

section

variable {t : TableRecord} {config : TimePartitioningConfig}

/-- The partition of a row. -/
def partitionOf (t : TableRecord) (config : TimePartitioningConfig) (i : Nat) : String :=
  labelAt t.ingestionPartitions (ingestionPartitionID (some config) t.createdAt) i

/-- One cell for each column, NULL where the row is too short. -/
def userCells (schema : List TableField) (row : Row) : Row :=
  (List.range schema.length).map (cellAt row)

/-- The table is partitioned by ingestion time. -/
structure ByIngestion (t : TableRecord) (config : TimePartitioningConfig) : Prop where
  partitioned : t.timePartitioning = some config
  field : config.field = ""
  view : t.view = none
  external : t.external = none

/-- What a query sees of the table. -/
def imageOf (t : TableRecord) : List TableField × List Row :=
  materializeIngestionPseudocolumns (some t) t.schema t.rows

/-- Every row has a cell for every column, and every label is one of the granularity, of a year
with four digits. -/
structure Complete (t : TableRecord) (config : TimePartitioningConfig) : Prop where
  width : ∀ row ∈ t.rows, row.length = t.schema.length
  labels : ∀ i < t.rows.length, ∃ at_ : Time,
    (0 ≤ (GoTime.civil at_).year ∧ (GoTime.civil at_).year < 10000) ∧
      partitionOf t config i = formatTimePartitionID at_ config.type

theorem userCells_of_width {schema : List TableField} {row : Row} (h : row.length = schema.length) :
    userCells schema row = row := by
  refine ext_getElem ?_ fun i short there => ?_
  · rw [userCells, length_map, length_range, h]
  · simp only [userCells, getElem_map, getElem_range, cellAt]
    exact (getElem_eq_getD _).symm

theorem imageOf_eq (h : ByIngestion t config) :
    imageOf t = (t.schema ++ pseudocolumns, t.rows.zipIdx.map fun r =>
      r.1 ++ pseudocolumnCells (partitionOf t config r.2) config.type) := by
  have ok : ¬(config.field ≠ "" ∨ t.view.isSome = true ∨ t.external.isSome = true) := by
    rw [h.view, h.external, h.field]
    decide
  simp only [imageOf, materializeIngestionPseudocolumns, h.partitioned, if_neg ok]
  rfl

theorem getElem?_imageOf (h : ByIngestion t config) {i : Nat} {row : Row}
    (found : t.rows[i]? = some row) :
    (imageOf t).2[i]? = some (row ++ pseudocolumnCells (partitionOf t config i) config.type) := by
  rw [imageOf_eq h]
  simp only [getElem?_map, getElem?_zipIdx, found, Option.map_some, Nat.zero_add]

variable [GoFloat]

/-- Every column of every row has its value, the two columns have the time and the date of the
partition, and schema, values and partitions are read back from that. -/
structure RoundTrip (t : TableRecord) (config : TimePartitioningConfig) : Prop where
  columns : (imageOf t).1 = t.schema ++ pseudocolumns
  count : (imageOf t).2.length = t.rows.length
  cells : ∀ i row, t.rows[i]? = some row →
    ∃ start, parseTimePartitionID (partitionOf t config i) config.type = some start ∧
      (imageOf t).2[i]? = some (userCells t.schema row ++
        [storeStringCell (GoTime.format rfc3339Nano start),
          storeStringCell (GoTime.format dateLayout start)])
  back : ∀ now, partitionIDsFromEngineRows (imageOf t).1 (imageOf t).2 (some config) now =
    .ok (t.schema, t.rows.map (userCells t.schema),
      (List.range t.rows.length).map (partitionOf t config))

/-- The partition that is read from a row of full width. -/
theorem partitionOfRow_eq {schema : List TableField} {row : Row} {label : String} {start : Time}
    (width : row.length = schema.length) (current : String)
    (parsed : parseTimePartitionID label config.type = some start) :
    partitionOfRow (some config) current (some schema.length) (some (schema.length + 1))
      (row ++ pseudocolumnCells label config.type) =
        .ok (formatTimePartitionID start config.type) := by
  obtain ⟨c, plain, rfl⟩ := plain_of_parseTimePartitionID parsed
  have cell : (row ++ pseudocolumnCells label config.type)[schema.length]? =
      some (storeStringCell (GoTime.format rfc3339Nano c.instant)) := by
    rw [pseudocolumnCells, parsed, ← width, getElem?_append_right (Nat.le_refl _), Nat.sub_self]
    rfl
  have decoded : decodedAt (row ++ pseudocolumnCells label config.type) (some schema.length) =
      some (GoText.trimChar (GoTime.format rfc3339Nano c.instant).toList '"') := by
    simp only [decodedAt, bind, Option.bind, cell, loadStoredCell_storeStringCell]
  simp only [partitionOfRow, decoded, Option.bind_some, parsePartitionTimestamp_format plain]

/-- What is read back from rows of full width. -/
theorem partitionIDs_imageOf (h : ByIngestion t config)
    (width : ∀ row ∈ t.rows, row.length = t.schema.length) (parsed : ∀ i < t.rows.length, ∃ start,
      parseTimePartitionID (partitionOf t config i) config.type = some start) (now : Time) :
    partitionIDsFromEngineRows (imageOf t).1 (imageOf t).2 (some config) now =
      .ok (t.schema, t.rows, (List.range t.rows.length).map fun i =>
        formatTimePartitionID
          ((parseTimePartitionID (partitionOf t config i) config.type).getD 0) config.type) := by
  obtain ⟨time, date⟩ := pseudocolumnIndex_append t.schema
  have two : ¬(t.schema ++ pseudocolumns).length < 2 := by
    rw [length_append]
    exact Nat.not_lt.mpr (Nat.le_add_left _ _)
  have cells : ∀ i, ∃ a b, pseudocolumnCells (partitionOf t config i) config.type = [a, b] := by
    intro i
    rw [pseudocolumnCells]
    split
    · exact ⟨_, _, rfl⟩
    · exact ⟨_, _, rfl⟩
  have kept : (t.rows.zipIdx.map fun r =>
      r.1 ++ pseudocolumnCells (partitionOf t config r.2) config.type).map
        (keptColumns (some t.schema.length) (some (t.schema.length + 1))) = t.rows := by
    rw [map_map]
    refine (map_congr_left fun r mem => ?_).trans (zipIdx_map_fst 0 t.rows)
    obtain ⟨a, b, is⟩ := cells r.2
    rw [Function.comp_apply, is, ← width r.1 (fst_mem_of_mem_zipIdx mem)]
    exact keptColumns_append r.1 a b
  have partitions : (t.rows.zipIdx.map fun r =>
      r.1 ++ pseudocolumnCells (partitionOf t config r.2) config.type).mapM
        (partitionOfRow (some config) (ingestionPartitionID (some config) now)
          (some t.schema.length) (some (t.schema.length + 1))) =
      .ok (t.rows.zipIdx.map fun r => formatTimePartitionID
        ((parseTimePartitionID (partitionOf t config r.2) config.type).getD 0) config.type) := by
    rw [mapM_map, Fallible.mapM_ok_iff, map_map]
    refine map_congr_left fun r mem => ?_
    obtain ⟨start, is⟩ := parsed r.2 (by simpa using snd_lt_of_mem_zipIdx mem)
    refine (partitionOfRow_eq (width r.1 (fst_mem_of_mem_zipIdx mem)) _ is).trans ?_
    rw [Function.comp_apply, is]
    rfl
  have indexes : (t.rows.zipIdx.map fun r => formatTimePartitionID
        ((parseTimePartitionID (partitionOf t config r.2) config.type).getD 0) config.type) =
      (List.range t.rows.length).map fun i => formatTimePartitionID
        ((parseTimePartitionID (partitionOf t config i) config.type).getD 0) config.type := by
    rw [range_eq_range', ← zipIdx_map_snd 0 t.rows, map_map]
    rfl
  have off : keptColumns (some t.schema.length) (some (t.schema.length + 1))
      (t.schema ++ pseudocolumns) = t.schema := keptColumns_append ..
  rw [imageOf_eq h, partitionIDsFromEngineRows]
  simp only [time, date, two, reduceCtorEq, false_and, if_false, partitions, bind, Except.bind, kept,
    off, indexes]
  rfl

/-- **The pseudocolumns of a table that is partitioned by ingestion time are right, and are read
back, exactly if its rows are complete.** -/
theorem round_trip_iff (h : ByIngestion t config) : RoundTrip t config ↔ Complete t config := by
  constructor
  · intro trip
    have width : ∀ row ∈ t.rows, row.length = t.schema.length := by
      intro row mem
      obtain ⟨i, found⟩ := mem_iff_getElem?.mp mem
      obtain ⟨start, parsed, image⟩ := trip.cells i row found
      rw [getElem?_imageOf h found, pseudocolumnCells, parsed, Option.some_inj] at image
      have same := congrArg List.length (append_cancel_right image)
      rwa [userCells, length_map, length_range] at same
    have parsed : ∀ i < t.rows.length, ∃ start,
        parseTimePartitionID (partitionOf t config i) config.type = some start := by
      intro i lt
      obtain ⟨start, is, -⟩ := trip.cells i _ (getElem?_eq_getElem lt)
      exact ⟨start, is⟩
    refine ⟨width, fun i lt => ?_⟩
    obtain ⟨start, is⟩ := parsed i lt
    have back := (partitionIDs_imageOf h width parsed 0).symm.trans (trip.back 0)
    rw [Except.ok.injEq, Prod.mk.injEq, Prod.mk.injEq] at back
    have label := map_inj_left.mp back.2.2 i (mem_range.mpr lt)
    rw [is, Option.getD_some] at label
    obtain ⟨c, plain, rfl⟩ := plain_of_parseTimePartitionID is
    refine ⟨c.instant, ?_, label.symm⟩
    rw [GoTime.civil_instant plain.valid]
    exact plain.year
  · intro ⟨width, labels⟩
    have parsed : ∀ i < t.rows.length, ∃ start,
        parseTimePartitionID (partitionOf t config i) config.type = some start ∧
          formatTimePartitionID start config.type = partitionOf t config i := by
      intro i lt
      obtain ⟨at_, year, is⟩ := labels i lt
      rw [is]
      exact ⟨_, parseTimePartitionID_format config.type year⟩
    have user : t.rows.map (userCells t.schema) = t.rows :=
      (map_congr_left fun row mem => userCells_of_width (width row mem)).trans (map_id _)
    refine ⟨by rw [imageOf_eq h], by rw [imageOf_eq h]; simp, fun i row found => ?_, fun now => ?_⟩
    · obtain ⟨start, is, -⟩ := parsed i (List.getElem?_eq_some_iff.mp found).1
      refine ⟨start, is, ?_⟩
      rw [getElem?_imageOf h found, userCells_of_width (width row (mem_of_getElem? found)),
        pseudocolumnCells, is]
    · rw [partitionIDs_imageOf h width (fun i lt => ⟨_, (parsed i lt).choose_spec.1⟩) now, user]
      refine congrArg (fun labels => Except.ok (t.schema, t.rows, labels)) ?_
      refine map_congr_left fun i mem => ?_
      obtain ⟨start, is, same⟩ := parsed i (mem_range.mp mem)
      rw [is, Option.getD_some, same]

end

section

attribute [local instance] GoFloat.texts

open TableService

/-- The partitions of `clicks`. -/
def daily : TimePartitioningConfig := { type := .day, field := "" }

theorem round_trip_clicks :
    ∃ t, clicks.record? ⟨"p", "ds", "clicks"⟩ = some t ∧ RoundTrip t daily := by
  have found : (clicks.record? ⟨"p", "ds", "clicks"⟩).any (fun t => decide
      ((t.timePartitioning = some daily ∧ t.view = none ∧ t.external = none) ∧
        (∀ row ∈ t.rows, row.length = t.schema.length) ∧ t.rows.length = 3 ∧
          ∀ i < 3, partitionOf t daily i = formatTimePartitionID (january (i + 1)) .day)) = true := by
    decide +kernel
  obtain ⟨t, is, holds⟩ := (Option.any_eq_true _ _).mp found
  obtain ⟨⟨partitioned, view, external⟩, width, three, labels⟩ := of_decide_eq_true holds
  have years : ∀ i : Nat, i < 3 → 0 ≤ (GoTime.civil (january (i + 1))).year ∧
      (GoTime.civil (january (i + 1))).year < 10000 := by
    decide +kernel
  refine ⟨t, is, (round_trip_iff ⟨partitioned, rfl, view, external⟩).mpr ⟨width, fun i lt => ?_⟩⟩
  rw [three] at lt
  exact ⟨january (i + 1), years i lt, labels i lt⟩

/-- A column is added by a patch. -/
def addNote : Time × CatalogOp :=
  (january 2, .patch { projectID := "p", datasetID := "ds", tableID := "clicks",
                       schema := some [⟨"who", "STRING", "", []⟩, ⟨"note", "STRING", "", []⟩] })

/-- The row `y` in a table with two columns. -/
def noted : TableService :=
  ((({} : TableService).apply insertClicks.1 insertClicks.2).1.apply addNote.1 addNote.2).1

/-- After a column is added, the partition time stands in it, and the row is moved to the
partition of the moment. -/
theorem shifted_after_patch :
    ∃ u t, Run.Exec step (fun _ _ => True) {} [insertClicks, addNote] u ∧
      u.record? ⟨"p", "ds", "clicks"⟩ = some t ∧ ByIngestion t daily ∧
      t.rows = [["y"]] ∧ partitionOf t daily 0 = "20240101" ∧
      (imageOf t).2 = [["y", "2024-01-01T00:00:00Z", "2024-01-01"]] ∧
      (partitionIDsFromEngineRows (imageOf t).1 (imageOf t).2 (some daily) (january 5)).toOption =
        some (t.schema, [["y", "2024-01-01T00:00:00Z"]], ["20240105"]) ∧
      ¬RoundTrip t daily := by
  have found : (noted.record? ⟨"p", "ds", "clicks"⟩).any (fun t => decide
      ((t.timePartitioning = some daily ∧ t.view = none ∧ t.external = none) ∧
        (t.schema.length = 2 ∧ t.rows = [["y"]]) ∧ partitionOf t daily 0 = "20240101" ∧
        (imageOf t).2 = [["y", "2024-01-01T00:00:00Z", "2024-01-01"]] ∧
        (partitionIDsFromEngineRows (imageOf t).1 (imageOf t).2 (some daily)
          (january 5)).toOption =
            some (t.schema, [["y", "2024-01-01T00:00:00Z"]], ["20240105"]))) = true := by
    decide +kernel
  obtain ⟨t, is, holds⟩ := (Option.any_eq_true _ _).mp found
  obtain ⟨⟨partitioned, view, external⟩, ⟨two, rows⟩, label, image, back⟩ :=
    of_decide_eq_true holds
  refine ⟨noted, t, .cons trivial rfl (.cons trivial rfl .nil), is,
    ⟨partitioned, rfl, view, external⟩, rows, label, image, back, fun trip => ?_⟩
  rw [trip.back] at back
  have labels := congrArg (fun r => (Option.map (fun r => r.2.2) r)) back
  rw [rows] at labels
  simp only [Except.toOption, Option.map_some, length_singleton, range_one, map_cons,
    map_nil, label, Option.some_inj] at labels
  revert labels
  decide

end

end LocaQL
