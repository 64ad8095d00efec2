import LocaQL.Catalog.Framing

/-!
# Ingestion partitions

A table that is partitioned by ingestion time has a label for each of its rows, in a list of
its own.  The operations keep the two lists in step: they append labels with rows, take the
labels that a statement supplies, drop them with expired rows, or carry them over to the new
image of the rows (`aligned_of_run`).

Carrying over goes by content: the first row with given cells takes the label of the first old
row with these cells, and so on.  A row that a statement leaves in place therefore keeps its
label only if as many rows with its cells stand before it as before (`relabelled_in_place`).
-/

namespace LocaQL

open List

/-! ## Labels -/

theorem four_le_length_pad (n : Int) : 4 ≤ (GoTime.pad 4 n).length := by
  simp only [GoTime.pad, length_append, length_replicate]
  omega

theorem formatTimePartitionID_ne (value : Time) (type : PartitionType) :
    formatTimePartitionID value type ≠ "" := by
  intro empty
  have chars := congrArg String.toList empty
  rw [formatTimePartitionID, GoTime.format, String.toList_ofList] at chars
  have year := four_le_length_pad (GoTime.civil value).year
  have length :
      4 ≤ ((partitionLayout type).flatMap (GoTime.formatItem (GoTime.civil value))).length := by
    cases type with
    | hour | day | month | year =>
      simp only [partitionLayout, flatMap_cons, GoTime.formatItem, length_append]
      omega
  rw [chars] at length
  exact absurd length (by decide)

/-- The table is partitioned by ingestion time. -/
def ingests (t : TableRecord) : Bool := t.timePartitioning.any fun config => config.field == ""

theorem ingestionPartitionID_ne {t : TableRecord} (h : ingests t) (now : Time) :
    ingestionPartitionID t.timePartitioning now ≠ "" := by
  obtain ⟨config, is, field⟩ := (Option.any_eq_true _ _).mp h
  rw [is, ingestionPartitionID, if_neg (not_not.mpr (beq_iff_eq.mp field))]
  exact formatTimePartitionID_ne now config.type

theorem newIngestionPartitions_eq {config : Option TimePartitioningConfig} {now : Time}
    (h : ingestionPartitionID config now ≠ "") (count : Nat) :
    newIngestionPartitions config count now =
      List.replicate count (ingestionPartitionID config now) := by
  rw [newIngestionPartitions]
  split
  next none =>
    rcases none with empty | zero
    · exact absurd empty h
    · rw [zero, replicate_zero]
  · rfl

theorem labelAt_ne {labels : List String} {fallback : String} (h : fallback ≠ "") (i : Nat) :
    labelAt labels fallback i ≠ "" := by
  rw [labelAt]
  split
  next label _ =>
    split
    · exact h
    next ne => exact ne
  · exact h

variable {i j : Nat} {label : String}

theorem labelAt_of_some {labels : List String} {fallback : String} (found : labels[i]? = some label)
    (ne : label ≠ "") : labelAt labels fallback i = label := by
  rw [labelAt, found]
  exact if_neg ne

/-- Every row has a label. -/
structure Labelled (t : TableRecord) : Prop where
  length : t.ingestionPartitions.length = t.rows.length
  nonempty : ∀ label ∈ t.ingestionPartitions, label ≠ ""

/-- Every row has a label if the table is partitioned by ingestion time. -/
def Aligned (t : TableRecord) : Prop := ingests t = true → Labelled t

/-- An edit that leaves rows and labels alone keeps them aligned. -/
theorem Aligned.edited {t t' : TableRecord} (h : Aligned t) (rows : t'.rows = t.rows)
    (labels : t'.ingestionPartitions = t.ingestionPartitions) (kind : ingests t' → ingests t) :
    Aligned t' := by
  intro ingested
  obtain ⟨length, nonempty⟩ := h (kind ingested)
  rw [← rows, ← labels] at length
  rw [← labels] at nonempty
  exact ⟨length, nonempty⟩

theorem ingests_of_getD {t : TableRecord} {config? : Option (Option TimePartitioningConfig)}
    (kind : ∀ config, config? = some (some config) → config.field = "" → ingests t)
    (h : (config?.getD t.timePartitioning).any fun config => config.field == "") : ingests t := by
  cases config? with
  | none => exact h
  | some given =>
    cases given with
    | none => cases h
    | some config => exact kind config rfl (beq_iff_eq.mp h)

/-! ## Carrying labels over -/

section

variable {ρ : Type} [RowText ρ]

/-- Whether the row has the JSON text that labels are carried over by. -/
def sameText (row other : ρ) : Bool := RowText.marshal other == RowText.marshal row

/-- The positions, from `m` on, of the rows with the given text. -/
def positions (row : ρ) (m : Nat) (rows : List ρ) : List Nat :=
  ((rows.zipIdx m).filter fun r => sameText row r.1).map (·.2)

theorem get?_availableRows (row : ρ) (rows : List ρ) (m : Nat) :
    ((availableRows m rows).get? (RowText.marshal row)).getD [] = positions row m rows := by
  induction rows generalizing m with
  | nil => rfl
  | cons other rows ih =>
    rw [availableRows, GoMap.get?_set, positions, zipIdx_cons]
    by_cases same : sameText row other
    · have key : RowText.marshal other = RowText.marshal row := beq_iff_eq.mp same
      rw [if_pos key.symm, key, ih, filter_cons_of_pos (a := (other, m)) same]
      rfl
    · have key : RowText.marshal row ≠ RowText.marshal other := fun is =>
        same (beq_iff_eq.mpr is.symm)
      rw [if_neg key, ih, filter_cons_of_neg (a := (other, m)) same]
      rfl

/-- A row is the one among the rows with its text that its predecessors make it. -/
theorem getElem?_positions {row : ρ} {rows : List ρ} (found : rows[i]? = some row) (m : Nat) :
    (positions row m rows)[(rows.take i).countP (sameText row)]? = some (m + i) := by
  induction rows generalizing i m with
  | nil => simp at found
  | cons other rows ih =>
    rw [positions, zipIdx_cons]
    cases i with
    | zero =>
      cases found
      have same : sameText row row := beq_self_eq_true _
      rw [filter_cons_of_pos (a := (row, m)) same]
      rfl
    | succ i =>
      rw [getElem?_cons_succ] at found
      have rest := ih found (m + 1)
      rw [take_succ_cons, countP_cons, show m + (i + 1) = m + 1 + i by omega]
      by_cases same : sameText row other
      · rw [filter_cons_of_pos (a := (other, m)) same, if_pos same]
        exact rest
      · rw [filter_cons_of_neg (a := (other, m)) same, if_neg same]
        exact rest

/-- A new row takes the old row that comes as often after others with its text. -/
theorem getElem?_matchRows {available : GoMap (List Char) (List Nat)} {row : ρ} {rows : List ρ}
    (found : rows[j]? = some row) :
    (matchRows available rows)[j]? = some (((available.get? (RowText.marshal row)).getD [])[
      (rows.take j).countP (sameText row)]?) := by
  induction rows generalizing available j with
  | nil => simp at found
  | cons other rows ih =>
    rw [matchRows]
    cases j with
    | zero =>
      cases found
      split
      next none => rw [none]; rfl
      next old rest some => rw [some]; rfl
    | succ j =>
      rw [getElem?_cons_succ] at found
      rw [take_succ_cons, countP_cons]
      by_cases same : sameText row other
      · have key : RowText.marshal other = RowText.marshal row := beq_iff_eq.mp same
        rw [if_pos same, key]
        split
        next none =>
          rw [getElem?_cons_succ, ih found, none]
          rfl
        next old rest some =>
          rw [getElem?_cons_succ, ih found, GoMap.get?_set_self, some, getElem?_cons_succ]
          rfl
      · have key : RowText.marshal row ≠ RowText.marshal other := fun is =>
          same (beq_iff_eq.mpr is.symm)
        rw [if_neg same]
        split
        · rw [getElem?_cons_succ, ih found]
          rfl
        · rw [getElem?_cons_succ, ih found, GoMap.get?_set_ne _ _ key]
          rfl

theorem length_matchRows (available : GoMap (List Char) (List Nat)) (rows : List ρ) :
    (matchRows available rows).length = rows.length := by
  induction rows generalizing available with
  | nil => rfl
  | cons row rows ih =>
    rw [matchRows]
    split
    · rw [length_cons, ih, length_cons]
    · rw [length_cons, ih, length_cons]

section

variable {oldCount : Nat} {oldLabel : Nat → String} {current : String} {used : List Nat}
  {matched : List (Option Nat)}

theorem length_assignRows (used : List Nat) (i : Nat) (matched : List (Option Nat)) :
    (assignRows oldCount oldLabel current used i matched).length = matched.length := by
  induction matched generalizing used i with
  | nil => rfl
  | cons m matched ih =>
    cases m with
    | some old => rw [assignRows, length_cons, ih, length_cons]
    | none =>
      rw [assignRows]
      split
      · rw [length_cons, ih, length_cons]
      · rw [length_cons, ih, length_cons]

/-- Every label is that of an old row or the current one. -/
theorem mem_assignRows (h : label ∈ assignRows oldCount oldLabel current used i matched) :
    (∃ old, label = oldLabel old) ∨ label = current := by
  induction matched generalizing used i with
  | nil => cases h
  | cons m matched ih =>
    cases m with
    | some old =>
      rw [assignRows] at h
      rcases mem_cons.mp h with rfl | h
      · exact .inl ⟨old, rfl⟩
      · exact ih h
    | none =>
      rw [assignRows] at h
      split at h
      · rcases mem_cons.mp h with rfl | h
        · exact .inl ⟨i, rfl⟩
        · exact ih h
      · rcases mem_cons.mp h with rfl | h
        · exact .inr rfl
        · exact ih h

/-- A row with a match takes its label. -/
theorem getElem?_assignRows_some {old : Nat} (h : matched[j]? = some (some old)) :
    (assignRows oldCount oldLabel current used i matched)[j]? = some (oldLabel old) := by
  induction matched generalizing used i j with
  | nil => simp at h
  | cons m matched ih =>
    cases j with
    | zero =>
      cases h
      rfl
    | succ j =>
      rw [getElem?_cons_succ] at h
      cases m with
      | some other =>
        rw [assignRows, getElem?_cons_succ]
        exact ih h
      | none =>
        rw [assignRows]
        split
        · rw [getElem?_cons_succ]
          exact ih h
        · rw [getElem?_cons_succ]
          exact ih h

/-- A row without a match takes over the old row at its position, if that one is free. -/
theorem getElem?_assignRows_none (h : matched[j]? = some none) :
    (assignRows oldCount oldLabel current used i matched)[j]? =
      some (if i + j < oldCount ∧ i + j ∉ used then oldLabel (i + j) else current) := by
  induction matched generalizing used i j with
  | nil => simp at h
  | cons m matched ih =>
    cases j with
    | zero =>
      cases h
      rw [assignRows]
      split
      next free => exact congrArg some (if_pos free).symm
      next taken => exact congrArg some (if_neg taken).symm
    | succ j =>
      rw [getElem?_cons_succ] at h
      rw [show i + (j + 1) = i + 1 + j by omega]
      cases m with
      | some other =>
        rw [assignRows, getElem?_cons_succ]
        exact ih h
      | none =>
        rw [assignRows]
        split
        · have later : i + 1 + j ∉ i :: used ↔ i + 1 + j ∉ used := by
            rw [mem_cons, not_or]
            exact and_iff_right (by omega)
          rw [getElem?_cons_succ, ih h]
          simp only [later]
        · rw [getElem?_cons_succ]
          exact ih h

end

theorem length_positions (row : ρ) (m : Nat) (rows : List ρ) :
    (positions row m rows).length = rows.countP (sameText row) := by
  have texts : (rows.zipIdx m).map (·.1) = rows := zipIdx_map_fst ..
  rw [positions, length_map, ← countP_eq_length_filter]
  conv => rhs; rw [← texts, countP_map]
  rfl

section

variable {oldRows newRows : List ρ} {labels : List String} {current : String}

section

variable (ne : current ≠ "")

include ne

theorem reconcileIngestionPartitions_eq :
    reconcileIngestionPartitions oldRows newRows labels current =
      assignRows oldRows.length (labelAt labels current) current
        ((matchRows (availableRows 0 oldRows) newRows).filterMap id) 0
        (matchRows (availableRows 0 oldRows) newRows) := by
  rw [reconcileIngestionPartitions]
  split
  next none =>
    rcases none with empty | nil
    · exact absurd empty ne
    · rw [List.isEmpty_iff.mp nil]
      rfl
  · rfl

theorem length_reconcileIngestionPartitions :
    (reconcileIngestionPartitions oldRows newRows labels current).length = newRows.length := by
  rw [reconcileIngestionPartitions_eq ne, length_assignRows, length_matchRows]

theorem reconcileIngestionPartitions_ne
    (mem : label ∈ reconcileIngestionPartitions oldRows newRows labels current) : label ≠ "" := by
  rw [reconcileIngestionPartitions_eq ne] at mem
  rcases mem_assignRows mem with ⟨old, rfl⟩ | rfl
  · exact labelAt_ne ne old
  · exact ne

/-- A row keeps its label if as many rows with its text stand before it as before. -/
theorem reconcileIngestionPartitions_kept {row : ρ} (old : oldRows[i]? = some row)
    (new : newRows[j]? = some row)
    (rank : (newRows.take j).countP (sameText row) = (oldRows.take i).countP (sameText row)) :
    (reconcileIngestionPartitions oldRows newRows labels current)[j]? =
      some (labelAt labels current i) := by
  rw [reconcileIngestionPartitions_eq ne]
  refine getElem?_assignRows_some ?_
  rw [getElem?_matchRows new, get?_availableRows, rank, getElem?_positions old, Nat.zero_add]

/-- Rows behind all the old ones are new. -/
theorem reconcileIngestionPartitions_appended (kept : oldRows <+: newRows) {row : ρ}
    (new : newRows[j]? = some row) (behind : oldRows.length ≤ j) :
    (reconcileIngestionPartitions oldRows newRows labels current)[j]? = some current := by
  rw [reconcileIngestionPartitions_eq ne]
  refine (getElem?_assignRows_none ?_).trans (congrArg some (if_neg (by omega)))
  -- the rows before it have used up the old rows with its text
  have before : oldRows <+: newRows.take j := by
    rw [prefix_take_iff]
    exact ⟨kept, behind⟩
  have count := before.sublist.countP_le (p := sameText row)
  rw [getElem?_matchRows new, get?_availableRows, getElem?_eq_none]
  rwa [length_positions]

end

end

end

/-! ## Operations -/

namespace TableService

variable {now : Time} {t t' : TableRecord} {rows : List Row} {partitions : List String}

theorem labelled_replicate (rows : List Row) (ne : label ≠ "")
    (labels : t.ingestionPartitions = List.replicate rows.length label) (is : t.rows = rows) :
    Labelled t := by
  constructor
  · rw [labels, length_replicate, is]
  · intro l mem
    rw [labels] at mem
    rwa [eq_of_mem_replicate mem]

theorem aligned_newRecord (input : TableInsert) (path : TableReference) (now : Time) :
    Aligned (newRecord input path now) := by
  intro ingests
  have ne := ingestionPartitionID_ne ingests now
  exact labelled_replicate input.rows ne (newIngestionPartitions_eq ne _) rfl

theorem aligned_stamp (h : Aligned t) : Aligned (stamp now t) := h.edited rfl rfl id

theorem aligned_destination {existing : Option TableRecord} (path : TableReference)
    (holds : ∀ t, existing = some t → Aligned t) : Aligned (destination existing path now) := by
  cases existing with
  | none =>
    intro ingested
    cases ingested
  | some t => exact holds t rfl

/-- The labels that an append or an overwrite leaves. -/
theorem ingestionPartitions_merge (now : Time) (ingested : ingests t) (schema : List TableField)
    (rows : List Row) (write : WriteDisposition) :
    (merge t schema rows write now).ingestionPartitions =
      (if write = .writeAppend then t.ingestionPartitions else []) ++
        List.replicate rows.length (ingestionPartitionID t.timePartitioning now) := by
  have new := newIngestionPartitions_eq (ingestionPartitionID_ne ingested now) rows.length
  rw [merge]
  dsimp only
  rw [new]
  split
  · rfl
  · rfl

theorem rows_merge (now : Time) (t : TableRecord) (schema : List TableField) (rows : List Row)
    (write : WriteDisposition) :
    (merge t schema rows write now).rows =
      (if write = .writeAppend then t.rows else []) ++ rows := by
  rw [merge]
  dsimp only
  split
  · rfl
  · rfl

theorem aligned_merge (h : Aligned t) (schema : List TableField) (rows : List Row)
    (write : WriteDisposition) : Aligned (merge t schema rows write now) := by
  intro ingested
  have is : ingests t := ingested
  have labels := ingestionPartitions_merge now is schema rows write
  constructor
  · rw [labels, rows_merge, length_append, length_append, length_replicate]
    split
    · rw [(h is).length]
    · rfl
  · intro label mem
    rw [labels] at mem
    rcases mem_append.mp mem with mem | mem
    · split at mem
      · exact (h is).nonempty label mem
      · cases mem
    · rw [eq_of_mem_replicate mem]
      exact ingestionPartitionID_ne is now

/-- The labels of a new row image. -/
theorem labelled_replacedPartitions (now : Time) (ingested : ingests t) (rows : List Row)
    (partitions : List String) :
    (replacedPartitions now t rows partitions).length = rows.length ∧
      ∀ label ∈ replacedPartitions now t rows partitions, label ≠ "" := by
  have ne := ingestionPartitionID_ne ingested now
  rw [replacedPartitions]
  split
  next supplied =>
    refine ⟨(length_map ..).trans supplied.2, fun label mem => ?_⟩
    obtain ⟨p, -, rfl⟩ := mem_map.mp mem
    split
    · exact ne
    next given => exact given
  · exact ⟨length_reconcileIngestionPartitions ne,
      fun label mem => reconcileIngestionPartitions_ne ne mem⟩

theorem aligned_seeds : Seeds fun _ t => Aligned t := by
  intro path now ingested
  cases ingested

section

variable [GoFloat]

theorem replaceRows_ok {path : TableReference} (h : replaceRows now path rows partitions t = .ok t') :
    t' = { t with rows := rows, ingestionPartitions := replacedPartitions now t rows partitions } := by
  rw [replaceRows] at h
  split at h
  · cases h
  split at h
  · cases h
  split at h
  · cases h
  split at h
  · cases h
  · cases h
    rfl

theorem aligned_replaceRows {path : TableReference}
    (h : replaceRows now path rows partitions t = .ok t') : Aligned t' := by
  rw [replaceRows_ok h]
  intro ingested
  have is : ingests t := ingested
  obtain ⟨length, nonempty⟩ := labelled_replacedPartitions now is rows partitions
  exact ⟨length, nonempty⟩

/-- The rows of a table with their labels, as a purge looks at them. -/
theorem labelledRows_eq {config : TimePartitioningConfig} (h : Labelled t) :
    labelledRows t config none = t.rows.zip t.ingestionPartitions := by
  refine ext_getElem? fun i => ?_
  rw [labelledRows, getElem?_map, getElem?_zipIdx, Nat.zero_add]
  cases found : t.rows[i]? with
  | none =>
    have behind := List.getElem?_eq_none_iff.mp found
    rw [getElem?_eq_none (by rw [length_zip]; omega)]
    rfl
  | some row =>
    have lt : i < t.ingestionPartitions.length := by
      rw [h.length]
      exact (List.getElem?_eq_some_iff.mp found).1
    have label := getElem?_eq_getElem lt
    have ne := h.nonempty _ (getElem_mem lt)
    have pair : (t.rows.zip t.ingestionPartitions)[i]? = some (row, t.ingestionPartitions[i]) :=
      getElem?_zip_eq_some.mpr ⟨found, label⟩
    rw [pair]
    show some (row, labelAt _ _ i) = _
    rw [labelAt_of_some label ne]

/-- A purge takes labels away with their rows. -/
theorem zip_purge (h : Aligned t) (ingested : ingests t) (now : Time) :
    Labelled (purgeExpiredPartitions t now).1 ∧
      ((purgeExpiredPartitions t now).1.rows.zip
        (purgeExpiredPartitions t now).1.ingestionPartitions).Sublist
          (t.rows.zip t.ingestionPartitions) := by
  rcases purgeExpiredPartitions_cases t now with same | ⟨config, column, is, resolves, purged⟩
  · rw [same]
    exact ⟨h ingested, .refl _⟩
  · have field : config.field = "" := by
      rw [ingests, is, Option.any_some] at ingested
      exact beq_iff_eq.mp ingested
    rw [partitionColumn, if_pos field] at resolves
    cases resolves
    rw [purged, labelledRows_eq (h ingested)]
    simp only [keepRows, field, if_true]
    generalize kept : (t.rows.zip t.ingestionPartitions).filter _ = pairs
    have sub : pairs.Sublist (t.rows.zip t.ingestionPartitions) := kept ▸ filter_sublist
    refine ⟨⟨?_, fun label mem => ?_⟩, ?_⟩
    · exact (length_map ..).trans (length_map ..).symm
    · obtain ⟨pair, here, rfl⟩ := mem_map.mp mem
      exact (h ingested).nonempty _ (of_mem_zip (sub.subset here)).2
    · have pairs_eq : (pairs.map (·.1)).zip (pairs.map (·.2)) = pairs :=
        (zip_of_prod rfl rfl).symm
      rw [pairs_eq]
      exact sub

theorem ingests_purge (t : TableRecord) (now : Time) :
    ingests (purgeExpiredPartitions t now).1 = ingests t := by
  rcases purgeExpiredPartitions_cases t now with same | ⟨config, column, -, -, purged⟩
  · rw [same]
  · rw [purged]
    rfl

theorem aligned_purges : Purges fun _ t => Aligned t := by
  intro path now t h ingested
  rw [ingests_purge] at ingested
  exact (zip_purge h ingested now).1

/-- A patch or an update does not make a table partitioned by ingestion time that is not. -/
def KeepsKind (s : TableService) (label : Time × CatalogOp) : Prop :=
  match label.2 with
  | .patch input => ∀ path t config,
      trimPath input.projectID input.datasetID input.tableID = some path →
      (s.touched label.1 path).record? path = some t →
      input.timePartitioning = some (some config) → config.field = "" → ingests t
  | .update input => ∀ path t config,
      trimPath input.projectID input.datasetID input.tableID = some path →
      (s.touched label.1 path).record? path = some t →
      input.timePartitioning = some config → config.field = "" → ingests t
  | _ => True

variable {s : TableService} {op : CatalogOp}

/-- Every operation keeps rows and labels aligned. -/
theorem aligned_apply (h : All (fun _ t => Aligned t) s) (keeps : KeepsKind s (now, op)) :
    All (fun _ t => Aligned t) (s.apply now op).1 := by
  have none (path : TableReference) : IfThere (fun _ t => Aligned t) path none := .none path
  have seeded := fun p d => h.ensure aligned_seeds now p d
  have read := fun p d => (seeded p d).purge aligned_purges now p d
  cases op with
  | list p d start size => exact read p d
  | listAll p d => exact seeded p d
  | get path | getData path => exact read _ _
  | datasetTableCount p d =>
    simp only [apply, datasetTableCount]
    split
    · exact h
    · exact h.purge aligned_purges now p d
  | insert input =>
    show All _ (s.insert now input).1
    exact h.insert aligned_seeds fun path _ => aligned_newRecord input path now
  | delete path => exact h.everywhere.delete aligned_seeds.ifThere path (none path)
  | deleteIfVersion path v =>
    exact h.everywhere.deleteIfVersion aligned_seeds.ifThere path v (none path)
  | patch input =>
    refine h.edit aligned_seeds fun path t trim found aligned => aligned.edited rfl rfl ?_
    exact ingests_of_getD fun config is => keeps path t config trim found is
  | update input =>
    refine h.edit aligned_seeds fun path t trim found aligned => aligned.edited rfl rfl ?_
    intro ingested
    obtain ⟨config, is, field⟩ := (Option.any_eq_true _ _).mp ingested
    exact keeps path t config trim found is (beq_iff_eq.mp field)
  | replaceRowsIfVersion path v rows partitions =>
    refine h.commitIfVersion aligned_seeds fun t t' _ _ changed => ?_
    exact aligned_stamp (aligned_replaceRows changed)
  | replaceTableIfVersion path v schema rows =>
    refine h.commitIfVersion aligned_seeds fun t t' _ _ changed ingested => ?_
    split at changed
    · cases changed
    · cases changed
      cases ingested
  | replaceViewIfVersion path v schema view =>
    refine h.commitIfVersion aligned_seeds fun t t' _ _ changed ingested => ?_
    cases changed
    cases ingested
  | addColumnsIfVersion path v newFields =>
    refine h.commitIfVersion aligned_seeds fun t t' _ aligned changed ingested => ?_
    cases changed
    obtain ⟨length, nonempty⟩ := aligned ingested
    exact ⟨length.trans (length_map ..).symm, nonempty⟩
  | dropColumnsIfVersion path v dropNames =>
    refine h.dropColumnsIfVersion aligned_seeds fun t _ aligned => ⟨aligned.edited rfl rfl id, ?_⟩
    intro ingested
    obtain ⟨length, nonempty⟩ := aligned ingested
    exact ⟨length.trans (length_map ..).symm, nonempty⟩
  | renameColumnsIfVersion path v renames =>
    refine h.commitIfVersion aligned_seeds fun t t' _ aligned changed => ?_
    cases changed
    exact aligned.edited rfl rfl id
  | renameTableIfVersion path newTableID v =>
    exact h.renameTableIfVersion aligned_seeds path newTableID v fun t aligned =>
      aligned.edited rfl rfl id
  | upsertCopyDestination dest schema rows create write =>
    show All _ (s.upsertCopyDestination now dest schema rows create write).1
    exact h.upsertCopyDestination aligned_seeds fun path _ existing _ holds =>
      aligned_stamp (aligned_merge (aligned_destination path holds) schema rows _)
  | deleteAllForDataset p d =>
    exact h.everywhere.deleteAllForDataset p d fun path _ _ => none path

end

/-! ## What an operation does to the labels -/

/-- Row `i` of the table is left in place as row `j` of the new image: a label that is supplied
for it is its own, and where labels are carried over as many rows with its text stand before it
as before. -/
def InPlace (t : TableRecord) (rows : List Row) (partitions : List String) (i j : Nat) : Prop :=
  if partitions.length = rows.length then partitions[j]? = t.ingestionPartitions[i]?
  else ∀ row, rows[j]? = some row →
    (rows.take j).countP (sameText row) = (t.rows.take i).countP (sameText row)

/-- Row `j` of the new image is appended: no label is supplied for it, or all the old rows stand
before it. -/
def Appended (t : TableRecord) (rows : List Row) (partitions : List String) (j : Nat) : Prop :=
  if partitions.length = rows.length then partitions[j]? = some "" else t.rows <+: rows

/-- Appended rows have the label of the moment, and rows that are left in place their own. -/
def Carried (now : Time) (t t' : TableRecord) : CatalogOp → Prop
  | .upsertCopyDestination _ _ rows _ write =>
    t'.rows = (if normalizeWriteDisposition write = .writeAppend then t.rows else []) ++ rows ∧
      t'.ingestionPartitions =
        (if normalizeWriteDisposition write = .writeAppend then t.ingestionPartitions else []) ++
          List.replicate rows.length (ingestionPartitionID t.timePartitioning now)
  | .replaceRowsIfVersion _ _ rows partitions =>
    t'.rows = rows ∧
      (∀ i j row, t.rows[i]? = some row → rows[j]? = some row → InPlace t rows partitions i j →
        t'.ingestionPartitions[j]? = t.ingestionPartitions[i]?) ∧
      ∀ j, t.rows.length ≤ j → j < rows.length → Appended t rows partitions j →
        t'.ingestionPartitions[j]? = some (ingestionPartitionID t.timePartitioning now)
  | _ => t'.rows.length = t.rows.length ∧ t'.ingestionPartitions = t.ingestionPartitions

theorem carried_merge (ingested : ingests t) (dest : TableReference) (schema : List TableField)
    (rows : List Row) (create write : String) :
    Carried now t (stamp now (merge t schema rows (normalizeWriteDisposition write) now))
      (.upsertCopyDestination dest schema rows create write) := by
  rw [Carried]
  generalize normalizeWriteDisposition write = disposition
  exact ⟨rows_merge now t schema rows disposition,
    ingestionPartitions_merge now ingested schema rows disposition⟩

/-- No row is added, and every row that is left has its own label. -/
def Thinned (t t' : TableRecord) : Prop :=
  (t'.rows.zip t'.ingestionPartitions).Sublist (t.rows.zip t.ingestionPartitions)

/-- Labels that are carried over. -/
theorem replacedPartitions_kept (labelled : Labelled t) (ingested : ingests t) {row : Row}
    (old : t.rows[i]? = some row) (new : rows[j]? = some row)
    (stays : InPlace t rows partitions i j) :
    (replacedPartitions now t rows partitions)[j]? = t.ingestionPartitions[i]? := by
  have ne := ingestionPartitionID_ne ingested now
  have lt : i < t.ingestionPartitions.length := by
    rw [labelled.length]
    exact (List.getElem?_eq_some_iff.mp old).1
  have label := getElem?_eq_getElem lt
  have given := labelled.nonempty _ (getElem_mem lt)
  rw [InPlace] at stays
  rw [replacedPartitions]
  split
  next supplied =>
    rw [if_pos supplied.2] at stays
    rw [getElem?_map, stays, label, Option.map_some, if_neg given]
  next unlabelled =>
    rw [if_neg (by simpa [ne] using unlabelled)] at stays
    rw [reconcileIngestionPartitions_kept ne old new (stays row new),
      labelAt_of_some label given, label]

theorem replacedPartitions_appended (ingested : ingests t) (behind : t.rows.length ≤ j)
    (lt : j < rows.length) (appended : Appended t rows partitions j) :
    (replacedPartitions now t rows partitions)[j]? =
      some (ingestionPartitionID t.timePartitioning now) := by
  have ne := ingestionPartitionID_ne ingested now
  rw [Appended] at appended
  rw [replacedPartitions]
  split
  next supplied =>
    rw [if_pos supplied.2] at appended
    rw [getElem?_map, appended, Option.map_some, if_pos rfl]
  next unlabelled =>
    rw [if_neg (by simpa [ne] using unlabelled)] at appended
    exact reconcileIngestionPartitions_appended ne appended (getElem?_eq_getElem lt) behind

variable {s : TableService} {op : CatalogOp} {path : TableReference}

/-- What is found at the path is what is left of the table when rows were purged. -/
def ThinnedAt (path : TableReference) (t : TableRecord) (at_ : TableReference)
    (r : TableRecord) : Prop :=
  Aligned r ∧ (at_ = path → ingests r → Thinned t r)

theorem thinnedAt_seeds : Seeds (ThinnedAt path t) := by
  intro at_ now
  refine ⟨aligned_seeds at_ now, fun _ ingested => ?_⟩
  cases ingested

theorem all_thinnedAt (h : All (fun _ t => Aligned t) s) (before : s.record? path = some t) :
    All (ThinnedAt path t) s := by
  intro at_ r found
  refine ⟨h at_ r found, fun here _ => ?_⟩
  rw [here, before] at found
  cases found
  exact .refl _

/-- A table that is still there after a renaming has not been renamed. -/
theorem record?_rename {at_ : TableReference} {newTableID : String} {v : Nat}
    (before : s.record? path = some t)
    (after : (s.renameTableIfVersion now at_ newTableID v).1.record? path = some t') : t' = t := by
  have mutates : Mutates (s.touched now at_) now _ (s.renameTableIfVersion now at_ newTableID v).1 _ :=
    mutates_renameTableIfVersion at_ newTableID v
  have there : (s.touched now at_).record? path = some t := record?_ensure now _ _ before
  generalize (s.renameTableIfVersion now at_ newTableID v).1 = s' at mutates after
  generalize (s.renameTableIfVersion now at_ newTableID v).2.isOk = ok at mutates
  cases mutates with
  | refused => exact Option.some.inj (after.symm.trans there)
  | moved found absent =>
    rw [record?_move] at after
    split at after
    next here =>
      rw [here, absent] at there
      cases there
    · split at after
      · cases after
      · exact Option.some.inj (after.symm.trans there)

section

variable [GoFloat]

theorem thinnedAt_purges : Purges (ThinnedAt path t) := by
  intro at_ now r holds
  refine ⟨aligned_purges at_ now r holds.1, fun here ingested => ?_⟩
  rw [ingests_purge] at ingested
  exact (zip_purge holds.1 ingested now).2.trans (holds.2 here ingested)

/-- An insertion leaves the tables that are there. -/
theorem record?_insert {input : TableInsert} (before : s.record? path = some t) :
    (s.insert now input).1.record? path = some t := by
  have start : Everywhere (fun at_ o => at_ = path → o = some t) s := by
    intro at_ here
    rwa [here]
  have kept : Everywhere (fun at_ o => at_ = path → o = some t) (s.insert now input).1 := by
    refine start.insert ?_ ?_
    · intro at_ now' absent here
      cases absent here
    · intro at_ _ absent here
      cases absent here
  exact kept path rfl

/-- **One operation.**  What it leaves of a table that is partitioned by ingestion time. -/
theorem carried_apply (h : All (fun _ t => Aligned t) s) (before : s.record? path = some t)
    (after : (s.apply now op).1.record? path = some t') (ingested : ingests t)
    (ingested' : ingests t') : Carried now t t' op ∨ Thinned t t' := by
  have labelled := h path t before ingested
  have start := all_thinnedAt h before
  have seeded := fun p d => start.ensure thinnedAt_seeds now p d
  have read := fun p d => (seeded p d).purge thinnedAt_purges now p d
  have thinned (all : All (ThinnedAt path t) (s.apply now op).1) : Thinned t t' :=
    (all path t' after).2 rfl ingested'
  -- for the other operations: what is found at the path is the table, or what the change made of it
  let P (at_ : TableReference) (r : TableRecord) : Prop :=
    at_ = path → ingests r → Carried now t r op ∨ Thinned t r
  have all : All P s := fun at_ r found here ingested => .inr ((start at_ r found).2 here ingested)
  have seeds : Seeds P := fun at_ now here ingested => by cases ingested
  have none (path : TableReference) : IfThere P path none := .none path
  have there {at_ : TableReference} {r : TableRecord} (here : at_ = path)
      (found : (s.touched now at_).record? at_ = some r) : r = t := by
    subst here
    rw [touched, record?_ensure now _ _ before] at found
    exact (Option.some.inj found).symm
  have done (all : All P (s.apply now op).1) : Carried now t t' op ∨ Thinned t t' :=
    all path t' after rfl ingested'
  cases op with
  | list p d start size => exact .inr (thinned (read p d))
  | listAll p d => exact .inr (thinned (seeded p d))
  | get at_ | getData at_ => exact .inr (thinned (read _ _))
  | datasetTableCount p d =>
    refine .inr (thinned ?_)
    simp only [apply, datasetTableCount]
    split
    · exact start
    · exact start.purge thinnedAt_purges now p d
  | insert input =>
    cases (record?_insert before).symm.trans after
    exact .inr (.refl _)
  | delete at_ => exact done (all.everywhere.delete seeds.ifThere at_ (none at_))
  | deleteIfVersion at_ v =>
    exact done (all.everywhere.deleteIfVersion seeds.ifThere at_ v (none at_))
  | patch input | update input =>
    refine done (all.edit seeds fun at_ r trim found _ here _ => ?_)
    cases there here found
    exact .inl ⟨rfl, rfl⟩
  | replaceRowsIfVersion at_ v rows partitions =>
    refine done (all.commitIfVersion seeds fun r r' found _ changed here _ => ?_)
    cases there here found
    rw [replaceRows_ok changed]
    refine .inl ⟨rfl, fun i j row old new stays => ?_, fun j behind lt appended => ?_⟩
    · exact replacedPartitions_kept labelled ingested old new stays
    · exact replacedPartitions_appended ingested behind lt appended
  | replaceTableIfVersion at_ v schema rows =>
    refine done (all.commitIfVersion seeds fun r r' found _ changed here ingested => ?_)
    split at changed
    · cases changed
    · cases changed
      cases ingested
  | replaceViewIfVersion at_ v schema view =>
    refine done (all.commitIfVersion seeds fun r r' found _ changed here ingested => ?_)
    cases changed
    cases ingested
  | addColumnsIfVersion at_ v newFields =>
    refine done (all.commitIfVersion seeds fun r r' found _ changed here _ => ?_)
    cases changed
    cases there here found
    exact .inl ⟨length_map .., rfl⟩
  | dropColumnsIfVersion at_ v dropNames =>
    refine done (all.dropColumnsIfVersion seeds fun r found _ => ⟨fun here _ => ?_, fun here _ => ?_⟩)
    · cases there here found
      exact .inl ⟨rfl, rfl⟩
    · cases there here found
      exact .inl ⟨length_map .., rfl⟩
  | renameColumnsIfVersion at_ v renames =>
    refine done (all.commitIfVersion seeds fun r r' found _ changed here _ => ?_)
    cases changed
    cases there here found
    exact .inl ⟨rfl, rfl⟩
  | renameTableIfVersion at_ newTableID v =>
    cases record?_rename before after
    exact .inr (.refl _)
  | upsertCopyDestination dest schema rows create write =>
    refine done (all.upsertCopyDestination seeds fun at_ _ existing found _ here _ => ?_)
    subst here
    rw [touched, record?_ensure now _ _ before] at found
    subst found
    exact .inl (carried_merge ingested dest schema rows create write)
  | deleteAllForDataset p d =>
    exact done (all.everywhere.deleteAllForDataset p d fun at_ _ _ => none at_)

end

section

attribute [local instance] GoFloat.texts

/-- A day of January 2024. -/
def january (day : Int) : Time := (738884 + day) * 86400000000000

/-- A table that is partitioned by the day of ingestion, with the row `y`. -/
def insertClicks : Time × CatalogOp :=
  (january 1, .insert { projectID := "p", datasetID := "ds", tableID := "clicks",
                        schema := [⟨"who", "STRING", "", []⟩], rows := [["y"]],
                        timePartitioning := some { type := .day, field := "" } })

/-- The row `x` is appended. -/
def appendClick (day : Int) : Time × CatalogOp :=
  (january day, .upsertCopyDestination ⟨"p", "ds", "clicks"⟩ [⟨"who", "STRING", "", []⟩]
    [["x"]] "" "WRITE_APPEND")

/-- Rows `y`, `x` and `x` of three days. -/
def clicks : TableService :=
  ((({} : TableService).apply insertClicks.1 insertClicks.2).1.apply
    (appendClick 2).1 (appendClick 2).2).1.apply (appendClick 3).1 (appendClick 3).2 |>.1

theorem exec_clicks :
    Run.Exec step KeepsKind {} [insertClicks, appendClick 2, appendClick 3] clicks :=
  .cons trivial rfl (.cons trivial rfl (.cons trivial rfl .nil))

/-- The row `y` becomes an `x`, and no labels are supplied. -/
def editClick : Time × CatalogOp :=
  (january 4, .replaceRowsIfVersion ⟨"p", "ds", "clicks"⟩ 3 [["x"], ["x"], ["x"]] [])

end

end TableService

end LocaQL
