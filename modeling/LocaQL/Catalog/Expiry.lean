import LocaQL.Catalog.Framing

/-!
# Expired tables

A table whose expiration time has passed stays in the catalog until a read purges its dataset.
The reads purge before they look, so to them the table is gone.  The mutators and `listAll` do
not: to them it is still there, and what they write into it disappears with the next read.

An operation gets the answer, and leaves the tables, that it would if the table had been deleted
when it expired, as long as it purges first or does not concern the table (`asIfDeleted_iff`).
-/

namespace LocaQL.TableService

open List

variable {s d s' d' : TableService} {path at_ : TableReference} {r : TableRecord} {now : Time}
  {v : Nat} {op : CatalogOp} {names : List TableReference}

/-! ## Answers -/

/-- The answers of the operations, except for the version that a listing returns. -/
inductive Answer where
  | page (tables : List TableRecord) (next : Option Nat)
  | tables (tables : List TableRecord)
  | table (table : Option TableRecord)
  | data (data : Option (List TableField × List Row))
  | count (n : Nat)
  | done (ok : Bool)
  | outcome (outcome : Result Unit)
  | rows (outcome : Result Nat)

section

variable [GoFloat]

def answer (s : TableService) (now : Time) : CatalogOp → Answer
  | .list p d start size =>
    .page (s.list now p d start size).2.1 (s.list now p d start size).2.2.1
  | .listAll p d => .tables (s.listAll now p d).2
  | .get path => .table (s.get now path).2
  | .getData path => .data (s.getData now path).2
  | .datasetTableCount p d => .count (s.datasetTableCount now p d).2
  | .insert input => .table (s.insert now input).2
  | .delete path => .done (s.delete now path).2
  | .patch input => .done (s.patch now input).2
  | .update input => .done (s.update now input).2
  | .deleteIfVersion path v => .outcome (s.deleteIfVersion now path v).2
  | .replaceRowsIfVersion path v rows partitions =>
    .outcome (s.replaceRowsIfVersion now path v rows partitions).2
  | .replaceTableIfVersion path v schema rows =>
    .outcome (s.replaceTableIfVersion now path v schema rows).2
  | .replaceViewIfVersion path v schema view =>
    .outcome (s.replaceViewIfVersion now path v schema view).2
  | .addColumnsIfVersion path v newFields =>
    .outcome (s.addColumnsIfVersion now path v newFields).2
  | .dropColumnsIfVersion path v dropNames =>
    .outcome (s.dropColumnsIfVersion now path v dropNames).2
  | .renameColumnsIfVersion path v renames =>
    .outcome (s.renameColumnsIfVersion now path v renames).2
  | .renameTableIfVersion path newTableID v =>
    .outcome (s.renameTableIfVersion now path newTableID v).2
  | .upsertCopyDestination dest schema rows create write =>
    .rows (s.upsertCopyDestination now dest schema rows create write).2
  | .deleteAllForDataset _ _ => .done true

end

/-- The table at a path, unless it has expired. -/
def live (now : Time) (s : TableService) (path : TableReference) : Option TableRecord :=
  (s.record? path).filter fun t => !expired now t

/-! ## Two catalogs that differ in one table -/

/-- `d` is `s` without the table at the path. -/
structure Without (path : TableReference) (s d : TableService) : Prop where
  datasets : ∀ p q, (p, q) ≠ (path.projectID, path.datasetID) →
    d.datasets.get? (p, q) = s.datasets.get? (p, q)
  here : ∃ tables, s.datasets.get? (path.projectID, path.datasetID) = some tables ∧
    d.datasets.get? (path.projectID, path.datasetID) = some (tables.delete path.tableID)

theorem Without.record? (h : Without path s d) (at_ : TableReference) :
    d.record? at_ = if at_ = path then none else s.record? at_ := by
  obtain ⟨tables, there, there'⟩ := h.here
  by_cases here : (at_.projectID, at_.datasetID) = (path.projectID, path.datasetID)
  · simp only [TableService.record?, here, there, there', Option.bind_some, GoMap.get?_delete]
    obtain ⟨hp, hd⟩ := Prod.mk.inj here
    simp only [TableReference.ext_iff, hp, hd, true_and]
  · rw [if_neg, TableService.record?, TableService.record?, h.datasets _ _ here]
    rintro rfl
    exact here rfl

theorem Without.record?_ne (h : Without path s d) (ne : at_ ≠ path) :
    d.record? at_ = s.record? at_ := by
  rw [h.record?, if_neg ne]

theorem without_delete (now : Time) (found : s.record? path = some r) :
    Without path s (s.delete now path).1 := by
  obtain ⟨tables, there⟩ := Option.isSome_iff_exists.mp (present_of_record found)
  have same : s.ensureDatasetLocked now path.projectID path.datasetID = s :=
    ensure_of_present there
  have erased : (s.delete now path).1 = s.store path.projectID path.datasetID
      ((s.tables path.projectID path.datasetID).delete path.tableID) := by
    simp only [delete, same, get?_tables, found]
  rw [erased]
  refine ⟨fun p q ne => ?_, tables, there, ?_⟩
  · show (s.datasets.set _ _).get? (p, q) = _
    exact GoMap.get?_set_ne _ _ ne
  · show (s.datasets.set _ _).get? _ = _
    rw [GoMap.get?_set_self, tables_eq there]

theorem Without.ensure (h : Without path s d) (now : Time) (p q : String) :
    Without path (s.ensureDatasetLocked now p q) (d.ensureDatasetLocked now p q) := by
  obtain ⟨tables, there, there'⟩ := h.here
  by_cases here : (p, q) = (path.projectID, path.datasetID)
  · obtain ⟨rfl, rfl⟩ := Prod.mk.inj here
    rw [ensure_of_present there, ensure_of_present there']
    exact h
  · refine ⟨fun p' q' ne => ?_, tables, ?_, ?_⟩
    · rw [datasets_ensure, datasets_ensure, h.datasets p q here, h.datasets p' q' ne]
    · exact (datasets_ensure_ne (Ne.symm here)).trans there
    · exact (datasets_ensure_ne (Ne.symm here)).trans there'

theorem Without.touch (h : Without path s d) (now : Time) (op : CatalogOp) :
    Without path (s.touch now op) (d.touch now op) := by
  rw [TableService.touch, TableService.touch]
  split
  · exact h.ensure now _ _
  · exact h

/-- An expired table is as good as one that is not there. -/
theorem Without.live_eq (h : Without path s d) (gone : ∀ t, s.record? path = some t → expired now t)
    (at_ : TableReference) : live now d at_ = live now s at_ := by
  rw [TableService.live, TableService.live, h.record?]
  split
  next here =>
    subst here
    cases found : s.record? at_ with
    | none => rfl
    | some t =>
      rw [Option.filter_none, Option.filter_some, gone t found]
      rfl
  · rfl

theorem record?_of_datasets (h : d.datasets.get? (at_.projectID, at_.datasetID) =
    s.datasets.get? (at_.projectID, at_.datasetID)) : d.record? at_ = s.record? at_ := by
  rw [record?, record?, h]

/-! ## Mutators read only the tables they name -/

theorem checkVersion_congr (same : d.record? path = s.record? path) :
    checkVersion (d.tables path.projectID path.datasetID) path v =
      checkVersion (s.tables path.projectID path.datasetID) path v := by
  simp only [checkVersion, get?_tables, same]

/-- The same outcome, and the same record at the path. -/
structure Agree {α : Type} (path : TableReference) (x y : TableService × α) : Prop where
  outcome : x.2 = y.2
  record : x.1.record? path = y.1.record? path

section

variable
  (same : (d.touched now path).record? path = (s.touched now path).record? path)

include same

theorem agree_commitIfVersion {change : TableRecord → Result TableRecord} :
    Agree path (d.commitIfVersion now path v change) (s.commitIfVersion now path v change) := by
  have checked := checkVersion_congr (v := v) same
  rw [touched, touched] at checked same
  simp only [commitIfVersion, checked]
  split
  · exact ⟨rfl, same⟩
  · split
    · exact ⟨rfl, same⟩
    · exact ⟨rfl, by simp only [record?_commit, if_true]⟩

theorem agree_dropColumnsIfVersion {dropNames : List String} :
    Agree path (d.dropColumnsIfVersion now path v dropNames)
      (s.dropColumnsIfVersion now path v dropNames) := by
  have checked := checkVersion_congr (v := v) same
  rw [touched, touched] at checked same
  simp only [dropColumnsIfVersion, checked]
  split
  · exact ⟨rfl, same⟩
  · split
    · exact ⟨rfl, by simp only [record?_setTables_set, if_true]⟩
    · exact ⟨rfl, by simp only [record?_commit, if_true]⟩

theorem agree_edit {names : Option TableReference} {change : TableRecord → TableRecord}
    (trim : names = some path) :
    Agree path (d.edit now names change) (s.edit now names change) := by
  rw [touched, touched] at same
  subst trim
  simp only [edit, get?_tables, same]
  split
  · exact ⟨rfl, same⟩
  · exact ⟨rfl, by simp only [record?_commit, if_true]⟩

theorem agree_delete : Agree path (d.delete now path) (s.delete now path) := by
  rw [touched, touched] at same
  simp only [delete, get?_tables, same]
  split
  · exact ⟨rfl, same⟩
  · exact ⟨rfl, by simp only [record?_erase, if_true]⟩

theorem agree_deleteIfVersion :
    Agree path (d.deleteIfVersion now path v) (s.deleteIfVersion now path v) := by
  have checked := checkVersion_congr (v := v) same
  rw [touched, touched] at checked same
  simp only [deleteIfVersion, checked]
  split
  · exact ⟨rfl, same⟩
  · exact ⟨rfl, by simp only [record?_erase, if_true]⟩

theorem agree_renameTableIfVersion {newTableID : String}
    (same' : (d.touched now path).record? ⟨path.projectID, path.datasetID, newTableID⟩ =
      (s.touched now path).record? ⟨path.projectID, path.datasetID, newTableID⟩) :
    Agree path (d.renameTableIfVersion now path newTableID v)
        (s.renameTableIfVersion now path newTableID v) ∧
      Agree ⟨path.projectID, path.datasetID, newTableID⟩
        (d.renameTableIfVersion now path newTableID v)
        (s.renameTableIfVersion now path newTableID v) := by
  have checked := checkVersion_congr (v := v) same
  rw [touched, touched] at checked same same'
  have exists' : ((d.ensureDatasetLocked now path.projectID path.datasetID).tables path.projectID
      path.datasetID).get? newTableID = ((s.ensureDatasetLocked now path.projectID
        path.datasetID).tables path.projectID path.datasetID).get? newTableID := by
    rw [← get?_tables, ← get?_tables] at same'
    exact same'
  simp only [renameTableIfVersion, checked, exists']
  split
  · exact ⟨⟨rfl, same⟩, ⟨rfl, same'⟩⟩
  split
  · exact ⟨⟨rfl, same⟩, ⟨rfl, same'⟩⟩
  · refine ⟨⟨rfl, ?_⟩, ⟨rfl, ?_⟩⟩
    · simp only [record?_move, if_true]
    · simp only [record?_move, if_true]

section

variable [GoFloat]

theorem agree_insert {input : TableInsert}
    (trim : trimPath input.projectID input.datasetID input.tableID = some path) :
    Agree path (d.insert now input) (s.insert now input) := by
  rw [touched, touched] at same
  simp only [insert, trim, get?_tables, same]
  split
  · exact ⟨rfl, same⟩
  · split
    · exact ⟨rfl, same⟩
    · exact ⟨rfl, by simp only [record?_update, if_true]⟩

theorem agree_upsertCopyDestination {dest : TableReference} {schema : List TableField}
    {rows : List Row} {create write : String}
    (trim : trimPath dest.projectID dest.datasetID dest.tableID = some path) :
    Agree path (d.upsertCopyDestination now dest schema rows create write)
      (s.upsertCopyDestination now dest schema rows create write) := by
  rw [touched, touched] at same
  simp only [upsertCopyDestination, trim, get?_tables, same]
  split
  · exact ⟨rfl, same⟩
  split
  · exact ⟨rfl, same⟩
  split
  · exact ⟨rfl, same⟩
  · exact ⟨rfl, by simp only [record?_commit, if_true]⟩

end

end

theorem edit_none {names : Option TableReference} {change : TableRecord → TableRecord}
    (trim : names = none) : (s.edit now names change).2 = false := by
  subst trim
  rfl

theorem same_of_trim {names : Option TableReference}
    (touches : op.touches? = names.map fun path => (path.projectID, path.datasetID))
    (trim : names = some path)
    (same : ∀ at_ ∈ names.toList, (d.touch now op).record? at_ = (s.touch now op).record? at_) :
    (d.touched now path).record? path = (s.touched now path).record? path := by
  rw [touch_eq_touchedBy touches, touch_eq_touchedBy touches, trim] at same
  exact same path mem_cons_self

/-- The operations that look at a table without purging its dataset first. -/
def uses (op : CatalogOp) (path : TableReference) : Bool :=
  match op with
  | .listAll p q => (p, q) = (path.projectID, path.datasetID)
  | op => path ∈ op.names?.getD []

theorem uses_of_names (mutator : op.names? = some names) (path : TableReference) :
    uses op path = decide (path ∈ names) := by
  cases op with
  | listAll p q => cases mutator
  | _ => simp only [uses, mutator, Option.getD_some]

theorem found_of_edit {names : Option TableReference} {change : TableRecord → TableRecord}
    (ok : (s.edit now names change).2 = true) :
    ∃ path t, names = some path ∧ (s.touched now path).record? path = some t := by
  cases names with
  | none => cases ok
  | some path =>
    simp only [edit, get?_tables] at ok
    split at ok
    · cases ok
    next t found => exact ⟨path, t, rfl, found⟩

theorem found_of_delete (ok : (s.delete now path).2 = true) :
    ∃ t, (s.touched now path).record? path = some t := by
  simp only [delete, get?_tables] at ok
  split at ok
  · cases ok
  next t found => exact ⟨t, found⟩

theorem absent_of_rename {newTableID : String}
    (ok : (s.renameTableIfVersion now path newTableID v).2.isOk = true) :
    (s.touched now path).record? ⟨path.projectID, path.datasetID, newTableID⟩ = none := by
  have mutates : Mutates (s.touched now path) now _ _ _ :=
    mutates_renameTableIfVersion path newTableID v
  rw [ok] at mutates
  generalize (s.renameTableIfVersion now path newTableID v).1 = s' at mutates
  cases mutates with
  | moved found absent => exact absent

section

variable [GoFloat]

/-- A mutator that finds the same tables under its names gives the same answer and leaves the
same tables there. -/
theorem agree_apply (mutator : op.names? = some names)
    (same : ∀ at_ ∈ names, (d.touch now op).record? at_ = (s.touch now op).record? at_) :
    answer d now op = answer s now op ∧
      ∀ at_ ∈ names, (d.apply now op).1.record? at_ = (s.apply now op).1.record? at_ := by
  have single {α : Type} {path : TableReference} {x y : TableService × α} (f : α → Answer)
      (h : Agree path x y) : f x.2 = f y.2 ∧ ∀ at_ ∈ [path], x.1.record? at_ = y.1.record? at_ :=
    ⟨congrArg f h.outcome, fun at_ mem => mem_singleton.mp mem ▸ h.record⟩
  cases op with
  | list p q start size | listAll p q | get path | getData path | datasetTableCount p q
  | deleteAllForDataset p q =>
    cases mutator
  | delete path =>
    cases mutator
    exact single .done (agree_delete (same path mem_cons_self))
  | deleteIfVersion path v =>
    cases mutator
    exact single .outcome (agree_deleteIfVersion (same path mem_cons_self))
  | replaceRowsIfVersion path v rows partitions | replaceTableIfVersion path v schema rows
  | replaceViewIfVersion path v schema view | addColumnsIfVersion path v newFields =>
    cases mutator
    exact single .outcome (agree_commitIfVersion (same path mem_cons_self))
  | dropColumnsIfVersion path v dropNames =>
    cases mutator
    exact single .outcome (agree_dropColumnsIfVersion (same path mem_cons_self))
  | renameColumnsIfVersion path v renames =>
    cases mutator
    exact single .outcome (agree_commitIfVersion (same path mem_cons_self))
  | renameTableIfVersion path newTableID v =>
    cases mutator
    have agree := agree_renameTableIfVersion (v := v) (same path mem_cons_self)
      (same _ (mem_cons_of_mem _ mem_cons_self))
    refine ⟨congrArg Answer.outcome agree.1.outcome, fun at_ mem => ?_⟩
    rcases mem_cons.mp mem with rfl | mem
    · exact agree.1.record
    · rw [mem_singleton.mp mem]
      exact agree.2.record
  | insert input =>
    rw [CatalogOp.names?, Option.some.injEq] at mutator
    rw [← mutator] at same ⊢
    cases trim : trimPath input.projectID input.datasetID input.tableID with
    | none => simp [answer, insert, trim]
    | some path =>
      have same := same_of_trim (by rw [CatalogOp.touches?]) trim same
      dsimp only [answer, apply]
      exact single .table (agree_insert same trim)
  | patch input | update input =>
    rw [CatalogOp.names?, Option.some.injEq] at mutator
    rw [← mutator] at same ⊢
    cases trim : trimPath input.projectID input.datasetID input.tableID with
    | none =>
      exact ⟨congrArg Answer.done ((edit_none trim).trans (edit_none trim).symm), by simp⟩
    | some path =>
      have same := same_of_trim (by rw [CatalogOp.touches?]) trim same
      exact single .done (agree_edit same trim)
  | upsertCopyDestination dest schema rows create write =>
    rw [CatalogOp.names?, Option.some.injEq] at mutator
    rw [← mutator] at same ⊢
    cases trim : trimPath dest.projectID dest.datasetID dest.tableID with
    | none => simp [answer, upsertCopyDestination, trim]
    | some path =>
      have same := same_of_trim (by rw [CatalogOp.touches?]) trim same
      dsimp only [answer, apply]
      exact single .rows (agree_upsertCopyDestination same trim)

end

/-! ## Reads purge first -/

section

variable (h : Without path s d) (gone : ∀ t, s.record? path = some t → expired now t)

include h gone

theorem Without.deleteAllForDataset (p q : String) (at_ : TableReference) :
    live now (d.deleteAllForDataset p q) at_ = live now (s.deleteAllForDataset p q) at_ := by
  have record (s : TableService) : (s.deleteAllForDataset p q).record? at_ =
      if (at_.projectID, at_.datasetID) = (p, q) then none else s.record? at_ := by
    rw [TableService.deleteAllForDataset]
    split
    next absent =>
      split
      next here => rw [TableService.record?, here, absent, Option.bind_none]
      · rfl
    · rw [record?_bump]
      simp only [TableService.record?, GoMap.get?_delete]
      split
      · rfl
      · rfl
  have same := h.live_eq gone at_
  rw [live, live, record, record]
  split
  · rfl
  · exact same

variable [GoFloat]

/-- A purge finds the same whether an expired table was deleted before or not. -/
theorem Without.purge (p q : String) :
    (d.purge now p q).datasets.get? (p, q) = (s.purge now p q).datasets.get? (p, q) ∧
      ∀ at_, live now (d.purge now p q) at_ = live now (s.purge now p q) at_ := by
  obtain ⟨tables, map, map'⟩ := h.here
  have dropped : ∀ t, tables.get? path.tableID = some t → purgeRecord now t = none := by
    intro t found
    have found : s.record? path = some t := by
      rw [TableService.record?, map, Option.bind_some, found]
    rw [purgeRecord, gone t found]
    rfl
  have same : (d.purge now p q).datasets.get? (p, q) = (s.purge now p q).datasets.get? (p, q) := by
    rw [datasets_purge, datasets_purge, if_pos rfl, if_pos rfl]
    by_cases here : (p, q) = (path.projectID, path.datasetID)
    · rw [here, map, map', Option.map_some, Option.map_some, GoMap.filterMap_delete _ _ _ dropped]
    · rw [h.datasets p q here]
  refine ⟨same, fun at_ => ?_⟩
  by_cases this : (at_.projectID, at_.datasetID) = (p, q)
  · rw [TableService.live, TableService.live, TableService.record?, TableService.record?, this,
      same]
  · have live := h.live_eq gone at_
    rw [TableService.live, TableService.live] at live ⊢
    rwa [record?_purge, record?_purge, if_neg this, if_neg this]

/-- What a read finds. -/
theorem Without.read (p q : String) :
    ((d.ensureDatasetLocked now p q).purge now p q).datasets.get? (p, q) =
        ((s.ensureDatasetLocked now p q).purge now p q).datasets.get? (p, q) ∧
      ∀ at_, live now ((d.ensureDatasetLocked now p q).purge now p q) at_ =
        live now ((s.ensureDatasetLocked now p q).purge now p q) at_ := by
  refine (h.ensure now p q).purge (fun t found => ?_) p q
  obtain ⟨tables', map, -⟩ := h.here
  by_cases here : (path.projectID, path.datasetID) = (p, q)
  · obtain ⟨rfl, rfl⟩ := Prod.mk.inj here
    rw [ensure_of_present map] at found
    exact gone t found
  · rw [TableService.record?, datasets_ensure_ne here] at found
    exact gone t found

/-! ## Expired tables are absent -/

theorem without_mutator (found : s.record? path = some r) (mutator : op.names? = some names)
    (spared : path ∉ names) :
    answer d now op = answer s now op ∧
      ∀ at_, live now (d.apply now op).1 at_ = live now (s.apply now op).1 at_ := by
  have touched := h.touch now op
  have agree := agree_apply mutator fun at_ mem =>
    touched.record?_ne (show at_ ≠ path from fun is => spared (is ▸ mem))
  refine ⟨agree.1, fun at_ => ?_⟩
  by_cases named : at_ ∈ names
  · rw [live, live, agree.2 at_ named]
  have framed (s : TableService) : (s.apply now op).1.record? at_ = (s.touch now op).record? at_ :=
    frame_apply mutator named
  rw [live, live, framed, framed]
  refine touched.live_eq (fun t there => ?_) at_
  rw [record?_touch now op found] at there
  exact gone t (found.trans there)

theorem without_count (p q : String) :
    (d.datasetTableCount now p q).2 = (s.datasetTableCount now p q).2 ∧
      ∀ at_, live now (d.datasetTableCount now p q).1 at_ =
        live now (s.datasetTableCount now p q).1 at_ := by
  cases present : s.datasets.get? (p, q) with
  | none =>
    have other : (p, q) ≠ (path.projectID, path.datasetID) := by
      intro here
      obtain ⟨tables, there, -⟩ := h.here
      rw [here, there] at present
      cases present
    have absent := (h.datasets p q other).trans present
    simp only [datasetTableCount, present, absent]
    exact ⟨trivial, h.live_eq gone⟩
  | some tables =>
    have purged := h.purge gone p q
    obtain ⟨tables', present'⟩ : ∃ tables', d.datasets.get? (p, q) = some tables' := by
      by_cases here : (p, q) = (path.projectID, path.datasetID)
      · obtain ⟨tables', -, there⟩ := h.here
        exact ⟨_, here ▸ there⟩
      · exact ⟨tables, (h.datasets p q here).trans present⟩
    have same : (d.purge now p q).tables p q = (s.purge now p q).tables p q := by
      rw [TableService.tables, TableService.tables, purged.1]
    simp only [datasetTableCount, present, present', same]
    exact ⟨trivial, purged.2⟩

/-- An operation that does not use an expired table cannot tell whether it was deleted. -/
theorem without_unused (found : s.record? path = some r) (unused : uses op path = false) :
    answer d now op = answer s now op ∧
      ∀ at_, live now (d.apply now op).1 at_ = live now (s.apply now op).1 at_ := by
  have read (p q : String) := h.read gone p q
  cases mutator : op.names? with
  | some names =>
    have spared : path ∉ names := by
      rw [uses_of_names mutator, decide_eq_false_iff_not] at unused
      exact unused
    exact without_mutator h gone found mutator spared
  | none =>
    cases op with
    | list p q start size =>
      have same : ((d.ensureDatasetLocked now p q).purge now p q).tables p q =
          ((s.ensureDatasetLocked now p q).purge now p q).tables p q := by
        rw [TableService.tables, TableService.tables, (read p q).1]
      refine ⟨?_, (read p q).2⟩
      simp only [answer, list, same]
    | listAll p q =>
      have other : (p, q) ≠ (path.projectID, path.datasetID) := by
        rw [uses, decide_eq_false_iff_not] at unused
        exact unused
      have touched := h.ensure now p q
      have same : (d.ensureDatasetLocked now p q).tables p q =
          (s.ensureDatasetLocked now p q).tables p q := by
        rw [TableService.tables, TableService.tables, touched.datasets p q other]
      refine ⟨?_, touched.live_eq fun t there => ?_⟩
      · simp only [answer, listAll, same]
      · rw [record?_ensure now p q found] at there
        exact gone t (found.trans there)
    | get at_ =>
      refine ⟨?_, (read at_.projectID at_.datasetID).2⟩
      exact congrArg Answer.table (record?_of_datasets (read _ _).1)
    | getData at_ =>
      refine ⟨?_, (read at_.projectID at_.datasetID).2⟩
      exact congrArg (fun t => Answer.data (t.map fun t => (t.schema, t.rows)))
        (record?_of_datasets (read _ _).1)
    | datasetTableCount p q =>
      have counted := without_count h gone p q
      exact ⟨congrArg Answer.count counted.1, counted.2⟩
    | deleteAllForDataset p q => exact ⟨rfl, h.deleteAllForDataset gone p q⟩
    | _ => cases mutator

end

/-! ## Operations that use an expired table -/

section

variable [GoFloat]

/-- The operation answers as if the table had been deleted when it expired, and leaves the same
tables. -/
structure AsIfDeleted (s : TableService) (now : Time) (path : TableReference) (r : TableRecord)
    (op : CatalogOp) : Prop where
  answer : answer (s.delete r.expirationTime path).1 now op = answer s now op
  tables : ∀ at_, live now ((s.delete r.expirationTime path).1.apply now op).1 at_ =
    live now (s.apply now op).1 at_

/-- Whether an answer reports success. -/
def Answer.ok : Answer → Bool
  | .page _ _ | .tables _ | .count _ => true
  | .table found => found.isSome
  | .data found => found.isSome
  | .done b => b
  | .outcome result => result.isOk
  | .rows result => result.isOk

theorem apply_snd (s : TableService) (now : Time) (op : CatalogOp) :
    (s.apply now op).2 = (answer s now op).ok := by
  cases op <;> simp only [apply, answer, Answer.ok]

theorem absent_of_insert {input : TableInsert}
    (trim : trimPath input.projectID input.datasetID input.tableID = some path)
    (ok : (s.insert now input).2.isSome = true) : (s.touched now path).record? path = none := by
  simp only [insert, trim, get?_tables] at ok
  split at ok
  · cases ok
  next absent => exact absent

/-- The table that was written, as it is after the write. -/
theorem record?_of_upsert {dest : TableReference} {schema : List TableField} {rows : List Row}
    {create write : String} (trim : trimPath dest.projectID dest.datasetID dest.tableID = some path)
    (ok : (s.upsertCopyDestination now dest schema rows create write).2.isOk = true) :
    ∃ t, (s.upsertCopyDestination now dest schema rows create write).1.record? path = some t ∧
      t.expirationTime = (((s.touched now path).record? path).map (·.expirationTime)).getD 0 := by
  simp only [upsertCopyDestination, trim, get?_tables] at ok ⊢
  split at ok
  · cases ok
  split at ok
  · cases ok
  split at ok
  · cases ok
  rw [record?_commit, if_pos rfl]
  refine ⟨_, rfl, ?_⟩
  rw [touched]
  cases (s.ensureDatasetLocked now path.projectID path.datasetID).record? path with
  | none => rfl
  | some t => simp only [destination, merge, Option.getD_some, Option.map_some]

/-- An operation that uses an expired table and succeeds, or would succeed without it, can tell. -/
theorem unused_of_same (h : Without path s d) (found : s.record? path = some r)
    (gone : expired now r) (ok : (s.apply now op).2 = true ∨ (d.apply now op).2 = true)
    (same : answer d now op = answer s now op)
    (left : live now (d.apply now op).1 path = live now (s.apply now op).1 path) :
    uses op path = false := by
  have oks : (s.apply now op).2 = true := by
    rw [apply_snd] at ok ⊢
    rw [apply_snd, same, or_self] at ok
    exact ok
  have okd : (d.apply now op).2 = true := by
    rw [apply_snd, same, ← apply_snd]
    exact oks
  have there := record?_touch now op found
  have missing : (d.touch now op).record? path = none := by
    rw [(h.touch now op).record?, if_pos rfl]
  -- In all cases but the last one the table is there for one of the two, and not for the other.
  have clash {t : TableRecord} (is : (d.touch now op).record? path = some t) : False := by
    rw [missing] at is
    cases is
  have clash' (is : (s.touch now op).record? path = none) : False := by
    rw [there] at is
    cases is
  have unchecked {at_ : TableReference} {v : Nat} (cas : op.cas? = some (at_, v))
      (is : path = at_) : False := by
    subst is
    obtain ⟨t, is, -⟩ := found_of_cas cas okd
    exact clash is
  rw [Bool.eq_false_iff]
  intro used
  cases op with
  | list p q start size | get at_ | getData at_ | datasetTableCount p q | deleteAllForDataset p q =>
    simp [uses, CatalogOp.names?] at used
  | listAll p q =>
    rw [uses, decide_eq_true_eq, Prod.mk.injEq] at used
    obtain ⟨rfl, rfl⟩ := used
    obtain ⟨tables, map, map'⟩ := h.here
    simp only [answer, listAll, ensure_of_present map, ensure_of_present map', tables_eq map,
      tables_eq map', Answer.tables.injEq] at same
    have lengths := congrArg List.length same
    rw [TableService.record?, map, Option.bind_some] at found
    have fewer := GoMap.length_delete tables found
    simp only [length_map] at lengths
    omega
  | delete at_ =>
    obtain rfl : path = at_ := by simpa [uses, CatalogOp.names?] using used
    obtain ⟨t, is⟩ := found_of_delete okd
    exact clash is
  | renameTableIfVersion at_ newTableID v =>
    simp only [uses, CatalogOp.names?, Option.getD_some, mem_cons, not_mem_nil,
      or_false, decide_eq_true_eq] at used
    rcases used with is | rfl
    · exact unchecked rfl is
    · exact clash' (absent_of_rename oks)
  | insert input =>
    have trim : trimPath input.projectID input.datasetID input.tableID = some path := by
      simpa [uses, CatalogOp.names?] using used
    rw [touch_eq_touchedBy (by rw [CatalogOp.touches?]), trim] at clash'
    rw [apply] at oks
    exact clash' (absent_of_insert trim oks)
  | patch input | update input =>
    have trim : trimPath input.projectID input.datasetID input.tableID = some path := by
      simpa [uses, CatalogOp.names?] using used
    rw [touch_eq_touchedBy (by rw [CatalogOp.touches?]), trim] at clash
    obtain ⟨at_, t, is, there⟩ := found_of_edit okd
    rw [trim] at is
    cases is
    exact clash there
  | upsertCopyDestination dest schema rows create write =>
    have trim : trimPath dest.projectID dest.datasetID dest.tableID = some path := by
      simpa [uses, CatalogOp.names?] using used
    rw [touch_eq_touchedBy (by rw [CatalogOp.touches?]), trim] at there missing
    dsimp only [apply] at oks okd
    obtain ⟨t, record, expiration⟩ := record?_of_upsert trim oks
    obtain ⟨t', record', expiration'⟩ := record?_of_upsert trim okd
    rw [show (s.touched now path).record? path = some r from there] at expiration
    rw [show (d.touched now path).record? path = none from missing] at expiration'
    simp only [live, apply, record, record', Option.filter_some, expired, expiration,
      expiration', Option.map_some, Option.getD_some, Option.map_none, Option.getD_none] at left
    rw [expired] at gone
    simp [gone] at left
  | deleteIfVersion at_ v | replaceRowsIfVersion at_ v rows partitions
  | replaceTableIfVersion at_ v schema rows | replaceViewIfVersion at_ v schema view
  | addColumnsIfVersion at_ v newFields | dropColumnsIfVersion at_ v dropNames
  | renameColumnsIfVersion at_ v renames =>
    exact unchecked rfl (by simpa [uses, CatalogOp.names?] using used)

/-- **Expired tables.**  An operation that does not use an expired table answers as if it had
been deleted when it expired, and leaves the same tables.  One that uses it does not, unless it
fails with and without the table. -/
theorem asIfDeleted_iff {op : CatalogOp} (found : s.record? path = some r) (gone : expired now r) :
    (uses op path = false → AsIfDeleted s now path r op) ∧
      ((s.apply now op).2 = true ∨ ((s.delete r.expirationTime path).1.apply now op).2 = true →
        AsIfDeleted s now path r op → uses op path = false) := by
  have h := without_delete r.expirationTime found
  constructor
  · intro unused
    have gone' : ∀ t, s.record? path = some t → expired now t := by
      intro t there
      rw [found] at there
      cases there
      exact gone
    obtain ⟨same, left⟩ := without_unused h gone' found unused
    exact ⟨same, left⟩
  · intro ok same
    exact unused_of_same h found gone ok same.answer (same.tables path)

end

section

attribute [local instance] GoFloat.texts

def visits : TableReference := ⟨"p", "ds", "visits"⟩

/-- A table that expires at time 5. -/
def withVisits : TableService :=
  (({} : TableService).insert 1
    { projectID := "p"
      datasetID := "ds"
      tableID := "visits"
      schema := [⟨"page", "STRING", "", []⟩]
      expirationTime := 5 }).1

/-- A row is appended to it. -/
def appendVisit : CatalogOp :=
  .upsertCopyDestination visits [] [["home"]] "CREATE_NEVER" "WRITE_APPEND"

theorem record?_visits : ∃ r, withVisits.record? visits = some r ∧ r.expirationTime = 5 :=
  ⟨_, rfl, rfl⟩

/-- After it has expired, a read does not find the table, as if it had been deleted. -/
theorem asIfDeleted_iff_get : ∃ r, withVisits.record? visits = some r ∧ expired 10 r = true ∧
    AsIfDeleted withVisits 10 visits r (.get visits) := by
  obtain ⟨r, found, at5⟩ := record?_visits
  have gone : expired 10 r = true := by
    rw [expired, at5]
    decide
  exact ⟨r, found, gone, (asIfDeleted_iff found gone).1 rfl⟩

/-- After it has expired, a row is appended with success.  The next read does not find it. -/
theorem asIfDeleted_fails : ∃ r, withVisits.record? visits = some r ∧ expired 10 r = true ∧
    ¬AsIfDeleted withVisits 10 visits r appendVisit ∧
    (withVisits.apply 10 appendVisit).2 = true ∧
    ((withVisits.apply 10 appendVisit).1.get 10 visits).2 = none := by
  obtain ⟨r, found, at5⟩ := record?_visits
  have accepted : (withVisits.apply 10 appendVisit).2 = true := by decide +kernel
  have refused : ((withVisits.delete 5 visits).1.apply 10 appendVisit).2 = false := by
    decide +kernel
  have lost : ((withVisits.apply 10 appendVisit).1.get 10 visits).2.isNone := by decide +kernel
  refine ⟨r, found, by rw [expired, at5]; decide, fun same => ?_, accepted,
    Option.isNone_iff_eq_none.mp lost⟩
  have oks := apply_snd withVisits 10 appendVisit
  rw [← same.answer, ← apply_snd, at5, accepted, refused] at oks
  cases oks

end

end LocaQL.TableService
