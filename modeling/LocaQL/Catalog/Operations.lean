import LocaQL.Catalog.Service

/-!
# The operations of the table service

What each operation does to the table at each path.  A mutator refuses and changes nothing, or it
stores, deletes or renames the one table it names (`mutates_apply`).  In both cases it may have
filled in the default tables of a dataset that had none (`datasets_ensure`).  A drop of columns
may also panic on a short row, after the schema of the table has been replaced
(`whole_or_torn`).  The reads purge (`record?_purge`).
-/

namespace LocaQL

/-- The operations of the table service. -/
inductive CatalogOp where
  | list (projectID datasetID : String) (start size : Nat)
  | listAll (projectID datasetID : String)
  | get (path : TableReference)
  | getData (path : TableReference)
  | datasetTableCount (projectID datasetID : String)
  | insert (input : TableInsert)
  | delete (path : TableReference)
  | patch (input : TablePatch)
  | update (input : TableUpdate)
  | deleteIfVersion (path : TableReference) (expectedVersion : Nat)
  | replaceRowsIfVersion (path : TableReference) (expectedVersion : Nat) (rows : List Row)
      (ingestionPartitions : List String)
  | replaceTableIfVersion (path : TableReference) (expectedVersion : Nat)
      (schema : List TableField) (rows : List Row)
  | replaceViewIfVersion (path : TableReference) (expectedVersion : Nat)
      (schema : List TableField) (view : ViewConfig)
  | addColumnsIfVersion (path : TableReference) (expectedVersion : Nat)
      (newFields : List TableField)
  | dropColumnsIfVersion (path : TableReference) (expectedVersion : Nat) (dropNames : List String)
  | renameColumnsIfVersion (path : TableReference) (expectedVersion : Nat)
      (renames : List (String × String))
  | renameTableIfVersion (path : TableReference) (newTableID : String) (expectedVersion : Nat)
  | upsertCopyDestination (dest : TableReference) (schema : List TableField) (rows : List Row)
      (createDisposition writeDisposition : String)
  | deleteAllForDataset (projectID datasetID : String)

namespace CatalogOp

/-- The path and version of a compare-and-swap commit. -/
def cas? : CatalogOp → Option (TableReference × Nat)
  | .deleteIfVersion path v | .replaceRowsIfVersion path v _ _ | .replaceTableIfVersion path v _ _
  | .replaceViewIfVersion path v _ _ | .addColumnsIfVersion path v _
  | .dropColumnsIfVersion path v _ | .renameColumnsIfVersion path v _
  | .renameTableIfVersion path _ v => some (path, v)
  | _ => none

/-- The dataset whose default tables the operation fills in if it has no table map. -/
def touches? : CatalogOp → Option (String × String)
  | .list p d _ _ | .listAll p d => some (p, d)
  | .get path | .getData path | .delete path | .deleteIfVersion path _
  | .replaceRowsIfVersion path _ _ _ | .replaceTableIfVersion path _ _ _
  | .replaceViewIfVersion path _ _ _ | .addColumnsIfVersion path _ _
  | .dropColumnsIfVersion path _ _ | .renameColumnsIfVersion path _ _
  | .renameTableIfVersion path _ _ => some (path.projectID, path.datasetID)
  | .insert input =>
    (TableService.trimPath input.projectID input.datasetID input.tableID).map
      fun path => (path.projectID, path.datasetID)
  | .patch input =>
    (TableService.trimPath input.projectID input.datasetID input.tableID).map
      fun path => (path.projectID, path.datasetID)
  | .update input =>
    (TableService.trimPath input.projectID input.datasetID input.tableID).map
      fun path => (path.projectID, path.datasetID)
  | .upsertCopyDestination dest _ _ _ _ =>
    (TableService.trimPath dest.projectID dest.datasetID dest.tableID).map
      fun path => (path.projectID, path.datasetID)
  | .datasetTableCount _ _ | .deleteAllForDataset _ _ => none

/-- The tables that a mutator names; `none` for the other operations. -/
def names? : CatalogOp → Option (List TableReference)
  | .delete path | .deleteIfVersion path _ | .replaceRowsIfVersion path _ _ _
  | .replaceTableIfVersion path _ _ _ | .replaceViewIfVersion path _ _ _
  | .addColumnsIfVersion path _ _ | .dropColumnsIfVersion path _ _
  | .renameColumnsIfVersion path _ _ => some [path]
  | .renameTableIfVersion path newTableID _ =>
    some [path, ⟨path.projectID, path.datasetID, newTableID⟩]
  | .insert input =>
    some (TableService.trimPath input.projectID input.datasetID input.tableID).toList
  | .patch input =>
    some (TableService.trimPath input.projectID input.datasetID input.tableID).toList
  | .update input =>
    some (TableService.trimPath input.projectID input.datasetID input.tableID).toList
  | .upsertCopyDestination dest _ _ _ _ =>
    some (TableService.trimPath dest.projectID dest.datasetID dest.tableID).toList
  | .list _ _ _ _ | .listAll _ _ | .get _ | .getData _ | .datasetTableCount _ _
  | .deleteAllForDataset _ _ => none

end CatalogOp

namespace TableService

section

variable [GoFloat]

/-- One operation, and whether it succeeded. -/
def apply (s : TableService) (now : Time) : CatalogOp → TableService × Bool
  | .list p d start size => ((s.list now p d start size).1, true)
  | .listAll p d => ((s.listAll now p d).1, true)
  | .get path => ((s.get now path).1, (s.get now path).2.isSome)
  | .getData path => ((s.getData now path).1, (s.getData now path).2.isSome)
  | .datasetTableCount p d => ((s.datasetTableCount now p d).1, true)
  | .insert input => ((s.insert now input).1, (s.insert now input).2.isSome)
  | .delete path => s.delete now path
  | .patch input => s.patch now input
  | .update input => s.update now input
  | .deleteIfVersion path v =>
    ((s.deleteIfVersion now path v).1, (s.deleteIfVersion now path v).2.isOk)
  | .replaceRowsIfVersion path v rows partitions =>
    let r := s.replaceRowsIfVersion now path v rows partitions
    (r.1, r.2.isOk)
  | .replaceTableIfVersion path v schema rows =>
    let r := s.replaceTableIfVersion now path v schema rows
    (r.1, r.2.isOk)
  | .replaceViewIfVersion path v schema view =>
    let r := s.replaceViewIfVersion now path v schema view
    (r.1, r.2.isOk)
  | .addColumnsIfVersion path v newFields =>
    let r := s.addColumnsIfVersion now path v newFields
    (r.1, r.2.isOk)
  | .dropColumnsIfVersion path v dropNames =>
    let r := s.dropColumnsIfVersion now path v dropNames
    (r.1, r.2.isOk)
  | .renameColumnsIfVersion path v renames =>
    let r := s.renameColumnsIfVersion now path v renames
    (r.1, r.2.isOk)
  | .renameTableIfVersion path newTableID v =>
    let r := s.renameTableIfVersion now path newTableID v
    (r.1, r.2.isOk)
  | .upsertCopyDestination dest schema rows create write =>
    let r := s.upsertCopyDestination now dest schema rows create write
    (r.1, r.2.isOk)
  | .deleteAllForDataset p d => (s.deleteAllForDataset p d, true)

end

/-! ## The record at a path -/

variable {s s' : TableService} {path : TableReference} {r : TableRecord} {now : Time}
  {at_ : TableReference} {v : Nat} {t : TableRecord}

section

variable (s : TableService)

@[simp] theorem record?_bump (p d : String) (path : TableReference) :
    (s.bump p d).record? path = s.record? path := rfl

/-- The table map of a dataset gives the records at its paths. -/
theorem get?_tables (path : TableReference) :
    (s.tables path.projectID path.datasetID).get? path.tableID = s.record? path := by
  unfold tables record?
  cases s.datasets.get? (path.projectID, path.datasetID) with
  | none => simp
  | some tables => simp

section

variable (p d : String) (tables : TableMap) (path : TableReference)

theorem record?_setTables :
    (s.setTables p d tables).record? path =
      if path.projectID = p ∧ path.datasetID = d then tables.get? path.tableID
      else s.record? path := by
  simp only [record?, setTables, GoMap.get?_set, Prod.mk.injEq]
  split <;> rfl

theorem record?_store :
    (s.store p d tables).record? path =
      if path.projectID = p ∧ path.datasetID = d then tables.get? path.tableID
      else s.record? path := by
  rw [store, record?_bump, record?_setTables]

end

/-- A dataset that is touched keeps its tables, and gets the default ones if it had none. -/
theorem datasets_ensure (now : Time) (p d : String) (key : String × String) :
    (s.ensureDatasetLocked now p d).datasets.get? key =
      if key = (p, d) then some ((s.datasets.get? (p, d)).getD (defaultTableMap p d now))
      else s.datasets.get? key := by
  unfold ensureDatasetLocked
  split
  next tables there =>
    split
    next here => rw [here, there, Option.getD_some]
    · rfl
  next absent =>
    rw [absent, Option.getD_none]
    dsimp only
    split <;> exact GoMap.get?_set _ _ _ _

end

/-- A dataset that has its table map is not seeded. -/
theorem ensure_of_present {p d : String} {tables : TableMap}
    (h : s.datasets.get? (p, d) = some tables) : s.ensureDatasetLocked now p d = s := by
  rw [ensureDatasetLocked, h]

/-- What the catalog has at the path is what it had, or its dataset had no tables and now has
the default ones. -/
def SameUpToSeeding (now : Time) (s s' : TableService) (path : TableReference) : Prop :=
  s'.record? path = s.record? path ∨
    s.datasets.get? (path.projectID, path.datasetID) = none ∧
      s'.record? path = (defaultTableMap path.projectID path.datasetID now).get? path.tableID

theorem sameUpToSeeding_ensure (s : TableService) (now : Time) (p d : String)
    (path : TableReference) : SameUpToSeeding now s (s.ensureDatasetLocked now p d) path := by
  rw [SameUpToSeeding, record?, record?, datasets_ensure]
  split
  next here =>
    obtain ⟨rfl, rfl⟩ := Prod.mk.inj here
    cases s.datasets.get? (path.projectID, path.datasetID) with
    | some tables => exact .inl rfl
    | none => exact .inr ⟨rfl, rfl⟩
  · exact .inl rfl

/-- A record that is there is there after its dataset has been touched. -/
theorem record?_ensure (now : Time) (p d : String) (h : s.record? path = some r) :
    (s.ensureDatasetLocked now p d).record? path = some r := by
  rcases sameUpToSeeding_ensure s now p d path with same | ⟨absent, -⟩
  · rw [same, h]
  · rw [record?, absent] at h
    cases h

section

variable (s : TableService)

theorem record?_update (at_ : TableReference) (t : TableRecord) (path : TableReference) :
    (s.store at_.projectID at_.datasetID
      ((s.tables at_.projectID at_.datasetID).set at_.tableID t)).record? path =
      if path = at_ then some t else s.record? path := by
  rw [record?_store]
  split
  next same =>
    obtain ⟨hp, hd⟩ := same
    rw [GoMap.get?_set, ← hp, ← hd, get?_tables]
    simp [TableReference.ext_iff, hp, hd]
  next other =>
    rw [if_neg]
    rintro rfl
    exact other ⟨rfl, rfl⟩

theorem record?_erase (at_ path : TableReference) :
    (s.store at_.projectID at_.datasetID
      ((s.tables at_.projectID at_.datasetID).delete at_.tableID)).record? path =
      if path = at_ then none else s.record? path := by
  rw [record?_store]
  split
  next same =>
    obtain ⟨hp, hd⟩ := same
    rw [GoMap.get?_delete, ← hp, ← hd, get?_tables]
    simp [TableReference.ext_iff, hp, hd]
  next other =>
    rw [if_neg]
    rintro rfl
    exact other ⟨rfl, rfl⟩

/-- What the catalog has after a renaming. -/
theorem record?_move (at_ : TableReference) (newTableID : String) (t : TableRecord)
    (path : TableReference) :
    (s.store at_.projectID at_.datasetID
      (((s.tables at_.projectID at_.datasetID).delete at_.tableID).set newTableID t)).record? path =
      if path = ⟨at_.projectID, at_.datasetID, newTableID⟩ then some t
      else if path = at_ then none else s.record? path := by
  rw [record?_store]
  split
  next same =>
    obtain ⟨hp, hd⟩ := same
    rw [GoMap.get?_set, GoMap.get?_delete, ← hp, ← hd, get?_tables]
    simp only [TableReference.ext_iff, hp, hd, true_and]
  next other =>
    rw [if_neg, if_neg]
    · rintro rfl
      exact other ⟨rfl, rfl⟩
    · rintro rfl
      exact other ⟨rfl, rfl⟩

/-- A commit gives the record at its path the next version. -/
theorem record?_commit (now : Time) (at_ : TableReference) (t : TableRecord) (path : TableReference) :
    (s.commit now at_ t).record? path =
      if path = at_ then some { t with updatedAt := now, version := t.version + 1 }
      else s.record? path :=
  record?_update s at_ _ path

end

theorem checkVersion_ok (h : checkVersion (s.tables at_.projectID at_.datasetID) at_ v = .ok t) :
    s.record? at_ = some t ∧ t.version = v := by
  unfold checkVersion at h
  simp only at h
  rw [get?_tables] at h
  split at h
  · cases h
  next t' found =>
    split at h
    · cases h
    next same =>
      cases h
      exact ⟨found, not_not.1 same⟩

theorem merge_version (t : TableRecord) (schema : List TableField) (rows : List Row)
    (write : WriteDisposition) (now : Time) : (merge t schema rows write now).version = t.version :=
  rfl

/-- The catalog as the operation finds it, with the default tables of its dataset. -/
def touch (s : TableService) (now : Time) (op : CatalogOp) : TableService :=
  match op.touches? with
  | some (p, d) => s.ensureDatasetLocked now p d
  | none => s

theorem record?_touch (now : Time) (op : CatalogOp) (h : s.record? path = some r) :
    (s.touch now op).record? path = some r := by
  unfold touch
  split
  · exact record?_ensure now _ _ h
  · exact h

/-- A version-checked commit that succeeds has found its version. -/
theorem found_of_commitIfVersion {change : TableRecord → Result TableRecord}
    (ok : (s.commitIfVersion now at_ v change).2.isOk = true) :
    ∃ t, (s.ensureDatasetLocked now at_.projectID at_.datasetID).record? at_ = some t ∧
      t.version = v := by
  simp only [commitIfVersion] at ok
  split at ok
  · cases ok
  next t found => exact ⟨t, checkVersion_ok found⟩

/-! ## Dropping columns -/

/-- Whether dropping the columns panics on a row of the table. -/
def panicsOn (dropNames : List String) (t : TableRecord) : Bool :=
  t.rows.any (tooShort (dropColumnIndexSet t.schema dropNames))

/-- What such a panic leaves of the record: the columns are gone, the cells are not. -/
def torn (dropNames : List String) (t : TableRecord) : TableRecord :=
  { t with schema := filterColumns t.schema (dropColumnIndexSet t.schema dropNames) }

/-- Whether the operation panics half way through a change of the table at the path. -/
def tears (s : TableService) (now : Time) (op : CatalogOp) (path : TableReference) : Bool :=
  match op with
  | .dropColumnsIfVersion at_ v dropNames =>
    at_ == path && ((s.ensureDatasetLocked now at_.projectID at_.datasetID).record? at_).any
      fun t => t.version == v && panicsOn dropNames t
  | _ => false

/-- What a drop of columns does to a table that it does not panic on. -/
def dropped (dropNames : List String) (t : TableRecord) : TableRecord :=
  { torn dropNames t with
    rows := t.rows.map fun row => filterColumns row (dropColumnIndexSet t.schema dropNames) }

theorem checkVersion_error {err : Failure}
    (h : checkVersion (s.tables at_.projectID at_.datasetID) at_ v = .error err)
    (found : s.record? at_ = some t) : t.version ≠ v := by
  rw [checkVersion, get?_tables, found] at h
  intro same
  dsimp only at h
  rw [if_neg (not_not.mpr same)] at h
  cases h

/-- A drop of columns is a version-checked commit, unless it panics. -/
theorem dropColumnsIfVersion_cases (s : TableService) (now : Time) (at_ : TableReference) (v : Nat)
    (dropNames : List String) :
    (s.tears now (.dropColumnsIfVersion at_ v dropNames) at_ = false ∧
      s.dropColumnsIfVersion now at_ v dropNames =
        s.commitIfVersion now at_ v fun t => .ok (dropped dropNames t)) ∨
    ∃ t, s.tears now (.dropColumnsIfVersion at_ v dropNames) at_ = true ∧
      (s.ensureDatasetLocked now at_.projectID at_.datasetID).record? at_ = some t ∧
      s.dropColumnsIfVersion now at_ v dropNames =
        ((s.ensureDatasetLocked now at_.projectID at_.datasetID).setTables at_.projectID
          at_.datasetID (((s.ensureDatasetLocked now at_.projectID at_.datasetID).tables
            at_.projectID at_.datasetID).set at_.tableID (torn dropNames t)),
          .error (.panic "runtime error: makeslice: cap out of range")) := by
  simp only [dropColumnsIfVersion, commitIfVersion, tears, beq_self_eq_true, Bool.true_and]
  generalize s.ensureDatasetLocked now at_.projectID at_.datasetID = s
  cases checked : checkVersion (s.tables at_.projectID at_.datasetID) at_ v with
  | error err =>
    refine .inl ⟨?_, rfl⟩
    rw [Option.any_eq_false]
    intro t found
    simp [checkVersion_error checked found]
  | ok t =>
    obtain ⟨found, version⟩ := checkVersion_ok checked
    have panics : ((s.record? at_).any fun t => t.version == v && panicsOn dropNames t) =
        panicsOn dropNames t := by
      rw [found, Option.any_some, version, beq_self_eq_true, Bool.true_and]
    rw [panics]
    dsimp only [filterRowColumns]
    cases there : panicsOn dropNames t with
    | true =>
      refine .inr ⟨t, rfl, found, ?_⟩
      rw [panicsOn] at there
      rw [if_pos there]
      rfl
    | false =>
      refine .inl ⟨rfl, ?_⟩
      rw [panicsOn] at there
      rw [if_neg (by rw [there]; exact Bool.false_ne_true)]
      rfl

/-- A panic leaves the other tables alone. -/
theorem record?_setTables_set (s : TableService) (at_ : TableReference) (t : TableRecord)
    (path : TableReference) :
    (s.setTables at_.projectID at_.datasetID
      ((s.tables at_.projectID at_.datasetID).set at_.tableID t)).record? path =
      if path = at_ then some t else s.record? path :=
  record?_update s at_ t path

/-! ## Mutators -/

/-- The new record of a change. -/
def stamp (now : Time) (t : TableRecord) : TableRecord :=
  { t with updatedAt := now, version := t.version + 1 }

/-- The catalog as an operation on the table finds it. -/
def touched (s : TableService) (now : Time) (path : TableReference) : TableService :=
  s.ensureDatasetLocked now path.projectID path.datasetID

/-- All that a mutator with the given names does to a catalog whose datasets it has touched. -/
inductive Mutates (s : TableService) (now : Time) :
    List TableReference → TableService → Bool → Prop where
  | refused {names : List TableReference} : Mutates s now names s false
  | stored {path : TableReference} {t : TableRecord} :
      (∀ r, s.record? path = some r → r.version < t.version) →
      Mutates s now [path] (s.store path.projectID path.datasetID
        ((s.tables path.projectID path.datasetID).set path.tableID t)) true
  | erased {path : TableReference} {r : TableRecord} : s.record? path = some r →
      Mutates s now [path] (s.store path.projectID path.datasetID
        ((s.tables path.projectID path.datasetID).delete path.tableID)) true
  | moved {path : TableReference} {newTableID : String} {r : TableRecord} :
      s.record? path = some r →
      s.record? ⟨path.projectID, path.datasetID, newTableID⟩ = none →
      Mutates s now [path, ⟨path.projectID, path.datasetID, newTableID⟩]
        (s.store path.projectID path.datasetID
          (((s.tables path.projectID path.datasetID).delete path.tableID).set newTableID
            (stamp now { r with tableID := newTableID }))) true

theorem mutates_commit {t' : TableRecord} (found : s.record? path = some t)
    (version : t'.version = t.version) : Mutates s now [path] (s.commit now path t') true := by
  refine .stored fun r there => ?_
  rw [found] at there
  cases there
  show t.version < t'.version + 1
  omega

theorem mutates_commitIfVersion {change : TableRecord → Result TableRecord}
    (keeps : ∀ t t', change t = .ok t' → t'.version = t.version) :
    Mutates (s.touched now path) now [path] (s.commitIfVersion now path v change).1
      (s.commitIfVersion now path v change).2.isOk := by
  simp only [commitIfVersion]
  split
  · exact .refused
  next t found =>
    split
    · exact .refused
    next t' changed => exact mutates_commit (checkVersion_ok found).1 (keeps t t' changed)

/-- The catalog as an operation on the table finds it, if it names one. -/
def touchedBy (s : TableService) (now : Time) : Option TableReference → TableService
  | some path => s.touched now path
  | none => s

theorem touch_eq_touchedBy {op : CatalogOp} {at_ : Option TableReference}
    (touches : op.touches? = at_.map fun path => (path.projectID, path.datasetID)) :
    s.touch now op = s.touchedBy now at_ := by
  rw [touch, touches]
  cases at_ with
  | none => rfl
  | some path => rfl

theorem mutates_edit {at_ : Option TableReference} {change : TableRecord → TableRecord}
    (keeps : ∀ t, (change t).version = t.version) :
    Mutates (s.touchedBy now at_) now at_.toList (s.edit now at_ change).1
      (s.edit now at_ change).2 := by
  cases at_ with
  | none => exact .refused
  | some path =>
    simp only [edit]
    split
    · exact .refused
    next t found =>
      rw [get?_tables] at found
      exact mutates_commit found (keeps t)

theorem mutates_delete (path : TableReference) :
    Mutates (s.touched now path) now [path] (s.delete now path).1 (s.delete now path).2 := by
  simp only [delete]
  split
  · exact .refused
  next t found =>
    rw [get?_tables] at found
    exact .erased found

theorem mutates_deleteIfVersion (path : TableReference) (v : Nat) :
    Mutates (s.touched now path) now [path] (s.deleteIfVersion now path v).1
      (s.deleteIfVersion now path v).2.isOk := by
  simp only [deleteIfVersion]
  split
  · exact .refused
  next t found => exact .erased (checkVersion_ok found).1

theorem mutates_renameTableIfVersion (path : TableReference) (newTableID : String) (v : Nat) :
    Mutates (s.touched now path) now [path, ⟨path.projectID, path.datasetID, newTableID⟩]
      (s.renameTableIfVersion now path newTableID v).1
      (s.renameTableIfVersion now path newTableID v).2.isOk := by
  simp only [renameTableIfVersion]
  split
  · exact .refused
  next t found =>
    split
    · exact .refused
    next absent =>
      rw [get?_tables _ ⟨path.projectID, path.datasetID, newTableID⟩] at absent
      exact .moved (checkVersion_ok found).1 absent

section

variable [GoFloat]

theorem replaceRows_version {rows : List Row} {partitions : List String} {t' : TableRecord}
    (h : replaceRows now at_ rows partitions t = .ok t') : t'.version = t.version := by
  simp only [replaceRows] at h
  split at h
  · cases h
  split at h
  · cases h
  split at h
  · cases h
  split at h
  · cases h
  · cases h
    rfl

theorem mutates_insert (input : TableInsert) :
    Mutates (s.touchedBy now (trimPath input.projectID input.datasetID input.tableID)) now
      (trimPath input.projectID input.datasetID input.tableID).toList (s.insert now input).1
      (s.insert now input).2.isSome := by
  rw [insert]
  split
  next trim =>
    rw [trim]
    exact .refused
  next path trim =>
    rw [trim]
    dsimp only
    split
    · exact .refused
    next absent =>
      rw [get?_tables] at absent
      split
      · exact .refused
      refine .stored fun r there => ?_
      have there : (s.ensureDatasetLocked now path.projectID path.datasetID).record? path =
        some r := there
      rw [absent] at there
      cases there

theorem mutates_upsertCopyDestination (dest : TableReference) (schema : List TableField)
    (rows : List Row) (create write : String) :
    Mutates (s.touchedBy now (trimPath dest.projectID dest.datasetID dest.tableID)) now
      (trimPath dest.projectID dest.datasetID dest.tableID).toList
      (s.upsertCopyDestination now dest schema rows create write).1
      (s.upsertCopyDestination now dest schema rows create write).2.isOk := by
  rw [upsertCopyDestination]
  split
  next trim =>
    rw [trim]
    exact .refused
  next path trim =>
    rw [trim]
    dsimp only
    split
    · exact .refused
    split
    · exact .refused
    split
    · exact .refused
    refine .stored fun r there => ?_
    have there : (s.ensureDatasetLocked now path.projectID path.datasetID).record? path =
      some r := there
    simp only [get?_tables, there, destination, Option.getD_some, merge_version]
    exact Nat.lt_succ_self _

/-- An operation panics half way through the one table it names, or nowhere. -/
theorem whole_or_torn (s : TableService) (now : Time) (op : CatalogOp) :
    (∀ path, s.tears now op path = false) ∨
      ∃ at_ t dropNames, s.tears now op at_ = true ∧ op.names? = some [at_] ∧
        (s.touch now op).record? at_ = some t ∧
        s.apply now op = ((s.touch now op).setTables at_.projectID at_.datasetID
          (((s.touch now op).tables at_.projectID at_.datasetID).set at_.tableID
            (torn dropNames t)), false) := by
  cases op with
  | dropColumnsIfVersion at_ v dropNames =>
    rcases dropColumnsIfVersion_cases s now at_ v dropNames with ⟨whole, -⟩ | ⟨t, tears, found, is⟩
    · refine .inl fun path => ?_
      by_cases here : at_ = path
      · rwa [← here]
      · rw [TableService.tears, beq_false_of_ne here, Bool.false_and]
    · refine .inr ⟨at_, t, dropNames, tears, rfl, found, ?_⟩
      simp only [apply, is]
      rfl
  | _ => exact .inl fun path => rfl

/-- **The mutators.**  Each of them refuses, or stores, deletes or renames the table it names,
unless it panics half way. -/
theorem mutates_apply {op : CatalogOp} {names : List TableReference}
    (mutator : op.names? = some names) (whole : ∀ path, s.tears now op path = false) :
    Mutates (s.touch now op) now names (s.apply now op).1 (s.apply now op).2 := by
  cases op with
  | list p d start size | listAll p d | get path | getData path | datasetTableCount p d
  | deleteAllForDataset p d =>
    cases mutator
  | insert input =>
    rw [CatalogOp.names?, Option.some.injEq] at mutator
    rw [← mutator, touch_eq_touchedBy (by rw [CatalogOp.touches?]), apply]
    dsimp only
    exact mutates_insert input
  | delete path =>
    cases mutator
    exact mutates_delete path
  | patch input | update input =>
    rw [CatalogOp.names?, Option.some.injEq] at mutator
    rw [← mutator, touch_eq_touchedBy (by rw [CatalogOp.touches?]), apply]
    exact mutates_edit fun t => rfl
  | deleteIfVersion path v =>
    cases mutator
    exact mutates_deleteIfVersion path v
  | replaceRowsIfVersion path v rows partitions =>
    cases mutator
    exact mutates_commitIfVersion fun t t' changed => replaceRows_version changed
  | replaceTableIfVersion path v schema rows =>
    cases mutator
    refine mutates_commitIfVersion fun t t' changed => ?_
    split at changed
    · cases changed
    · cases changed
      rfl
  | replaceViewIfVersion path v schema view | addColumnsIfVersion path v newFields =>
    cases mutator
    refine mutates_commitIfVersion fun t t' changed => ?_
    cases changed
    rfl
  | dropColumnsIfVersion path v dropNames =>
    cases mutator
    rcases dropColumnsIfVersion_cases s now path v dropNames with ⟨-, is⟩ | ⟨_, tears, -, -⟩
    · simp only [apply, is]
      refine mutates_commitIfVersion fun t t' changed => ?_
      cases changed
      rfl
    · rw [whole] at tears
      cases tears
  | renameColumnsIfVersion path v renames =>
    cases mutator
    refine mutates_commitIfVersion fun t t' changed => ?_
    cases changed
    rfl
  | renameTableIfVersion path newTableID v =>
    cases mutator
    exact mutates_renameTableIfVersion path newTableID v
  | upsertCopyDestination dest schema rows create write =>
    rw [CatalogOp.names?, Option.some.injEq] at mutator
    rw [← mutator, touch_eq_touchedBy (by rw [CatalogOp.touches?]), apply]
    dsimp only
    exact mutates_upsertCopyDestination dest schema rows create write

end

/-! ## Purging -/

section

variable [GoFloat]

theorem purgeRecord_of_fresh (alive : expired now t = false)
    (kept : (purgeExpiredPartitions t now).2 = false) : purgeRecord now t = some t := by
  rw [purgeRecord, alive]
  rcases purgeExpiredPartitions_cases t now with same | ⟨config, column, -, -, dropped⟩
  · rw [same]
    rfl
  · rw [dropped] at kept
    cases kept

/-- What a purge leaves of the datasets. -/
theorem datasets_purge (s : TableService) (now : Time) (p d : String) (key : String × String) :
    (s.purge now p d).datasets.get? key =
      if key = (p, d) then (s.datasets.get? (p, d)).map (·.filterMap (purgeRecord now))
      else s.datasets.get? key := by
  cases there : s.datasets.get? (p, d) with
  | none =>
    have same : s.purge now p d = s := by
      rw [purge, tables, there]
      rfl
    rw [same]
    split
    next here => rw [here, there, Option.map_none]
    · rfl
  | some tables =>
    rw [purge, TableService.tables, there, Option.getD_some, Option.map_some]
    split
    · exact GoMap.get?_set _ _ _ _
    next fresh =>
      rw [GoMap.filterMap_eq_self]
      · split
        next here => rw [here, there]
        · rfl
      · intro e mem
        rw [hasExpired, Bool.not_eq_true, List.any_eq_false] at fresh
        have both := fresh e mem
        rw [Bool.not_eq_true, Bool.or_eq_false_iff] at both
        exact purgeRecord_of_fresh both.1 both.2

/-- What a purge leaves of a record. -/
theorem record?_purge (s : TableService) (now : Time) (p d : String) (path : TableReference) :
    (s.purge now p d).record? path =
      if (path.projectID, path.datasetID) = (p, d) then (s.record? path).bind (purgeRecord now)
      else s.record? path := by
  rw [record?, record?, datasets_purge]
  split
  next here =>
    rw [here, Option.bind_map, Option.bind_assoc]
    exact congrArg (Option.bind _) (funext fun tables => GoMap.get?_filterMap _ _ _)
  · rfl

end

end TableService

end LocaQL
