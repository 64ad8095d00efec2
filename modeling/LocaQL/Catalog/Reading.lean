import LocaQL.Catalog.History

/-!
# Reading the catalog

Reads change the catalog: they seed the default tables of a dataset that has no table
map, and they drop what has expired.  What reads at one moment do to it is `Reads`, a
reflexive and transitive relation.  A dataset that has been read is *settled*: further
reads at that moment leave it as it is (`get_of_settled`), so a table read twice for
one query is the same table twice.
-/

namespace LocaQL

open List

/-! ## Expired partitions are dropped once -/

theorem labelAt_eq_empty {labels : List String} {fallback : String} {i : Nat}
    (h : labelAt labels fallback i = "") : fallback = "" := by
  unfold labelAt at h
  split at h
  · split at h
    · exact h
    next ne => exact absurd h ne
  · exact h

section

variable [GoFloat]

/-- The kept rows are found in the partitions they were in. -/
theorem labelledRows_keepRows {t : TableRecord} {config : TimePartitioningConfig}
    {column : Option (TableField × Nat)} {kept : List (Row × String)} (now : Time)
    (resolves : partitionColumn t.schema config = some column)
    (sub : ∀ r ∈ kept, r ∈ labelledRows t config column) :
    labelledRows (keepRows t config now kept) config column = kept := by
  have same : ∀ i, (h : i < kept.length) →
      expiringPartition (keepRows t config now kept) config column i kept[i].1 = kept[i].2 := by
    intro i h
    obtain ⟨r, -, eq⟩ := mem_map.1 (sub _ (getElem_mem h))
    have label : kept[i].2 = expiringPartition t config column r.2 kept[i].1 := by
      rw [← eq]
    rw [label]
    cases column with
    | some column => rfl
    | none =>
      have field : config.field = "" := by
        by_contra ne
        simp [partitionColumn, ne] at resolves
      have nonempty : kept[i].2 = "" →
          ingestionPartitionID (some config) t.createdAt = "" := by
        intro empty
        rw [label] at empty
        exact labelAt_eq_empty empty
      simp only [expiringPartition] at label ⊢
      rw [← label]
      simp only [keepRows, field, if_true, labelAt, getElem?_map,
        getElem?_eq_getElem h, Option.map_some]
      split
      next empty => rw [empty, nonempty empty]
      · rfl
  refine ext_getElem (by simp [labelledRows, keepRows]) fun i h1 h2 => ?_
  have := same i h2
  simp only [labelledRows, getElem_map, getElem_zipIdx, keepRows, Nat.zero_add] at this ⊢
  rw [this]

/-- Purging again at the same moment finds nothing. -/
theorem purgeExpiredPartitions_again (t : TableRecord) (now : Time) :
    (purgeExpiredPartitions (purgeExpiredPartitions t now).1 now).2 = false := by
  rcases purgeExpiredPartitions_cases t now with same | ⟨config, column, partitioning, resolves, h⟩
  · rw [same]
    simp only [same]
  · rw [h]
    have again := labelledRows_keepRows now resolves
      (fun r mem => (mem_filter.1 mem).1 : ∀ r ∈ (labelledRows t config column).filter fun r =>
        !partitionExpired config now r.2, _)
    simp only [purgeExpiredPartitions]
    simp only [keepRows, partitioning] at again ⊢
    split
    · rfl
    · simp only [resolves, again, filter_filter, Bool.and_self, if_true]

end

namespace TableService

variable {s s' s'' : TableService} {path : TableReference} {r : TableRecord} {now : Time}

/-! ## Settled datasets -/

theorem tables_eq {p d : String} {tables : TableMap} (h : s.datasets.get? (p, d) = some tables) :
    s.tables p d = tables := by
  rw [TableService.tables, h, Option.getD_some]

/-- The table map of a dataset that has been touched. -/
theorem ensure_present (s : TableService) (now : Time) (p d : String) :
    ∃ tables, (s.ensureDatasetLocked now p d).datasets.get? (p, d) = some tables :=
  ⟨_, (datasets_ensure s now p d (p, d)).trans (if_pos rfl)⟩

theorem datasets_ensure_ne {p d p' d' : String} (ne : (p, d) ≠ (p', d')) :
    (s.ensureDatasetLocked now p' d').datasets.get? (p, d) = s.datasets.get? (p, d) :=
  (datasets_ensure s now p' d' (p, d)).trans (if_neg ne)

theorem present_of_record (h : s.record? path = some r) :
    (s.datasets.get? (path.projectID, path.datasetID)).isSome := by
  obtain ⟨tables, there, -⟩ := Option.bind_eq_some_iff.1 h
  rw [there, Option.isSome_some]

section

variable [GoFloat]

/-- The dataset has its table map, and nothing in it has expired. -/
def Settled (now : Time) (p d : String) (s : TableService) : Prop :=
  ∃ tables, s.datasets.get? (p, d) = some tables ∧ hasExpired now tables = false

theorem expired_purgeExpiredPartitions (t : TableRecord) (now : Time) :
    expired now (purgeExpiredPartitions t now).1 = expired now t := by
  rcases purgeExpiredPartitions_cases t now with h | ⟨config, column, -, -, h⟩
  · rw [h]
  · rw [h]
    rfl

/-- A purge leaves nothing to purge. -/
theorem hasExpired_filterMap (now : Time) (tables : TableMap) :
    hasExpired now (tables.filterMap (purgeRecord now)) = false := by
  simp only [hasExpired, any_eq_false]
  intro e mem
  obtain ⟨e', -, visited⟩ := mem_filterMap.1 mem
  simp only [GoMap.visit, purgeRecord] at visited
  split at visited
  · cases visited
  next alive =>
    cases visited
    simp [expired_purgeExpiredPartitions, alive, purgeExpiredPartitions_again]

/-- The record read is the one the catalog has afterwards. -/
theorem get_snd (s : TableService) (now : Time) (path : TableReference) :
    (s.get now path).2 = (s.get now path).1.record? path := rfl

/-- Reading a settled dataset changes nothing. -/
theorem get_of_settled (h : Settled now path.projectID path.datasetID s) :
    (s.get now path).1 = s := by
  obtain ⟨tables, there, fresh⟩ := h
  have touched : s.ensureDatasetLocked now path.projectID path.datasetID = s :=
    ensure_of_present there
  have nothing : s.purge now path.projectID path.datasetID = s := by
    simp only [purge, tables_eq there]
    exact if_neg (by simp [fresh])
  simp only [get, touched, nothing]

/-- Reading a dataset settles it. -/
theorem settled_get (s : TableService) (now : Time) (path : TableReference) :
    Settled now path.projectID path.datasetID (s.get now path).1 := by
  obtain ⟨tables, there⟩ := ensure_present s now path.projectID path.datasetID
  refine ⟨_, ?_, hasExpired_filterMap now tables⟩
  rw [get, datasets_purge, if_pos rfl, there, Option.map_some]

/-- Reading a dataset leaves the others alone. -/
theorem datasets_get_ne {p d : String} (ne : (p, d) ≠ (path.projectID, path.datasetID)) :
    (s.get now path).1.datasets.get? (p, d) = s.datasets.get? (p, d) := by
  rw [get, datasets_purge, if_neg ne, datasets_ensure_ne ne]

/-! ## What reads do -/

/-- What reads at one moment make of the catalog. -/
structure Reads (now : Time) (s s' : TableService) : Prop where
  next : ∀ path r, s.record? path = some r → Next r (s'.record? path)
  present : ∀ p d, (s.datasets.get? (p, d)).isSome → (s'.datasets.get? (p, d)).isSome
  /-- A dataset with a table map gets no new tables. -/
  absent : ∀ path, (s.datasets.get? (path.projectID, path.datasetID)).isSome →
    s.record? path = none → s'.record? path = none
  settled : ∀ p d, Settled now p d s → s'.datasets.get? (p, d) = s.datasets.get? (p, d)

theorem Reads.refl (now : Time) (s : TableService) : Reads now s s where
  next _ _ h := h ▸ .same
  present _ _ h := h
  absent _ _ h := h
  settled _ _ _ := rfl

/-- A settled dataset stays settled. -/
theorem Reads.keeps_settled (h : Reads now s s') {p d : String} (settled : Settled now p d s) :
    Settled now p d s' := by
  obtain ⟨tables, there, fresh⟩ := settled
  exact ⟨tables, (h.settled p d ⟨tables, there, fresh⟩).trans there, fresh⟩

theorem Reads.trans (h1 : Reads now s s') (h2 : Reads now s' s'') : Reads now s s'' where
  next path r h := by
    have there := h1.present _ _ (present_of_record h)
    have first := h1.next path r h
    cases found : s'.record? path with
    | none =>
      rw [h2.absent path there found]
      exact .gone
    | some r' =>
      rw [found] at first
      have second := h2.next path r' found
      cases first with
      | same => exact second
      | newer higher =>
        cases after : s''.record? path with
        | none => exact .gone
        | some r'' =>
          rw [after] at second
          cases second with
          | same => exact .newer higher
          | newer higher' => exact .newer (lt_trans higher higher')
  present p d h := h2.present p d (h1.present p d h)
  absent path there h := h2.absent path (h1.present _ _ there) (h1.absent path there h)
  settled p d h := (h2.settled p d (h1.keeps_settled h)).trans (h1.settled p d h)

/-- In a settled dataset the records stay. -/
theorem Reads.record?_eq (h : Reads now s s')
    (settled : Settled now path.projectID path.datasetID s) : s'.record? path = s.record? path := by
  simp only [record?, h.settled _ _ settled]

theorem reads_get (s : TableService) (now : Time) (path : TableReference) :
    Reads now s (s.get now path).1 where
  next at_ r h := purge_next _ _ (record?_ensure now _ _ h)
  present p d h := by
    by_cases eq : (p, d) = (path.projectID, path.datasetID)
    · cases eq
      obtain ⟨tables, there, -⟩ := settled_get s now path
      rw [there, Option.isSome_some]
    · rwa [datasets_get_ne eq]
  absent at_ there h := by
    by_cases eq : (at_.projectID, at_.datasetID) = (path.projectID, path.datasetID)
    · obtain ⟨tables, map⟩ := Option.isSome_iff_exists.1 there
      have touched : s.ensureDatasetLocked now path.projectID path.datasetID = s :=
        ensure_of_present (eq ▸ map)
      rw [get, touched, record?_purge, if_pos eq, h, Option.bind_none]
    · simp only [record?, datasets_get_ne eq]
      exact h
  settled p d h := by
    by_cases eq : (p, d) = (path.projectID, path.datasetID)
    · cases eq
      rw [get_of_settled h]
    · exact datasets_get_ne eq

/-! ## Reading over time -/

/-- What reads at any moments do: datasets are seeded, and what has expired is dropped. -/
inductive Touched (s : TableService) : TableService → Prop where
  | refl : Touched s s
  | seed {s' : TableService} (now : Time) (p d : String) :
      Touched s s' → Touched s (s'.ensureDatasetLocked now p d)
  | purge {s' : TableService} (now : Time) (p d : String) :
      Touched s s' → Touched s (s'.purge now p d)

theorem Touched.trans (h1 : Touched s s') (h2 : Touched s' s'') : Touched s s'' := by
  induction h2 with
  | refl => exact h1
  | seed now p d _ ih => exact ih.seed now p d
  | purge now p d _ ih => exact ih.purge now p d

/-- A purge keeps a record in which nothing has expired. -/
theorem record?_purge_of_lasting (lasting : purgeRecord now r = some r)
    (found : s.record? path = some r) (p d : String) : (s.purge now p d).record? path = some r := by
  rw [record?_purge, found, Option.bind_some, lasting, ite_self]

/-- What reads do that drop what has expired at the given moment. -/
inductive TouchedAt (now : Time) (s : TableService) : TableService → Prop where
  | refl : TouchedAt now s s
  | seed {s' : TableService} (at_ : Time) (p d : String) :
      TouchedAt now s s' → TouchedAt now s (s'.ensureDatasetLocked at_ p d)
  | purge {s' : TableService} (p d : String) :
      TouchedAt now s s' → TouchedAt now s (s'.purge now p d)

theorem TouchedAt.trans (h1 : TouchedAt now s s') (h2 : TouchedAt now s' s'') :
    TouchedAt now s s'' := by
  induction h2 with
  | refl => exact h1
  | seed at_ p d _ ih => exact ih.seed at_ p d
  | purge p d _ ih => exact ih.purge p d

theorem touchedAt_get (s : TableService) (now : Time) (path : TableReference) :
    TouchedAt now s (s.get now path).1 :=
  (TouchedAt.refl.seed now _ _).purge _ _

/-- A record in which nothing has expired at the moment of the reads stays. -/
theorem TouchedAt.record?_eq (h : TouchedAt now s s') (lasting : purgeRecord now r = some r)
    (found : s.record? path = some r) : s'.record? path = some r := by
  induction h with
  | refl => exact found
  | seed at_ p d _ ih => exact record?_ensure at_ p d ih
  | purge p d _ ih => exact record?_purge_of_lasting lasting ih p d

end

end TableService

end LocaQL
