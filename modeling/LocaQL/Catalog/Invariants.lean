import LocaQL.Catalog.Reading

/-!
# Invariants of table records

A property of what is found at each path is an invariant of the catalog if the default tables
have it and every change of a record keeps it.  `Everywhere` is such a property, which may also
say that a table is there; `All` is a property of the tables that are there.  For each operation
there is one rule that leaves the change itself to be looked at.
-/

namespace LocaQL.TableService

variable {s : TableService} {path : TableReference} {r : TableRecord} {now : Time} {t : TableRecord}
  {v : Nat} {change : TableRecord → TableRecord} {dropNames : List String}

/-! ## Default tables -/

theorem get?_foldl_set (f : String → TableRecord) (ids : List String) (m : TableMap) (id : String) :
    (ids.foldl (fun m id => m.set id (f id)) m).get? id =
      if id ∈ ids then some (f id) else m.get? id := by
  induction ids generalizing m with
  | nil => simp
  | cons a ids ih =>
    simp only [List.foldl_cons, ih, GoMap.get?_set, List.mem_cons]
    by_cases here : id = a
    · subst here
      simp
    · simp [here]

/-- A dataset without a table map gets the default tables. -/
theorem get?_defaultTableMap (p d : String) (now : Time) (id : String) :
    (defaultTableMap p d now).get? id =
      if id ∈ defaultTables then some (defaultTable p d now id) else none := by
  rw [defaultTableMap, get?_foldl_set, GoMap.get?_empty]

/-- A dataset that is touched keeps its records, and gets default tables if it had none. -/
theorem record?_ensure_cases (s : TableService) (now : Time) (p d : String) (path : TableReference) :
    (s.ensureDatasetLocked now p d).record? path = s.record? path ∨
      (s.record? path = none ∧ (s.ensureDatasetLocked now p d).record? path =
        some (defaultTable path.projectID path.datasetID now path.tableID)) := by
  rcases sameUpToSeeding_ensure s now p d path with same | ⟨absent, seeded⟩
  · exact .inl same
  have before : s.record? path = none := by rw [record?, absent, Option.bind_none]
  rw [seeded, get?_defaultTableMap, before]
  split
  · exact .inr ⟨rfl, rfl⟩
  · exact .inl rfl

/-- A record in a dataset that was touched was there before, or is a default table. -/
theorem record?_of_ensure {p d : String} (h : (s.ensureDatasetLocked now p d).record? path = some r) :
    s.record? path = some r ∨
      r = defaultTable path.projectID path.datasetID now path.tableID := by
  rcases record?_ensure_cases s now p d path with same | ⟨-, seeded⟩
  · exact .inl (same ▸ h)
  · rw [seeded] at h
    exact .inr (Option.some.inj h).symm

/-! ## What is found at each path -/

/-- At every path there is, or is not, what the property asks for. -/
def Everywhere (P : TableReference → Option TableRecord → Prop) (s : TableService) : Prop :=
  ∀ path, P path (s.record? path)

namespace Everywhere

variable {P : TableReference → Option TableRecord → Prop}

/-- The default tables may appear where there is no table. -/
def Seeds (P : TableReference → Option TableRecord → Prop) : Prop :=
  ∀ path now, P path none →
    P path (some (defaultTable path.projectID path.datasetID now path.tableID))

/-- A purge at the given time may drop rows or tables. -/
def Purges [GoFloat] (now : Time) (P : TableReference → Option TableRecord → Prop) : Prop :=
  ∀ path t, P path (some t) → P path (purgeRecord now t)

variable (h : Everywhere P s)

include h

theorem erase (path : TableReference) (gone : P path none) :
    Everywhere P (s.store path.projectID path.datasetID
      ((s.tables path.projectID path.datasetID).delete path.tableID)) := by
  intro path'
  rw [record?_erase]
  split
  next here => rwa [here]
  · exact h path'

/-- Storing a record, over another one or as a new one. -/
theorem set (path : TableReference) (holds : P path (some t)) :
    Everywhere P (s.store path.projectID path.datasetID
      ((s.tables path.projectID path.datasetID).set path.tableID t)) := by
  intro path'
  rw [record?_update]
  split
  next here => rwa [here]
  · exact h path'

theorem commit (path : TableReference) (holds : P path (some (stamp now t))) :
    Everywhere P (s.commit now path t) :=
  h.set path holds

theorem deleteAllForDataset (p d : String)
    (gone : ∀ path, path.projectID = p → path.datasetID = d → P path none) :
    Everywhere P (s.deleteAllForDataset p d) := by
  rw [TableService.deleteAllForDataset]
  split
  · exact h
  intro path
  have before := h path
  rw [record?_bump]
  simp only [record?, GoMap.get?_delete] at before ⊢
  split
  next here => exact gone path (Prod.mk.inj here).1 (Prod.mk.inj here).2
  · exact before

theorem purge [GoFloat] (purges : Purges now P) (p d : String) :
    Everywhere P (s.purge now p d) := by
  intro path
  have before := h path
  rw [record?_purge]
  split
  · cases found : s.record? path with
    | none => rwa [found] at before
    | some t =>
      rw [found] at before
      exact purges path t before
  · exact before

variable (seeds : Seeds P)

include seeds

theorem ensure (now : Time) (p d : String) : Everywhere P (s.ensureDatasetLocked now p d) := by
  intro path
  have before := h path
  rcases record?_ensure_cases s now p d path with same | ⟨absent, seeded⟩
  · rwa [same]
  · rw [absent] at before
    rw [seeded]
    exact seeds path now before

theorem delete (path : TableReference) (gone : P path none) :
    Everywhere P (s.delete now path).1 := by
  have there := h.ensure seeds now path.projectID path.datasetID
  simp only [TableService.delete]
  split
  · exact there
  · exact there.erase path gone

theorem deleteIfVersion (path : TableReference) (v : Nat) (gone : P path none) :
    Everywhere P (s.deleteIfVersion now path v).1 := by
  have there := h.ensure seeds now path.projectID path.datasetID
  simp only [TableService.deleteIfVersion]
  split
  · exact there
  · exact there.erase path gone

theorem commitIfVersion {change : TableRecord → Result TableRecord}
    (keeps : ∀ t t', (s.touched now path).record? path = some t → P path (some t) →
      change t = .ok t' → P path (some (stamp now t'))) :
    Everywhere P (s.commitIfVersion now path v change).1 := by
  have there := h.ensure seeds now path.projectID path.datasetID
  simp only [TableService.commitIfVersion]
  split
  · exact there
  next t found =>
    have found := (checkVersion_ok found).1
    split
    · exact there
    next t' changed =>
      exact there.commit path (keeps t t' found (found ▸ there path) changed)

/-- The rule of `dropColumnsIfVersion`, which may also panic on the rows. -/
theorem dropColumnsIfVersion
    (keeps : ∀ t, (s.touched now path).record? path = some t → P path (some t) →
      P path (some (torn dropNames t)) ∧ P path (some (stamp now (dropped dropNames t)))) :
    Everywhere P (s.dropColumnsIfVersion now path v dropNames).1 := by
  have there := h.ensure seeds now path.projectID path.datasetID
  rcases dropColumnsIfVersion_cases s now path v dropNames with ⟨-, is⟩ | ⟨t, -, found, is⟩
  · rw [is]
    refine h.commitIfVersion seeds fun t t' found holds changed => ?_
    cases changed
    exact (keeps t found holds).2
  · rw [is]
    intro path'
    rw [record?_setTables_set]
    split
    next here =>
      rw [here]
      exact (keeps t found (found ▸ there path)).1
    · exact there path'

theorem edit {path : Option TableReference}
    (keeps : ∀ at_ t, path = some at_ → (s.touched now at_).record? at_ = some t →
      P at_ (some t) → P at_ (some (stamp now (change t)))) :
    Everywhere P (s.edit now path change).1 := by
  rw [TableService.edit.eq_def]
  split
  · exact h
  next at_ =>
    have there := h.ensure seeds now at_.projectID at_.datasetID
    dsimp only
    split
    · exact there
    next t found =>
      rw [get?_tables] at found
      exact there.commit at_ (keeps at_ t rfl found (found ▸ there at_))

theorem renameTableIfVersion (path : TableReference) (newTableID : String) (v : Nat)
    (gone : ∀ t, P path (some t) → P path none)
    (moved : ∀ t, P path (some t) → P ⟨path.projectID, path.datasetID, newTableID⟩ none →
      P ⟨path.projectID, path.datasetID, newTableID⟩
        (some (stamp now { t with tableID := newTableID }))) :
    Everywhere P (s.renameTableIfVersion now path newTableID v).1 := by
  have there := h.ensure seeds now path.projectID path.datasetID
  simp only [TableService.renameTableIfVersion]
  split
  · exact there
  next t found =>
    have old := there path
    rw [(checkVersion_ok found).1] at old
    split
    · exact there
    next absent =>
      have new := there ⟨path.projectID, path.datasetID, newTableID⟩
      rw [← get?_tables, absent] at new
      intro path'
      rw [record?_move]
      split
      next here => exact here ▸ moved t old new
      · split
        next here => exact here ▸ gone t old
        · exact there path'

/-- Reading keeps what it may seed and purge. -/
theorem get [GoFloat] (purges : Purges now P) (path : TableReference) :
    Everywhere P (s.get now path).1 :=
  (h.ensure seeds now _ _).purge purges _ _

theorem insert [GoFloat] {input : TableInsert}
    (keeps : ∀ path, trimPath input.projectID input.datasetID input.tableID = some path →
      P path none → P path (some (newRecord input path now))) :
    Everywhere P (s.insert now input).1 := by
  rw [TableService.insert]
  split
  · exact h
  next path trim =>
    have there := h.ensure seeds now path.projectID path.datasetID
    dsimp only
    split
    · exact there
    next absent =>
      have before := there path
      rw [← get?_tables, absent] at before
      split
      · exact there
      · exact there.set path (keeps path trim before)

/-- The rule of `upsertCopyDestination`: what is looked at is the merged record, once it has
passed all checks. -/
theorem upsertCopyDestination [GoFloat] {dest : TableReference} {schema : List TableField}
    {rows : List Row} {create write : String}
    (keeps : ∀ path, trimPath dest.projectID dest.datasetID dest.tableID = some path →
      ∀ existing, (s.touched now path).record? path = existing → P path existing →
        P path (some (stamp now (merge (destination existing path now) schema rows
          (normalizeWriteDisposition write) now)))) :
    Everywhere P (s.upsertCopyDestination now dest schema rows create write).1 := by
  rw [TableService.upsertCopyDestination]
  split
  · exact h
  next path trim =>
    have there := h.ensure seeds now path.projectID path.datasetID
    dsimp only
    split
    · exact there
    split
    · exact there
    split
    · exact there
    refine there.commit path ?_
    rw [get?_tables]
    exact keeps path trim _ rfl (there path)

end Everywhere

/-! ## Properties of every table -/

/-- Every table of the catalog has the property. -/
def All (P : TableReference → TableRecord → Prop) (s : TableService) : Prop :=
  ∀ path r, s.record? path = some r → P path r

variable {P : TableReference → TableRecord → Prop}

/-- The property, where there is a table. -/
def IfThere (P : TableReference → TableRecord → Prop) (path : TableReference)
    (o : Option TableRecord) : Prop :=
  ∀ r, o = some r → P path r

theorem IfThere.none (path : TableReference) : IfThere P path none := by
  intro r is
  cases is

theorem IfThere.some (h : P path t) : IfThere P path (some t) := by
  intro r is
  cases is
  exact h

/-- The default tables have the property. -/
def Seeds (P : TableReference → TableRecord → Prop) : Prop :=
  ∀ path now, P path (defaultTable path.projectID path.datasetID now path.tableID)

theorem Seeds.ifThere (seeds : Seeds P) : Everywhere.Seeds (IfThere P) :=
  fun path now _ => .some (seeds path now)

/-- A purge that drops rows keeps the property. -/
def Purges [GoFloat] (P : TableReference → TableRecord → Prop) : Prop :=
  ∀ path now t, P path t → P path (purgeExpiredPartitions t now).1

theorem Purges.ifThere [GoFloat] (purges : Purges P) (now : Time) :
    Everywhere.Purges now (IfThere P) := by
  intro path t holds
  rw [purgeRecord]
  split
  · exact .none path
  · exact .some (purges path now t (holds t rfl))

section

variable (h : All P s)

include h

theorem All.everywhere : Everywhere (IfThere P) s := h

theorem All.purge [GoFloat] (purges : Purges P) (now : Time) (p d : String) :
    All P (s.purge now p d) :=
  h.everywhere.purge (purges.ifThere now) p d

variable (seeds : Seeds P)

include seeds

theorem All.ensure (now : Time) (p d : String) : All P (s.ensureDatasetLocked now p d) :=
  h.everywhere.ensure seeds.ifThere now p d

theorem All.commitIfVersion {change : TableRecord → Result TableRecord}
    (keeps : ∀ t t', (s.touched now path).record? path = some t → P path t → change t = .ok t' →
      P path (stamp now t')) : All P (s.commitIfVersion now path v change).1 :=
  h.everywhere.commitIfVersion seeds.ifThere fun t t' found holds changed =>
    .some (keeps t t' found (holds t rfl) changed)

theorem All.dropColumnsIfVersion
    (keeps : ∀ t, (s.touched now path).record? path = some t → P path t →
      P path (torn dropNames t) ∧ P path (stamp now (dropped dropNames t))) :
    All P (s.dropColumnsIfVersion now path v dropNames).1 :=
  h.everywhere.dropColumnsIfVersion seeds.ifThere fun t found holds =>
    (keeps t found (holds t rfl)).imp .some .some

theorem All.edit {path : Option TableReference}
    (keeps : ∀ at_ t, path = some at_ → (s.touched now at_).record? at_ = some t → P at_ t →
      P at_ (stamp now (change t))) : All P (s.edit now path change).1 :=
  h.everywhere.edit seeds.ifThere fun at_ t is found holds =>
    .some (keeps at_ t is found (holds t rfl))

theorem All.renameTableIfVersion (path : TableReference) (newTableID : String) (v : Nat)
    (keeps : ∀ t, P path t → P ⟨path.projectID, path.datasetID, newTableID⟩
      (stamp now { t with tableID := newTableID })) :
    All P (s.renameTableIfVersion now path newTableID v).1 :=
  h.everywhere.renameTableIfVersion seeds.ifThere path newTableID v (fun _ _ => .none path)
    fun t holds _ => .some (keeps t (holds t rfl))

theorem All.insert [GoFloat] {input : TableInsert}
    (keeps : ∀ path, trimPath input.projectID input.datasetID input.tableID = some path →
      P path (newRecord input path now)) : All P (s.insert now input).1 :=
  h.everywhere.insert seeds.ifThere fun path trim _ => .some (keeps path trim)

theorem All.upsertCopyDestination [GoFloat] {dest : TableReference} {schema : List TableField}
    {rows : List Row} {create write : String}
    (keeps : ∀ path, trimPath dest.projectID dest.datasetID dest.tableID = some path →
      ∀ existing, (s.touched now path).record? path = existing →
        (∀ t, existing = some t → P path t) →
        P path (stamp now (merge (destination existing path now) schema rows
          (normalizeWriteDisposition write) now))) :
    All P (s.upsertCopyDestination now dest schema rows create write).1 :=
  h.everywhere.upsertCopyDestination seeds.ifThere fun path trim existing found holds =>
    .some (keeps path trim existing found holds)

variable [GoFloat] (purges : Purges P)

include purges

/-- Reading keeps the property. -/
theorem All.get (now : Time) (path : TableReference) : All P (s.get now path).1 :=
  h.everywhere.get seeds.ifThere (purges.ifThere now) path

theorem All.of_touched {s' : TableService} (reads : Touched s s') : All P s' := by
  induction reads with
  | refl => exact h
  | seed now p d _ ih => exact ih.ensure seeds now p d
  | purge now p d _ ih => exact ih.purge purges now p d

theorem All.of_touchedAt {s' : TableService} (reads : TouchedAt now s s') : All P s' := by
  induction reads with
  | refl => exact h
  | seed at_ p d _ ih => exact ih.ensure seeds at_ p d
  | purge p d _ ih => exact ih.purge purges now p d

section

variable (found : (s.get now path).2 = some t)

include found

/-- A version-checked commit to the table that was read. -/
theorem All.commit_read {change : TableRecord → Result TableRecord}
    (keeps : ∀ t', P path t → change t = .ok t' → P path (stamp now t')) :
    All P ((s.get now path).1.commitIfVersion now path v change).1 := by
  refine (h.get seeds purges now path).commitIfVersion seeds fun r r' there holds changed => ?_
  have same : (s.get now path).1.record? path = some t := found
  rw [touched, record?_ensure now _ _ same] at there
  cases there
  exact keeps r' holds changed

/-- Dropping columns of the table that was read. -/
theorem All.drop_read
    (keeps : P path t → P path (torn dropNames t) ∧ P path (stamp now (dropped dropNames t))) :
    All P ((s.get now path).1.dropColumnsIfVersion now path v dropNames).1 := by
  refine (h.get seeds purges now path).dropColumnsIfVersion seeds fun r there holds => ?_
  have same : (s.get now path).1.record? path = some t := found
  rw [touched, record?_ensure now _ _ same] at there
  cases there
  exact keeps holds

/-- An edit of the table that was read, or of one that the property says nothing about. -/
theorem All.edit_read {at_ : Option TableReference}
    (here : ∀ path', at_ = some path' → path' = path ∨ ∀ r, P path' r)
    (keeps : at_ = some path → P path t → P path (stamp now (change t))) :
    All P ((s.get now path).1.edit now at_ change).1 := by
  refine (h.get seeds purges now path).edit seeds fun path' r trim there holds => ?_
  rcases here path' trim with same | any
  · subst same
    have same : (s.get now path').1.record? path' = some t := found
    rw [touched, record?_ensure now _ _ same] at there
    cases there
    exact keeps trim holds
  · exact any _

end

end

end LocaQL.TableService
