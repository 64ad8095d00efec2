import LocaQL.Engine.Pool

/-!
# Materializing tables into an engine

`openMaterializedSQLDatabase` resolves every referenced table and writes the rows
into the engine it acquired.  The functions that write are translated here.  Each
returns the engine as it was left, with the error if there was one, since a failed
materialization leaves its traces behind: the table is recorded as materialized
before its rows are written, and `CREATE TABLE` stands outside the transaction that
inserts the rows.
-/

namespace LocaQL

/-- `datasetTableRef`. -/
structure DatasetTableRef where
  datasetID : String
  tableID : String
deriving Repr, DecidableEq

def DatasetTableRef.key (ref : DatasetTableRef) : String := tableKey ref.datasetID ref.tableID

/-- `resolvedTableMaterialization`.  A version is only ever set on a table that was
found. -/
structure ResolvedTableMaterialization where
  ref : DatasetTableRef
  fields : List TableField
  rows : List Row
  found : Bool
  version : Nat
  hasVersion : Bool
  found_of_hasVersion : hasVersion = true → found = true

namespace ResolvedTableMaterialization

def key (r : ResolvedTableMaterialization) : String := r.ref.key

/-- What a complete materialization of `r` puts under its key. -/
def image (r : ResolvedTableMaterialization) : EngineTable := ⟨r.fields, r.rows⟩

def cacheRef (r : ResolvedTableMaterialization) : CacheableTableRef :=
  ⟨r.ref.datasetID, r.ref.tableID, r.version⟩

end ResolvedTableMaterialization

def cacheSignature (cacheable : Bool) (resolved : List ResolvedTableMaterialization) : String :=
  if cacheable then tableSignature (resolved.map (·.cacheRef)) else ""

/-! ## Writing rows -/

/-- The loop that inserts `rows` after the rows `done`. -/
def insertRows (faults : Faults) (key : String) (fields : List TableField) (db : Database)
    (done : List Row) : List Row → Database × Option String
  | [] => (db, none)
  | row :: rows =>
    match faults (.insertRow key done.length) with
    | some err => (db, some err)
    | none =>
      insertRows faults key fields (db.set key ⟨fields, done ++ [row]⟩) (done ++ [row]) rows

/-- Nested rows are inserted outside any transaction. -/
def materializeNestedRows (faults : Faults) (db : Database) (key : String)
    (fields : List TableField) (rows : List Row) : Database × Option String :=
  insertRows faults key fields db [] rows

/-- Scalar rows are inserted in one transaction, rolled back on any error. -/
def materializeScalarRows (faults : Faults) (db : Database) (key : String)
    (fields : List TableField) (rows : List Row) : Database × Option String :=
  match faults (.begin key) with
  | some err => (db, some s!"begin materialize transaction: {err}")
  | none =>
    match faults (.prepareInsert key) with
    | some err => (db, some err)
    | none =>
      match insertRows faults key fields db [] rows with
      | (_, some err) => (db, some err)
      | (tx, none) =>
        match faults (.commit key) with
        | some err => (db, some s!"commit materialize transaction: {err}")
        | none => (tx, none)

def hasNested (fields : List TableField) : Bool :=
  fields.any fun f => f.mode == "REPEATED" || isRecordType f.type

/-- `materializeTable`.  `CREATE TABLE` also fails on a name that is taken. -/
def materializeTable (faults : Faults) (db : Database) (key : String) (fields : List TableField)
    (rows : List Row) : Database × Option String :=
  match db.get? key with
  | some _ => (db, some s!"table already exists: {key}")
  | none =>
    match faults (.createTable key) with
    | some err => (db, some err)
    | none =>
      let db := db.set key ⟨fields, []⟩
      if rows.isEmpty then (db, none)
      else if hasNested fields then materializeNestedRows faults db key fields rows
      else materializeScalarRows faults db key fields rows

/-- Whether `materializeResolvedRef` has nothing to do. -/
def skips (pe : PooledEngine) (r : ResolvedTableMaterialization) : Bool :=
  r.hasVersion && pe.materializedVersion r.ref.datasetID r.ref.tableID == some r.version

def materializeResolvedRef (faults : Faults) (pe : PooledEngine)
    (r : ResolvedTableMaterialization) : PooledEngine × Option String :=
  let datasetID := r.ref.datasetID
  let tableID := r.ref.tableID
  if skips pe r then (pe, none)
  else
    match pe.ensureSchema faults datasetID with
    | .error err => (pe, some s!"materialize dataset {datasetID}: {err}")
    | .ok pe =>
      -- recorded whether or not the rows arrive
      let pe := pe.markTableMaterialized datasetID tableID r.version
      if r.found then
        match materializeTable faults pe.db r.key r.fields r.rows with
        | (db, some err) =>
          ({ pe with db := db }, some s!"materialize table {datasetID}.{tableID}: {err}")
        | (db, none) => ({ pe with db := db }, none)
      else (pe, none)

/-- The loop of `reconcileSharedEngine` over the tracked keys. -/
def reconcileKeys (faults : Faults) (want : List String) (pe : PooledEngine) :
    List String → PooledEngine × Option String
  | [] => (pe, none)
  | key :: keys =>
    if key ∈ want then reconcileKeys faults want pe keys
    else
      match pe.dropMaterialized faults key with
      | .error err => (pe, some err)
      | .ok pe => reconcileKeys faults want pe keys

def reconcileSharedEngine (faults : Faults) (pe : PooledEngine)
    (wanted : List ResolvedTableMaterialization) : PooledEngine × Option String :=
  reconcileKeys faults (wanted.map (·.key)) pe pe.tables.keys

def materializeRefs (faults : Faults) (pe : PooledEngine) :
    List ResolvedTableMaterialization → PooledEngine × Option String
  | [] => (pe, none)
  | r :: rs =>
    match materializeResolvedRef faults pe r with
    | (pe, some err) => (pe, some err)
    | (pe, none) => materializeRefs faults pe rs

def materializeAllResolved (faults : Faults) (pe : PooledEngine)
    (resolved : List ResolvedTableMaterialization) (shared : Bool) :
    PooledEngine × Option String :=
  if shared then
    match reconcileSharedEngine faults pe resolved with
    | (pe, some err) => (pe, some s!"reconcile shared engine: {err}")
    | (pe, none) => materializeRefs faults pe resolved
  else materializeRefs faults pe resolved

/-! ## What a successful write leaves -/

variable {db db' : Database} {fields : List TableField} {key : String} {rows : List Row}
  {faults : Faults} {pe : PooledEngine}

theorem insertRows_ok {done : List Row} (start : db.get? key = some ⟨fields, done⟩)
    (h : insertRows faults key fields db done rows = (db', none)) :
    db'.get? key = some ⟨fields, done ++ rows⟩ ∧ ∀ k ≠ key, db'.get? k = db.get? k := by
  induction rows generalizing db done with
  | nil =>
    cases h
    exact ⟨by simpa using start, fun _ _ => rfl⟩
  | cons row rows ih =>
    rw [insertRows] at h
    split at h
    · cases h
    · obtain ⟨here, others⟩ := ih (by simp) h
      refine ⟨by simpa using here, fun k hk => ?_⟩
      rw [others k hk, GoMap.get?_set_ne _ _ hk]

theorem materializeScalarRows_ok (start : db.get? key = some ⟨fields, []⟩)
    (h : materializeScalarRows faults db key fields rows = (db', none)) :
    db'.get? key = some ⟨fields, rows⟩ ∧ ∀ k ≠ key, db'.get? k = db.get? k := by
  unfold materializeScalarRows at h
  split at h
  · cases h
  split at h
  · cases h
  split at h
  · cases h
  next tx inserted =>
  split at h
  · cases h
  · cases h
    simpa using insertRows_ok start inserted

/-- A table that was written holds all its rows, and no other table has changed. -/
theorem materializeTable_ok (h : materializeTable faults db key fields rows = (db', none)) :
    db.get? key = none ∧ db'.get? key = some ⟨fields, rows⟩ ∧
      ∀ k ≠ key, db'.get? k = db.get? k := by
  unfold materializeTable at h
  split at h
  · cases h
  next free =>
    have start : (db.set key ⟨fields, []⟩).get? key = some ⟨fields, []⟩ := by simp
    have others : ∀ k ≠ key, (db.set key ⟨fields, []⟩).get? k = db.get? k :=
      fun k hk => GoMap.get?_set_ne _ _ hk
    split at h
    · cases h
    simp only at h
    split at h
    next empty =>
      cases h
      refine ⟨free, ?_, others⟩
      rw [start, List.isEmpty_iff.1 empty]
    · split at h
      · obtain ⟨here, rest⟩ := insertRows_ok start h
        exact ⟨free, by simpa using here, fun k hk => (rest k hk).trans (others k hk)⟩
      · obtain ⟨here, rest⟩ := materializeScalarRows_ok start h
        exact ⟨free, here, fun k hk => (rest k hk).trans (others k hk)⟩

/-- Writing changes the content of an engine and the record of it, nothing else. -/
structure ContentChange (pe pe' : PooledEngine) : Prop where
  refCount : pe'.refCount = pe.refCount
  closed : pe'.closed = pe.closed
  signature : pe'.signature = pe.signature

theorem ContentChange.refl (pe : PooledEngine) : ContentChange pe pe := ⟨rfl, rfl, rfl⟩

theorem ContentChange.trans {pe' pe'' : PooledEngine} (h : ContentChange pe pe')
    (h' : ContentChange pe' pe'') : ContentChange pe pe'' :=
  ⟨h'.refCount.trans h.refCount, h'.closed.trans h.closed, h'.signature.trans h.signature⟩

theorem PooledEngine.ensureSchema_ok {pe' : PooledEngine} {datasetID : String}
    (h : pe.ensureSchema faults datasetID = .ok pe') :
    ∃ schemas, pe' = { pe with schemas := schemas } := by
  unfold ensureSchema at h
  split at h
  · cases h
    exact ⟨pe.schemas, rfl⟩
  · split at h
    · cases h
    · cases h
      exact ⟨datasetID :: pe.schemas, rfl⟩

theorem materializeResolvedRef_change (faults : Faults) (pe : PooledEngine)
    (r : ResolvedTableMaterialization) :
    ContentChange pe (materializeResolvedRef faults pe r).1 := by
  simp only [materializeResolvedRef]
  split
  · exact .refl pe
  split
  · exact .refl pe
  next schema =>
  obtain ⟨schemas, rfl⟩ := PooledEngine.ensureSchema_ok schema
  split
  · split <;> exact ⟨rfl, rfl, rfl⟩
  · exact ⟨rfl, rfl, rfl⟩

theorem materializeRefs_change (faults : Faults) (pe : PooledEngine)
    (resolved : List ResolvedTableMaterialization) :
    ContentChange pe (materializeRefs faults pe resolved).1 := by
  induction resolved generalizing pe with
  | nil => exact .refl pe
  | cons r rs ih =>
    have first := materializeResolvedRef_change faults pe r
    rw [materializeRefs]
    split
    next h =>
      rw [h] at first
      exact first
    next h =>
      rw [h] at first
      exact first.trans (ih _)

theorem reconcileKeys_change (faults : Faults) (want : List String) (pe : PooledEngine)
    (keys : List String) : ContentChange pe (reconcileKeys faults want pe keys).1 := by
  induction keys generalizing pe with
  | nil => exact .refl pe
  | cons key keys ih =>
    rw [reconcileKeys]
    split
    · exact ih pe
    split
    · exact .refl pe
    next pe1 dropped =>
    have first : ContentChange pe pe1 := by
      unfold PooledEngine.dropMaterialized at dropped
      split at dropped
      · cases dropped
        exact .refl pe
      split at dropped
      · cases dropped
      · cases dropped
        exact ⟨rfl, rfl, rfl⟩
    exact first.trans (ih pe1)

theorem materializeAllResolved_change (faults : Faults) (pe : PooledEngine)
    (resolved : List ResolvedTableMaterialization) (shared : Bool) :
    ContentChange pe (materializeAllResolved faults pe resolved shared).1 := by
  have reconciled := reconcileKeys_change faults (resolved.map (·.key)) pe pe.tables.keys
  unfold materializeAllResolved
  split
  · split
    next h =>
      rw [reconcileSharedEngine] at h
      rw [h] at reconciled
      exact reconciled
    next h =>
      rw [reconcileSharedEngine] at h
      rw [h] at reconciled
      exact reconciled.trans (materializeRefs_change faults _ resolved)
  · exact materializeRefs_change faults pe resolved

/-- Every table the engine's bookkeeping lists is there, with a content that `Good`
allows for its version. -/
def Holds (Good : String → Nat → EngineTable → Prop) (pe : PooledEngine) : Prop :=
  ∀ k v, pe.tables.get? k = some v → ∃ img, pe.db.get? k = some img ∧ Good k v img

section Good

variable {Good : String → Nat → EngineTable → Prop} {faults : Faults} {pe pe' : PooledEngine}

/-- One table.  A key that is already listed is only passed over: writing it again
would fail on `CREATE TABLE`. -/
theorem Holds.materializeResolvedRef {r : ResolvedTableMaterialization} (holds : Holds Good pe)
    (versioned : r.hasVersion = true) (good : Good r.key r.version r.image)
    (h : materializeResolvedRef faults pe r = (pe', none)) :
    Holds Good pe' ∧ pe'.tables.get? r.key = some r.version ∧
      ∀ k v, pe.tables.get? k = some v → pe'.tables.get? k = some v := by
  simp only [LocaQL.materializeResolvedRef] at h
  split at h
  next skip =>
    cases h
    simp only [skips, versioned, Bool.true_and, beq_iff_eq] at skip
    exact ⟨holds, skip, fun _ _ h => h⟩
  split at h
  · cases h
  next pe1 schema =>
  obtain ⟨schemas, rfl⟩ := PooledEngine.ensureSchema_ok schema
  rw [if_pos (r.found_of_hasVersion versioned)] at h
  split at h
  · cases h
  next db written =>
  cases h
  obtain ⟨free, here, others⟩ := materializeTable_ok written
  -- the key was not listed before, or the table would have been there
  have unlisted : ∀ v, pe.tables.get? r.key ≠ some v := by
    intro v listed
    obtain ⟨img, there, -⟩ := holds _ v listed
    rw [show pe.db.get? r.key = none from free] at there
    cases there
  refine ⟨fun k v listed => ?_, GoMap.get?_set_self _ _ _, fun k v listed => ?_⟩
  · by_cases hk : k = r.key
    · subst hk
      have : r.version = v := by
        simpa [PooledEngine.markTableMaterialized, ResolvedTableMaterialization.key,
          DatasetTableRef.key] using listed
      subst this
      exact ⟨r.image, here, good⟩
    · have listed : pe.tables.get? k = some v := by
        rw [← listed]
        exact (GoMap.get?_set_ne _ _ hk).symm
      obtain ⟨img, there, hgood⟩ := holds k v listed
      exact ⟨img, (others k hk).trans there, hgood⟩
  · have hk : k ≠ r.key := fun hk => unlisted v (hk ▸ listed)
    exact (GoMap.get?_set_ne _ _ hk).trans listed

/-- All tables of a query, one after the other. -/
theorem Holds.materializeRefs {resolved : List ResolvedTableMaterialization} (holds : Holds Good pe)
    (versioned : ∀ r ∈ resolved, r.hasVersion = true)
    (good : ∀ r ∈ resolved, Good r.key r.version r.image)
    (h : materializeRefs faults pe resolved = (pe', none)) :
    Holds Good pe' ∧ (∀ r ∈ resolved, pe'.tables.get? r.key = some r.version) ∧
      ∀ k v, pe.tables.get? k = some v → pe'.tables.get? k = some v := by
  induction resolved generalizing pe with
  | nil =>
    cases h
    exact ⟨holds, nofun, fun _ _ h => h⟩
  | cons r rs ih =>
    rw [LocaQL.materializeRefs] at h
    split at h
    · cases h
    next pe1 first =>
    obtain ⟨holds1, listed, keep1⟩ := holds.materializeResolvedRef
      (versioned r List.mem_cons_self) (good r List.mem_cons_self) first
    obtain ⟨holds2, rest, keep2⟩ := ih holds1
      (fun r' mem => versioned r' (List.mem_cons_of_mem _ mem))
      (fun r' mem => good r' (List.mem_cons_of_mem _ mem)) h
    refine ⟨holds2, fun r' mem => ?_, fun k v h => keep2 k v (keep1 k v h)⟩
    rcases List.mem_cons.1 mem with rfl | mem
    · exact keep2 _ _ listed
    · exact rest r' mem

end Good

/-- An engine that lists nothing needs no reconciliation. -/
theorem reconcileSharedEngine_blank {wanted : List ResolvedTableMaterialization}
    (blank : pe.tables = ∅) : reconcileSharedEngine faults pe wanted = (pe, none) := by
  simp [reconcileSharedEngine, blank, reconcileKeys]

end LocaQL
