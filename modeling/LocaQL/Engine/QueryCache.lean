import LocaQL.Catalog.Reading
import LocaQL.Engine.Queries

/-!
# The query cache

The catalog and the engine pool together.  Opening a query resolves the tables it
references in the catalog of its project and acquires an engine for their signature;
on a hit it runs on what the engine already holds.  Catalog operations of any project
and the other steps of the queries under way come in between in any order.

A signature lists dataset, table and version, but not the project, and versions start
over when a table is created again.  A hit is sound (`fresh_of_hit`) as long as no
project creates a table at or below a version that is cached under its name, and no
two projects have a table of the name that a query reads.
-/

namespace LocaQL

open TableService List

section Resolve

variable [GoFloat]

def sessionDatasetName : String := "_SESSION"

/-- `materializationPlan`, with what the query text, the session and the files outside
the catalog contribute. -/
structure MaterializationPlan where
  projectID : String
  /-- The temporary tables of the session, if the query runs in one. -/
  sess : Option (String → Option (List TableField × List Row))
  allowPartitionPruning : Bool
  singleRef : Bool
  /-- `queryHasPartitionFilter`. -/
  hasPartitionFilter : TableRecord → Bool
  /-- `prunePartitionedRows`, `none` if it does not prune. -/
  prunePartitionedRows : DatasetTableRef → TableRecord → List Row → Option (List Row × List String)
  /-- The result of a view's query, or the content of an external table's files. -/
  derivedRows : TableRecord → Result (List TableField × List Row)

variable (s : TableService) (now : Time) (plan : MaterializationPlan) (ref : DatasetTableRef)

def MaterializationPlan.path : TableReference := ⟨plan.projectID, ref.datasetID, ref.tableID⟩

def catalogTableForRef (requireFilterCheck : Bool) : TableService × Result (Option TableRecord) :=
  let datasetID := ref.datasetID
  let tableID := ref.tableID
  if GoText.equalFold datasetID sessionDatasetName then (s, .ok none)
  else
    match s.get now (plan.path ref) with
    | (s, none) => (s, .ok none)
    | (s, some table) =>
      if requireFilterCheck && table.requirePartitionFilter && !plan.hasPartitionFilter table then
        (s, fail s!"cannot query over table {datasetID}.{tableID} without a filter on its partitioning column")
      else (s, .ok (some table))

/-- `resolveTableRowsVisiting`; the queries that a view runs are steps of their own. -/
def resolveTableRowsVisiting :
    TableService × Result (Option (List TableField × List Row)) :=
  match s.get now (plan.path ref) with
  | (s, none) => (s, .ok none)
  | (s, some record) =>
    if record.view.isSome ∨ record.external.isSome then (s, (plan.derivedRows record).map some)
    else
      let (s, data) := s.getData now (plan.path ref)
      (s, .ok data)

def pruneIfEligible (catalogTable : Option TableRecord) (rows : List Row) :
    List Row × Option TableRecord × Bool :=
  match catalogTable with
  | none => (rows, none, false)
  | some table =>
    if !plan.allowPartitionPruning || !plan.singleRef then (rows, some table, false)
    else
      match plan.prunePartitionedRows ref table rows with
      | none => (rows, some table, false)
      | some (prunedRows, prunedPartitions) =>
        match table.timePartitioning with
        | some config =>
          if config.field = "" then
            (prunedRows, some { table with ingestionPartitions := prunedPartitions }, true)
          else (prunedRows, some table, true)
        | none => (prunedRows, some table, true)

/-- The end of `resolveTableForMaterialization`, for a table that was found. -/
def resolveFound (catalogTable : Option TableRecord) (fields : List TableField)
    (rows : List Row) : ResolvedTableMaterialization :=
  let versioned := catalogTable.filter fun t => t.external.isNone && t.view.isNone
  let (rows, catalogTable, pruned) := pruneIfEligible plan ref catalogTable rows
  let (fields, rows) := materializeIngestionPseudocolumns catalogTable fields rows
  { ref := ref
    fields := fields
    rows := rows
    found := true
    version := (versioned.map (·.version)).getD 0
    hasVersion := versioned.isSome && !pruned
    found_of_hasVersion := fun _ => rfl }

/-- A table without a version. -/
def unversioned (data : Option (List TableField × List Row)) : ResolvedTableMaterialization where
  ref := ref
  fields := (data.map (·.1)).getD []
  rows := (data.map (·.2)).getD []
  found := data.isSome
  version := 0
  hasVersion := false
  found_of_hasVersion := nofun

def resolveTableForMaterialization (requireFilterCheck : Bool) :
    TableService × Result ResolvedTableMaterialization :=
  match catalogTableForRef s now plan ref requireFilterCheck with
  | (s, .error err) => (s, .error err)
  | (s, .ok catalogTable) =>
    if plan.sess.isSome && GoText.equalFold ref.datasetID sessionDatasetName then
      (s, .ok (unversioned ref (plan.sess.bind fun getTempTable => getTempTable ref.tableID)))
    else
      match resolveTableRowsVisiting s now plan ref with
      | (s, .error err) => (s, .error err)
      | (s, .ok none) => (s, .ok (unversioned ref none))
      | (s, .ok (some (fields, rows))) =>
        (s, .ok (resolveFound plan ref catalogTable fields rows))

/-- `resolveAllRefs`; whether the query stays cacheable is read off the result. -/
def resolveAllRefs (now : Time) (plan : MaterializationPlan)
    (requireFilterCheck : DatasetTableRef → Bool) : TableService → List DatasetTableRef →
    TableService × Result (List ResolvedTableMaterialization)
  | s, [] => (s, .ok [])
  | s, ref :: refs =>
    match resolveTableForMaterialization s now plan ref (requireFilterCheck ref) with
    | (s, .error err) => (s, .error err)
    | (s, .ok r) =>
      match resolveAllRefs now plan requireFilterCheck s refs with
      | (s, .error err) => (s, .error err)
      | (s, .ok rs) => (s, .ok (r :: rs))

end Resolve

/-- What a fresh materialization of a record puts into an engine. -/
def freshImage (t : TableRecord) : EngineTable :=
  let data := materializeIngestionPseudocolumns (some t) t.schema t.rows
  ⟨data.1, data.2⟩

/-! ## What is resolved -/

section Resolved

variable {s : TableService} {now : Time} {plan : MaterializationPlan} {ref : DatasetTableRef}

/-- The table was resolved as it stands in the catalog. -/
structure Current (plan : MaterializationPlan) (s : TableService)
    (m : ResolvedTableMaterialization) (t : TableRecord) : Prop where
  found : s.record? (plan.path m.ref) = some t
  version : m.version = t.version
  image : m.image = freshImage t

theorem pruneIfEligible_unpruned {catalogTable : Option TableRecord} {rows : List Row}
    (h : (pruneIfEligible plan ref catalogTable rows).2.2 = false) :
    pruneIfEligible plan ref catalogTable rows = (rows, catalogTable, false) := by
  unfold pruneIfEligible at h ⊢
  split
  · rfl
  split
  · rfl
  next eligible =>
    simp only [if_neg eligible] at h
    split at h
    · rfl
    · split at h
      · split at h <;> cases h
      · cases h

/-- A versioned table is one of the catalog, with all its rows. -/
theorem resolveFound_versioned {catalogTable : Option TableRecord} {fields : List TableField}
    {rows : List Row} (h : (resolveFound plan ref catalogTable fields rows).hasVersion = true) :
    ∃ t, catalogTable = some t ∧ t.view = none ∧ t.external = none ∧
      (resolveFound plan ref catalogTable fields rows).version = t.version ∧
      (resolveFound plan ref catalogTable fields rows).image =
        ⟨(materializeIngestionPseudocolumns (some t) fields rows).1,
          (materializeIngestionPseudocolumns (some t) fields rows).2⟩ := by
  simp only [resolveFound, Bool.and_eq_true, Bool.not_eq_true'] at h
  obtain ⟨versioned, unpruned⟩ := h
  have unpruned := pruneIfEligible_unpruned unpruned
  obtain ⟨t, filtered⟩ := Option.isSome_iff_exists.1 versioned
  obtain ⟨rfl, native⟩ := Option.filter_eq_some_iff.1 filtered
  simp only [Bool.and_eq_true, Option.isNone_iff_eq_none] at native
  refine ⟨t, rfl, native.2, native.1, ?_, ?_⟩
  · simp [resolveFound, filtered]
  · simp [resolveFound, ResolvedTableMaterialization.image, unpruned]

variable [GoFloat]

section

variable (s : TableService) (now : Time) (plan : MaterializationPlan) (ref : DatasetTableRef)

theorem catalogTableForRef_spec (check : Bool) :
    Reads now s (catalogTableForRef s now plan ref check).1 ∧
      ∀ t, (catalogTableForRef s now plan ref check).2 = .ok (some t) →
        Settled now plan.projectID ref.datasetID
          (catalogTableForRef s now plan ref check).1 ∧
        (catalogTableForRef s now plan ref check).1.record? (plan.path ref) = some t := by
  have reads := reads_get s now (plan.path ref)
  have settled := settled_get s now (plan.path ref)
  simp only [catalogTableForRef]
  split
  · exact ⟨.refl now s, fun t h => by cases h⟩
  split
  next s' read =>
    rw [read] at reads
    exact ⟨reads, fun t h => by cases h⟩
  next s' t read =>
    have found : s'.record? (plan.path ref) = some t := by
      have record := get_snd s now (plan.path ref)
      rw [read] at record
      exact record.symm
    rw [read] at reads settled
    split
    · exact ⟨reads, fun t' h => absurd h (fail_ne_ok _ _)⟩
    · refine ⟨reads, fun t' h => ?_⟩
      cases h
      exact ⟨settled, found⟩

theorem resolveTableRowsVisiting_reads :
    Reads now s (resolveTableRowsVisiting s now plan ref).1 := by
  have reads := reads_get s now (plan.path ref)
  unfold resolveTableRowsVisiting
  split
  next s' read =>
    rw [read] at reads
    exact reads
  next s' t read =>
    rw [read] at reads
    split
    · exact reads
    · exact reads.trans (reads_get s' now (plan.path ref))

end

/-- The rows of a table that was read just before. -/
theorem resolveTableRowsVisiting_table {t : TableRecord}
    (settled : Settled now plan.projectID ref.datasetID s)
    (found : s.record? (plan.path ref) = some t) (native : t.view = none ∧ t.external = none) :
    resolveTableRowsVisiting s now plan ref = (s, .ok (some (t.schema, t.rows))) := by
  have read : s.get now (plan.path ref) = (s, some t) := by
    have same := (get_of_settled settled : (s.get now (plan.path ref)).1 = s)
    refine Prod.ext same ?_
    rw [get_snd, same, found]
  simp only [resolveTableRowsVisiting, read, getData, native, Option.isSome_none]
  rfl

theorem resolveTableForMaterialization_spec (s : TableService) (now : Time)
    (plan : MaterializationPlan) (ref : DatasetTableRef) (check : Bool) :
    Reads now s (resolveTableForMaterialization s now plan ref check).1 ∧
      ∀ m, (resolveTableForMaterialization s now plan ref check).2 = .ok m →
        m.ref = ref ∧ (m.hasVersion = true →
          Settled now plan.projectID ref.datasetID
            (resolveTableForMaterialization s now plan ref check).1 ∧
          ∃ t, Current plan (resolveTableForMaterialization s now plan ref check).1 m t) := by
  obtain ⟨reads, table⟩ := catalogTableForRef_spec s now plan ref check
  simp only [resolveTableForMaterialization]
  generalize catalogTableForRef s now plan ref check = looked at reads table
  obtain ⟨s', err | catalogTable⟩ := looked
  · exact ⟨reads, nofun⟩
  simp only at reads table ⊢
  split
  · refine ⟨reads, fun m h => ?_⟩
    cases h
    exact ⟨rfl, nofun⟩
  · have rows := resolveTableRowsVisiting_reads s' now plan ref
    split
    next s'' err resolved =>
      rw [resolved] at rows
      exact ⟨reads.trans rows, nofun⟩
    next s'' resolved =>
      rw [resolved] at rows
      refine ⟨reads.trans rows, fun m h => ?_⟩
      cases h
      exact ⟨rfl, nofun⟩
    next s'' fields rows' resolved =>
      rw [resolved] at rows
      refine ⟨reads.trans rows, fun m h => ?_⟩
      cases h
      refine ⟨rfl, fun versioned => ?_⟩
      obtain ⟨t, rfl, view, external, version, image⟩ := resolveFound_versioned versioned
      obtain ⟨settled, found⟩ := table t rfl
      rw [resolveTableRowsVisiting_table settled found ⟨view, external⟩] at resolved
      cases resolved
      exact ⟨settled, t, found, version, image⟩

/-- Every table of a cacheable query is resolved as the catalog has it afterwards. -/
theorem resolveAllRefs_spec (now : Time) (plan : MaterializationPlan)
    (check : DatasetTableRef → Bool) (refs : List DatasetTableRef) (s : TableService) :
    Reads now s (resolveAllRefs now plan check s refs).1 ∧
      ∀ ms, (resolveAllRefs now plan check s refs).2 = .ok ms →
        ms.map (·.ref) = refs ∧ ∀ m ∈ ms, m.hasVersion = true →
          ∃ t, Current plan (resolveAllRefs now plan check s refs).1 m t := by
  induction refs generalizing s with
  | nil =>
    refine ⟨.refl now s, fun ms h => ?_⟩
    cases h
    exact ⟨rfl, nofun⟩
  | cons ref refs ih =>
    obtain ⟨reads, first⟩ := resolveTableForMaterialization_spec s now plan ref (check ref)
    simp only [resolveAllRefs]
    generalize resolveTableForMaterialization s now plan ref (check ref) = looked at reads first
    obtain ⟨s', err | m⟩ := looked
    · exact ⟨reads, nofun⟩
    obtain ⟨reads', others⟩ := ih s'
    simp only at reads first ⊢
    generalize resolveAllRefs now plan check s' refs = looked at reads' others
    obtain ⟨s'', err | ms⟩ := looked
    · exact ⟨reads.trans reads', nofun⟩
    refine ⟨reads.trans reads', fun ms' h => ?_⟩
    cases h
    obtain ⟨rfl, current⟩ := first m rfl
    obtain ⟨names, currents⟩ := others ms rfl
    refine ⟨by rw [map_cons, names], fun m' mem versioned => ?_⟩
    rcases mem_cons.1 mem with rfl | mem
    · -- the later reads leave the dataset of the first table alone
      obtain ⟨settled, t, found, version, image⟩ := current versioned
      exact ⟨t, (reads'.record?_eq settled).trans found, version, image⟩
    · exact currents m' mem versioned

end Resolved

/-! ## Catalog and pool -/

namespace QueryCache

structure State where
  catalog : TableService := {}
  engines : Queries.State := {}

/-- The opening of a query: `refs` are the tables it references, and `readOnly` says that
it is not mutating. -/
structure Query where
  now : Time
  plan : MaterializationPlan
  readOnly : Bool
  refs : List DatasetTableRef
  requireFilterCheck : DatasetTableRef → Bool
  faults : Faults := noFaults
  openErr : Option String := none

inductive Label where
  | catalog (now : Time) (op : CatalogOp)
  | query (q : Query)
  | engine (op : Queries.Op)

/-! ## The cached content -/

/-- A table that appears in the catalog has a version above all that are cached under
its name. -/
def CreatesAbove (engines : Queries.State) (s s' : TableService) : Prop :=
  ∀ path t, s.record? path = none → s'.record? path = some t →
    ∀ v, Queries.Cached engines.pool engines.leases (tableKey path.datasetID path.tableID) v →
      v < t.version

/-- The content cached for version `v` under key `k`: no table of that name has an older
version, and one with this version has this content. -/
def Good (s : TableService) (k : String) (v : Nat) (img : EngineTable) : Prop :=
  ∀ path t, s.record? path = some t → tableKey path.datasetID path.tableID = k →
    v ≤ t.version ∧ (v = t.version → img = freshImage t)

/-- Cached content stays good while the catalog moves on. -/
theorem Good.next {engines : Queries.State} {s s' : TableService} {k : String} {v : Nat}
    {img : EngineTable} (next : ∀ path r, s.record? path = some r → Next r (s'.record? path))
    (above : CreatesAbove engines s s') (cached : Queries.Cached engines.pool engines.leases k v)
    (good : Good s k v img) : Good s' k v img := by
  intro path t found key
  cases before : s.record? path with
  | none =>
    have newer := above path t before found v (key ▸ cached)
    exact ⟨newer.le, fun eq => absurd eq newer.ne⟩
  | some r =>
    have kept := good path r before key
    have after := next path r before
    rw [found] at after
    cases after with
    | same => exact kept
    | newer higher =>
      have newer := kept.1.trans_lt higher
      exact ⟨newer.le, fun eq => absurd eq newer.ne⟩

/-- The invariant: what the cache knows is good for the catalog as it is. -/
def Inv (s : State) : Prop := Queries.Inv (Good s.catalog) s.engines.pool s.engines.leases

theorem Inv.next {s : State} {catalog : TableService} (inv : Inv s)
    (next : ∀ path r, s.catalog.record? path = some r → Next r (catalog.record? path))
    (above : CreatesAbove s.engines s.catalog catalog) : Inv { s with catalog := catalog } :=
  Queries.Inv.mono (fun _ _ _ cached good => good.next next above cached) inv

/-- What is asked of a cacheable query. -/
structure QueryOk (p : SqlEnginePool) (q : Query) (catalog : TableService)
    (resolved : List ResolvedTableMaterialization) : Prop where
  plain : Queries.PlainRefs resolved
  /-- No other project has a table of the same name. -/
  sole : ∀ ref ∈ q.refs, ∀ path t, catalog.record? path = some t →
    tableKey path.datasetID path.tableID = ref.key → path.projectID = q.plan.projectID
  clean : p.matching? (Queries.signature q.readOnly resolved) = none →
    ∀ e, p.reuse? = some e → (p.engine e).signature = "" → (p.engine e).tables = ∅

/-! ## The steps -/

section

variable [GoFloat]

def Query.resolve (q : Query) (s : TableService) :
    TableService × Result (List ResolvedTableMaterialization) :=
  resolveAllRefs q.now q.plan q.requireFilterCheck s q.refs

def step (s : State) : Label → Option State
  | .catalog now op => some { s with catalog := (s.catalog.apply now op).1 }
  | .query q =>
    match q.resolve s.catalog with
    | (catalog, .error _) => some { s with catalog := catalog }
    | (catalog, .ok resolved) =>
      (Queries.step s.engines (.acquire q.readOnly resolved q.faults q.openErr)).map
        fun engines => ⟨catalog, engines⟩
  | .engine (.acquire _ _ _ _) => none
  | .engine op => (Queries.step s.engines op).map fun engines => { s with engines := engines }

def StepOk (s : State) : Label → Prop
  | .catalog now op =>
    CreatesAbove s.engines s.catalog (s.catalog.apply now op).1 ∧
      ∀ path, s.catalog.tears now op path = false
  | .query q =>
    CreatesAbove s.engines s.catalog (q.resolve s.catalog).1 ∧
      ∀ resolved, (q.resolve s.catalog).2 = .ok resolved →
        Queries.signature q.readOnly resolved ≠ "" →
          QueryOk s.engines.pool q (q.resolve s.catalog).1 resolved
  | .engine _ => True

/-- What a cacheable query resolved is good for the catalog it was resolved in. -/
theorem QueryOk.good {p : SqlEnginePool} {q : Query} {s : TableService}
    {resolved : List ResolvedTableMaterialization} (ok : QueryOk p q (q.resolve s).1 resolved)
    (resolves : (q.resolve s).2 = .ok resolved) (versioned : ∀ r ∈ resolved, r.hasVersion = true) :
    ∀ r ∈ resolved, Good (q.resolve s).1 r.key r.version r.image := by
  obtain ⟨-, spec⟩ := resolveAllRefs_spec q.now q.plan q.requireFilterCheck q.refs s
  obtain ⟨names, current⟩ := spec resolved resolves
  intro r mem path t found key
  obtain ⟨t', there, version, image⟩ := current r mem (versioned r mem)
  have project : path.projectID = q.plan.projectID :=
    ok.sole r.ref (names ▸ mem_map_of_mem mem) path t found key
  obtain ⟨plainD, plainT⟩ := ok.plain r mem
  obtain ⟨dataset, table⟩ := tableKey_inj plainD plainT key.symm
  have same : path = q.plan.path r.ref := TableReference.ext project dataset.symm table.symm
  have found' : (q.resolve s).1.record? (q.plan.path r.ref) = some t := same ▸ found
  cases there.symm.trans found'
  exact ⟨version.le, fun _ => image⟩

theorem Inv.step {s t : State} {label : Label} (inv : Inv s) (ok : StepOk s label)
    (h : step s label = some t) : Inv t := by
  cases label with
  | catalog now op =>
    cases h
    exact inv.next (fun path r found => apply_next now op (ok.2 path) found) ok.1
  | engine op =>
    cases op
    case acquire => cases h
    all_goals
      obtain ⟨engines, stepped, rfl⟩ := Option.map_eq_some_iff.1 h
      exact Queries.Inv.step inv (by trivial) stepped
  | query q =>
    have reads := (resolveAllRefs_spec q.now q.plan q.requireFilterCheck q.refs s.catalog).1
    have read : Inv { s with catalog := (q.resolve s.catalog).1 } := inv.next reads.next ok.1
    simp only [QueryCache.step] at h
    split at h
    next catalog err resolves =>
      cases h
      rw [resolves] at read
      exact read
    next catalog resolved resolves =>
      obtain ⟨engines, stepped, rfl⟩ := Option.map_eq_some_iff.1 h
      have result := congrArg Prod.snd resolves
      have acquire : Queries.AcquireOk (Good (q.resolve s.catalog).1) s.engines.pool
          (Queries.signature q.readOnly resolved) resolved := by
        refine ⟨⟨fun sig => (ok.2 resolved result sig).plain, fun sig => ?_⟩,
          fun sig => (ok.2 resolved result sig).clean⟩
        exact (ok.2 resolved result sig).good result (Queries.signature_spec sig).2
      rw [resolves] at read acquire
      exact Queries.Inv.step read (by exact acquire) stepped

/-- **Soundness of the cache.**  After any run that meets the condition, a query that meets
it and hits finds, for every table it references, what a fresh materialization of its
project's record would hold. -/
theorem fresh_of_hit {labels : List Label} {s : State} {q : Query} {catalog : TableService}
    {resolved : List ResolvedTableMaterialization} {e : EngineID}
    (run : Run.Exec step StepOk {} labels s) (ok : StepOk s (.query q))
    (resolves : q.resolve s.catalog = (catalog, .ok resolved))
    (cacheable : Queries.signature q.readOnly resolved ≠ "")
    (hit : s.engines.pool.matching? (Queries.signature q.readOnly resolved) = some e) :
    ∀ ref ∈ q.refs, ∃ t, catalog.record? (q.plan.path ref) = some t ∧
      (s.engines.pool.engine e).db.get? ref.key = some (freshImage t) := by
  have inv : Inv s := run.invariant (fun _ _ _ => Inv.step) Queries.Inv.initial
  obtain ⟨reads, spec⟩ := resolveAllRefs_spec q.now q.plan q.requireFilterCheck q.refs s.catalog
  have read : Inv { s with catalog := (q.resolve s.catalog).1 } := inv.next reads.next ok.1
  have result := congrArg Prod.snd resolves
  obtain ⟨names, current⟩ := spec resolved result
  obtain ⟨sig, versioned⟩ := Queries.signature_spec cacheable
  obtain ⟨pooled, tag⟩ := SqlEnginePool.matching?_spec hit
  have nonempty : (s.engines.pool.engine e).signature ≠ "" := tag ▸ cacheable
  have complete := (Queries.Inv.tagged read e pooled nonempty).complete nonempty
    (ok.2 resolved result cacheable).plain (tag.trans sig)
  intro ref mem
  rw [← names] at mem
  obtain ⟨r, hr, rfl⟩ := mem_map.1 mem
  obtain ⟨t, found, version, -⟩ := current r hr (versioned r hr)
  obtain ⟨-, img, there, good⟩ := complete r hr
  have same := (good _ t found rfl).2 version
  refine ⟨t, ?_, there.trans (same ▸ rfl)⟩
  have after : (q.resolve s.catalog).1 = catalog := congrArg Prod.fst resolves
  exact after ▸ found

end

section Hits

attribute [local instance] GoFloat.texts

def insertOrders (projectID : String) (rows : List Row) : CatalogOp :=
  .insert { projectID := projectID, datasetID := "ds", tableID := "orders",
            schema := [⟨"id", "INT64", "", []⟩], rows := rows }

/-- A query over `ds.orders` in the given project. -/
def ordersQuery (projectID : String) : Query where
  now := 5
  plan :=
    { projectID := projectID
      sess := none
      allowPartitionPruning := false
      singleRef := true
      hasPartitionFilter := fun _ => false
      prunePartitionedRows := fun _ _ _ => none
      derivedRows := fun _ => fail "no view" }
  readOnly := true
  refs := [⟨"ds", "orders"⟩]
  requireFilterCheck := fun _ => false

/-- The query of the given project from its opening to its end. -/
def wholeQuery (projectID : String) : List Label :=
  [.query (ordersQuery projectID), .engine (.materialize 0 noFaults), .engine (.tag 0),
   .engine (.release 0 noFaults)]

theorem createsAbove_blank (s s' : TableService) : CreatesAbove {} s s' := by
  intro path t _ _ v cached
  cases cached with
  | tagged mem => cases mem
  | leased mem => cases mem

/-- In a catalog with one project the query has its tables to itself. -/
theorem ordersQuery_ok {p : SqlEnginePool} {s : TableService}
    {resolved : List ResolvedTableMaterialization}
    (resolves : ((ordersQuery "p").resolve s).2 = .ok resolved)
    (sole : ((ordersQuery "p").resolve s).1.datasets.keys.all (·.1 == "p") = true)
    (clean : p.matching? (Queries.signature true resolved) = none → p.reuse? = none) :
    QueryOk p (ordersQuery "p") ((ordersQuery "p").resolve s).1 resolved := by
  obtain ⟨-, spec⟩ := resolveAllRefs_spec (ordersQuery "p").now (ordersQuery "p").plan
    (ordersQuery "p").requireFilterCheck (ordersQuery "p").refs s
  obtain ⟨names, -⟩ := spec resolved resolves
  refine ⟨fun r mem => ?_, fun ref _ path t found _ => ?_, fun miss e reuse => ?_⟩
  · have ref : r.ref ∈ (ordersQuery "p").refs := names ▸ mem_map_of_mem mem
    rw [mem_singleton.1 ref]
    decide
  · obtain ⟨tables, there⟩ := Option.isSome_iff_exists.1 (present_of_record found)
    have key : (path.projectID, path.datasetID) ∈ ((ordersQuery "p").resolve s).1.datasets.keys :=
      AList.lookup_isSome.1 (Option.isSome_iff_exists.2 ⟨tables, there⟩)
    exact beq_iff_eq.1 (all_eq_true.1 sole _ key)
  · rw [clean miss] at reuse
    cases reuse

/-- A query sent twice hits the second time and finds its table. -/
theorem fresh_of_hit_secondQuery :
    ∃ s catalog resolved e,
      Run.Exec step StepOk {} (.catalog 1 (insertOrders "p" [["1"]]) :: wholeQuery "p") s ∧
      (ordersQuery "p").resolve s.catalog = (catalog, .ok resolved) ∧
      s.engines.pool.matching? (Queries.signature true resolved) = some e ∧
      ∀ ref ∈ (ordersQuery "p").refs, ∃ t,
        catalog.record? ((ordersQuery "p").plan.path ref) = some t ∧
        (s.engines.pool.engine e).db.get? ref.key = some (freshImage t) := by
  have reached : ∃ s resolved e,
      Run.Exec step StepOk {} (.catalog 1 (insertOrders "p" [["1"]]) :: wholeQuery "p") s ∧
      (ordersQuery "p").resolve s.catalog = (s.catalog, .ok resolved) ∧
      Queries.signature true resolved ≠ "" ∧
      s.engines.pool.matching? (Queries.signature true resolved) = some e ∧
      s.catalog.datasets.keys.all (·.1 == "p") = true :=
    ⟨_, _, _, .cons ⟨createsAbove_blank _ _, fun _ => rfl⟩ rfl (.cons
      ⟨createsAbove_blank _ _, fun resolved h _ => ordersQuery_ok h rfl fun _ => rfl⟩ rfl
      (.cons trivial rfl (.cons trivial rfl (.cons trivial rfl .nil)))), rfl, by decide, rfl, rfl⟩
  obtain ⟨s, resolved, e, run, resolves, cacheable, hit, sole⟩ := reached
  have same : ((ordersQuery "p").resolve s.catalog).1 = s.catalog := congrArg Prod.fst resolves
  have ok : StepOk s (.query (ordersQuery "p")) := by
    constructor
    · rw [same]
      intro path t absent found
      rw [absent] at found
      cases found
    · intro resolved' h _
      cases h.symm.trans (congrArg Prod.snd resolves)
      refine ordersQuery_ok h (by rw [same]; exact sole) fun miss => ?_
      rw [hit] at miss
      cases miss
  exact ⟨s, s.catalog, resolved, e, run, resolves, hit,
    fresh_of_hit run ok resolves cacheable hit⟩

/-- Two projects have a table `ds.orders` at version 1: the query of the second one runs on
the rows of the first. -/
theorem fresh_of_hit_fails :
    ∃ s catalog resolved e t,
      Run.Exec step (fun _ _ => True) {}
        (.catalog 1 (insertOrders "p" [["1"]]) :: .catalog 2 (insertOrders "q" [["2"]]) ::
          wholeQuery "p") s ∧
      (ordersQuery "q").resolve s.catalog = (catalog, .ok resolved) ∧
      Queries.signature true resolved ≠ "" ∧
      s.engines.pool.matching? (Queries.signature true resolved) = some e ∧
      catalog.record? ⟨"q", "ds", "orders"⟩ = some t ∧
      (s.engines.pool.engine e).db.get? "ds.orders" ≠ some (freshImage t) := by
  refine ⟨_, _, _, _, _, .cons trivial rfl (.cons trivial rfl (.cons trivial rfl
    (.cons trivial rfl (.cons trivial rfl (.cons trivial rfl .nil))))), rfl, ?_, rfl, rfl, ?_⟩
  · decide
  · decide

end Hits

end QueryCache

end LocaQL
