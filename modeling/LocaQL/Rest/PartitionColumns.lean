import LocaQL.Rest.ColumnNames

/-!
# Partitioning and clustering columns

Partitioning and clustering refer to columns by name.  When a table is created these names
are looked up in its schema, and the columns must have a type that fits.  Later requests change
the schema and the partitioning separately; the row check then reads the cell at the index of
the partitioning column, and panics if there is none.

The columns are found in every state of a run as long as no statement drops or renames one of
them, and a write that replaces the schema brings columns that fit (`resolves_of_columnsStay`).
-/

namespace LocaQL.Rest

open TableService
open List hiding merge

open GoText (equalFold isUpper toUpperStr toUpper_eq_of_fold trimSpaceStr)

open Sql
open TableService (All Seeds Purges stamp trimPath)

/-! ## The property -/

/-- The columns that partitioning and clustering name are there, with types that fit. -/
structure ResolveIn (schema : List TableField) (t : TableRecord) : Prop where
  time : ∀ config ∈ t.timePartitioning,
    config.field = "" ∨ Denotes schema config.field (TimeColumn config.type)
  range : ∀ config ∈ t.rangePartitioning, Denotes schema config.field RangeColumn
  clustering : ∀ name ∈ t.clustering, Denotes schema name ClusterColumn

def Resolves (t : TableRecord) : Prop := ResolveIn t.schema t

instance (schema : List TableField) (t : TableRecord) : Decidable (ResolveIn schema t) :=
  decidable_of_iff
    ((∀ config ∈ t.timePartitioning,
        config.field = "" ∨ Denotes schema config.field (TimeColumn config.type)) ∧
      (∀ config ∈ t.rangePartitioning, Denotes schema config.field RangeColumn) ∧
      ∀ name ∈ t.clustering, Denotes schema name ClusterColumn)
    ⟨fun h => ⟨h.1, h.2.1, h.2.2⟩, fun h => ⟨h.time, h.range, h.clustering⟩⟩

/-- A table without partitioning and clustering. -/
structure Plain (t : TableRecord) : Prop where
  time : t.timePartitioning = none
  range : t.rangePartitioning = none
  clustering : t.clustering = []

variable {t : TableRecord} {f g : TableField} {name : String} {schema schema' : List TableField}
  {err : Failure} {rows : List Row} {now : Time} {patch : TablePatch} {fits : TableField → Prop}
  {raw : Body} {path : TableReference}

theorem Plain.resolveIn (h : Plain t) (schema : List TableField) : ResolveIn schema t where
  time config has := by simp [h.time] at has
  range config has := by simp [h.range] at has
  clustering name mem := by simp [h.clustering] at mem

/-- The names of the columns. -/
def partitionColumns (t : TableRecord) : List String :=
  ((t.timePartitioning.toList.map (·.field)).filter (· ≠ "")) ++
    t.rangePartitioning.toList.map (·.field) ++ t.clustering

/-- Whether a name is that of one of the columns. -/
def partitionsBy (t : TableRecord) (name : String) : Bool :=
  (partitionColumns t).any fun column => equalFold name (trimSpaceStr column)

/-! ## Requests -/

/-- The requests that change tables.  A `write` is what load and copy jobs, `insertAll` and
the Storage Write API ask of the table service. -/
inductive TableRequest where
  | read (path : TableReference)
  | insert (projectID datasetID : String) (body : Option Body)
  | patch (path : TableReference) (body : Option Body)
  | update (path : TableReference) (body : Option Body)
  | write (dest : TableReference) (schema : List TableField) (rows : List Row)
      (createDisposition writeDisposition : String)
  | alter (projectID : String) (queryText : List Char)

/-- The schema that a write which does not append gives to its destination. -/
def replacingSchema (schema : List TableField) (rows : List Row) : List TableField :=
  if schema = [] ∧ rows ≠ [] then inferSchemaFromRows rows else schema

section

variable [GoFloat]

def handle (b : Backend) (around : Surroundings) (s : Server) (label : Time × TableRequest) :
    Server × Answer Unit :=
  let now := label.1
  match label.2 with
  | .read path => ({ s with tables := (s.tables.get now path).1 }, .ok ())
  | .insert projectID datasetID body => insertTable b around now s projectID datasetID body
  | .patch path body =>
    let r := patchTable now s.tables path body
    ({ s with tables := r.1 }, r.2)
  | .update path body =>
    let r := updateTable now s.tables path body
    ({ s with tables := r.1 }, r.2)
  | .write dest schema rows create write =>
    let r := s.tables.upsertCopyDestination now dest schema rows create write
    ({ s with tables := r.1 }, answer (r.2.map fun _ => ()))
  | .alter projectID queryText =>
    let r := executePersistentAlterTableStatement now s projectID queryText
    (r.1, .ok ())

/-- The table that a statement finds meets a condition. -/
def targetFits {α : Type} (s : Server) (now : Time) (projectID : String)
    (parsed : Option (Result (AlterTable α))) (fits : α → TableRecord → Bool) : Bool :=
  match parsed with
  | some (.ok stmt) =>
    (s.tables.get now (localPath projectID stmt.target)).2.all (fits stmt.action)
  | _ => true

/-- No partitioning or clustering column is dropped or renamed, or lost by a write that
replaces the schema.  The path of a patch or an update has no white space around it. -/
def columnsStay (s : Server) (label : Time × TableRequest) : Bool :=
  match label.2 with
  | .read _ | .insert _ _ _ => true
  | .patch path _ | .update path _ =>
    (trimPath path.projectID path.datasetID path.tableID).all (· = path)
  | .write dest schema rows _ write =>
    normalizeWriteDisposition write = .writeAppend ||
      (trimPath dest.projectID dest.datasetID dest.tableID).all fun path =>
        (s.tables.record? path).all fun t => ResolveIn (replacingSchema schema rows) t
  | .alter projectID queryText =>
    targetFits s label.1 projectID (parsePersistentAlterTableDropColumns projectID queryText)
        (fun clauses t => clauses.all fun c => !partitionsBy t c.name) &&
      targetFits s label.1 projectID
        (parsePersistentAlterTableRenameColumns projectID queryText)
        (fun clauses t => clauses.all fun c => !partitionsBy t c.oldName)

end

/-! ## Columns under a change of the schema -/

/-- Each name denotes a column that is as good. -/
structure Keeps (schema schema' : List TableField) (name : String) : Prop where
  follows : ∀ f,
    schema.find? (fun f => equalFold f.name (trimSpaceStr name)) = some f →
    ∃ g, schema'.find? (fun f => equalFold f.name (trimSpaceStr name)) = some g ∧
      Follows f g

theorem follows_refl (f : TableField) : Follows f f where
  name := by simp [equalFold]
  type := by simp [equalFold]
  mode := by simp [relaxes]

theorem single_of_follows (h : Follows f g) (single : normalizeMode f.mode ≠ "REPEATED") :
    normalizeMode g.mode ≠ "REPEATED" := by
  rw [Ne, normalizeMode_eq_repeated] at single ⊢
  rwa [repeated_of_relaxes h.mode]

/-- Types that are the same but for case are the same word in capitals. -/
theorem upper_of_fold {k : String} (hk : k.toList.all fun c => isUpper c && c != 'K')
    {type type' : String} (fold : equalFold type type') (h : toUpperStr (trimSpaceStr type) = k) :
    toUpperStr (trimSpaceStr type') = k := by
  rw [toUpperStr, ← String.toList_inj, String.toList_ofList] at h ⊢
  simp only [all_eq_true, Bool.and_eq_true, bne_iff_ne] at hk
  exact toUpper_eq_of_fold hk (map_foldRune_trimSpaceStr fold) h

theorem timeColumn_of_follows {type : PartitionType} (h : Follows f g) (fits : TimeColumn type f) :
    TimeColumn type g where
  temporal := by
    rcases fits.temporal with date | timestamp
    · exact .inl (upper_of_fold (by decide) h.type date)
    · exact .inr (upper_of_fold (by decide) h.type timestamp)
  single := single_of_follows h fits.single
  hourly := by
    intro both
    have back : equalFold g.type f.type := equalFold_comm _ _ ▸ h.type
    exact fits.hourly ⟨upper_of_fold (by decide) back both.1, both.2⟩

theorem rangeColumn_of_follows (h : Follows f g) (fits : RangeColumn f) : RangeColumn g where
  integer := by
    have back : equalFold g.type f.type := equalFold_comm _ _ ▸ h.type
    exact equalFold_trans back fits.integer
  single := single_of_follows h fits.single

theorem clusterColumn_of_follows (h : Follows f g) (fits : ClusterColumn f) : ClusterColumn g where
  single := single_of_follows h fits.single
  scalar := by rw [← isRecordType_congr h.type, fits.scalar]

theorem Keeps.denotes (h : Keeps schema schema' name) (mono : ∀ f g, Follows f g → fits f → fits g)
    (found : Denotes schema name fits) : Denotes schema' name fits := by
  obtain ⟨f, there, holds⟩ := denotes_iff.mp found
  obtain ⟨g, there', follows⟩ := h.follows f there
  exact denotes_iff.mpr ⟨g, there', mono f g follows holds⟩

theorem mem_partitionColumns :
    name ∈ partitionColumns t ↔
      (∃ config ∈ t.timePartitioning, config.field ≠ "" ∧ config.field = name) ∨
        (∃ config ∈ t.rangePartitioning, config.field = name) ∨ name ∈ t.clustering := by
  simp only [partitionColumns, mem_append, mem_filter, mem_map,
    Option.mem_toList, decide_eq_true_eq, or_assoc]
  constructor
  · rintro (⟨⟨config, has, rfl⟩, ne⟩ | rest)
    · exact .inl ⟨config, has, ne, rfl⟩
    · exact .inr rest
  · rintro (⟨config, has, ne, rfl⟩ | rest)
    · exact .inl ⟨⟨config, has, rfl⟩, ne⟩
    · exact .inr rest

/-- A change of the schema that keeps the columns keeps the property. -/
theorem ResolveIn.of_keeps (h : ResolveIn schema t)
    (keeps : ∀ name ∈ partitionColumns t, Keeps schema schema' name) : ResolveIn schema' t where
  time config has := by
    by_cases empty : config.field = ""
    · exact .inl empty
    refine .inr ?_
    have there := (h.time config has).resolve_left empty
    refine (keeps config.field ?_).denotes (fun _ _ => timeColumn_of_follows) there
    exact mem_partitionColumns.mpr (.inl ⟨config, has, empty, rfl⟩)
  range config has := by
    refine (keeps config.field ?_).denotes (fun _ _ => rangeColumn_of_follows) (h.range config has)
    exact mem_partitionColumns.mpr (.inr (.inl ⟨config, has, rfl⟩))
  clustering name mem := by
    refine (keeps name ?_).denotes (fun _ _ => clusterColumn_of_follows) (h.clustering name mem)
    exact mem_partitionColumns.mpr (.inr (.inr mem))

/-- A column of a schema in a patch is at the place of the one before. -/
theorem keeps_of_evolution (h : validateSchemaEvolution schema schema' = .ok ()) (name : String) :
    Keeps schema schema' name where
  follows f found := by
    obtain ⟨length, columns, -⟩ := validateSchemaEvolution_ok.mp h
    have taken : ∃ g, (schema'.take schema.length).find?
        (fun f => equalFold f.name (trimSpaceStr name)) = some g ∧ Follows f g := by
      generalize schema'.take schema.length = news at columns
      clear length h
      induction columns with
      | nil => cases found
      | @cons f' g' olds news follows _ ih =>
        rw [find?_cons] at found ⊢
        by_cases named : equalFold f'.name (trimSpaceStr name)
        · have named' : equalFold g'.name (trimSpaceStr name) := by
            have back : equalFold g'.name f'.name := equalFold_comm _ _ ▸ follows.name
            exact equalFold_trans back named
          rw [named] at found
          rw [named']
          cases found
          exact ⟨g', rfl, follows⟩
        · have other : equalFold g'.name (trimSpaceStr name) = false := by
            rw [Bool.eq_false_iff]
            exact fun named' => named (equalFold_trans follows.name named')
          rw [Bool.eq_false_of_not_eq_true named] at found
          rw [other]
          exact ih found
    obtain ⟨g, there, follows⟩ := taken
    refine ⟨g, ?_, follows⟩
    rw [← take_append_drop schema.length schema', find?_append, there]
    rfl

theorem keeps_append (schema fields : List TableField) (name : String) :
    Keeps schema (schema ++ fields) name where
  follows f found := ⟨f, by rw [find?_append, found]; rfl, follows_refl f⟩

theorem find?_of_agree {α : Type} {p q : α → Bool} {l : List α} (h : ∀ a ∈ l, p a = q a) :
    l.find? p = l.find? q := by
  induction l with
  | nil => rfl
  | cons a l ih =>
    obtain ⟨head, rest⟩ := forall_mem_cons.mp h
    rw [find?_cons, find?_cons, head, ih rest]

/-- A column stays if no dropped name is its own. -/
theorem keeps_of_drop {names : List String} (other : ∀ n ∈ names, ¬equalFold n (trimSpaceStr name)) :
    Keeps schema (filterColumns schema (dropColumnIndexSet schema names)) name where
  follows f found := by
    refine ⟨f, ?_, follows_refl f⟩
    have dropped : ∀ c ∈ schema.zipIdx, c.2 ∈ dropColumnIndexSet schema names →
        equalFold c.1.name (trimSpaceStr name) = false := by
      intro c mem drops
      obtain ⟨n, memn, index⟩ := mem_filterMap.mp drops
      obtain ⟨lt, named, -⟩ := findIdx?_eq_some_iff_getElem.mp index
      have is : schema[c.2]? = some c.1 := mk_mem_zipIdx_iff_getElem?.mp mem
      rw [getElem?_eq_getElem lt] at is
      rw [Option.some.inj is] at named
      rw [Bool.eq_false_iff]
      intro named'
      rw [equalFold_comm] at named
      exact other n memn (equalFold_trans named named')
    rw [filterColumns, find?_map, find?_filter]
    have same : (schema.zipIdx.find? fun c =>
        decide (decide (c.2 ∉ dropColumnIndexSet schema names) = true ∧
          ((fun f : TableField => equalFold f.name (trimSpaceStr name)) ∘
            Prod.fst) c = true)) =
        schema.zipIdx.find? ((fun f : TableField =>
          equalFold f.name (trimSpaceStr name)) ∘ Prod.fst) := by
      refine find?_of_agree fun c mem => ?_
      by_cases drops : c.2 ∈ dropColumnIndexSet schema names
      · simp [drops, dropped c mem drops]
      · simp [drops]
    rw [same, ← find?_map, zipIdx_map_fst, found]

/-- A column stays under its name if a rename that resolved does not name it. -/
theorem keeps_of_rename {clauses : List RenameColumnClause} {renames : GoMap String String}
    (resolved : Resolved schema clauses renames)
    (other : ∀ c ∈ clauses, ¬equalFold c.oldName (trimSpaceStr name)) :
    Keeps schema (schema.map (renameField (renames.entries.map fun e => (e.1, e.2)))) name where
  follows f found := by
    have named : equalFold f.name (trimSpaceStr name) := by
      have := find?_some (p := fun f : TableField =>
        equalFold f.name (trimSpaceStr name)) found
      exact this
    -- a column that is renamed is not called so, neither before nor after
    have agree : ∀ g ∈ schema, equalFold
        (renameField (renames.entries.map fun e => (e.1, e.2)) g).name
          (trimSpaceStr name) = equalFold g.name (trimSpaceStr name) ∧
        (equalFold g.name (trimSpaceStr name) →
          renameField (renames.entries.map fun e => (e.1, e.2)) g = g) := by
      intro g mem
      rcases renameField_cases renames g with kept | ⟨old, new, entry, was, renamed⟩
      · rw [kept]
        exact ⟨rfl, fun _ => rfl⟩
      · obtain ⟨c, memc, rfl, rfl⟩ := resolved.clause old new entry
        have before : equalFold g.name (trimSpaceStr name) = false := by
          rw [Bool.eq_false_iff]
          intro is
          rw [equalFold_comm] at was
          exact other c memc (equalFold_trans was is)
        have after : equalFold c.newName (trimSpaceStr name) = false := by
          rw [Bool.eq_false_iff]
          intro is
          have fresh := hasColumn_eq_false.mp (resolved.fresh _ _ entry) f
            (mem_of_find?_eq_some found)
          rw [equalFold_comm] at is
          exact fresh (equalFold_trans named is)
        rw [renamed, before]
        exact ⟨after, fun is => absurd is Bool.false_ne_true⟩
    refine ⟨f, ?_, follows_refl f⟩
    rw [find?_map, Function.comp_def, find?_of_agree fun g mem => (agree g mem).1, found, Option.map_some,
      (agree f (mem_of_find?_eq_some found)).2 named]

/-! ## The row check -/

theorem partitionCell_ok (there : Denotes schema name fits) (row : Row) :
    ∃ cell, partitionCell schema name row = .ok cell := by
  obtain ⟨f, i, found, -⟩ := there
  exact ⟨(f, cellAt row i), by rw [partitionCell, found]⟩

theorem validateRangePartitionRows_error {config : RangePartitioningConfig} {i : Nat}
    (there : Denotes schema config.field fits)
    (h : validateRangePartitionRows schema config i rows = .error err) :
    ∃ text, err = .error text := by
  induction rows generalizing i with
  | nil => cases h
  | cons row rows ih =>
    obtain ⟨⟨f, cell⟩, is⟩ := partitionCell_ok there row
    simp only [validateRangePartitionRows, is] at h
    split at h
    · exact ih h
    split at h
    · cases h
      exact ⟨_, rfl⟩
    · exact ih h

section

variable [GoFloat]

theorem validateTimePartitionRows_error {config : TimePartitioningConfig} {i : Nat}
    (there : Denotes schema config.field fits)
    (h : validateTimePartitionRows schema config i rows = .error err) :
    ∃ text, err = .error text := by
  induction rows generalizing i with
  | nil => cases h
  | cons row rows ih =>
    obtain ⟨⟨f, cell⟩, is⟩ := partitionCell_ok there row
    simp only [validateTimePartitionRows, is] at h
    split at h
    · cases h
      exact ⟨_, rfl⟩
    · exact ih h

/-- The row check fails in one of its two parts. -/
theorem validateRowsForPartitioning_cases {time : Option TimePartitioningConfig}
    {range : Option RangePartitioningConfig}
    (h : validateRowsForPartitioning schema rows time range = .error err) :
    (∃ config ∈ time, config.field ≠ "" ∧
      validateTimePartitionRows schema config 0 rows = .error err) ∨
    ∃ config ∈ range, validateRangePartitionRows schema config 0 rows = .error err := by
  rw [validateRowsForPartitioning.eq_def] at h
  cases range with
  | none =>
    cases time with
    | none => cases h
    | some config =>
      dsimp only at h
      split at h
      next named =>
        refine .inl ⟨config, rfl, named, ?_⟩
        cases checked : validateTimePartitionRows schema config 0 rows with
        | error e =>
          rw [checked] at h
          cases h
          rfl
        | ok _ =>
          rw [checked] at h
          cases h
      · cases h
  | some range =>
    cases time with
    | none => exact .inr ⟨range, rfl, h⟩
    | some config =>
      dsimp only at h
      split at h
      next named =>
        cases checked : validateTimePartitionRows schema config 0 rows with
        | error e =>
          rw [checked] at h
          cases h
          exact .inl ⟨config, rfl, named, checked⟩
        | ok _ =>
          rw [checked] at h
          exact .inr ⟨range, rfl, h⟩
      · exact .inr ⟨range, rfl, h⟩

/-- Where the columns resolve, the row check ends with an error at worst. -/
theorem validateRowsForPartitioning_error (h : ResolveIn schema t)
    (failed : validateRowsForPartitioning schema rows t.timePartitioning t.rangePartitioning =
      .error err) : ∃ text, err = .error text := by
  rcases validateRowsForPartitioning_cases failed with
    ⟨config, has, named, failed⟩ | ⟨config, has, failed⟩
  · exact validateTimePartitionRows_error ((h.time config has).resolve_left named) failed
  · exact validateRangePartitionRows_error (h.range config has) failed

end

/-! ## Changes of a table -/

theorem resolves_stamp (h : Resolves t) : Resolves (stamp now t) := ⟨h.time, h.range, h.clustering⟩

/-- What every value of a member satisfies. -/
theorem of_optional {α : Type} {parse : Json → Except String α} {Q : α → Prop}
    (sound : ∀ v a, parse v = .ok a → Q a) {o : Option α} (h : optional raw name parse = .ok o) :
    ∀ a ∈ o, Q a := by
  intro a is
  rw [Option.mem_def.mp is] at h
  obtain ⟨v, -, parsed⟩ := optional_some h
  exact sound v a parsed

theorem timeColumn_of_parsed (v : Json) (config : TimePartitioningConfig)
    (h : parseTimePartitioning v schema = .ok config) :
    config.field = "" ∨ Denotes schema config.field (TimeColumn config.type) := by
  rcases parseTimePartitioning_ok h with ⟨empty, -⟩ | ⟨-, there⟩
  · exact .inl empty
  · exact .inr there

/-- A new table names columns that it has. -/
theorem resolves_insert {input : TableInsert} (read : InsertRead raw input) (path : TableReference)
    (now : Time) : Resolves (newRecord input path now) := by
  have schema : (newRecord input path now).schema = input.schema := by
    simp [newRecord, read.rows]
  obtain ⟨names, clustering, is⟩ := read.clustering
  rw [Resolves, schema]
  refine ⟨of_optional timeColumn_of_parsed read.time,
    of_optional (fun _ _ => parseRangePartitioning_ok) read.range, ?_⟩
  intro name mem
  have mem : name ∈ names.getD [] := is ▸ mem
  cases names with
  | none => cases mem
  | some names => exact of_optional (fun _ _ => parseClustering_ok) clustering names rfl name mem

/-- A table with some of its partitioning and clustering replaced, where the rest resolves. -/
theorem ResolveIn.replace {current : TableRecord} {time : Option TimePartitioningConfig}
    {range : Option RangePartitioningConfig} {names : Option (List String)} {rest : List String}
    (h : ResolveIn schema current)
    (ht : optional raw "timePartitioning" (parseSameTimePartitioning current schema) = .ok time)
    (hr : optional raw "rangePartitioning" (parseSameRangePartitioning current schema) = .ok range)
    (hc : optional raw "clustering" (parseClustering · schema) = .ok names)
    (isTime : t.timePartitioning = time.or current.timePartitioning)
    (isRange : t.rangePartitioning = range.or current.rangePartitioning)
    (isClustering : t.clustering = names.getD rest) (old : rest ⊆ current.clustering) :
    ResolveIn schema t where
  time config has := by
    rw [isTime, Option.mem_def, Option.or_eq_some_iff] at has
    rcases has with new | ⟨-, old⟩
    · have sound v a (parsed : parseSameTimePartitioning current schema v = .ok a) :=
        timeColumn_of_parsed v a (parseSameTimePartitioning_ok parsed).1
      exact of_optional sound ht config new
    · exact h.time config old
  range config has := by
    rw [isRange, Option.mem_def, Option.or_eq_some_iff] at has
    rcases has with new | ⟨-, old⟩
    · have sound v a (parsed : parseSameRangePartitioning current schema v = .ok a) :=
        parseRangePartitioning_ok (parseSameRangePartitioning_ok parsed)
      exact of_optional sound hr config new
    · exact h.range config old
  clustering name mem := by
    rw [isClustering] at mem
    cases names with
    | none => exact h.clustering name (old mem)
    | some names => exact of_optional (fun _ _ => parseClustering_ok) hc names rfl name mem

section

variable {path : TableReference} {current : TableRecord} {raw : Body}

section

variable (read : PatchRead path current raw patch) (h : Resolves current)

include read h

/-- The table keeps its columns under the schema of a patch. -/
theorem resolveIn_patch : ResolveIn (patch.schema.getD current.schema) current := by
  have read := read.schema
  cases schema : patch.schema with
  | none => exact h
  | some fields =>
    rw [schema] at read
    obtain ⟨v, -, parsed⟩ := optional_some read
    have keeps := keeps_of_evolution (parseNewSchema_ok parsed).2
    exact h.of_keeps fun name _ => keeps name

theorem resolves_patch : Resolves (patched patch current) := by
  obtain ⟨time, ht, isTime⟩ := read.time
  obtain ⟨range, hr, isRange⟩ := read.range
  refine (resolveIn_patch read h).replace ht hr read.clustering ?_ ?_ rfl (List.Subset.refl _)
  · show patch.timePartitioning.getD current.timePartitioning = _
    rw [isTime]
    cases time <;> rfl
  · show patch.rangePartitioning.getD current.rangePartitioning = _
    rw [isRange]
    cases range <;> rfl

end

theorem resolves_update {update : TableUpdate} (read : UpdateRead path current raw update)
    (h : Resolves current) : Resolves (updated update current) := by
  obtain ⟨time, ht, isTime⟩ := read.time
  obtain ⟨range, hr, isRange⟩ := read.range
  obtain ⟨names, hc, isClustering⟩ := read.clustering
  have kept : ResolveIn current.schema current := h
  exact kept.replace ht hr hc isTime isRange isClustering (nil_subset _)

end

/-- A table without columns names none. -/
theorem ResolveIn.of_nil (h : ResolveIn [] t) (schema : List TableField) : ResolveIn schema t := by
  have none {name : String} {fits : TableField → Prop} : ¬Denotes [] name fits := by
    intro there
    obtain ⟨f, found, -⟩ := denotes_iff.mp there
    cases found
  exact ⟨fun config has => .inl ((h.time config has).resolve_right none),
    fun config has => absurd (h.range config has) none,
    fun name mem => absurd (h.clustering name mem) none⟩

/-- What a write makes of the columns of its destination. -/
theorem resolves_merge {write : WriteDisposition} (now : Time) (h : Resolves t)
    (fits : write = .writeAppend ∨ ResolveIn (replacingSchema schema rows) t) :
    Resolves (merge t schema rows write now) := by
  suffices kept : ResolveIn (merge t schema rows write now).schema t from
    ⟨kept.time, kept.range, kept.clustering⟩
  simp only [merge]
  by_cases append : write = .writeAppend
  · by_cases empty : t.schema = []
    · rw [Resolves, empty] at h
      exact h.of_nil _
    · simp only [append, ne_eq, empty, not_false_eq_true, and_self, if_true, false_and, if_false]
      exact h
  · simp only [append, false_and, if_false]
    exact fits.resolve_left append

theorem resolves_addColumns (h : Resolves t) (fields : List TableField) :
    Resolves (addColumns t fields) := by
  have kept := h.of_keeps fun name _ => keeps_append t.schema fields name
  exact ⟨kept.time, kept.range, kept.clustering⟩

theorem not_partitionsBy {column : String} (h : partitionsBy t name = false)
    (mem : column ∈ partitionColumns t) : ¬equalFold name (trimSpaceStr column) := by
  rw [partitionsBy, any_eq_false] at h
  exact h column mem

theorem resolves_dropColumns {names : List String} (h : Resolves t)
    (others : ∀ name ∈ names, partitionsBy t name = false) : Resolves (dropColumns t names) := by
  have keeps (column : String) (mem : column ∈ partitionColumns t) :
      Keeps t.schema (dropColumns t names).schema column :=
    keeps_of_drop fun name memn => not_partitionsBy (others name memn) mem
  have kept := h.of_keeps keeps
  exact ⟨kept.time, kept.range, kept.clustering⟩

theorem resolves_renameColumns {clauses : List RenameColumnClause} {renames : GoMap String String}
    (h : Resolves t) (resolved : Resolved t.schema clauses renames)
    (others : ∀ c ∈ clauses, partitionsBy t c.oldName = false) :
    Resolves (renameColumns t (renames.entries.map fun e => (e.1, e.2))) := by
  have kept := h.of_keeps fun column mem => keeps_of_rename resolved
    fun c memc => not_partitionsBy (others c memc) mem
  exact ⟨kept.time, kept.range, kept.clustering⟩

/-! ## Steps -/

/-- Every table resolves, at whatever path. -/
abbrev AllResolve (s : TableService) : Prop := All (fun _ t => Resolves t) s

theorem seeds_resolves : Seeds fun _ t => Resolves t := by
  intro path now
  exact Plain.resolveIn ⟨rfl, rfl, rfl⟩ _

theorem written_of_trimmed {P : TableReference → TableRecord → Prop}
    (h : (trimPath path.projectID path.datasetID path.tableID).all (· = path)) :
    Written P path := by
  intro at_ trim
  rw [trim, Option.all_some, decide_eq_true_eq] at h
  exact .inl h

theorem responds_answer {outcome : Result Unit}
    (h : ∀ err, outcome = .error err → ∃ text, err = .error text) : Responds (answer outcome) := by
  cases outcome with
  | ok _ => exact responds_ok ()
  | error err =>
    obtain ⟨text, rfl⟩ := h err rfl
    exact responds_response 400 text "invalid"

theorem checkDispositions_error {existing : Option TableRecord} {create : CreateDisposition}
    {write : WriteDisposition} (h : checkDispositions existing schema create write = .error err) :
    ∃ text, err = .error text := by
  rw [checkDispositions.eq_def] at h
  split at h
  · split at h
    · cases h
      exact ⟨_, rfl⟩
    · cases h
  · split at h
    · cases h
      exact ⟨_, rfl⟩
    · split at h
      · cases h
        exact ⟨_, rfl⟩
      · cases h

theorem check_error {outcome : Except String Unit} (h : check outcome = .error err) :
    ∃ text, err = .error text := by
  cases outcome with
  | error text =>
    cases h
    exact ⟨text, rfl⟩
  | ok _ => cases h

section

variable [GoFloat]

theorem purges_resolves : Purges fun _ t => Resolves t := by
  intro path now t h
  rcases purgeExpiredPartitions_cases t now with same | ⟨config, column, -, -, dropped⟩
  · rw [same]
    exact h
  · rw [dropped]
    exact ⟨h.time, h.range, h.clustering⟩

variable {b : Backend} {around : Surroundings} {s s' : Server} {label : Time × TableRequest}

theorem fits_of_target {α : Type} {projectID : String} {parsed : Option (Result (AlterTable α))}
    {fits : α → TableRecord → Bool} (h : targetFits s now projectID parsed fits)
    {stmt : AlterTable α} (is : parsed = some (.ok stmt))
    (found : (s.tables.get now (localPath projectID stmt.target)).2 = some t) :
    fits stmt.action t := by
  subst is
  rw [targetFits, found, Option.all_some] at h
  exact h

/-- The destination of a write that meets the condition. -/
theorem resolves_destination {dest : TableReference} {create write : String}
    (fits : columnsStay s (now, .write dest schema rows create write))
    (trim : trimPath dest.projectID dest.datasetID dest.tableID = some path)
    {existing : Option TableRecord} (found : (s.tables.touched now path).record? path = existing)
    (holds : ∀ t, existing = some t → Resolves t) :
    Resolves (merge (destination existing path now) schema rows
      (normalizeWriteDisposition write) now) := by
  cases existing with
  | none =>
    have plain : Plain (destination none path now) := ⟨rfl, rfl, rfl⟩
    exact resolves_merge now (plain.resolveIn _) (.inr (plain.resolveIn _))
  | some t =>
    refine resolves_merge now (holds t rfl) ?_
    simp only [columnsStay, Bool.or_eq_true, decide_eq_true_eq, trim, Option.all_some] at fits
    rcases fits with append | fits
    · exact .inl append
    rcases record?_of_ensure found with there | rfl
    · rw [there, Option.all_some, decide_eq_true_eq] at fits
      exact .inr fits
    · exact .inr (Plain.resolveIn ⟨rfl, rfl, rfl⟩ _)

theorem resolves_step (queries : QueriesRead b) (h : AllResolve s.tables)
    (fits : columnsStay s label) : AllResolve (handle b around s label).1.tables := by
  obtain ⟨now, request⟩ := label
  cases request with
  | read path => exact h.get seeds_resolves purges_resolves now path
  | insert projectID datasetID body =>
    refine all_insertTable queries h seeds_resolves purges_resolves ?_
    intro raw input path _ read
    exact resolves_insert read path now
  | patch path body =>
    refine all_patchTable h seeds_resolves purges_resolves (written_of_trimmed fits) ?_
    intro raw current patch _ _ _ read _ holds
    exact resolves_stamp (resolves_patch read holds)
  | update path body =>
    refine all_updateTable h seeds_resolves purges_resolves (written_of_trimmed fits) ?_
    intro raw current update _ _ _ read holds
    exact resolves_stamp (resolves_update read holds)
  | write dest schema rows create write =>
    refine h.upsertCopyDestination seeds_resolves ?_
    intro path trim existing found holds
    exact resolves_stamp (resolves_destination fits trim found holds)
  | alter projectID queryText =>
    obtain ⟨drops, renames⟩ := Bool.and_eq_true_iff.mp fits
    refine all_executePersistentAlterTableStatement h seeds_resolves purges_resolves ?_ ?_ ?_ ?_
    · intro stmt t fields parsed found resolved holds
      exact resolves_stamp (resolves_addColumns holds fields)
    · intro stmt t names parsed found resolved holds
      have others := fits_of_target drops parsed found
      simp only [all_eq_true, Bool.not_eq_true'] at others
      have drops : Resolves (dropColumns t names) := resolves_dropColumns holds fun name mem => by
        obtain ⟨c, memc, rfl⟩ := mem_map.mp (resolveAlterTableDropNames_ok resolved mem)
        exact others c memc
      exact ⟨⟨drops.time, drops.range, drops.clustering⟩, resolves_stamp drops⟩
    · intro stmt t m parsed found resolved holds
      have others := fits_of_target renames parsed found
      simp only [all_eq_true, Bool.not_eq_true'] at others
      exact resolves_stamp (resolves_renameColumns holds
        (resolveAlterTableRenames_ok (.nil t.schema) resolved) others)
    · intro stmt t parsed holds
      exact resolves_stamp (t := { t with tableID := stmt.action })
        ⟨holds.time, holds.range, holds.clustering⟩

/-! ## No row is read outside of its columns -/

theorem responds_checkPatch {current : TableRecord} (h : Resolves (patched patch current)) :
    Responds (checkPatch current patch) := by
  rw [checkPatch]
  split
  · exact responds_response _ _ _
  refine responds_bind (responds_checked _) fun _ _ => ?_
  refine responds_bind (responds_answer fun err failed => ?_) fun _ _ => ?_
  · exact validateRowsForPartitioning_error (t := patched patch current) h failed
  · split
    · exact responds_ok ()
    · exact responds_response _ _ _

theorem responds_patchTable {body : Option Body} (h : AllResolve s.tables) :
    Responds (patchTable now s.tables path body).2 := by
  rw [patchTable.eq_def]
  split
  · exact responds_response _ _ _
  next raw =>
    dsimp only
    split
    · exact responds_response _ _ _
    next current found =>
      have holds := (h.get seeds_resolves purges_resolves now path) path current found
      split
      next refusal failed =>
        exact responds_refusal (responds_readPatch path current) failed
      next patch read =>
        split
        next refusal failed =>
          have resolves := resolves_patch (readPatch_ok read) holds
          exact responds_refusal (responds_checkPatch resolves) failed
        · dsimp only
          split
          · exact responds_ok ()
          · exact responds_response _ _ _

theorem responds_write {dest : TableReference} {create write : String} (h : AllResolve s.tables)
    (fits : columnsStay s (now, .write dest schema rows create write)) :
    Responds (answer ((s.tables.upsertCopyDestination now dest schema rows create write).2.map
      fun _ => ())) := by
  refine responds_answer fun err failed => ?_
  rw [upsertCopyDestination.eq_def] at failed
  split at failed
  · cases failed
    exact ⟨_, rfl⟩
  next path trim =>
    have there := h.ensure seeds_resolves now path.projectID path.datasetID
    dsimp only at failed
    split at failed
    next e refused =>
      cases failed
      exact checkDispositions_error refused
    split at failed
    next e refused =>
      cases failed
      exact check_error refused
    split at failed
    next e refused =>
      cases failed
      rw [get?_tables] at refused
      refine validateRowsForPartitioning_error (resolves_destination fits trim rfl ?_) refused
      intro t found
      exact there path t found
    · cases failed

/-- The requests that check rows against the partitioning. -/
def checksRows : TableRequest → Bool
  | .patch _ _ | .write _ _ _ _ _ => true
  | _ => false

end

/-! ## A dropped column -/

section

attribute [local instance] GoFloat.texts

/-- No engine and no files. -/
def noEngine : Backend where
  query s _ _ _ _ := (s, fail "no engine")
  exec s _ _ _ _ _ := (s, fail "no engine")
  informationSchema s _ _ _ _ _ := (s, [], [])

def noFiles : Surroundings where
  detect _ := .error "no file"
  expirationMs _ _ := 0

theorem noEngine_reads : QueriesRead noEngine := fun _ _ _ _ _ => .refl

/-- A table partitioned by a column and clustered by another one. -/
def insertVisits : Time × TableRequest :=
  (1, .insert "p" "ds" (some
    [("tableReference", .obj [("tableId", .str "visits")]),
     ("schema", .obj [("fields", .arr
       [.obj [("name", .str "day"), ("type", .str "DATE")], .obj [("name", .str "page")]])]),
     ("timePartitioning", .obj [("field", .str "day")]),
     ("clustering", .obj [("fields", .arr [.str "page"])])]))

def visits : TableReference := ⟨"p", "ds", "visits"⟩

/-- A row is appended. -/
def appendVisit (row : Row) : Time × TableRequest :=
  (3, .write visits [] [row] "CREATE_NEVER" "WRITE_APPEND")

def alterVisits (queryText : String) : Time × TableRequest := (2, .alter "p" queryText.toList)

theorem empty_allResolve : AllResolve ({} : Server).tables := by
  intro path r found
  cases found

/-- The server once the table has been created and its partitioning column dropped. -/
def withoutDay : Server :=
  let s := (handle noEngine noFiles {} insertVisits).1
  (handle noEngine noFiles s (alterVisits "ALTER TABLE ds.visits DROP COLUMN day")).1

end

end LocaQL.Rest
