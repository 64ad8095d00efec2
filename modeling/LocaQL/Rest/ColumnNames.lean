import LocaQL.Rest.Tables
import LocaQL.Sql.Alterations

/-!
# Column names

The columns of a table are addressed by name, ignoring case, so no two of them should have
the same name.  A table that is partitioned by ingestion time has pseudocolumns besides, and
should have no column of their names.

`tables.patch` and `ALTER TABLE` check new names against the table as it was before the
request, and the names that one request brings in are not checked against each other.
Reserved names are checked only where time partitioning is part of the request.  Names stay
distinct and reserved names stay out as long as the new names of each request are distinct
and, on a table partitioned by ingestion time, not reserved (`names_of_namesApart`).
-/

namespace LocaQL.Rest

open GoText (equalFold trimSpaceStr)

open Sql List
open TableService (All Seeds Purges stamp trimPath)

/-! ## The property -/

/-- Whether no two names are the same but for case. -/
def distinctNames (names : List String) : Bool :=
  decide (names.Pairwise fun a b => ¬equalFold a b)

def reserved (name : String) : Bool := reservedColumns.any fun r => equalFold name r

def ingestionPartitioned (t : TableRecord) : Bool :=
  t.timePartitioning.any fun config => config.field == ""

/-- The columns of the table have different names. -/
def Distinct (t : TableRecord) : Prop :=
  t.schema.Pairwise fun f g => ¬equalFold f.name g.name

/-- No column of the table has the name of a pseudocolumn. -/
def Unreserved (t : TableRecord) : Prop :=
  ingestionPartitioned t → ∀ f ∈ t.schema, reserved f.name = false

/-! ## Requests -/

/-- The requests that change a schema. -/
inductive SchemaChange where
  | patch (path : TableReference) (body : Option Body)
  | alter (projectID : String) (queryText : List Char)

/-- New names on a table: distinct, and not reserved if it is partitioned by ingestion
time. -/
def namesFit (t : TableRecord) (names : List String) : Bool :=
  distinctNames names && (!ingestionPartitioned t || names.all fun name => !reserved name)

/-- The names in the schema of a patch.  With time partitioning in the same patch, reserved
names are refused. -/
def patchFits (raw : Body) (t : TableRecord) : Bool :=
  match Json.lookup? raw "schema" with
  | none => true
  | some v =>
    let names := (parseTableSchemaFields v).map (·.name)
    if (Json.lookup? raw "timePartitioning").isSome then distinctNames names
    else namesFit t names

/-- The names of the columns that are added, where they are not there already. -/
def addFits (clauses : List AddColumnClause) (t : TableRecord) : Bool :=
  namesFit t
    (((clauses.map (·.field)).filter fun f => !hasColumn t.schema f.name).map (·.name))

def renameFits (clauses : List RenameColumnClause) (t : TableRecord) : Bool :=
  namesFit t (clauses.map (·.newName))

section

variable [GoFloat]

/-- A statement on the table meets a condition. -/
def targetMeets {α : Type} (table : TableReference) (s : Server) (now : Time)
    (projectID : String) (parsed : Option (Result (AlterTable α)))
    (fits : α → TableRecord → Bool) : Bool :=
  match parsed with
  | some (.ok stmt) =>
    localPath projectID stmt.target != table ||
      (s.tables.get now table).2.all (fits stmt.action)
  | _ => true

/-- The new names that a request brings to the table are distinct, and not reserved if it is
partitioned by ingestion time.  The path of a patch has no white space around it, and no other
table is renamed to this one. -/
def namesApart (table : TableReference) (s : Server) (label : Time × SchemaChange) : Bool :=
  match label.2 with
  | .patch path body =>
    trimPath path.projectID path.datasetID path.tableID != some table ||
      (path = table &&
        body.all fun raw => (s.tables.get label.1 table).2.all (patchFits raw))
  | .alter projectID queryText =>
    targetMeets table s label.1 projectID
        (parsePersistentAlterTableAddColumns projectID queryText) addFits &&
      targetMeets table s label.1 projectID
        (parsePersistentAlterTableRenameColumns projectID queryText) renameFits &&
      match parsePersistentAlterTableRenameTo projectID queryText with
      | some (.ok stmt) => ⟨projectID, stmt.target.datasetID, stmt.action⟩ != table
      | _ => true

def changeSchema (s : Server) (label : Time × SchemaChange) : Option Server :=
  match label.2 with
  | .patch path body => some { s with tables := (patchTable label.1 s.tables path body).1 }
  | .alter projectID queryText =>
    some (executePersistentAlterTableStatement label.1 s projectID queryText).1

end

/-! ## Columns and names -/

theorem distinctNames_iff {fields : List TableField} :
    distinctNames (fields.map (·.name)) ↔ fields.Pairwise fun f g => ¬equalFold f.name g.name := by
  rw [distinctNames, decide_eq_true_eq, pairwise_map]

variable {t : TableRecord} {schema : List TableField} {label : Time × SchemaChange}
  {P : TableRecord → Prop}

theorem not_reserved_of_namesFit {names : List String} (h : namesFit t names)
    (partitioned : ingestionPartitioned t) : ∀ name ∈ names, reserved name = false := by
  simp only [namesFit, Bool.and_eq_true, partitioned, Bool.not_true, Bool.false_or,
    all_eq_true, Bool.not_eq_true'] at h
  exact h.2

theorem distinct_of_namesFit {names : List String} (h : namesFit t names) :
    distinctNames names := (Bool.and_eq_true_iff.mp h).1

theorem hasColumn_eq_false {name : String} :
    hasColumn schema name = false ↔ ∀ f ∈ schema, ¬equalFold f.name name := by
  simp only [hasColumn, any_eq_false]

theorem filterColumns_sublist {α : Type} (columns : List α) (drop : List Nat) :
    (filterColumns columns drop).Sublist columns := by
  have kept : (columns.zipIdx.filter fun c => c.2 ∉ drop).Sublist columns.zipIdx :=
    filter_sublist
  simpa only [filterColumns, zipIdx_map_fst] using kept.map (·.1)

/-- A name without white space around it is looked up as it is. -/
theorem not_reserved_of_lookup (h : ∀ name ∈ reservedColumns, findTopLevelField schema name = none) :
    ∀ f ∈ schema, reserved f.name = false := by
  intro f mem
  have trimmed : ∀ name ∈ reservedColumns, trimSpaceStr name = name := by decide +kernel
  simp only [reserved, any_eq_false]
  intro name hname
  have missing := findTopLevelField_eq_none.mp (h name hname) f mem
  rwa [trimmed name hname] at missing

/-! ## Adding and renaming columns -/

/-- Columns that are not there yet, with different names, leave all names different. -/
theorem pairwise_append_new {fields : List TableField}
    (h : schema.Pairwise fun f g => ¬equalFold f.name g.name)
    (new : fields.Pairwise fun f g => ¬equalFold f.name g.name)
    (missing : ∀ f ∈ fields, hasColumn schema f.name = false) :
    (schema ++ fields).Pairwise fun f g => ¬equalFold f.name g.name := by
  refine pairwise_append.mpr ⟨h, new, ?_⟩
  intro f memf g memg
  exact hasColumn_eq_false.mp (missing g memg) f memf

/-- The new name of a column. -/
theorem renameField_cases (renames : GoMap String String) (f : TableField) :
    (renameField (renames.entries.map fun e => (e.1, e.2)) f = f) ∨
      ∃ old new, renames.get? old = some new ∧ equalFold f.name old ∧
        renameField (renames.entries.map fun e => (e.1, e.2)) f = { f with name := new } := by
  rw [renameField]
  split
  next r found =>
    obtain ⟨e, mem, rfl⟩ := mem_map.mp (mem_of_find?_eq_some found)
    have entry : renames.get? e.1 = some e.2 := AList.mem_lookup_iff.mpr mem
    have named : equalFold f.name e.1 := by simpa using find?_some found
    exact .inr ⟨e.1, e.2, entry, named, rfl⟩
  · exact .inl rfl

theorem equalFold_trans {a b c : String} (h : equalFold a b) (h' : equalFold b c) :
    equalFold a c := by
  simp only [equalFold, beq_iff_eq] at h h' ⊢
  rw [h, h']

/-- Columns with different names have different names after a rename that resolved, if no
new name comes twice. -/
theorem renamed_distinct {clauses : List RenameColumnClause} {renames : GoMap String String}
    (resolved : Resolved schema clauses renames)
    (apart : clauses.Pairwise fun a b => ¬equalFold a.newName b.newName) {f g : TableField}
    (memf : f ∈ schema) (memg : g ∈ schema) (h : ¬equalFold f.name g.name) :
    ¬equalFold (renameField (renames.entries.map fun e => (e.1, e.2)) f).name
      (renameField (renames.entries.map fun e => (e.1, e.2)) g).name := by
  rcases renameField_cases renames f with keptf | ⟨oldf, newf, entryf, namef, renamedf⟩
  · rw [keptf]
    rcases renameField_cases renames g with keptg | ⟨oldg, newg, entryg, nameg, renamedg⟩
    · rwa [keptg]
    · rw [renamedg]
      exact hasColumn_eq_false.mp (resolved.fresh oldg newg entryg) f memf
  · rw [renamedf]
    rcases renameField_cases renames g with keptg | ⟨oldg, newg, entryg, nameg, renamedg⟩
    · rw [keptg, equalFold_comm]
      exact hasColumn_eq_false.mp (resolved.fresh oldf newf entryf) g memg
    · rw [renamedg]
      intro same
      -- the two columns were renamed by one clause, so they had the same name
      have one := resolved.single apart oldf newf oldg newg entryf entryg same
      subst one
      rw [equalFold_comm] at nameg
      exact h (equalFold_trans namef nameg)

/-- A renamed column has a new name of a clause, or its own. -/
theorem renamed_name {clauses : List RenameColumnClause} {renames : GoMap String String}
    (resolved : Resolved schema clauses renames) (f : TableField) :
    renameField (renames.entries.map fun e => (e.1, e.2)) f = f ∨
      ∃ clause ∈ clauses,
        (renameField (renames.entries.map fun e => (e.1, e.2)) f).name = clause.newName := by
  rcases renameField_cases renames f with kept | ⟨old, new, entry, -, renamed⟩
  · exact .inl kept
  · obtain ⟨clause, mem, -, rfl⟩ := resolved.clause old new entry
    exact .inr ⟨clause, mem, by rw [renamed]⟩

/-! ## Patches -/

section

variable {path : TableReference} {current : TableRecord} {raw : Body} {patch : TablePatch}

section

variable (read : PatchRead path current raw patch)

include read

/-- The new schema of a patch. -/
theorem schema_of_patch :
    patch.schema = none ∨ ∃ v, Json.lookup? raw "schema" = some v ∧
      patch.schema = some (parseTableSchemaFields v) := by
  have read := read.schema
  cases schema : patch.schema with
  | none => exact .inl rfl
  | some fields =>
    rw [schema] at read
    obtain ⟨v, found, parsed⟩ := optional_some read
    exact .inr ⟨v, found, by rw [(parseNewSchema_ok parsed).1]⟩

theorem distinct_patch (fits : patchFits raw current) (h : Distinct current) :
    Distinct (patched patch current) := by
  show (patch.schema.getD current.schema).Pairwise _
  rcases schema_of_patch read with none | ⟨v, found, schema⟩
  · rwa [none]
  rw [schema, Option.getD_some]
  simp only [patchFits, found] at fits
  split at fits
  · exact distinctNames_iff.mp fits
  · exact distinctNames_iff.mp (distinct_of_namesFit fits)

/-- A patch does not change whether a table is partitioned by ingestion time, and with time
partitioning in the patch its schema has no reserved names. -/
theorem partitioned_of_patch (partitioned : ingestionPartitioned (patched patch current)) :
    ingestionPartitioned current ∧ (Json.lookup? raw "timePartitioning" = none ∨
      ∀ f ∈ patch.schema.getD current.schema, reserved f.name = false) := by
  obtain ⟨config, parsed, time⟩ := read.time
  have any : (patch.timePartitioning.getD current.timePartitioning).any
      fun config => config.field == "" := partitioned
  cases config with
  | none =>
    rw [time] at any
    exact ⟨any, .inl (optional_none parsed)⟩
  | some config =>
    rw [time, Option.map_some, Option.getD_some, Option.any_some, beq_iff_eq] at any
    obtain ⟨v, -, parsed⟩ := optional_some parsed
    obtain ⟨parsed, old, has, same⟩ := parseSameTimePartitioning_ok parsed
    refine ⟨?_, .inr ?_⟩
    · simp only [sameTimePartitioningDefinition, any, equalFold, String.toList_empty, map_nil,
        Bool.and_eq_true, beq_iff_eq, map_eq_nil_iff, String.toList_eq_nil_iff] at same
      simp only [ingestionPartitioned, has, Option.any_some, same.2, beq_self_eq_true]
    · rcases parseTimePartitioning_ok parsed with ⟨-, none⟩ | ⟨field, -⟩
      · exact not_reserved_of_lookup none
      · exact absurd any field

theorem unreserved_patch (fits : patchFits raw current) (h : Unreserved current) :
    Unreserved (patched patch current) := by
  intro partitioned
  obtain ⟨before, checked⟩ := partitioned_of_patch read partitioned
  show ∀ f ∈ patch.schema.getD current.schema, reserved f.name = false
  rcases checked with missing | checked
  · rcases schema_of_patch read with none | ⟨v, found, schema⟩
    · rw [none]
      exact h before
    · rw [schema, Option.getD_some]
      simp only [patchFits, found, missing] at fits
      intro f mem
      exact not_reserved_of_namesFit fits before f.name (mem_map_of_mem mem)
  · exact checked

end

end

/-! ## Steps -/

/-- A property of the table at one path. -/
def At (table : TableReference) (P : TableRecord → Prop) (path : TableReference)
    (t : TableRecord) : Prop :=
  path = table → P t

/-- The table, if it is there, has the property. -/
def Holds (P : TableRecord → Prop) (s : Server) (table : TableReference) : Prop :=
  ∀ t, s.tables.record? table = some t → P t

theorem holds_iff_all {s : Server} {table : TableReference} :
    Holds P s table ↔ All (At table P) s.tables := by
  constructor
  · intro h path t found here
    subst here
    exact h t found
  · intro h t found
    exact h table t found rfl

/-- A property that does not depend on the rows, which holds of the default tables. -/
structure OfSchema (P : TableRecord → Prop) : Prop where
  seeded : ∀ p d now id, P (defaultTable p d now id)
  congr : ∀ t t', t'.schema = t.schema → t'.timePartitioning = t.timePartitioning → P t → P t'

theorem ofSchema_distinct : OfSchema Distinct where
  seeded p d now id := by
    show (defaultTableData id).1.Pairwise _
    rw [defaultTableData]
    dsimp only
    split
    · decide +kernel
    split
    · decide +kernel
    split
    · decide +kernel
    · decide +kernel
  congr t t' schema _ h := by rwa [Distinct, schema]

theorem ofSchema_unreserved : OfSchema Unreserved where
  seeded p d now id partitioned := by cases partitioned
  congr t t' schema time h := by rwa [Unreserved, ingestionPartitioned, schema, time]

theorem OfSchema.seeds {table : TableReference} (h : OfSchema P) : Seeds (At table P) := by
  intro path now _
  exact h.seeded _ _ now _

section

variable [GoFloat]

theorem schema_purge (t : TableRecord) (now : Time) :
    (purgeExpiredPartitions t now).1.schema = t.schema ∧
      (purgeExpiredPartitions t now).1.timePartitioning = t.timePartitioning := by
  rcases purgeExpiredPartitions_cases t now with same | ⟨config, column, -, -, dropped⟩
  · rw [same]
    exact ⟨rfl, rfl⟩
  · rw [dropped]
    exact ⟨rfl, rfl⟩

variable {P : TableRecord → Prop} {table : TableReference} {s s' : Server} {now : Time}

theorem OfSchema.purges (h : OfSchema P) : Purges (At table P) := by
  intro path now t holds here
  obtain ⟨schema, time⟩ := schema_purge t now
  exact h.congr t _ schema time (holds here)

/-- What the condition says about a patch. -/
theorem patch_of_namesApart {path : TableReference} {body : Option Body}
    (h : namesApart table s (now, .patch path body)) :
    Written (At table P) path ∧ (path = table →
      trimPath table.projectID table.datasetID table.tableID = some table →
      ∀ raw t, body = some raw → (s.tables.get now path).2 = some t → patchFits raw t) := by
  simp only [namesApart, Bool.or_eq_true, bne_iff_ne, ne_eq, Bool.and_eq_true,
    Option.all_eq_true, decide_eq_true_eq] at h
  constructor
  · intro at_ trim
    rcases h with elsewhere | ⟨here, -⟩
    · refine .inr fun t is => ?_
      rw [trim, is] at elsewhere
      exact absurd rfl elsewhere
    · by_cases is : at_ = table
      · exact .inl (is.trans here.symm)
      · exact .inr fun t is' => absurd is' is
  · intro here trim raw t has found
    subst here
    rcases h with elsewhere | ⟨-, fits⟩
    · exact absurd trim elsewhere
    · exact fits raw has t found

/-- What the condition says about a statement. -/
theorem meets_of_target {α : Type} {projectID : String} {parsed : Option (Result (AlterTable α))}
    {fits : α → TableRecord → Bool} (h : targetMeets table s now projectID parsed fits)
    {stmt : AlterTable α} (is : parsed = some (.ok stmt))
    (here : localPath projectID stmt.target = table)
    (found : (s.tables.get now (localPath projectID stmt.target)).2 = some t) :
    fits stmt.action t := by
  subst is
  rw [here] at found
  simp only [targetMeets, here, bne_self_eq_false, Bool.false_or, found, Option.all_some] at h
  exact h

/-- A property of schemas is kept by a request, if it is kept by the patches and the changes
of columns that meet the condition. -/
theorem step_of_ofSchema (ofSchema : OfSchema P)
    (patch : ∀ path current raw patch, PatchRead path current raw patch → patchFits raw current →
      P current → P (patched patch current))
    (add : ∀ t clauses fields, resolveAlterTableNewFields t.schema clauses = .ok fields →
      addFits clauses t → P t → P (addColumns t fields))
    (drop : ∀ t names, P t → P (dropColumns t names))
    (rename : ∀ t clauses renames, Resolved t.schema clauses renames → renameFits clauses t →
      P t → P (renameColumns t (renames.entries.map fun e => (e.1, e.2))))
    (h : All (At table P) s.tables) (fits : namesApart table s label)
    (step : changeSchema s label = some s') : All (At table P) s'.tables := by
  have stamped {t : TableRecord} {now : Time} (holds : P t) : P (stamp now t) :=
    ofSchema.congr t _ rfl rfl holds
  obtain ⟨now, change⟩ := label
  cases change with
  | patch path body =>
    cases step
    obtain ⟨written, fits⟩ := patch_of_namesApart (P := P) fits
    refine all_patchTable h ofSchema.seeds ofSchema.purges written ?_
    intro raw current p trim has found read _ holds here
    subst here
    exact stamped (patch path current raw p read (fits rfl trim raw current has found)
      (holds rfl))
  | alter projectID queryText =>
    cases step
    obtain ⟨both, moves⟩ := Bool.and_eq_true_iff.mp fits
    obtain ⟨adds, renames⟩ := Bool.and_eq_true_iff.mp both
    refine all_executePersistentAlterTableStatement h ofSchema.seeds ofSchema.purges ?_ ?_ ?_ ?_
    · intro stmt t fields parsed found resolved holds here
      exact stamped (add t stmt.action fields resolved
        (meets_of_target adds parsed here found) (holds here))
    · intro stmt t names parsed found resolved holds
      have drops (here : localPath projectID stmt.target = table) : P (dropColumns t names) :=
        drop t names (holds here)
      refine ⟨fun here => ?_, fun here => stamped (drops here)⟩
      exact ofSchema.congr (dropColumns t names) _ rfl rfl (drops here)
    · intro stmt t m parsed found resolved holds here
      exact stamped (rename t stmt.action m (resolveAlterTableRenames_ok (.nil t.schema) resolved)
        (meets_of_target renames parsed here found) (holds here))
    · intro stmt t parsed holds here
      simp only [parsed, bne_iff_ne, ne_eq] at moves
      exact absurd here moves

theorem distinct_step (h : All (At table Distinct) s.tables) (fits : namesApart table s label)
    (step : changeSchema s label = some s') : All (At table Distinct) s'.tables := by
  refine step_of_ofSchema ofSchema_distinct ?_ ?_ ?_ ?_ h fits step
  · intro path current raw patch read fits holds
    exact distinct_patch read fits holds
  · intro t clauses fields resolved fits holds
    have apart := distinct_of_namesFit fits
    rw [← resolveAlterTableNewFields_ok resolved] at apart
    refine pairwise_append_new holds (distinctNames_iff.mp apart) ?_
    intro f mem
    rw [resolveAlterTableNewFields_ok resolved] at mem
    simpa using (mem_filter.mp mem).2
  · intro t names holds
    exact holds.sublist (filterColumns_sublist _ _)
  · intro t clauses renames resolved fits holds
    have apart := distinct_of_namesFit fits
    rw [distinctNames, decide_eq_true_eq, pairwise_map] at apart
    refine pairwise_map.mpr (List.Pairwise.imp_of_mem ?_ holds)
    intro f g memf memg ne
    exact renamed_distinct resolved apart memf memg ne

theorem unreserved_step (h : All (At table Unreserved) s.tables) (fits : namesApart table s label)
    (step : changeSchema s label = some s') : All (At table Unreserved) s'.tables := by
  refine step_of_ofSchema ofSchema_unreserved ?_ ?_ ?_ ?_ h fits step
  · intro path current raw patch read fits holds
    exact unreserved_patch read fits holds
  · intro t clauses fields resolved fits holds partitioned f mem
    have free := not_reserved_of_namesFit fits partitioned
    rw [← resolveAlterTableNewFields_ok resolved] at free
    rcases mem_append.mp mem with old | new
    · exact holds partitioned f old
    · exact free f.name (mem_map_of_mem new)
  · intro t names holds partitioned f mem
    exact holds partitioned f ((filterColumns_sublist _ _).subset mem)
  · intro t clauses renames resolved fits holds partitioned f mem
    have free := not_reserved_of_namesFit fits partitioned
    obtain ⟨g, memg, rfl⟩ := mem_map.mp mem
    rcases renamed_name resolved g with kept | ⟨clause, memc, renamed⟩
    · rw [kept]
      exact holds partitioned g memg
    · rw [renamed]
      exact free clause.newName (mem_map_of_mem memc)

end

/-! ## Two requests -/

section

attribute [local instance] GoFloat.texts

def clicks : TableReference := ⟨"p", "ds", "clicks"⟩

/-- A table partitioned by ingestion time. -/
def withClicks : Server :=
  { tables := (({} : TableService).insert 1
      { projectID := "p", datasetID := "ds", tableID := "clicks"
        schema := [⟨"id", "INT64", "", []⟩]
        timePartitioning := some ⟨.day, "", 0⟩ }).1 }

theorem withClicks_holds (holds : ∀ t, t.schema = [⟨"id", "INT64", "", []⟩] → P t) :
    Holds P withClicks clicks := by
  intro t found
  refine holds t ?_
  have schema : (withClicks.tables.record? clicks).map (·.schema) =
      some [⟨"id", "INT64", "", []⟩] := by decide +kernel
  rw [found] at schema
  exact Option.some.inj schema

theorem withClicks_distinct : Holds Distinct withClicks clicks := by
  refine withClicks_holds fun t schema => ?_
  simp [Distinct, schema]

theorem withClicks_unreserved : Holds Unreserved withClicks clicks := by
  refine withClicks_holds fun t schema _ => ?_
  rw [schema]
  decide +kernel

def alterClicks (queryText : String) : Time × SchemaChange := (2, .alter "p" queryText.toList)

/-- A patch of the schema of the table. -/
def patchClicks (names : List String) : Time × SchemaChange :=
  (3, .patch clicks (some [("schema", .obj [("fields", .arr
    (.obj [("name", .str "id"), ("type", .str "INT64")] ::
      names.map fun name => .obj [("name", .str name)]))])]))

/-- The table once a request has been answered. -/
def clicksAfter (label : Time × SchemaChange) : Option TableRecord :=
  (changeSchema withClicks label).bind fun u => u.tables.record? clicks

theorem not_holds_after (after : clicksAfter label = some t) (fails : ¬P t) :
    ∃ u, changeSchema withClicks label = some u ∧ ¬Holds P u clicks := by
  obtain ⟨u, step, found⟩ := Option.bind_eq_some_iff.mp after
  exact ⟨u, step, fun holds => fails (holds t found)⟩

theorem not_distinct_after
    (after : (clicksAfter label).any fun t => !distinctNames (t.schema.map (·.name))) :
    ∃ u, changeSchema withClicks label = some u ∧ ¬Holds Distinct u clicks := by
  cases found : clicksAfter label with
  | none => simp [found] at after
  | some t =>
    rw [found, Option.any_some, Bool.not_eq_true'] at after
    refine not_holds_after found fun distinct => ?_
    rw [distinctNames_iff.mpr distinct] at after
    cases after

theorem not_unreserved_after (after : (clicksAfter label).any fun t =>
      ingestionPartitioned t && t.schema.any fun f => reserved f.name) :
    ∃ u, changeSchema withClicks label = some u ∧ ¬Holds Unreserved u clicks := by
  cases found : clicksAfter label with
  | none => simp [found] at after
  | some t =>
    rw [found, Option.any_some, Bool.and_eq_true, any_eq_true] at after
    obtain ⟨partitioned, f, mem, taken⟩ := after
    refine not_holds_after found fun unreserved => ?_
    rw [unreserved partitioned f mem] at taken
    cases taken

end

end LocaQL.Rest
