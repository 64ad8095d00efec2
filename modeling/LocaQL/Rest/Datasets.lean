import LocaQL.Catalog.Invariants
import LocaQL.Sql.Server

/-!
# Deleting a dataset

A dataset and its contents live in services of their own, each with its lock: the datasets with
the tombstones of deleted ones, the tables and views, the routines, and the models.
`deleteDataset` counts the tables, removes the dataset, and clears the tables if there were any
at the count.  Other requests act between these steps.

Every table, routine and model has the number of the step that created it.  After a deletion
the dataset has only contents that are newer, if the dataset that is removed has no routine and
no model, and no table that the count has not seen (`newer_of_run`).  Otherwise its contents
stay, and are there again when the dataset is inserted or undeleted (`contents_resurface`).
-/

namespace LocaQL.Datasets

open List

open GoText (equalFold toUpperStr trimSpaceStr)

/-! ## Datasets -/

structure DatasetRecord where
  projectID : String
  datasetID : String
  friendlyName : String := ""
  location : String := ""
  labels : GoMap String String := ∅
  defaultTableExpirationMs : Int64 := 0

structure DatasetInsert where
  projectID : String
  datasetID : String
  friendlyName : String := ""
  location : String := ""
  labels : GoMap String String := ∅
  defaultTableExpirationMs : Int64 := 0

/-- `datasetPatch`; a field is present where its `Has` flag is set. -/
structure DatasetPatch where
  projectID : String
  datasetID : String
  friendlyName : Option String := none
  location : Option String := none
  labels : Option (GoMap String String) := none
  defaultTableExpirationMs : Option Int64 := none

structure DatasetService where
  defaults : List String := ["analytics", "finance", "ops", "sandbox"]
  projects : GoMap String (GoMap String DatasetRecord) := ∅
  versions : GoMap String Nat := ∅
  tombstones : GoMap String DatasetRecord := ∅

namespace DatasetService

/-- The datasets of a project that is touched for the first time. -/
def defaultProject (s : DatasetService) (projectID : String) : GoMap String DatasetRecord :=
  s.defaults.foldl (fun proj id => proj.set id { projectID, datasetID := id }) ∅

/-- The project that `ensureProjectLocked` returns. -/
def project (s : DatasetService) (projectID : String) : GoMap String DatasetRecord :=
  (s.projects.get? projectID).getD (s.defaultProject projectID)

def ensureProjectLocked (s : DatasetService) (projectID : String) : DatasetService :=
  { s with projects := s.projects.set projectID (s.project projectID) }

/-- A change of the project, which is counted. -/
def store (s : DatasetService) (projectID : String) (proj : GoMap String DatasetRecord) :
    DatasetService :=
  { s with
    projects := s.projects.set projectID proj
    versions := s.versions.set projectID ((s.versions.get? projectID).getD 0 + 1) }

def tombstoneKey (projectID datasetID : String) : String := projectID ++ ":" ++ datasetID

def get (s : DatasetService) (projectID datasetID : String) :
    DatasetService × Option DatasetRecord :=
  (s.ensureProjectLocked projectID, (s.project projectID).get? datasetID)

/-- `exists`. -/
def present (s : DatasetService) (projectID datasetID : String) : DatasetService × Bool :=
  (s.ensureProjectLocked projectID, ((s.project projectID).get? datasetID).isSome)

def insert (s : DatasetService) (input : DatasetInsert) :
    DatasetService × Option DatasetRecord :=
  let projectID := trimSpaceStr input.projectID
  let datasetID := trimSpaceStr input.datasetID
  if projectID = "" ∨ datasetID = "" then (s, none)
  else
    match (s.project projectID).get? datasetID with
    | some _ => (s.ensureProjectLocked projectID, none)
    | none =>
      let rec_ : DatasetRecord :=
        { projectID, datasetID
          friendlyName := trimSpaceStr input.friendlyName
          location := trimSpaceStr input.location
          labels := input.labels
          defaultTableExpirationMs := input.defaultTableExpirationMs }
      (s.store projectID ((s.project projectID).set datasetID rec_), some rec_)

def delete (s : DatasetService) (projectID datasetID : String) : DatasetService × Bool :=
  match (s.project projectID).get? datasetID with
  | none => (s.ensureProjectLocked projectID, false)
  | some rec_ =>
    ({ s.store projectID ((s.project projectID).delete datasetID) with
       tombstones := s.tombstones.set (tombstoneKey projectID datasetID) rec_ }, true)

def undelete (s : DatasetService) (projectID datasetID : String) :
    DatasetService × Option DatasetRecord :=
  match (s.project projectID).get? datasetID with
  | some _ => (s.ensureProjectLocked projectID, none)
  | none =>
    match s.tombstones.get? (tombstoneKey projectID datasetID) with
    | none => (s.ensureProjectLocked projectID, none)
    | some tombstoned =>
      ({ s.store projectID ((s.project projectID).set datasetID tombstoned) with
         tombstones := s.tombstones.delete (tombstoneKey projectID datasetID) },
        some tombstoned)

def patch (s : DatasetService) (input : DatasetPatch) : DatasetService × Option DatasetRecord :=
  let projectID := trimSpaceStr input.projectID
  let datasetID := trimSpaceStr input.datasetID
  if projectID = "" ∨ datasetID = "" then (s, none)
  else
    match (s.project projectID).get? datasetID with
    | none => (s.ensureProjectLocked projectID, none)
    | some item =>
      let item : DatasetRecord :=
        { item with
          friendlyName := (input.friendlyName.map trimSpaceStr).getD item.friendlyName
          location := (input.location.map trimSpaceStr).getD item.location
          labels := input.labels.getD item.labels
          defaultTableExpirationMs :=
            input.defaultTableExpirationMs.getD item.defaultTableExpirationMs }
      (s.store projectID ((s.project projectID).set datasetID item), some item)

end DatasetService

/-! ### The names of the datasets

The executors of statements see only the names of the datasets. -/

/-- The two services have the same names. -/
structure Names (s : DatasetService) (names : Sql.DatasetService) : Prop where
  defaults : names.defaults = s.defaults
  project : ∀ p id, id ∈ names.datasets p ↔ ((s.project p).get? id).isSome

variable {p : String}

theorem get?_foldl_default {ids : List String} {proj : GoMap String DatasetRecord} (id : String) :
    ((ids.foldl (fun proj id => proj.set id { projectID := p, datasetID := id }) proj).get? id).isSome
      ↔ id ∈ ids ∨ (proj.get? id).isSome := by
  induction ids generalizing proj with
  | nil => simp
  | cons first ids ih =>
    rw [foldl_cons, ih, GoMap.get?_set]
    by_cases same : id = first
    · simp [same]
    · simp [same]

/-- New services have the same names. -/
theorem names_new (defaults : List String) : Names { defaults } { defaults } where
  defaults := rfl
  project p id := by
    show id ∈ defaults ↔ _
    rw [DatasetService.project, GoMap.get?_empty, Option.getD_none, DatasetService.defaultProject,
      get?_foldl_default, GoMap.get?_empty]
    simp

theorem project_ensureProjectLocked (s : DatasetService) (p q : String) :
    (s.ensureProjectLocked p).project q = s.project q := by
  rw [DatasetService.project, DatasetService.ensureProjectLocked, GoMap.get?_set]
  split
  next same =>
    subst same
    rfl
  · rfl

theorem project_store (s : DatasetService) (p q : String) (proj : GoMap String DatasetRecord) :
    (s.store p proj).project q = if q = p then proj else s.project q := by
  rw [DatasetService.project, DatasetService.store, GoMap.get?_set]
  split
  · rfl
  · rfl

/-- `exists` answers from the names. -/
theorem Names.present {s : DatasetService} {names : Sql.DatasetService} (h : Names s names)
    (p d : String) :
    Names (s.present p d).1 (names.present p d).1 ∧ (names.present p d).2 = (s.present p d).2 := by
  refine ⟨⟨?_, fun q id => ?_⟩, ?_⟩
  · exact (Sql.DatasetService.defaults_ensureProject names p).trans h.defaults
  · show id ∈ (names.ensureProject p).datasets q ↔ (((s.ensureProjectLocked p).project q).get? id).isSome
    rw [Sql.DatasetService.datasets_ensureProject, project_ensureProjectLocked]
    exact h.project q id
  · rw [Sql.DatasetService.present, DatasetService.present, Bool.eq_iff_iff, decide_eq_true_iff]
    exact h.project p d

/-- `insert` creates a dataset where its name is new. -/
theorem Names.insert {s : DatasetService} {names : Sql.DatasetService} (h : Names s names)
    (input : DatasetInsert) :
    Names (s.insert input).1 (names.insert input.projectID input.datasetID).1 ∧
      (names.insert input.projectID input.datasetID).2 = (s.insert input).2.isSome := by
  have touched := (h.present (trimSpaceStr input.projectID) "").1
  rw [DatasetService.insert, Sql.DatasetService.insert]
  dsimp only
  generalize trimSpaceStr input.projectID = p at touched ⊢
  generalize trimSpaceStr input.datasetID = d
  split
  · exact ⟨h, rfl⟩
  have known := h.project p d
  rw [Sql.DatasetService.datasets_ensureProject]
  cases found : (s.project p).get? d with
  | some _ =>
    rw [found] at known
    rw [if_pos (known.mpr rfl)]
    exact ⟨touched, rfl⟩
  | none =>
    rw [found] at known
    rw [if_neg fun mem => Bool.false_ne_true (known.mp mem)]
    refine ⟨⟨touched.defaults, fun q id => ?_⟩, rfl⟩
    rw [project_store, Sql.DatasetService.datasets, GoMap.get?_set]
    split
    next same =>
      rw [Option.getD_some, mem_cons, GoMap.get?_set, h.project p id]
      by_cases new : id = d
      · simp [new]
      · simp [new]
    · have others := touched.project q id
      rw [DatasetService.present, project_ensureProjectLocked] at others
      exact others

/-- The objects of a dataset by their ids. -/
structure ObjectService (α : Type) where
  projects : GoMap (String × String) (GoMap String α) := ∅

/-- What `routineService` and `modelService` differ in: the path that a request names, the record
that an insertion creates, and what a patch makes of a record. -/
structure ObjectKind (ι π α : Type) where
  insertPath : ι → String × String × String
  create : Time → String → String → String → ι → α
  patchPath : π → String × String × String
  change : Time → π → α → α

namespace ObjectService

variable {ι π α : Type}

/-- The objects that `ensureDatasetLocked` returns. -/
def objects (s : ObjectService α) (projectID datasetID : String) : GoMap String α :=
  (s.projects.get? (projectID, datasetID)).getD ∅

def store (s : ObjectService α) (projectID datasetID : String) (objects : GoMap String α) :
    ObjectService α :=
  { s with projects := s.projects.set (projectID, datasetID) objects }

def ensureDatasetLocked (s : ObjectService α) (projectID datasetID : String) : ObjectService α :=
  s.store projectID datasetID (s.objects projectID datasetID)

def get (s : ObjectService α) (projectID datasetID id : String) : ObjectService α × Option α :=
  (s.ensureDatasetLocked projectID datasetID, (s.objects projectID datasetID).get? id)

/-- The path of a request, if all its parts are there. -/
def trimIDs (path : String × String × String) : Option (String × String × String) :=
  let projectID := trimSpaceStr path.1
  let datasetID := trimSpaceStr path.2.1
  let id := trimSpaceStr path.2.2
  if projectID = "" ∨ datasetID = "" ∨ id = "" then none else some (projectID, datasetID, id)

def insert (kind : ObjectKind ι π α) (s : ObjectService α) (now : Time) (input : ι) :
    ObjectService α × Option α :=
  match trimIDs (kind.insertPath input) with
  | none => (s, none)
  | some (projectID, datasetID, id) =>
    let objects := s.objects projectID datasetID
    match objects.get? id with
    | some _ => (s.ensureDatasetLocked projectID datasetID, none)
    | none =>
      let object := kind.create now projectID datasetID id input
      (s.store projectID datasetID (objects.set id object), some object)

def patch (kind : ObjectKind ι π α) (s : ObjectService α) (now : Time) (input : π) :
    ObjectService α × Option α :=
  match trimIDs (kind.patchPath input) with
  | none => (s, none)
  | some (projectID, datasetID, id) =>
    let objects := s.objects projectID datasetID
    match objects.get? id with
    | none => (s.ensureDatasetLocked projectID datasetID, none)
    | some object =>
      let object := kind.change now input object
      (s.store projectID datasetID (objects.set id object), some object)

def delete (s : ObjectService α) (projectID datasetID id : String) : ObjectService α × Bool :=
  let objects := s.objects projectID datasetID
  match objects.get? id with
  | none => (s.ensureDatasetLocked projectID datasetID, false)
  | some _ => (s.store projectID datasetID (objects.delete id), true)

end ObjectService

structure RoutineArgument where
  name : String
  dataType : String
deriving Repr, DecidableEq

structure RoutineRecord where
  projectID : String
  datasetID : String
  routineID : String
  routineType : String
  language : String
  definitionBody : String
  description : String
  arguments : List RoutineArgument
  createdAt : Time
  updatedAt : Time
  version : Nat
deriving Repr, DecidableEq

structure RoutineInsert where
  projectID : String
  datasetID : String
  routineID : String
  routineType : String := ""
  language : String := ""
  definitionBody : String := ""
  description : String := ""
  arguments : List RoutineArgument := []

/-- `routinePatch`; a field is present where its `Has` flag is set. -/
structure RoutinePatch where
  projectID : String
  datasetID : String
  routineID : String
  routineType : Option String := none
  language : Option String := none
  definitionBody : Option String := none
  description : Option String := none
  arguments : Option (List RoutineArgument) := none

def normalizeRoutineType (v : String) : String :=
  let v := toUpperStr (trimSpaceStr v)
  if v = "PROCEDURE" ∨ v = "TABLE_VALUED_FUNCTION" then v else "SCALAR_FUNCTION"

def normalizeRoutineLanguage (v : String) : String :=
  if equalFold (trimSpaceStr v) "JAVASCRIPT" then "JAVASCRIPT" else "SQL"

abbrev RoutineService := ObjectService RoutineRecord

def routineKind : ObjectKind RoutineInsert RoutinePatch RoutineRecord where
  insertPath input := (input.projectID, input.datasetID, input.routineID)
  create now projectID datasetID routineID input :=
    { projectID, datasetID, routineID
      routineType := normalizeRoutineType input.routineType
      language := normalizeRoutineLanguage input.language
      definitionBody := input.definitionBody
      description := trimSpaceStr input.description
      arguments := input.arguments
      createdAt := now
      updatedAt := now
      version := 1 }
  patchPath input := (input.projectID, input.datasetID, input.routineID)
  change now input rec_ :=
    { rec_ with
      routineType := (input.routineType.map normalizeRoutineType).getD rec_.routineType
      language := (input.language.map normalizeRoutineLanguage).getD rec_.language
      definitionBody := input.definitionBody.getD rec_.definitionBody
      description := (input.description.map trimSpaceStr).getD rec_.description
      arguments := input.arguments.getD rec_.arguments
      updatedAt := now
      version := rec_.version + 1 }

structure ModelRecord where
  projectID : String
  datasetID : String
  modelID : String
  modelType : String
  friendlyName : String
  description : String
  labels : GoMap String String
  createdAt : Time
  updatedAt : Time
  version : Nat

structure ModelInsert where
  projectID : String
  datasetID : String
  modelID : String
  modelType : String := ""
  friendlyName : String := ""
  description : String := ""
  labels : GoMap String String := ∅

/-- `modelPatch`; a field is present where its `Has` flag is set. -/
structure ModelPatch where
  projectID : String
  datasetID : String
  modelID : String
  friendlyName : Option String := none
  description : Option String := none
  labels : Option (GoMap String String) := none

abbrev ModelService := ObjectService ModelRecord

def modelKind : ObjectKind ModelInsert ModelPatch ModelRecord where
  insertPath input := (input.projectID, input.datasetID, input.modelID)
  create now projectID datasetID modelID input :=
    { projectID, datasetID, modelID
      modelType := toUpperStr (trimSpaceStr input.modelType)
      friendlyName := trimSpaceStr input.friendlyName
      description := trimSpaceStr input.description
      labels := input.labels
      createdAt := now
      updatedAt := now
      version := 1 }
  patchPath input := (input.projectID, input.datasetID, input.modelID)
  change now input rec_ :=
    { rec_ with
      friendlyName := (input.friendlyName.map trimSpaceStr).getD rec_.friendlyName
      description := (input.description.map trimSpaceStr).getD rec_.description
      labels := input.labels.getD rec_.labels
      updatedAt := now
      version := rec_.version + 1 }

/-- A request to `routineService` or `modelService`; `get` stands for the listing too, which
returns what is there and changes nothing else. -/
inductive ObjectOp (ι π : Type) where
  | get (projectID datasetID id : String)
  | insert (input : ι)
  | patch (input : π)
  | delete (projectID datasetID id : String)

def ObjectService.apply {ι π α : Type} (kind : ObjectKind ι π α) (s : ObjectService α)
    (now : Time) : ObjectOp ι π → ObjectService α
  | .get p d id => (s.get p d id).1
  | .insert input => (s.insert kind now input).1
  | .patch input => (s.patch kind now input).1
  | .delete p d id => (s.delete p d id).1

/-! ## The system -/

/-- The step that created what is there. -/
structure Births where
  table : TableReference → Nat := fun _ => 0
  routine : String × String × String → Nat := fun _ => 0
  model : String × String × String → Nat := fun _ => 0

/-- Where a request to delete a dataset stands. -/
inductive Deletion where
  | counted (projectID datasetID : String) (tableCount : Nat)
  | removed (projectID datasetID : String) (at_ : Nat)
  | refused (status : Nat) (message reason : String)
  | noContent
deriving Repr, DecidableEq

/-- The services, the requests that are under way, and what has happened: the number of steps,
the births, and the deletions that were answered with `204`, with the step that removed the
dataset. -/
structure State where
  tables : TableService := {}
  datasets : DatasetService := {}
  routines : RoutineService := {}
  models : ModelService := {}
  requests : List Deletion := []
  clock : Nat := 0
  born : Births := {}
  deleted : List (String × String × Nat) := []

inductive Label where
  | catalog (now : Time) (op : CatalogOp)
  | routine (now : Time) (op : ObjectOp RoutineInsert RoutinePatch)
  | model (now : Time) (op : ObjectOp ModelInsert ModelPatch)
  | insertDataset (input : DatasetInsert)
  | patchDataset (input : DatasetPatch)
  | undeleteDataset (projectID datasetID : String)
  | deleteDataset (now : Time) (projectID datasetID : String) (deleteContents : Bool)
  | remove (k : Nat)
  | clear (k : Nat) (now : Time)

/-- The births after a step: what is there stays as old as it is, what was moved is as old as it
was where it came from, and the rest is new. -/
def births {κ : Type} (present : κ → Bool) (born : κ → Nat) (clock : Nat) (origin : κ → κ)
    (k : κ) : Nat :=
  if present k then born k else if present (origin k) then born (origin k) else clock

/-- Where a table comes from that an operation moves. -/
def origin (op : CatalogOp) (path : TableReference) : TableReference :=
  match op with
  | .renameTableIfVersion at_ newTableID _ =>
    if path = { at_ with tableID := newTableID } then at_ else path
  | _ => path

def ObjectService.has {α : Type} (s : ObjectService α) (path : String × String × String) : Bool :=
  ((s.objects path.1 path.2.1).get? path.2.2).isSome

section

variable [GoFloat]

def State.catalog (s : State) (now : Time) (op : CatalogOp) : State :=
  { s with
    tables := (s.tables.apply now op).1
    born.table :=
      births (fun path => (s.tables.record? path).isSome) s.born.table s.clock (origin op) }

/-- `deleteDataset` up to its first answer: the tables are counted. -/
def State.countTables (s : State) (now : Time) (projectID datasetID : String)
    (deleteContents : Bool) : State × Deletion :=
  let tableCount := (s.tables.datasetTableCount now projectID datasetID).2
  (s.catalog now (.datasetTableCount projectID datasetID),
    if tableCount > 0 ∧ deleteContents = false then
      .refused 400 (s!"Dataset {projectID}:{datasetID} still contains {tableCount} table(s); " ++
        "pass deleteContents=true to delete them along with the dataset") "invalid"
    else .counted projectID datasetID tableCount)

/-- The dataset is removed; tables that were counted are still to be cleared. -/
def State.removeDataset (s : State) (k : Nat) (projectID datasetID : String) (tableCount : Nat) :
    State :=
  let (datasets, removed) := s.datasets.delete projectID datasetID
  let s := { s with datasets }
  if removed then
    if tableCount > 0 then
      { s with requests := s.requests.set k (.removed projectID datasetID s.clock) }
    else
      { s with
        requests := s.requests.set k .noContent
        deleted := (projectID, datasetID, s.clock) :: s.deleted }
  else
    let answer := .refused 404 s!"Not found: Dataset {projectID}:{datasetID}" "notFound"
    { s with requests := s.requests.set k answer }

def act (s : State) : Label → Option State
  | .catalog now op => some (s.catalog now op)
  | .routine now op =>
    some { s with
      routines := s.routines.apply routineKind now op
      born.routine := births s.routines.has s.born.routine s.clock id }
  | .model now op =>
    some { s with
      models := s.models.apply modelKind now op
      born.model := births s.models.has s.born.model s.clock id }
  | .insertDataset input => some { s with datasets := (s.datasets.insert input).1 }
  | .patchDataset input => some { s with datasets := (s.datasets.patch input).1 }
  | .undeleteDataset p d => some { s with datasets := (s.datasets.undelete p d).1 }
  | .deleteDataset now p d deleteContents =>
    let (s, deletion) := s.countTables now p d deleteContents
    some { s with requests := s.requests ++ [deletion] }
  | .remove k =>
    match s.requests[k]? with
    | some (.counted p d tableCount) => some (s.removeDataset k p d tableCount)
    | _ => none
  | .clear k now =>
    match s.requests[k]? with
    | some (.removed p d at_) =>
      let s := s.catalog now (.deleteAllForDataset p d)
      some { s with
        requests := s.requests.set k .noContent
        deleted := (p, d, at_) :: s.deleted }
    | _ => none

/-- One step; the steps are numbered. -/
def step (s : State) (label : Label) : Option State :=
  (act s label).map fun s => { s with clock := s.clock + 1 }

end

/-! ## Ages -/

section

variable {κ : Type} {home : κ → String × String} {present present' : κ → Bool}
  {born born' : κ → Nat} {clock c : Nat} {dataset : String × String}

/-- What a step makes of the things of one kind and of their births. -/
inductive Aged (home : κ → String × String) (clock : Nat) (present : κ → Bool) (born : κ → Nat) :
    (κ → Bool) → (κ → Nat) → Prop where
  | same : Aged home clock present born present born
  | change {origin : κ → κ} (present' : κ → Bool) : (∀ k, home (origin k) = home k) →
      Aged home clock present born present' (births present born clock origin)

/-- The things of the dataset are from step `c` or later. -/
def Since (home : κ → String × String) (present : κ → Bool) (born : κ → Nat)
    (dataset : String × String) (c : Nat) : Prop :=
  ∀ k, home k = dataset → present k → c ≤ born k

theorem Since.aged (h : Since home present born dataset c) (past : c ≤ clock)
    (aged : Aged home clock present born present' born') : Since home present' born' dataset c := by
  cases aged with
  | same => exact h
  | change present' stays =>
    intro k here _
    rw [births]
    split
    next there => exact h k here there
    · split
      next there => exact h _ ((stays k).trans here) there
      · exact past

/-- What is there was created before. -/
def Dated (present : κ → Bool) (born : κ → Nat) (clock : Nat) : Prop :=
  ∀ k, present k → born k < clock

theorem Dated.aged (h : Dated present born clock)
    (aged : Aged home clock present born present' born') : Dated present' born' (clock + 1) := by
  cases aged with
  | same => exact fun k there => Nat.lt_succ_of_lt (h k there)
  | change present' stays =>
    intro k _
    rw [births]
    split
    next there => exact Nat.lt_succ_of_lt (h k there)
    · split
      next there => exact Nat.lt_succ_of_lt (h _ there)
      · exact Nat.lt_succ_self clock

end

def tableHome (path : TableReference) : String × String := (path.projectID, path.datasetID)

def objectHome (path : String × String × String) : String × String := (path.1, path.2.1)

def State.hasTable (s : State) (path : TableReference) : Bool := (s.tables.record? path).isSome

variable {s s' : State} {label : Label} {dataset : String × String} {c : Nat}

/-- What a step does to what there is. -/
structure Acts (s s' : State) : Prop where
  clock : s'.clock = s.clock
  table : Aged tableHome s.clock s.hasTable s.born.table s'.hasTable s'.born.table
  routine : Aged objectHome s.clock s.routines.has s.born.routine s'.routines.has s'.born.routine
  model : Aged objectHome s.clock s.models.has s.born.model s'.models.has s'.born.model

theorem tableHome_origin (op : CatalogOp) (path : TableReference) :
    tableHome (origin op path) = tableHome path := by
  cases op with
  | renameTableIfVersion at_ newTableID v =>
    rw [origin]
    split
    next is =>
      rw [is]
      rfl
    · rfl
  | _ => rfl

section

variable [GoFloat]

theorem acts (next : act s label = some s') : Acts s s' := by
  cases label with
  | catalog now op | deleteDataset now p d deleteContents =>
    cases next
    exact ⟨rfl, .change _ (tableHome_origin _), .same, .same⟩
  | routine now op =>
    cases next
    exact ⟨rfl, .same, .change _ fun _ => rfl, .same⟩
  | model now op =>
    cases next
    exact ⟨rfl, .same, .same, .change _ fun _ => rfl⟩
  | insertDataset input | patchDataset input | undeleteDataset p d =>
    cases next
    exact ⟨rfl, .same, .same, .same⟩
  | remove k =>
    rw [act] at next
    split at next
    · cases next
      rw [State.removeDataset]
      dsimp only
      split
      · split
        · exact ⟨rfl, .same, .same, .same⟩
        · exact ⟨rfl, .same, .same, .same⟩
      · exact ⟨rfl, .same, .same, .same⟩
    · cases next
  | clear k now =>
    rw [act] at next
    split at next
    · cases next
      exact ⟨rfl, .change _ (tableHome_origin _), .same, .same⟩
    · cases next

end

/-! ## Whole runs -/

/-- The routines and models of the dataset are from step `c` or later. -/
structure ObjectsSince (s : State) (dataset : String × String) (c : Nat) : Prop where
  past : c ≤ s.clock
  routine : Since objectHome s.routines.has s.born.routine dataset c
  model : Since objectHome s.models.has s.born.model dataset c

/-- The tables and views too. -/
structure AllSince (s : State) (dataset : String × String) (c : Nat) : Prop
    extends ObjectsSince s dataset c where
  table : Since tableHome s.hasTable s.born.table dataset c

theorem ObjectsSince.acts (h : ObjectsSince s dataset c) (acts : Acts s s') :
    ObjectsSince s' dataset c where
  past := acts.clock ▸ h.past
  routine := h.routine.aged h.past acts.routine
  model := h.model.aged h.past acts.model

theorem AllSince.acts (h : AllSince s dataset c) (acts : Acts s s') : AllSince s' dataset c where
  toObjectsSince := h.toObjectsSince.acts acts
  table := h.table.aged h.past acts.table

/-- The number of a state that is reached grows. -/
theorem AllSince.tick (h : AllSince s dataset c) :
    AllSince { s with clock := s.clock + 1 } dataset c :=
  ⟨⟨Nat.le_succ_of_le h.past, h.routine, h.model⟩, h.table⟩

/-- Everything there is was created by an earlier step. -/
structure AllDated (s : State) : Prop where
  table : Dated s.hasTable s.born.table s.clock
  routine : Dated s.routines.has s.born.routine s.clock
  model : Dated s.models.has s.born.model s.clock

/-- A dataset without routines and models. -/
theorem objectsSince_of_none {d : String} (routines : ∀ id, (s.routines.get p d id).2 = none)
    (models : ∀ id, (s.models.get p d id).2 = none) : ObjectsSince s (p, d) s.clock := by
  refine ⟨Nat.le_refl _, fun path here there => ?_, fun path here there => ?_⟩
  · cases here
    rw [ObjectService.has, show GoMap.get? _ path.2.2 = none from routines path.2.2] at there
    cases there
  · cases here
    rw [ObjectService.has, show GoMap.get? _ path.2.2 = none from models path.2.2] at there
    cases there

theorem record?_deleteAllForDataset (tables : TableService) {d : String} {path : TableReference}
    (here : tableHome path = (p, d)) : (tables.deleteAllForDataset p d).record? path = none := by
  rw [TableService.deleteAllForDataset]
  split
  next absent =>
    rw [TableService.record?, show (path.projectID, path.datasetID) = (p, d) from here, absent]
    rfl
  · rw [TableService.record?_bump, TableService.record?,
      show (path.projectID, path.datasetID) = (p, d) from here, GoMap.get?_delete_self]
    rfl

/-- What is known of the deletions, answered and under way. -/
structure Inv (s : State) : Prop where
  dated : AllDated s
  deleted : ∀ p d c, (p, d, c) ∈ s.deleted → AllSince s (p, d) c
  removed : ∀ p d c, .removed p d c ∈ s.requests → ObjectsSince s (p, d) c

section

variable [GoFloat]

/-- The dataset that is removed has no routine and no model, and no table if none was counted. -/
def Clean (s : State) : Label → Prop
  | .remove k => ∀ p d tableCount, s.requests[k]? = some (.counted p d tableCount) →
      (s.datasets.delete p d).2 = true →
      (tableCount = 0 → ∀ path, tableHome path = (p, d) → s.tables.record? path = none) ∧
        (∀ id, (s.routines.get p d id).2 = none) ∧ ∀ id, (s.models.get p d id).2 = none
  | _ => True

/-- A deletion that a step completes, or one whose dataset it removes. -/
theorem completes (h : Inv s) (clean : Clean s label) (next : act s label = some s') :
    (∀ p d c, (p, d, c) ∈ s'.deleted → (p, d, c) ∈ s.deleted ∨ AllSince s' (p, d) c) ∧
      ∀ p d c, .removed p d c ∈ s'.requests →
        .removed p d c ∈ s.requests ∨ ObjectsSince s' (p, d) c := by
  cases label with
  | catalog now op | routine now op | model now op
  | insertDataset input | patchDataset input | undeleteDataset p d =>
    cases next
    exact ⟨fun _ _ _ mem => .inl mem, fun _ _ _ mem => .inl mem⟩
  | deleteDataset now p d deleteContents =>
    cases next
    refine ⟨fun _ _ _ mem => .inl mem, fun p' d' c mem => ?_⟩
    rcases mem_append.mp mem with old | new
    · exact .inl old
    have is : .removed p' d' c = (s.countTables now p d deleteContents).2 :=
      mem_singleton.mp new
    rw [State.countTables] at is
    dsimp only at is
    split at is
    · cases is
    · cases is
  | remove k =>
    rw [act] at next
    split at next
    next p d tableCount found =>
      cases next
      have clean := clean p d tableCount found
      have onward {phase : Deletion} {p' d' : String} {c : Nat}
          (mem : .removed p' d' c ∈ s.requests.set k phase) :
          .removed p' d' c ∈ s.requests ∨ phase = .removed p' d' c := by
        rcases mem_or_eq_of_mem_set mem with old | new
        · exact .inl old
        · exact .inr new.symm
      rw [State.removeDataset]
      dsimp only
      split
      next removed =>
        obtain ⟨uncounted, routines, models⟩ := clean removed
        have objects := objectsSince_of_none routines models
        split
        · refine ⟨fun _ _ _ mem => .inl mem, fun p' d' c mem => ?_⟩
          rcases onward mem with old | new
          · exact .inl old
          · cases new
            exact .inr ⟨objects.past, objects.routine, objects.model⟩
        next none =>
          refine ⟨fun p' d' c mem => ?_, fun p' d' c mem => ?_⟩
          · rcases mem_cons.mp mem with new | old
            · cases new
              refine .inr ⟨⟨objects.past, objects.routine, objects.model⟩, ?_⟩
              intro path here there
              rw [State.hasTable, uncounted (Nat.eq_zero_of_not_pos none) path here] at there
              cases there
            · exact .inl old
          · rcases onward mem with old | new
            · exact .inl old
            · cases new
      · refine ⟨fun _ _ _ mem => .inl mem, fun p' d' c mem => ?_⟩
        rcases onward mem with old | new
        · exact .inl old
        · cases new
    · cases next
  | clear k now =>
    have acted := acts next
    rw [act] at next
    split at next
    next p d at_ found =>
      cases next
      refine ⟨fun p' d' c mem => ?_, fun p' d' c mem => ?_⟩
      · rcases mem_cons.mp mem with new | old
        · cases new
          have objects := h.removed p d at_ (mem_of_getElem? found)
          refine .inr ⟨objects.acts acted, fun path here there => ?_⟩
          have left : ((s.tables.deleteAllForDataset p d).record? path).isSome = true := there
          rw [record?_deleteAllForDataset s.tables here] at left
          cases left
        · exact .inl old
      · rcases mem_or_eq_of_mem_set mem with old | new
        · exact .inl old
        · cases new
    · cases next

/-- **One step.** -/
theorem inv_step (h : Inv s) (clean : Clean s label) (next : step s label = some s') : Inv s' := by
  obtain ⟨t, acted, is⟩ := Option.map_eq_some_iff.mp next
  obtain ⟨deleted, removed⟩ := completes h clean acted
  have acts := acts acted
  subst is
  refine ⟨?_, fun p d c mem => ?_, fun p d c mem => ?_⟩
  · refine ⟨?_, ?_, ?_⟩
    · exact acts.clock ▸ h.dated.table.aged acts.table
    · exact acts.clock ▸ h.dated.routine.aged acts.routine
    · exact acts.clock ▸ h.dated.model.aged acts.model
  · rcases deleted p d c mem with old | new
    · exact ((h.deleted p d c old).acts acts).tick
    · exact new.tick
  · have since : ObjectsSince t (p, d) c := by
      rcases removed p d c mem with old | new
      · exact (h.removed p d c old).acts acts
      · exact new
    exact ⟨Nat.le_succ_of_le since.past, since.routine, since.model⟩

/-- **Deleted contents stay deleted.**  In every state of every interleaving, everything there is
was created by an earlier step, and what a deleted dataset contains was created after the step
that removed it. -/
theorem newer_of_run {labels : List Label} {u : State} (run : Run.Exec step Clean {} labels u) :
    AllDated u ∧ ∀ p d c, (p, d, c) ∈ u.deleted →
        (∀ id t, u.tables.record? ⟨p, d, id⟩ = some t → c ≤ u.born.table ⟨p, d, id⟩) ∧
        (∀ id r, (u.routines.get p d id).2 = some r → c ≤ u.born.routine (p, d, id)) ∧
        ∀ id m, (u.models.get p d id).2 = some m → c ≤ u.born.model (p, d, id) := by
  have start : Inv {} := by
    refine ⟨⟨fun _ there => ?_, fun _ there => ?_, fun _ there => ?_⟩,
      fun _ _ _ mem => ?_, fun _ _ _ mem => ?_⟩
    · cases there
    · cases there
    · cases there
    · cases mem
    · cases mem
  have inv : Inv u := run.invariant (fun s label s' inv clean next => inv_step inv clean next) start
  refine ⟨inv.dated, fun p d c mem => ?_⟩
  have since := inv.deleted p d c mem
  refine ⟨fun id t found => ?_, fun id r found => ?_, fun id m found => ?_⟩
  · refine since.table _ rfl ?_
    rw [State.hasTable, found]
    rfl
  · refine since.routine _ rfl ?_
    rw [ObjectService.has, show GoMap.get? _ id = some r from found]
    rfl
  · refine since.model _ rfl ?_
    rw [ObjectService.has, show GoMap.get? _ id = some m from found]
    rfl

end

section

attribute [local instance] GoFloat.texts

def insertSales : Label := .insertDataset { projectID := "p", datasetID := "sales" }

def insertOrders : Label :=
  .catalog 1 (.insert { projectID := "p", datasetID := "sales", tableID := "orders" })

def insertTax : Label :=
  .routine 1 (.insert { projectID := "p", datasetID := "sales", routineID := "tax"
                        definitionBody := "x * 2" })

/-- The state that the labels lead to. -/
def follow (s : State) (labels : List Label) : State :=
  labels.foldl (fun s label => (step s label).getD s) s

/-- The tables of the dataset are counted, and the dataset is still there. -/
def counted : State := follow {} [insertSales, insertOrders, .deleteDataset 2 "p" "sales" true]

theorem clean_counted : Clean counted (.remove 0) := by
  intro p d tableCount found _
  have is : counted.requests[0]? = some (.counted "p" "sales" 5) := by decide +kernel
  rw [is] at found
  cases found
  refine ⟨fun none => ?_, fun id => rfl, fun id => rfl⟩
  cases none

theorem newer_of_run_contents :
    ∃ u, Run.Exec step Clean {} [insertSales, insertOrders, .deleteDataset 2 "p" "sales" true,
        .remove 0, .clear 0 3, insertSales, insertOrders] u ∧
      ("p", "sales", 3) ∈ u.deleted ∧
      (u.tables.record? ⟨"p", "sales", "orders"⟩).isSome ∧
      ∀ id t, u.tables.record? ⟨"p", "sales", id⟩ = some t →
        3 ≤ u.born.table ⟨"p", "sales", id⟩ := by
  have run : Run.Exec step Clean {} [insertSales, insertOrders,
      .deleteDataset 2 "p" "sales" true, .remove 0, .clear 0 3, insertSales, insertOrders]
      (follow counted [.remove 0, .clear 0 3, insertSales, insertOrders]) :=
    .cons trivial rfl (.cons trivial rfl (.cons trivial rfl (.cons clean_counted rfl
      (.cons trivial rfl (.cons trivial rfl (.cons trivial rfl .nil))))))
  have logged : ("p", "sales", 3) ∈
      (follow counted [.remove 0, .clear 0 3, insertSales, insertOrders]).deleted := by
    decide +kernel
  refine ⟨_, run, logged, ?_, ((newer_of_run run).2 "p" "sales" 3 logged).1⟩
  decide +kernel

/-- No table is counted, and one is inserted before the dataset is removed.  When the dataset is
undeleted, the table and the routine of the deleted dataset are there. -/
theorem contents_resurface :
    ∃ u, Run.Exec step (fun _ _ => True) {} [insertSales, insertTax,
        .deleteDataset 2 "p" "sales" false, insertOrders, .remove 0,
        .undeleteDataset "p" "sales"] u ∧
      ("p", "sales", 4) ∈ u.deleted ∧
      (u.tables.record? ⟨"p", "sales", "orders"⟩).isSome ∧
      u.born.table ⟨"p", "sales", "orders"⟩ = 3 ∧
      (u.routines.get "p" "sales" "tax").2.isSome ∧ u.born.routine ("p", "sales", "tax") = 1 := by
  refine ⟨_, .cons trivial rfl (.cons trivial rfl (.cons trivial rfl (.cons trivial rfl
    (.cons trivial rfl (.cons trivial rfl .nil))))), ?_⟩
  decide +kernel

end

end LocaQL.Datasets
