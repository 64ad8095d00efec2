import LocaQL.Engine.QueryCache
import LocaQL.Catalog.Invariants
import LocaQL.Lib.CycleCheck

/-!
# Resolving views

A table is resolved by reading its rows, and a view by running its query, for which all that
the query references is resolved first.  `resolveTableRowsVisiting`, `resolveAllRefs` and
`executeRealSQLQueryVisiting` call each other and share a set of the views under way, in which
a view is entered by a text that joins its dataset and table id.

What a query references, whether it filters a partitioned table, and what the engine makes of
it are parameters (`Backend`).  The recursion is bounded by fuel; `resolve_terminates` gives
an amount that is always enough, so that more of it makes no difference.
-/

namespace LocaQL.Views

open TableService List
open Option hiding get_congr

open CycleCheck (Outcome Walk)
open Relation (ReflTransGen TransGen)

/-- Columns and rows. -/
abbrev Data := List TableField × List Row

/-- An error of the resolution, with the errors it wraps. -/
inductive ResolveError where
  | circular (datasetID tableID : String)
  | view (datasetID tableID : String) (cause : ResolveError)
  | failed (cause : Failure)
deriving Repr

namespace ResolveError

def text : ResolveError → String
  | .circular datasetID tableID => s!"circular view reference detected at {datasetID}.{tableID}"
  | .view datasetID tableID cause =>
    let cause := cause.text
    s!"resolve view {datasetID}.{tableID}: {cause}"
  | .failed (.error text) => text
  | .failed (.panic text) => text

/-- Whether a circular view reference is reported. -/
def isCircular : ResolveError → Bool
  | .circular _ _ => true
  | .view _ _ cause => cause.isCircular
  | .failed _ => false

end ResolveError

/-- The tables and views that the queries of a project reference. -/
structure Project where
  projectID : String
  combinedTableRefs : String → List DatasetTableRef

namespace Project

def path (p : Project) (ref : DatasetTableRef) : TableReference :=
  ⟨p.projectID, ref.datasetID, ref.tableID⟩

/-- The text under which a view is marked as under way. -/
def key (p : Project) (ref : DatasetTableRef) : String :=
  p.projectID ++ ":" ++ ref.datasetID ++ "." ++ ref.tableID

end Project

/-- What a server makes of the queries of a project. -/
structure Backend extends Project where
  /-- The plan for a query, apart from its project and session. -/
  plan : String → MaterializationPlan
  /-- `readRowsFromURIs` with the settings of an external table. -/
  readRowsFromURIs : TableRecord → Except String (List Row)
  /-- The engine, over the tables that were resolved for a query. -/
  run : String → List ResolvedTableMaterialization → Result Data

/-- `materializationPlan` of a query; the queries of views run outside of any session. -/
def Backend.planOf (b : Backend) (query : String) (sess : Option (String → Option Data)) :
    MaterializationPlan :=
  { b.plan query with projectID := b.projectID, sess := sess }

/-- The catalog, and the views under way. -/
structure State where
  tables : TableService
  visiting : Finset String := ∅

/-- What a resolution ends with, unless it runs out of fuel. -/
abbrev Step (α : Type) := Option (State × Except ResolveError α)

section Model

variable [GoFloat] {s : TableService} {now : Time}

/-! ## The functions of the resolution -/

/-- What `resolveTableForMaterialization` makes of the rows of a table. -/
def resolvedFrom (plan : MaterializationPlan) (ref : DatasetTableRef)
    (catalogTable : Option TableRecord) :
    Except ResolveError (Option Data) → Except ResolveError ResolvedTableMaterialization
  | .error err => .error err
  | .ok none => .ok (unversioned ref none)
  | .ok (some (fields, rows)) => .ok (resolveFound plan ref catalogTable fields rows)

/-- Whether a reference names a temporary table of the session. -/
def isTemporary (plan : MaterializationPlan) (ref : DatasetTableRef) : Bool :=
  plan.sess.isSome && GoText.equalFold ref.datasetID sessionDatasetName

def resolveTableForMaterialization (resolve : State → DatasetTableRef → Step (Option Data))
    (now : Time) (plan : MaterializationPlan) (s : State) (ref : DatasetTableRef) :
    Step ResolvedTableMaterialization :=
  match catalogTableForRef s.tables now plan ref true with
  | (tables, .error err) => some ({ s with tables := tables }, .error (.failed err))
  | (tables, .ok catalogTable) =>
    let s := { s with tables := tables }
    if isTemporary plan ref then
      some (s, .ok (unversioned ref (plan.sess.bind fun getTempTable => getTempTable ref.tableID)))
    else (resolve s ref).map fun r => (r.1, resolvedFrom plan ref catalogTable r.2)

def resolveAllRefs (resolve : State → DatasetTableRef → Step (Option Data)) (now : Time)
    (plan : MaterializationPlan) (s : State) :
    List DatasetTableRef → Step (List ResolvedTableMaterialization)
  | [] => some (s, .ok [])
  | ref :: refs =>
    (resolveTableForMaterialization resolve now plan s ref).bind fun
      | (s, .error err) => some (s, .error err)
      | (s, .ok r) =>
        (resolveAllRefs resolve now plan s refs).map fun rest => (rest.1, rest.2.map (r :: ·))

/-- `executeRealSQLQueryVisiting`. -/
def executeRealSQLQueryVisiting (resolve : State → DatasetTableRef → Step (Option Data))
    (b : Backend) (now : Time) (query : String) (sess : Option (String → Option Data))
    (s : State) : Step Data :=
  (resolveAllRefs resolve now (b.planOf query sess) s (b.combinedTableRefs query)).map fun r =>
    (r.1, r.2.bind fun resolved => (b.run query resolved).mapError .failed)

/-- The deferred `delete(visiting, key)`. -/
def State.leave (s : State) (key : String) : State :=
  { s with visiting := s.visiting.erase key }

def externalError (ref : DatasetTableRef) (err : String) : ResolveError :=
  let datasetID := ref.datasetID
  let tableID := ref.tableID
  .failed (.error s!"failed to read external table {datasetID}.{tableID} from sourceUris: {err}")

def resolveTableRowsVisiting (b : Backend) (now : Time) :
    Nat → State → DatasetTableRef → Step (Option Data)
  | 0, _, _ => none
  | fuel + 1, s, ref =>
    match s.tables.get now (b.path ref) with
    | (tables, none) => some (⟨tables, s.visiting⟩, .ok none)
    | (tables, some record) =>
      match record.view with
      | some view =>
        if b.key ref ∈ s.visiting then
          some (⟨tables, s.visiting⟩, .error (.circular ref.datasetID ref.tableID))
        else
          (executeRealSQLQueryVisiting (resolveTableRowsVisiting b now fuel) b now
              view.query none ⟨tables, insert (b.key ref) s.visiting⟩).map fun r =>
            (r.1.leave (b.key ref),
              (r.2.mapError (.view ref.datasetID ref.tableID)).map some)
      | none =>
        if record.external.isSome then
          some (⟨tables, s.visiting⟩,
            ((b.readRowsFromURIs record).mapError (externalError ref)).map fun rows =>
              some (record.schema, rows))
        else
          let r := tables.getData now (b.path ref)
          some (⟨r.1, s.visiting⟩, .ok r.2)

/-! ## Reading the catalog on the way -/

/-- Reading finds the same tables in both catalogs. -/
def Same (now : Time) (s s' : TableService) : Prop :=
  ∀ path, (s'.get now path).2 = (s.get now path).2

theorem get_congr {s' : TableService} {path : TableReference}
    (same : s.datasets.get? (path.projectID, path.datasetID) =
      s'.datasets.get? (path.projectID, path.datasetID)) :
    (s.get now path).2 = (s'.get now path).2 := by
  simp only [TableService.get, record?, datasets_purge, datasets_ensure, same]

/-- What is found at a path does not depend on what was read before. -/
theorem Same.get {s₀ : TableService} (same : Same now s₀ s) (path : TableReference) :
    Same now s₀ (s.get now path).1 := by
  intro at_
  rw [← same at_]
  by_cases here : (at_.projectID, at_.datasetID) = (path.projectID, path.datasetID)
  · obtain ⟨project, dataset⟩ := Prod.mk.inj here
    have both : (s.get now path).1 = (s.get now at_).1 := by
      rw [TableService.get, TableService.get, project, dataset]
    rw [both, get_snd, get_of_settled (settled_get ..), get_snd]
  · exact get_congr (datasets_get_ne here)

theorem Same.catalogTableForRef {s₀ s' : TableService} (same : Same now s₀ s)
    {plan : MaterializationPlan} {ref : DatasetTableRef} {check : Bool}
    {found : Result (Option TableRecord)}
    (h : LocaQL.catalogTableForRef s now plan ref check = (s', found)) : Same now s₀ s' := by
  have reads := same.get (plan.path ref)
  rw [LocaQL.catalogTableForRef] at h
  split at h
  · cases h
    exact same
  split at h
  next tables read =>
    cases h
    rwa [read] at reads
  next tables table read =>
    rw [read] at reads
    split at h
    · cases h
      exact reads
    · cases h
      exact reads

/-! ## The walk over the references -/

/-- The views of a catalog with what their queries reference, and their keys. -/
def viewGraph (p : Project) (now : Time) (s : TableService) : CycleCheck.Graph DatasetTableRef String where
  children ref := ((s.get now (p.path ref)).2.bind (·.view)).map (p.combinedTableRefs ·.query)
  key := p.key

/-- What a result says about cycles. -/
def outcome {α : Type} : Except ResolveError α → Outcome
  | .ok _ => .ok
  | .error err => if err.isCircular then .circular else .failed

/-- A resolver of tables and views whose results are those of a walk over the views. -/
def Walks (p : Project) (now : Time) (s₀ : TableService)
    (resolve : State → DatasetTableRef → Step (Option Data)) : Prop :=
  ∀ s ref s' r, Same now s₀ s.tables → resolve s ref = some (s', r) →
    Same now s₀ s'.tables ∧ s'.visiting = s.visiting ∧
      Walk (viewGraph p now s₀) s.visiting ref (outcome r)

variable {p : Project} {b : Backend} {now : Time} {s₀ : TableService}
  {resolve : State → DatasetTableRef → Step (Option Data)} {plan : MaterializationPlan}
  {s s' : State} {found : Outcome} {visiting : Finset String}

omit [GoFloat] in
theorem outcome_resolvedFrom (ref : DatasetTableRef) (catalogTable : Option TableRecord)
    (r : Except ResolveError (Option Data)) :
    outcome (resolvedFrom plan ref catalogTable r) = outcome r := by
  cases r with
  | error err => rfl
  | ok found =>
    cases found with
    | none => rfl
    | some data => rfl

/-- What one reference of a query contributes. -/
structure RefWalk (p : Project) (now : Time) (s₀ : TableService) (plan : MaterializationPlan)
    (visiting : Finset String) (ref : DatasetTableRef) (found : Outcome) : Prop where
  stored : isTemporary plan ref = false → Walk (viewGraph p now s₀) visiting ref found
  temporary : isTemporary plan ref = true → found ≠ .circular

theorem Walks.ref (walks : Walks p now s₀ resolve) {ref : DatasetTableRef}
    {r : Except ResolveError ResolvedTableMaterialization} (same : Same now s₀ s.tables)
    (h : resolveTableForMaterialization resolve now plan s ref = some (s', r)) :
    Same now s₀ s'.tables ∧ s'.visiting = s.visiting ∧
      RefWalk p now s₀ plan s.visiting ref (outcome r) := by
  rw [resolveTableForMaterialization] at h
  split at h
  next tables err read =>
    cases h
    exact ⟨same.catalogTableForRef read, rfl, fun _ => .fails, fun _ => nofun⟩
  next tables catalogTable read =>
    have reads := same.catalogTableForRef read
    split at h
    next temp =>
      cases h
      exact ⟨reads, rfl, fun stored => absurd (temp.symm.trans stored) nofun, fun _ => nofun⟩
    next stored =>
      obtain ⟨⟨t, found⟩, resolved, is⟩ := map_eq_some_iff.mp h
      cases is
      obtain ⟨reads, kept, walk⟩ := walks ⟨tables, s.visiting⟩ ref t found reads resolved
      refine ⟨reads, kept, fun _ => ?_, fun temp => absurd temp stored⟩
      rw [outcome_resolvedFrom]
      exact walk

/-- What the references of a query contribute. -/
structure RefsWalk (p : Project) (now : Time) (s₀ : TableService) (plan : MaterializationPlan)
    (visiting : Finset String) (refs : List DatasetTableRef) (found : Outcome) : Prop where
  all : found = .ok → ∀ ref ∈ refs, isTemporary plan ref = false →
    Walk (viewGraph p now s₀) visiting ref .ok
  some_ : found = .circular → ∃ ref ∈ refs, isTemporary plan ref = false ∧
    Walk (viewGraph p now s₀) visiting ref .circular

/-- The first reference stops the loop, or it goes on with the others. -/
theorem RefsWalk.stop {ref : DatasetTableRef} {refs : List DatasetTableRef}
    (first : RefWalk p now s₀ plan visiting ref found) (not_ok : found ≠ .ok) :
    RefsWalk p now s₀ plan visiting (ref :: refs) found where
  all ok := absurd ok not_ok
  some_ circular := by
    cases temp : isTemporary plan ref with
    | true => exact absurd circular (first.temporary temp)
    | false => exact ⟨ref, mem_cons_self, temp, circular ▸ first.stored temp⟩

theorem RefsWalk.cons {ref : DatasetTableRef} {refs : List DatasetTableRef}
    (first : RefWalk p now s₀ plan visiting ref .ok)
    (rest : RefsWalk p now s₀ plan visiting refs found) :
    RefsWalk p now s₀ plan visiting (ref :: refs) found where
  all ok := by
    intro ref' mem stored
    rcases mem_cons.mp mem with rfl | mem
    · exact first.stored stored
    · exact rest.all ok ref' mem stored
  some_ circular := by
    obtain ⟨ref', mem, rest⟩ := rest.some_ circular
    exact ⟨ref', mem_cons_of_mem _ mem, rest⟩

omit [GoFloat] in
theorem outcome_map {α β : Type} (f : α → β) (r : Except ResolveError α) :
    outcome (r.map f) = outcome r := by
  cases r with
  | error err => rfl
  | ok a => rfl

section

variable (walks : Walks p now s₀ resolve) (same : Same now s₀ s.tables)

include walks same

theorem Walks.refs {refs : List DatasetTableRef}
    {r : Except ResolveError (List ResolvedTableMaterialization)}
    (h : resolveAllRefs resolve now plan s refs = some (s', r)) :
    Same now s₀ s'.tables ∧ s'.visiting = s.visiting ∧
      RefsWalk p now s₀ plan s.visiting refs (outcome r) := by
  induction refs generalizing s r with
  | nil =>
    cases h
    exact ⟨same, rfl, fun _ _ mem => absurd mem not_mem_nil, nofun⟩
  | cons ref refs ih =>
    rw [resolveAllRefs] at h
    obtain ⟨⟨t, found⟩, first, rest⟩ := bind_eq_some_iff.mp h
    obtain ⟨reads, kept, walk⟩ := walks.ref same first
    cases found with
    | error err =>
      cases rest
      refine ⟨reads, kept, .stop walk ?_⟩
      rw [outcome]
      split <;> exact nofun
    | ok resolved =>
      obtain ⟨⟨u, others⟩, later, is⟩ := map_eq_some_iff.mp rest
      cases is
      obtain ⟨reads, kept', walks'⟩ := ih reads later
      rw [outcome_map]
      rw [kept] at walks'
      exact ⟨reads, kept'.trans kept, .cons walk walks'⟩

/-- What a query contributes, once its references are resolved and it has run. -/
theorem Walks.query {query : String} {sess : Option (String → Option Data)}
    {r : Except ResolveError Data}
    (h : executeRealSQLQueryVisiting resolve b now query sess s = some (s', r)) :
    Same now s₀ s'.tables ∧ s'.visiting = s.visiting ∧
      RefsWalk p now s₀ (b.planOf query sess) s.visiting (b.combinedTableRefs query)
        (outcome r) := by
  obtain ⟨⟨t, resolved⟩, all, is⟩ := map_eq_some_iff.mp h
  cases is
  obtain ⟨reads, kept, walk⟩ := walks.refs same all
  refine ⟨reads, kept, ?_⟩
  cases resolved with
  | error err => exact walk
  | ok tables =>
    cases ran : b.run query tables with
    | error err =>
      have failed : outcome ((Except.ok tables : Except ResolveError _).bind fun resolved =>
          (b.run query resolved).mapError .failed) = .failed := by
        simp [Except.bind, ran, Except.mapError, outcome, ResolveError.isCircular]
      rw [failed]
      exact ⟨nofun, nofun⟩
    | ok data =>
      have ok : outcome ((Except.ok tables : Except ResolveError _).bind fun resolved =>
          (b.run query resolved).mapError .failed) = .ok := by
        simp [Except.bind, ran, Except.mapError, outcome]
      rw [ok]
      exact walk

end

omit [GoFloat] in
/-- The queries of views see no temporary tables. -/
theorem isTemporary_planOf_none (b : Backend) (query : String) (ref : DatasetTableRef) :
    isTemporary (b.planOf query none) ref = false := rfl

omit [GoFloat] in
/-- The error of a view's query is the error of the view. -/
theorem outcome_view {α : Type} (datasetID tableID : String) (r : Except ResolveError α) :
    outcome (r.mapError (.view datasetID tableID)) = outcome r := by
  cases r with
  | error err => rfl
  | ok a => rfl

theorem children_viewGraph {ref : DatasetTableRef} {found : Option TableRecord}
    (h : found = (s₀.get now (p.path ref)).2) :
    (viewGraph p now s₀).children ref =
      (found.bind (·.view)).map (p.combinedTableRefs ·.query) := by
  rw [h, viewGraph]

/-- A view that is not under way is as good as the references of its query. -/
theorem walk_of_refs {ref : DatasetTableRef} {query : String}
    (children : (viewGraph b.toProject now s₀).children ref = some (b.combinedTableRefs query))
    (fresh : b.key ref ∉ visiting)
    (refs : RefsWalk b.toProject now s₀ (b.planOf query none) (insert (b.key ref) visiting)
      (b.combinedTableRefs query) found) :
    Walk (viewGraph b.toProject now s₀) visiting ref found := by
  cases found with
  | ok =>
    refine .succeeds fresh fun c edge => ?_
    obtain ⟨cs, is, mem⟩ := edge
    rw [children] at is
    cases is
    exact refs.all rfl c mem (isTemporary_planOf_none b query c)
  | circular =>
    obtain ⟨c, mem, -, walk⟩ := refs.some_ rfl
    exact .descends ⟨_, children, mem⟩ walk
  | failed => exact .fails

theorem walks_resolveTableRowsVisiting (b : Backend) (now : Time) (s₀ : TableService) (fuel : Nat) :
    Walks b.toProject now s₀ (resolveTableRowsVisiting b now fuel) := by
  induction fuel with
  | zero => exact nofun
  | succ fuel ih =>
    intro s ref s' r same h
    have reads := same.get (b.path ref)
    have found := same (b.path ref)
    rw [resolveTableRowsVisiting] at h
    split at h
    next tables read =>
      rw [read] at reads found
      cases h
      exact ⟨reads, rfl, .leaf (children_viewGraph found)⟩
    next tables record read =>
      rw [read] at reads found
      split at h
      next view is =>
        have children : (viewGraph b.toProject now s₀).children ref =
            some (b.combinedTableRefs view.query) := by
          rw [children_viewGraph found, bind_some, is, map_some]
        split at h
        next below =>
          cases h
          exact ⟨reads, rfl, .closes (isSome_of_mem children) below⟩
        next fresh =>
          obtain ⟨⟨t, ran⟩, executed, is⟩ := map_eq_some_iff.mp h
          cases is
          obtain ⟨reads, kept, walk⟩ := ih.query (s := ⟨tables, _⟩) reads executed
          refine ⟨reads, ?_, ?_⟩
          · simp only [State.leave, kept]
            exact Finset.erase_insert fresh
          · rw [outcome_map, outcome_view]
            exact walk_of_refs children fresh walk
      next leaf =>
        have children : (viewGraph b.toProject now s₀).children ref = none := by
          rw [children_viewGraph found, bind_some, leaf, map_none]
        split at h
        · cases h
          refine ⟨reads, rfl, ?_⟩
          cases b.readRowsFromURIs record with
          | error err => exact .fails
          | ok rows => exact .leaf children
        · cases h
          exact ⟨reads.get (b.path ref), rfl, .leaf children⟩

/-! ## Termination -/

/-- A resolver that returns as long as the views under way are `visiting`. -/
def Returns (now : Time) (s₀ : TableService) (visiting : Finset String)
    (resolve : State → DatasetTableRef → Step (Option Data)) : Prop :=
  ∀ s ref, Same now s₀ s.tables → s.visiting = visiting → (resolve s ref).isSome

variable {visiting : Finset String}

section

variable (returns : Returns now s₀ visiting resolve)

include returns

theorem Returns.ref (ref : DatasetTableRef) (same : Same now s₀ s.tables)
    (is : s.visiting = visiting) :
    (resolveTableForMaterialization resolve now plan s ref).isSome := by
  rw [resolveTableForMaterialization]
  split
  · rfl
  next tables catalogTable read =>
    split
    · rfl
    · rw [isSome_map]
      exact returns ⟨tables, s.visiting⟩ ref (same.catalogTableForRef read) is

theorem Returns.refs (walks : Walks p now s₀ resolve) (refs : List DatasetTableRef)
    (same : Same now s₀ s.tables) (is : s.visiting = visiting) :
    (resolveAllRefs resolve now plan s refs).isSome := by
  induction refs generalizing s with
  | nil => rfl
  | cons ref refs ih =>
    have some : (resolveTableForMaterialization resolve now plan s ref).isSome :=
      returns.ref ref same is
    obtain ⟨⟨t, found⟩, first⟩ := isSome_iff_exists.mp some
    obtain ⟨reads, kept, -⟩ := walks.ref same first
    rw [resolveAllRefs, first, bind_some]
    cases found with
    | error err => rfl
    | ok resolved =>
      dsimp only
      rw [isSome_map]
      exact ih reads (kept.trans is)

theorem Returns.query (walks : Walks p now s₀ resolve) (query : String)
    (sess : Option (String → Option Data)) (same : Same now s₀ s.tables)
    (is : s.visiting = visiting) :
    (executeRealSQLQueryVisiting resolve b now query sess s).isSome := by
  rw [executeRealSQLQueryVisiting, isSome_map]
  exact returns.refs walks _ same is

end

/-- Each view on the way down has a key of its own, so the fuel lasts. -/
theorem returns_resolveTableRowsVisiting {keys : Finset String}
    (known : ∀ ref, (viewGraph b.toProject now s₀).Inner ref → b.key ref ∈ keys) (fuel : Nat)
    (visiting : Finset String) (enough : (keys \ visiting).card < fuel) :
    Returns now s₀ visiting (resolveTableRowsVisiting b now fuel) := by
  induction fuel generalizing visiting with
  | zero => exact absurd enough (Nat.not_lt_zero _)
  | succ fuel ih =>
    intro s ref same is
    have reads := same.get (b.path ref)
    have found := same (b.path ref)
    rw [resolveTableRowsVisiting]
    split
    · rfl
    next tables record read =>
      rw [read] at reads found
      split
      next view isView =>
        split
        · rfl
        next fresh =>
          have inner : (viewGraph b.toProject now s₀).Inner ref := by
            rw [CycleCheck.Graph.Inner, children_viewGraph found, bind_some, isView]
            rfl
          have fewer : (keys \ insert (b.key ref) visiting).card <
              (keys \ visiting).card := by
            rw [Finset.sdiff_insert]
            exact Finset.card_erase_lt_of_mem
              (Finset.mem_sdiff.mpr ⟨known ref inner, is ▸ fresh⟩)
          rw [isSome_map]
          exact (ih (insert (b.key ref) visiting) (by omega)).query
            (walks_resolveTableRowsVisiting b now s₀ fuel) view.query none reads
            (congrArg (insert (b.key ref)) is)
      · split
        · rfl
        · rfl

/-- What one resolver returns, the other returns too. -/
def Extends (resolve resolve' : State → DatasetTableRef → Step (Option Data)) : Prop :=
  ∀ s ref r, resolve s ref = some r → resolve' s ref = some r

variable {resolve' : State → DatasetTableRef → Step (Option Data)}

section

variable (more : Extends resolve resolve')

include more

theorem Extends.ref {ref : DatasetTableRef}
    {r : State × Except ResolveError ResolvedTableMaterialization}
    (h : resolveTableForMaterialization resolve now plan s ref = some r) :
    resolveTableForMaterialization resolve' now plan s ref = some r := by
  rw [resolveTableForMaterialization] at h ⊢
  split at h
  · exact h
  split at h
  next temp => rw [if_pos temp, h]
  next stored =>
    obtain ⟨found, resolved, is⟩ := map_eq_some_iff.mp h
    rw [if_neg stored, more _ _ _ resolved, map_some, is]

theorem Extends.refs (refs : List DatasetTableRef)
    {r : State × Except ResolveError (List ResolvedTableMaterialization)}
    (h : resolveAllRefs resolve now plan s refs = some r) :
    resolveAllRefs resolve' now plan s refs = some r := by
  induction refs generalizing s r with
  | nil => exact h
  | cons ref refs ih =>
    rw [resolveAllRefs] at h ⊢
    obtain ⟨⟨t, found⟩, first, rest⟩ := bind_eq_some_iff.mp h
    rw [more.ref first, bind_some]
    cases found with
    | error err => exact rest
    | ok resolved =>
      obtain ⟨others, later, is⟩ := map_eq_some_iff.mp rest
      dsimp only
      rw [ih later, map_some, is]

theorem Extends.query {query : String} {sess : Option (String → Option Data)}
    {r : State × Except ResolveError Data}
    (h : executeRealSQLQueryVisiting resolve b now query sess s = some r) :
    executeRealSQLQueryVisiting resolve' b now query sess s = some r := by
  obtain ⟨all, resolved, is⟩ := map_eq_some_iff.mp h
  rw [executeRealSQLQueryVisiting, more.refs _ resolved, map_some, is]

end

/-- More fuel makes no difference to a resolution that returns. -/
theorem extends_succ (b : Backend) (now : Time) (fuel : Nat) :
    Extends (resolveTableRowsVisiting b now fuel) (resolveTableRowsVisiting b now (fuel + 1)) := by
  induction fuel with
  | zero => exact nofun
  | succ fuel ih =>
    intro s ref r h
    rw [resolveTableRowsVisiting] at h ⊢
    split at h
    · exact h
    split at h
    · split at h
      next below => rw [if_pos below, h]
      next fresh =>
        obtain ⟨ran, executed, is⟩ := map_eq_some_iff.mp h
        rw [if_neg fresh, ih.query executed, map_some, is]
    · exact h

theorem extends_of_le (b : Backend) (now : Time) {fuel fuel' : Nat} (le : fuel ≤ fuel') :
    Extends (resolveTableRowsVisiting b now fuel) (resolveTableRowsVisiting b now fuel') := by
  induction le with
  | refl => exact fun _ _ _ h => h
  | step _ ih => exact fun s ref r h => extends_succ b now _ s ref r (ih s ref r h)

/-! ## The tables of a project -/

/-- The keys of all tables and views that a catalog has for the project. -/
def tableKeys (p : Project) (s : TableService) : Finset String :=
  (s.datasets.entries.flatMap fun dataset => dataset.2.keys.map fun tableID =>
    p.key ⟨dataset.1.2, tableID⟩).toFinset

omit [GoFloat] in
theorem mem_tableKeys {s : TableService} {ref : DatasetTableRef}
    (there : (s.record? (p.path ref)).isSome) : p.key ref ∈ tableKeys p s := by
  obtain ⟨record, there⟩ := isSome_iff_exists.mp there
  obtain ⟨tables, dataset, table⟩ := bind_eq_some_iff.mp there
  have keyed : ref.tableID ∈ tables.keys :=
    AList.mem_keys.mp (AList.lookup_isSome.mp (isSome_of_mem table))
  rw [tableKeys, List.mem_toFinset, mem_flatMap]
  refine ⟨⟨(p.projectID, ref.datasetID), tables⟩, AList.mem_lookup_iff.mp dataset, ?_⟩
  exact mem_map_of_mem keyed

/-- A view that is read is stored in the catalog: the tables that reading adds are none. -/
theorem key_mem_tableKeys {ref : DatasetTableRef} (inner : (viewGraph p now s₀).Inner ref) :
    p.key ref ∈ tableKeys p s₀ := by
  have stored : All (fun path t => t.view.isSome → (s₀.record? path).isSome)
      (s₀.get now (p.path ref)).1 := by
    refine All.get ?_ ?_ ?_ now (p.path ref)
    · intro path t there _
      rw [there, isSome_some]
    · intro path now isView
      cases isView
    · intro path now t holds isView
      refine holds ?_
      rcases purgeExpiredPartitions_cases t now with same | ⟨config, column, -, -, same⟩
      · rwa [same] at isView
      · rwa [same] at isView
  rw [CycleCheck.Graph.Inner, children_viewGraph rfl, isSome_map] at inner
  obtain ⟨view, found⟩ := isSome_iff_exists.mp inner
  obtain ⟨record, found, isView⟩ := bind_eq_some_iff.mp found
  rw [get_snd] at found
  exact mem_tableKeys (stored (p.path ref) record found (isSome_of_mem isView))

/-! ## Entry points -/

def resolveTableRows (b : Backend) (now : Time) (fuel : Nat) (s : TableService)
    (ref : DatasetTableRef) : Step (Option Data) :=
  resolveTableRowsVisiting b now fuel ⟨s, ∅⟩ ref

def executeRealSQLQuery (b : Backend) (now : Time) (fuel : Nat) (s : TableService)
    (query : String) (sess : Option (String → Option Data)) : Step Data :=
  executeRealSQLQueryVisiting (resolveTableRowsVisiting b now fuel) b now query sess ⟨s, ∅⟩

section

variable (b : Backend) (now : Time) (s : TableService)

/-- One more than the number of tables is fuel enough. -/
theorem returns_enough {fuel : Nat} (enough : (tableKeys b.toProject s).card < fuel) :
    Returns now s ∅ (resolveTableRowsVisiting b now fuel) := by
  refine returns_resolveTableRowsVisiting (fun ref => key_mem_tableKeys) fuel ∅ ?_
  rwa [Finset.sdiff_empty]

theorem resolveTableRows_terminates (ref : DatasetTableRef) :
    ∃ s' r, ∀ fuel, (tableKeys b.toProject s).card < fuel →
      resolveTableRows b now fuel s ref = some (s', r) := by
  obtain ⟨⟨s', r⟩, returned⟩ := isSome_iff_exists.mp
    (returns_enough b now s (Nat.lt_succ_self _) ⟨s, ∅⟩ ref (fun _ => rfl) rfl)
  exact ⟨s', r, fun fuel enough => extends_of_le b now enough _ _ _ returned⟩

theorem executeRealSQLQuery_terminates (query : String) (sess : Option (String → Option Data)) :
    ∃ s' r, ∀ fuel, (tableKeys b.toProject s).card < fuel →
      executeRealSQLQuery b now fuel s query sess = some (s', r) := by
  have returns := returns_enough b now s (Nat.lt_succ_self _)
  obtain ⟨⟨s', r⟩, returned⟩ := isSome_iff_exists.mp
    (returns.query (s := ⟨s, ∅⟩) (b := b) (walks_resolveTableRowsVisiting b now s _) query sess
      (fun _ => rfl) rfl)
  exact ⟨s', r, fun fuel enough => (extends_of_le b now enough).query returned⟩

end

/-! ## Exact reports -/

/-- Resolving returns, reports a circular reference only if a view that reaches itself can be
reached, and does not succeed if there is one. -/
structure Exact (b : Backend) (now : Time) (s : TableService) : Prop where
  table : ∀ ref, ∃ s' r,
    (∀ fuel, (tableKeys b.toProject s).card < fuel →
      resolveTableRows b now fuel s ref = some (s', r)) ∧
    (outcome r = .circular → (viewGraph b.toProject now s).Cyclic ref) ∧
    ((viewGraph b.toProject now s).Cyclic ref → outcome r ≠ .ok)
  query : ∀ query sess, ∃ s' r,
    (∀ fuel, (tableKeys b.toProject s).card < fuel →
      executeRealSQLQuery b now fuel s query sess = some (s', r)) ∧
    (outcome r = .circular → ∃ ref ∈ b.combinedTableRefs query,
      isTemporary (b.planOf query sess) ref = false ∧
        (viewGraph b.toProject now s).Cyclic ref) ∧
    ((∃ ref ∈ b.combinedTableRefs query, isTemporary (b.planOf query sess) ref = false ∧
      (viewGraph b.toProject now s).Cyclic ref) → outcome r ≠ .ok)

omit [GoFloat] in
/-- From the top, a circular report is a collision of keys. -/
theorem collides_of_walk {g : CycleCheck.Graph DatasetTableRef String} {ref : DatasetTableRef}
    (walk : Walk g ∅ ref .circular) : g.Collides ref := by
  rcases walk.collides with collides | ⟨w, -, -, below⟩
  · exact collides
  · exact absurd below (Finset.notMem_empty _)

section

variable (b : Backend)
  (now : Time)
  (s : TableService)
  (separated : (viewGraph b.toProject now s).Separated)

include separated

theorem exact_table (ref : DatasetTableRef) :
    ∃ s' r, (∀ fuel, (tableKeys b.toProject s).card < fuel →
        resolveTableRows b now fuel s ref = some (s', r)) ∧
      (outcome r = .circular → (viewGraph b.toProject now s).Cyclic ref) ∧
      ((viewGraph b.toProject now s).Cyclic ref → outcome r ≠ .ok) := by
  obtain ⟨s', r, returned⟩ := resolveTableRows_terminates b now s ref
  obtain ⟨-, -, walk⟩ := walks_resolveTableRowsVisiting b now s _ ⟨s, ∅⟩ ref s' r (fun _ => rfl)
    (returned _ (Nat.lt_succ_self _))
  refine ⟨s', r, returned, fun circular => ?_, fun cyclic ok => ?_⟩
  · rw [circular] at walk
    exact CycleCheck.cyclic_of_collides separated (collides_of_walk walk)
  · rw [ok] at walk
    exact walk.apart.1 (CycleCheck.collides_of_cyclic cyclic)

theorem exact_query (query : String) (sess : Option (String → Option Data)) :
    ∃ s' r, (∀ fuel, (tableKeys b.toProject s).card < fuel →
        executeRealSQLQuery b now fuel s query sess = some (s', r)) ∧
      (outcome r = .circular → ∃ ref ∈ b.combinedTableRefs query,
        isTemporary (b.planOf query sess) ref = false ∧
          (viewGraph b.toProject now s).Cyclic ref) ∧
      ((∃ ref ∈ b.combinedTableRefs query, isTemporary (b.planOf query sess) ref = false ∧
        (viewGraph b.toProject now s).Cyclic ref) → outcome r ≠ .ok) := by
  obtain ⟨s', r, returned⟩ := executeRealSQLQuery_terminates b now s query sess
  obtain ⟨-, -, refs⟩ := (walks_resolveTableRowsVisiting b now s _).query (s := ⟨s, ∅⟩)
    (fun _ => rfl) (returned _ (Nat.lt_succ_self _))
  refine ⟨s', r, returned, fun circular => ?_, ?_⟩
  · obtain ⟨ref, mem, stored, walk⟩ := refs.some_ circular
    exact ⟨ref, mem, stored, CycleCheck.cyclic_of_collides separated (collides_of_walk walk)⟩
  · rintro ⟨ref, mem, stored, cyclic⟩ ok
    exact (refs.all ok ref mem stored).apart.1 (CycleCheck.collides_of_cyclic cyclic)

end

/-! ### Queries that only a cycle can stop -/

/-- Every query has the filters it needs, every file can be read, and the engine runs
everything. -/
def quiet (p : Project) : Backend where
  toProject := p
  plan _ :=
    { projectID := p.projectID
      sess := none
      allowPartitionPruning := false
      singleRef := false
      hasPartitionFilter := fun _ => true
      prunePartitionedRows := fun _ _ _ => none
      derivedRows := fun _ => .ok ([], []) }
  readRowsFromURIs _ := .ok []
  run _ _ := .ok ([], [])

/-- A resolver that fails because of a cycle only. -/
def Unfailing (resolve : State → DatasetTableRef → Step (Option Data)) : Prop :=
  ∀ s ref s' r, resolve s ref = some (s', r) → outcome r ≠ .failed

theorem Unfailing.ref (unfailing : Unfailing resolve) {query : String} {ref : DatasetTableRef}
    {r : Except ResolveError ResolvedTableMaterialization}
    (h : resolveTableForMaterialization resolve now ((quiet p).planOf query none) s ref =
      some (s', r)) : outcome r ≠ .failed := by
  rw [resolveTableForMaterialization] at h
  split at h
  next tables err read =>
    have filtered : ∀ table, ((quiet p).planOf query none).hasPartitionFilter table = true :=
      fun _ => rfl
    rw [catalogTableForRef] at read
    simp only [filtered, Bool.not_true, Bool.and_false, Bool.false_eq_true, if_false] at read
    split at read
    · cases read
    · split at read
      · cases read
      · cases read
  next tables catalogTable read =>
    rw [isTemporary_planOf_none, if_neg Bool.false_ne_true] at h
    obtain ⟨⟨t, found⟩, resolved, is⟩ := map_eq_some_iff.mp h
    cases is
    rw [outcome_resolvedFrom]
    exact unfailing _ _ _ _ resolved

theorem Unfailing.refs (unfailing : Unfailing resolve) {query : String}
    {refs : List DatasetTableRef} {r : Except ResolveError (List ResolvedTableMaterialization)}
    (h : resolveAllRefs resolve now ((quiet p).planOf query none) s refs = some (s', r)) :
    outcome r ≠ .failed := by
  induction refs generalizing s r with
  | nil =>
    cases h
    exact nofun
  | cons ref refs ih =>
    rw [resolveAllRefs] at h
    obtain ⟨⟨t, found⟩, first, rest⟩ := bind_eq_some_iff.mp h
    have one := unfailing.ref first
    cases found with
    | error err =>
      cases rest
      exact one
    | ok resolved =>
      obtain ⟨⟨u, others⟩, later, is⟩ := map_eq_some_iff.mp rest
      cases is
      rw [outcome_map]
      exact ih later

theorem unfailing_quiet (p : Project) (now : Time) (fuel : Nat) :
    Unfailing (resolveTableRowsVisiting (quiet p) now fuel) := by
  induction fuel with
  | zero => exact nofun
  | succ fuel ih =>
    intro s ref s' r h
    rw [resolveTableRowsVisiting] at h
    split at h
    · cases h
      exact nofun
    · split at h
      · split at h
        · cases h
          exact nofun
        · obtain ⟨⟨t, ran⟩, executed, is⟩ := map_eq_some_iff.mp h
          cases is
          obtain ⟨⟨u, resolved⟩, all, is⟩ := map_eq_some_iff.mp executed
          cases is
          have refs := ih.refs all
          rw [outcome_map, outcome_view]
          cases resolved with
          | error err => exact refs
          | ok tables => exact nofun
      · split at h
        · cases h
          exact nofun
        · cases h
          exact nofun

/-- Whatever the queries do, resolving is exact on a catalog if and only if no view reaches
another one that is marked under the same text, unless it reaches a cycle as well. -/
theorem exact_iff (p : Project) (now : Time) (s : TableService) :
    (∀ b : Backend, b.toProject = p → Exact b now s) ↔ (viewGraph p now s).Separated := by
  constructor
  · intro exact u w below inner same _
    obtain ⟨s', r, returned, circular, -⟩ := (exact (quiet p) rfl).table u
    have last := returned _ (Nat.lt_succ_self _)
    obtain ⟨-, -, walk⟩ := walks_resolveTableRowsVisiting (quiet p) now s _ ⟨s, ∅⟩ u s' r
      (fun _ => rfl) last
    apply circular
    cases found : outcome r with
    | circular => rfl
    | failed => exact absurd found (unfailing_quiet p now _ _ _ _ _ last)
    | ok =>
      rw [found] at walk
      exact absurd ⟨u, w, .refl, below, inner, same⟩ walk.apart.1
  · rintro separated b rfl
    exact ⟨exact_table b now s separated, exact_query b now s separated⟩

end Model

section Dots

attribute [local instance] GoFloat.texts

def outerQuery : String := "SELECT x FROM `a.b`.`c`"

def dotsProject : Project where
  projectID := "p"
  combinedTableRefs query := if query = outerQuery then [⟨"a.b", "c"⟩] else []

def outerView : DatasetTableRef := ⟨"a", "b.c"⟩

def innerView : DatasetTableRef := ⟨"a.b", "c"⟩

def insertView (s : TableService) (ref : DatasetTableRef) (query : String) : TableService :=
  (s.insert 0 { projectID := "p", datasetID := ref.datasetID, tableID := ref.tableID,
                view := some ⟨query, false⟩ }).1

/-- The view `b.c` of the dataset `a` selects from the view `c` of the dataset `a.b`, which
references nothing. -/
def dotsCatalog : TableService :=
  insertView (insertView {} innerView "SELECT 1 AS x") outerView outerQuery

/-- The inner view is reported as circular, since both views are marked as `p:a.b.c`. -/
theorem dots_reported_circular :
    (∃ s' err, resolveTableRows (quiet dotsProject) 0 2 dotsCatalog outerView =
        some (s', .error err) ∧
      err.text = "resolve view a.b.c: circular view reference detected at a.b.c") ∧
    ¬ (viewGraph dotsProject 0 dotsCatalog).Cyclic outerView := by
  refine ⟨⟨_, _, rfl, by decide⟩, ?_⟩
  have outer : (viewGraph dotsProject 0 dotsCatalog).children outerView = some [innerView] := rfl
  have inner : (viewGraph dotsProject 0 dotsCatalog).children innerView = some [] := rfl
  have innerLast : ∀ ref, ¬ (viewGraph dotsProject 0 dotsCatalog).Edge innerView ref := by
    rintro ref ⟨refs, is, mem⟩
    rw [inner] at is
    cases is
    cases mem
  have outerOnly : ∀ ref, (viewGraph dotsProject 0 dotsCatalog).Edge outerView ref →
      ref = innerView := by
    rintro ref ⟨refs, is, mem⟩
    rw [outer] at is
    cases is
    exact mem_singleton.mp mem
  have fromInner : ∀ ref, ¬ TransGen (viewGraph dotsProject 0 dotsCatalog).Edge innerView ref := by
    intro ref reaches
    obtain ⟨next, edge, -⟩ := TransGen.head'_iff.mp reaches
    exact innerLast next edge
  rintro ⟨u, reach, round⟩
  rcases ReflTransGen.cases_head reach with rfl | ⟨next, edge, reach⟩
  · obtain ⟨next, edge, back⟩ := TransGen.head'_iff.mp round
    rw [outerOnly next edge] at back
    rcases ReflTransGen.cases_head back with eq | ⟨ref, edge, -⟩
    · exact absurd eq (by decide)
    · exact innerLast ref edge
  · rw [outerOnly next edge] at reach
    rcases ReflTransGen.cases_head reach with rfl | ⟨ref, edge, -⟩
    · exact fromInner _ round
    · exact innerLast ref edge

end Dots

end LocaQL.Views
