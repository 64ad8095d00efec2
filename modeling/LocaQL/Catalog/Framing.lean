import LocaQL.Catalog.Invariants

/-!
# What a mutator changes

A mutator of the table service that fails changes nothing, and one that succeeds changes only the
table it names (`mutator_framed`), apart from the default tables of a dataset that had none.

Every change of a dataset counts its version, except for one that panics half way, and so does
every purge.  Two listings of a dataset with the same version are therefore the same
(`listing_of_version`).
-/

namespace LocaQL

open List

namespace TableService

variable {s s' : TableService} {path : TableReference} {r : TableRecord} {now : Time}
  {names : List TableReference}

/-! ## Records -/

theorem sameUpToSeeding_touch (s : TableService) (now : Time) (op : CatalogOp)
    (path : TableReference) : SameUpToSeeding now s (s.touch now op) path := by
  rw [touch]
  split
  · exact sameUpToSeeding_ensure s now _ _ path
  · exact .inl rfl

/-- A refusal changes nothing, and a success nothing but the tables named. -/
theorem Mutates.frame {ok : Bool} (h : Mutates s now names s' ok) (other : ok = true → path ∉ names) :
    s'.record? path = s.record? path := by
  cases h with
  | refused => rfl
  | @stored at_ t newer =>
    rw [record?_update, if_neg (by simpa using other rfl)]
  | @erased at_ r found =>
    rw [record?_erase, if_neg (by simpa using other rfl)]
  | @moved at_ newTableID r found absent =>
    have other := other rfl
    simp only [mem_cons, not_mem_nil, or_false, not_or] at other
    rw [record?_move, if_neg other.2, if_neg other.1]

/-- A record that survives has a higher version, also under a new name. -/
theorem Mutates.newer (h : Mutates s now names s' true) {old new : TableReference}
    {r' : TableRecord} (named : old ∈ names) (named' : new ∈ names)
    (before : s.record? old = some r) (after : s'.record? new = some r') :
    r.version < r'.version := by
  cases h with
  | @stored at_ t newer =>
    rw [mem_singleton] at named named'
    subst named named'
    rw [record?_update, if_pos rfl] at after
    cases after
    exact newer r before
  | @erased at_ t found =>
    rw [mem_singleton] at named named'
    subst named named'
    rw [record?_erase, if_pos rfl] at after
    cases after
  | @moved at_ newTableID t found absent =>
    simp only [mem_cons, not_mem_nil, or_false] at named named'
    rcases named with rfl | rfl
    · rw [found] at before
      cases before
      rw [record?_move] at after
      split at after
      · cases after
        exact Nat.lt_succ_self _
      next other =>
        rcases named' with rfl | rfl
        · rw [if_pos rfl] at after
          cases after
        · exact absurd rfl other
    · rw [absent] at before
      cases before

section

variable [GoFloat]

/-- A mutator changes only the tables it names, also if it panics. -/
theorem frame_apply {op : CatalogOp} (mutator : op.names? = some names) (other : path ∉ names) :
    (s.apply now op).1.record? path = (s.touch now op).record? path := by
  rcases whole_or_torn s now op with whole | ⟨at_, t, dropNames, -, named, -, is⟩
  · exact (mutates_apply mutator whole).frame fun _ => other
  · rw [named] at mutator
    cases mutator
    rw [is, record?_setTables_set, if_neg (by simpa using other)]

/-- **All or nothing.**  A mutator that returns an error leaves every table as it was, in every
dataset.  One that succeeds changes only the table it names, a renaming those of the two names,
and what is left of a named table has a higher version.  Default tables may be filled in first.
The one mutator that does neither is a drop of columns that panics half way. -/
theorem mutator_framed {op : CatalogOp} {names : List TableReference}
    (mutator : op.names? = some names) :
    (∀ path, SameUpToSeeding now s (s.touch now op) path) ∧
      ((s.apply now op).2 = false → (∀ path, s.tears now op path = false) →
        ∀ path, (s.apply now op).1.record? path = (s.touch now op).record? path) ∧
      ((s.apply now op).2 = true →
        (∀ path ∉ names, (s.apply now op).1.record? path = (s.touch now op).record? path) ∧
        ∀ old ∈ names, ∀ new ∈ names, ∀ r r', (s.touch now op).record? old = some r →
          (s.apply now op).1.record? new = some r' → r.version < r'.version) := by
  refine ⟨sameUpToSeeding_touch s now op, fun failed whole path => ?_, fun ok => ⟨?_, ?_⟩⟩
  · refine (mutates_apply mutator whole).frame fun ok => ?_
    rw [failed] at ok
    cases ok
  · intro path other
    exact frame_apply mutator other
  · intro old named new named' r r' before after
    rcases whole_or_torn s now op with whole | ⟨at_, t, dropNames, -, -, -, is⟩
    · have mutates := mutates_apply mutator whole
      rw [ok] at mutates
      exact mutates.newer named named' before after
    · rw [is] at ok
      cases ok

end

section

attribute [local instance] GoFloat.texts

def renameEvents : CatalogOp := .renameTableIfVersion ⟨"p", "ds", "events"⟩ "visits" 1

/-- A default table is renamed. -/
theorem mutator_framed_rename :
    renameEvents.names? = some [⟨"p", "ds", "events"⟩, ⟨"p", "ds", "visits"⟩] ∧
      (({} : TableService).apply 1 renameEvents).2 = true ∧
      ∀ r, (({} : TableService).apply 1 renameEvents).1.record? ⟨"p", "ds", "visits"⟩ = some r →
        1 < r.version := by
  have renamed : (({} : TableService).apply 1 renameEvents).2 = true := by decide +kernel
  refine ⟨rfl, renamed, fun r after => ?_⟩
  have before : (({} : TableService).touch 1 renameEvents).record? ⟨"p", "ds", "events"⟩ =
      some (defaultTable "p" "ds" 1 "events") := rfl
  have named : (⟨"p", "ds", "visits"⟩ : TableReference) ∈
      [(⟨"p", "ds", "events"⟩ : TableReference), ⟨"p", "ds", "visits"⟩] := by decide
  exact ((mutator_framed rfl).2.2 renamed).2 _ mem_cons_self _ named _ _ before after

end

/-! ## Versions of datasets -/

/-- The version that `list` returns. -/
def datasetVersion (s : TableService) (p d : String) : Nat :=
  (s.datasetVersions.get? (datasetKey p d)).getD 0

/-- The dataset has the given tables. -/
def HasTables (p d : String) (tables : TableMap) (s : TableService) : Prop :=
  s.datasets.get? (p, d) = some tables

/-- The version of a dataset counts the changes of its tables. -/
abbrev Counts (p d : String) (tables : TableMap) (s s' : TableService) : Prop :=
  Run.Tracks (datasetVersion · p d) (HasTables p d tables) s s'

variable {p d : String} {tables : TableMap}

section

variable (s : TableService)

theorem datasetVersion_bump (p d p' d' : String) :
    (s.bump p' d').datasetVersion p d =
      if datasetKey p d = datasetKey p' d' then s.datasetVersion p' d' + 1
      else s.datasetVersion p d := by
  simp only [datasetVersion, bump, GoMap.get?_set]
  split
  · rfl
  · rfl

theorem le_datasetVersion_bump (p d p' d' : String) :
    s.datasetVersion p d ≤ (s.bump p' d').datasetVersion p d := by
  rw [datasetVersion_bump]
  split
  next same =>
    rw [datasetVersion, datasetVersion, same]
    omega
  · exact Nat.le_refl _

/-- Storing the tables of a dataset counts. -/
theorem counts_store (p' d' : String) (tables' : TableMap) :
    Counts p d tables s (s.store p' d' tables') := by
  have le := le_datasetVersion_bump (s.setTables p' d' tables') p d p' d'
  by_cases here : (p, d) = (p', d')
  · obtain ⟨rfl, rfl⟩ := Prod.mk.inj here
    refine .of_lt ?_
    show s.datasetVersion p d < ((s.setTables p d tables').bump p d).datasetVersion p d
    rw [datasetVersion_bump, if_pos rfl]
    exact Nat.lt_succ_self _
  · refine ⟨le, fun _ has => ?_⟩
    show (s.datasets.set (p', d') tables').get? (p, d) = some tables
    rw [GoMap.get?_set_ne _ _ here]
    exact has

theorem counts_ensure (now : Time) (p' d' : String) :
    Counts p d tables s (s.ensureDatasetLocked now p' d') := by
  cases there : s.datasets.get? (p', d') with
  | some tables' =>
    rw [ensure_of_present there]
    exact .refl s
  | none =>
    refine ⟨?_, fun _ has => ?_⟩
    · rw [ensureDatasetLocked, there]
      dsimp only
      split
      · exact Nat.le_refl _
      next absent =>
        simp only [datasetVersion, setTables, GoMap.get?_set] at absent ⊢
        split
        next same => simp [same, absent]
        · exact Nat.le_refl _
    · have ne : (p, d) ≠ (p', d') := by
        intro here
        rw [HasTables, here, there] at has
        cases has
      exact (datasets_ensure_ne ne).trans has

theorem counts_touch (now : Time) (op : CatalogOp) : Counts p d tables s (s.touch now op) := by
  rw [touch]
  split
  · exact counts_ensure s now _ _
  · exact .refl s

end

theorem Mutates.counts {ok : Bool} (h : Mutates s now names s' ok) : Counts p d tables s s' := by
  cases h with
  | refused => exact .refl s
  | stored newer | erased found | moved found absent => exact counts_store s _ _ _

theorem counts_deleteAllForDataset (s : TableService) (p' d' : String) :
    Counts p d tables s (s.deleteAllForDataset p' d') := by
  rw [deleteAllForDataset]
  split
  · exact .refl s
  by_cases here : (p, d) = (p', d')
  · obtain ⟨rfl, rfl⟩ := Prod.mk.inj here
    refine .of_lt ?_
    rw [datasetVersion_bump, if_pos rfl]
    exact Nat.lt_succ_self _
  · refine ⟨le_datasetVersion_bump _ p d p' d', fun _ has => ?_⟩
    show (s.datasets.delete (p', d')).get? (p, d) = some tables
    rw [GoMap.get?_delete_ne _ here]
    exact has

section

variable [GoFloat]

theorem counts_purge (s : TableService) (now : Time) (p' d' : String) :
    Counts p d tables s (s.purge now p' d') := by
  simp only [purge]
  split
  · exact counts_store s _ _ _
  · exact .refl s

theorem counts_read (s : TableService) (now : Time) (p' d' : String) :
    Counts p d tables s ((s.ensureDatasetLocked now p' d').purge now p' d') :=
  (counts_ensure s now p' d').trans (counts_purge _ now p' d')

/-- No operation panics half way through a table of the dataset. -/
def Whole (p d : String) (s : TableService) (label : Time × CatalogOp) : Prop :=
  ∀ path : TableReference, path.projectID = p → path.datasetID = d →
    s.tears label.1 label.2 path = false

/-- Every operation counts what it changes, also one that fails, as long as it does not panic
half way through a table of the dataset. -/
theorem counts_apply {s : TableService} {now : Time} {op : CatalogOp}
    (whole : Whole p d s (now, op)) : Counts p d tables s (s.apply now op).1 := by
  rcases whole_or_torn s now op with whole | ⟨at_, t, dropNames, tears, -, -, is⟩
  · cases mutator : op.names? with
    | some names => exact (counts_touch s now op).trans (mutates_apply mutator whole).counts
    | none =>
      cases op with
      | list p' d' start size => exact counts_read s now p' d'
      | listAll p' d' => exact counts_ensure s now p' d'
      | get path | getData path => exact counts_read s now _ _
      | datasetTableCount p' d' =>
        simp only [apply, datasetTableCount]
        split
        · exact .refl s
        · exact counts_purge s now p' d'
      | deleteAllForDataset p' d' => exact counts_deleteAllForDataset s p' d'
      | _ => cases mutator
  · have ne : (p, d) ≠ (at_.projectID, at_.datasetID) := by
      intro here
      rw [whole at_ (Prod.mk.inj here).1.symm (Prod.mk.inj here).2.symm] at tears
      cases tears
    rw [is]
    refine (counts_touch s now op).trans ⟨Nat.le_refl _, fun _ has => ?_⟩
    exact (GoMap.get?_set_ne _ _ ne).trans has

/-- The page of a listing, and where the next one starts. -/
def page (tables : TableMap) (start size : Nat) : List TableRecord × Option Nat :=
  let ids := tables.keys.insertionSort (· ≤ ·)
  let start := min start ids.length
  let stop := min (start + size) ids.length
  (((ids.drop start).take (stop - start)).filterMap fun id => tables.get? id,
    if stop < ids.length then some stop else none)

/-- A listing shows the tables of the dataset once it has been read. -/
theorem list_eq (s : TableService) (now : Time) (p d : String) (start size : Nat) :
    ∃ tables, HasTables p d tables (s.list now p d start size).1 ∧
      ((s.list now p d start size).2.1, (s.list now p d start size).2.2.1) =
        page tables start size ∧
      (s.list now p d start size).2.2.2 =
        (s.list now p d start size).1.datasetVersion p d := by
  obtain ⟨tables, there, -⟩ := settled_get s now ⟨p, d, ""⟩
  have there : ((s.ensureDatasetLocked now p d).purge now p d).datasets.get? (p, d) =
    some tables := there
  refine ⟨tables, there, ?_, rfl⟩
  simp only [list, tables_eq there, page]

/-- **Listings.**  Two listings of the same page of a dataset that return the same version show
the same tables, whatever operations came in between, as long as none of them panics half way
through a table of the dataset. -/
theorem listing_of_version {ops : List (Time × CatalogOp)} {u : TableService} {now' : Time}
    {start size : Nat}
    (run : Run.Exec step (Whole p d) (s.list now p d start size).1 ops u)
    (same : (u.list now' p d start size).2.2.2 = (s.list now p d start size).2.2.2) :
    (u.list now' p d start size).2.1 = (s.list now p d start size).2.1 ∧
      (u.list now' p d start size).2.2.1 = (s.list now p d start size).2.2.1 := by
  obtain ⟨tables, has, shown, version⟩ := list_eq s now p d start size
  obtain ⟨tables', has', shown', version'⟩ := list_eq u now' p d start size
  have between : Counts p d tables (s.list now p d start size).1 u := by
    refine run.tracks fun s label t whole step => ?_
    cases step
    exact counts_apply whole
  have reads : Whole p d u (now', .list p d start size) := fun _ _ _ => rfl
  have all := between.trans (counts_apply reads)
  have kept : HasTables p d tables (u.list now' p d start size).1 :=
    all.kept (version'.symm.trans (same.trans version)) has
  rw [HasTables] at has' kept
  rw [has'] at kept
  cases kept
  exact Prod.mk.inj (shown'.trans shown.symm)

end

section

attribute [local instance] GoFloat.texts

/-- The deletion of a table that is not there fails, and the listing stays. -/
def deleteMissing : Time × CatalogOp := (2, .delete ⟨"p", "ds", "missing"⟩)

theorem listing_of_version_failed :
    ∃ u, Run.Exec step (Whole "p" "ds") (({} : TableService).list 1 "p" "ds" 0 10).1
        [deleteMissing] u ∧
      (u.list 3 "p" "ds" 0 10).2.2.2 = (({} : TableService).list 1 "p" "ds" 0 10).2.2.2 ∧
      (u.list 3 "p" "ds" 0 10).2.1 = (({} : TableService).list 1 "p" "ds" 0 10).2.1 := by
  have run : Run.Exec step (Whole "p" "ds") (({} : TableService).list 1 "p" "ds" 0 10).1
      [deleteMissing] _ := .cons (fun _ _ _ => rfl) rfl .nil
  have same : (((({} : TableService).list 1 "p" "ds" 0 10).1.apply 2
      (.delete ⟨"p", "ds", "missing"⟩)).1.list 3 "p" "ds" 0 10).2.2.2 =
        (({} : TableService).list 1 "p" "ds" 0 10).2.2.2 := by decide +kernel
  exact ⟨_, run, same, (listing_of_version run same).1⟩

/-- Columns that are in the schema of `events` and in none of its rows. -/
def widenEvents : CatalogOp :=
  .patch { projectID := "p", datasetID := "ds", tableID := "events",
           schema := some ((defaultTableData "events").1 ++ ["a", "b", "c"].map fun name =>
             ⟨name, "STRING", "", []⟩) }

def widenedEvents : TableService := (({} : TableService).apply 1 widenEvents).1

def narrowEvents : Time × CatalogOp :=
  (2, .dropColumnsIfVersion ⟨"p", "ds", "events"⟩ 2 ["a", "b", "c"])

/-- Three columns that no row of `events` has a cell for are dropped: the service panics, the
listing has the same version as before, and the table in it has lost the columns. -/
theorem listing_torn :
    ∃ u, Run.Exec step (fun _ _ => True) (widenedEvents.list 1 "p" "ds" 0 10).1 [narrowEvents] u ∧
      (u.list 3 "p" "ds" 0 10).2.2.2 = (widenedEvents.list 1 "p" "ds" 0 10).2.2.2 ∧
      (u.list 3 "p" "ds" 0 10).2.1 ≠ (widenedEvents.list 1 "p" "ds" 0 10).2.1 := by
  refine ⟨_, .cons trivial rfl .nil, by decide +kernel, fun same => ?_⟩
  have columns := congrArg (List.map fun t => t.schema.length) same
  revert columns
  decide +kernel

end

end TableService

end LocaQL
