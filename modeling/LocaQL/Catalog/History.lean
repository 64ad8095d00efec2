import LocaQL.Catalog.Operations
import LocaQL.Lib.Run

/-!
# Histories of the catalog

One step of a history is one operation of the table service at one clock reading.
The life of a record is the time from its creation to its deletion.  Within one life
a version number names one content: every operation leaves a record alone, deletes
it, or gives it a higher version (`apply_next`).  The one exception is a drop of columns that
panics half way.

Version numbers start over when a record is created again at the same path.  A
compare-and-swap commit therefore detects every change since the snapshot it was
computed from as long as no record is created at the path with a version that the
snapshot has passed (`unchanged_of_cas`).
-/

namespace LocaQL

namespace TableService

variable {s s' : TableService} {path : TableReference} {r : TableRecord} {now : Time}

section

variable [GoFloat]

/-! ## The life of a record -/

/-- What an operation can make of a record. -/
inductive Next (r : TableRecord) : Option TableRecord → Prop where
  | gone : Next r none
  | same : Next r (some r)
  | newer {r' : TableRecord} : r.version < r'.version → Next r (some r')

theorem purge_next (p d : String) (h : s.record? path = some r) :
    Next r ((s.purge now p d).record? path) := by
  rw [record?_purge, h]
  split
  · rw [Option.bind_some, purgeRecord]
    split
    · exact .gone
    rcases purgeExpiredPartitions_cases r now with same | ⟨config, column, -, -, dropped⟩
    · rw [same]
      exact .same
    · rw [dropped]
      exact .newer (Nat.lt_succ_self _)
  · exact .same

omit [GoFloat] in
theorem Mutates.next {names : List TableReference} {ok : Bool} (h : Mutates s now names s' ok)
    (found : s.record? path = some r) : Next r (s'.record? path) := by
  cases h with
  | refused => exact found ▸ .same
  | stored newer =>
    rw [record?_update, found]
    split
    next here => exact .newer (newer r (here ▸ found))
    · exact .same
  | erased =>
    rw [record?_erase, found]
    split
    · exact .gone
    · exact .same
  | moved there absent =>
    rw [record?_move, found]
    split
    next here =>
      rw [← here, found] at absent
      cases absent
    · split
      · exact .gone
      · exact .same

omit [GoFloat] in
theorem deleteAllForDataset_next (p d : String) (h : s.record? path = some r) :
    Next r ((s.deleteAllForDataset p d).record? path) := by
  unfold deleteAllForDataset
  split
  · rw [h]
    exact .same
  · rw [record?_bump]
    simp only [record?, GoMap.get?_delete]
    split
    · exact .gone
    · simp only [record?] at h
      rw [h]
      exact .same

/-- **Within one life** a record is left alone, deleted, or given a higher version, by every
operation that does not panic half way. -/
theorem apply_next (now : Time) (op : CatalogOp) (whole : s.tears now op path = false)
    (h : s.record? path = some r) : Next r ((s.apply now op).1.record? path) := by
  have touched := record?_touch now op h
  rcases whole_or_torn s now op with whole | ⟨at_, t, dropNames, tears, -, -, is⟩
  · cases mutator : op.names? with
    | some names => exact (mutates_apply mutator whole).next touched
    | none =>
      cases op with
      | list p d start size => exact purge_next p d touched
      | get at_ | getData at_ => exact purge_next _ _ touched
      | listAll p d => exact touched ▸ .same
      | datasetTableCount p d =>
        simp only [apply, datasetTableCount]
        split
        · exact h ▸ .same
        · exact purge_next p d h
      | deleteAllForDataset p d => exact deleteAllForDataset_next p d h
      | _ => cases mutator
  · have ne : path ≠ at_ := by
      rintro rfl
      rw [whole] at tears
      cases tears
    rw [is, record?_setTables_set, if_neg ne, touched]
    exact .same

/-- Appending adds the rows to those the table has. -/
theorem rows_of_append {dest at_ : TableReference} {schema : List TableField} {rows : List Row}
    {create : String} (trim : trimPath dest.projectID dest.datasetID dest.tableID = some at_)
    (ok : (s.upsertCopyDestination now dest schema rows create "WRITE_APPEND").2.isOk = true) :
    ∃ t, (s.upsertCopyDestination now dest schema rows create "WRITE_APPEND").1.record? at_ = some t ∧
      t.rows = (((s.ensureDatasetLocked now at_.projectID at_.datasetID).record? at_).map
        (·.rows)).getD [] ++ rows := by
  have append : normalizeWriteDisposition "WRITE_APPEND" = .writeAppend := by decide
  simp only [upsertCopyDestination, trim, append] at ok ⊢
  split at ok
  · cases ok
  split at ok
  · cases ok
  split at ok
  · cases ok
  next checked _ _ valid _ _ partitioned =>
    rw [record?_commit, if_pos rfl]
    refine ⟨_, rfl, ?_⟩
    simp only [merge, if_true, get?_tables]
    cases (s.ensureDatasetLocked now at_.projectID at_.datasetID).record? at_ with
    | none => rfl
    | some t => rfl

/-! ## Compare-and-swap -/

/-- A compare-and-swap that succeeds has found its version. -/
theorem found_of_cas {op : CatalogOp} {v : Nat} (cas : op.cas? = some (path, v))
    (ok : (s.apply now op).2 = true) :
    ∃ t, (s.touch now op).record? path = some t ∧ t.version = v := by
  cases op <;> cases cas
  case deleteIfVersion =>
    simp only [apply, deleteIfVersion] at ok
    split at ok
    · cases ok
    next t found => exact ⟨t, checkVersion_ok found⟩
  case renameTableIfVersion =>
    simp only [apply, renameTableIfVersion] at ok
    split at ok
    · cases ok
    next t found => exact ⟨t, checkVersion_ok found⟩
  case dropColumnsIfVersion dropNames =>
    rcases dropColumnsIfVersion_cases s now path v dropNames with ⟨-, is⟩ | ⟨_, -, -, is⟩
    · simp only [apply, is] at ok
      exact found_of_commitIfVersion ok
    · simp only [apply, is] at ok
      cases ok
  all_goals exact found_of_commitIfVersion ok

/-- One step of a history. -/
def step (s : TableService) (label : Time × CatalogOp) : Option TableService :=
  some (s.apply label.1 label.2).1

/-- No record below or at version `v` is created at the path: what the operation finds
or leaves there, where there was no record, has a higher version. -/
def CreatesAbove (path : TableReference) (v : Nat) (s : TableService)
    (label : Time × CatalogOp) : Prop :=
  s.record? path = none → ∀ t,
    (s.touch label.1 label.2).record? path = some t ∨
      (s.apply label.1 label.2).1.record? path = some t → v < t.version

/-- The version of the record at the path tells its contents apart: a step creates none at or
below version `v`, and does not panic half way through a change of it. -/
def Versioned (path : TableReference) (v : Nat) (s : TableService) (label : Time × CatalogOp) :
    Prop :=
  CreatesAbove path v s label ∧ s.tears label.1 label.2 path = false

/-- Version `v` is past: the record at the path, if any, is newer. -/
def Past (path : TableReference) (v : Nat) (s : TableService) : Prop :=
  ∀ t, s.record? path = some t → v < t.version

theorem Past.step {v : Nat} {s t : TableService} {label : Time × CatalogOp} (past : Past path v s)
    (versioned : Versioned path v s label) (h : step s label = some t) : Past path v t := by
  cases h
  intro r found
  cases before : s.record? path with
  | none => exact versioned.1 before r (.inr found)
  | some r' =>
    have next := apply_next label.1 label.2 versioned.2 before
    rw [found] at next
    cases next with
    | same => exact past _ before
    | newer higher => exact lt_trans (past _ before) higher

/-- A compare-and-swap with a version that is past fails. -/
theorem past_not_cas {v : Nat} {op : CatalogOp} (past : Past path v s)
    (above : CreatesAbove path v s (now, op)) (cas : op.cas? = some (path, v)) :
    (s.apply now op).2 ≠ true := by
  intro ok
  obtain ⟨t, found, version⟩ := found_of_cas cas ok
  refine absurd version (ne_of_gt ?_)
  cases there : s.record? path with
  | none => exact above there t (.inl found)
  | some r =>
    rw [record?_touch now op there] at found
    cases found
    exact past _ there

/-- The snapshot is still the record at the path, or its version is past. -/
def Seen (path : TableReference) (r : TableRecord) (s : TableService) : Prop :=
  s.record? path = some r ∨ Past path r.version s

theorem Seen.step {s t : TableService} {label : Time × CatalogOp} (seen : Seen path r s)
    (versioned : Versioned path r.version s label) (h : step s label = some t) : Seen path r t := by
  cases seen with
  | inr past => exact .inr (past.step versioned h)
  | inl found =>
    cases h
    have next := apply_next label.1 label.2 versioned.2 found
    cases after : (s.apply label.1 label.2).1.record? path with
    | none => exact .inr fun t' found' => by rw [after] at found'; cases found'
    | some r' =>
      rw [after] at next
      cases next with
      | same => exact .inl after
      | newer higher =>
        refine .inr fun t' found' => ?_
        rw [after] at found'
        cases found'
        exact higher

/-- **Compare-and-swap.**  As long as nothing is created at the path at or below the
version of a snapshot, and no drop of its columns panics half way, that version names the
snapshot's content, and a commit with that version succeeds only if the record has been the
snapshot's all the time. -/
theorem unchanged_of_cas {s t : TableService} {history : List (Time × CatalogOp)}
    (snapshot : s.record? path = some r)
    (run : Run.Exec step (Versioned path r.version) s history t) :
    (∀ u, Run.Visits step (Versioned path r.version) s history u →
      ∀ r', u.record? path = some r' → r'.version = r.version → r' = r) ∧
    ∀ now op, op.cas? = some (path, r.version) → CreatesAbove path r.version t (now, op) →
      (t.apply now op).2 = true →
        ∀ u, Run.Visits step (Versioned path r.version) s history u →
          u.record? path = some r := by
  have seen : ∀ u, Run.Visits step (Versioned path r.version) s history u → Seen path r u :=
    fun u visit => visit.invariant (fun _ _ _ => Seen.step) (.inl snapshot)
  constructor
  · intro u visit r' found same
    rcases seen u visit with h | past
    · rw [h] at found
      exact (Option.some.inj found).symm
    · exact absurd same (ne_of_gt (past r' found))
  · intro now op cas above ok u visit
    rcases seen u visit with h | past
    · exact h
    · obtain ⟨_, rest⟩ := visit.rest run
      exact absurd ok (past_not_cas (rest.invariant (fun _ _ _ => Past.step) past) above cas)

end

section Recreated

attribute [local instance] GoFloat.texts

def orders : TableReference := ⟨"p", "ds", "orders"⟩

def insertOrders (tableID : String) (rows : List Row) : CatalogOp :=
  .insert { projectID := "p", datasetID := "ds", tableID := tableID,
            schema := [⟨"id", "INT64", "", []⟩], rows := rows }

/-- The catalog once `orders` has been inserted. -/
def snapshot : TableService := (({} : TableService).apply 1 (insertOrders "orders" [["1"]])).1

/-- A table inserted next to `orders` does not get in the way of a commit to it. -/
theorem unchanged_of_cas_otherTable :
    ∃ r t, snapshot.record? orders = some r ∧
      Run.Exec step (Versioned orders r.version) snapshot [(2, insertOrders "other" [])] t ∧
      (t.apply 3 (.replaceRowsIfVersion orders r.version [["1"], ["2"]] [])).2 = true ∧
      t.record? orders = some r := by
  have there : ∃ r t, snapshot.record? orders = some r ∧
      step snapshot (2, insertOrders "other" []) = some t ∧ t.record? orders ≠ none ∧
      (t.apply 3 (.replaceRowsIfVersion orders r.version [["1"], ["2"]] [])).2 = true :=
    ⟨_, _, rfl, rfl, nofun, rfl⟩
  obtain ⟨r, t, found, stepped, kept, ok⟩ := there
  have run : Run.Exec step (Versioned orders r.version) snapshot
      [(2, insertOrders "other" [])] t :=
    .cons ⟨fun absent => absurd (absent.symm.trans found) nofun, rfl⟩ stepped .nil
  have unchanged := (unchanged_of_cas found run).2 3 (.replaceRowsIfVersion orders r.version _ [])
    rfl (fun absent => absurd absent kept) ok
  exact ⟨r, t, found, run, ok, unchanged t ⟨_, [], (List.append_nil _).symm, run⟩⟩

/-- `orders` is deleted and inserted again with other rows: its version is 1 again, and a
commit computed from the old rows goes through. -/
theorem unchanged_of_cas_fails :
    ∃ r u t, snapshot.record? orders = some r ∧
      Run.Exec step (fun _ _ => True) snapshot [(2, .delete orders)] u ∧
      u.record? orders = none ∧
      Run.Exec step (fun _ _ => True) u [(3, insertOrders "orders" [["7"], ["8"]])] t ∧
      (t.apply 4 (.replaceRowsIfVersion orders r.version [["1"], ["2"]] [])).2 = true :=
  ⟨_, _, _, rfl, .cons trivial rfl .nil, rfl, .cons trivial rfl .nil, rfl⟩

end Recreated

end TableService

end LocaQL
