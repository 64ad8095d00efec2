import LocaQL.Catalog.Framing
import LocaQL.Jobs.Acknowledged

/-!
# Reading acknowledged rows

Views and external tables have no rows of their own.  Every operation of the catalog keeps it
so, and `insertAll` refuses to write to them; a load or copy job and the Storage Write API do not
look at the kind of table they write to (`load_into_view`).

As long as these write to other tables only, the rows of every acknowledged write are read back
until their table is deleted or replaced or something in it expires
(`readable_of_writesNative`).
-/

namespace LocaQL.Jobs

open TableService Option List

open Sql
open TableService (All Everywhere TouchedAt stamp trimPath purgeRecord)

variable {path : TableReference} {t : TableRecord} {at_ : TableReference} {t' : TableRecord}
  {op : CatalogOp}

/-! ## Views and external tables -/

/-- Whether a table is a view or external. -/
def derived (t : TableRecord) : Bool := t.view.isSome || t.external.isSome

/-- Views and external tables have no rows of their own. -/
def Bare : TableService → Prop := All fun _ t => derived t → t.rows = []

theorem not_derived_iff : derived t = false ↔ t.view = none ∧ t.external = none := by
  rw [derived, Bool.or_eq_false_iff, isSome_eq_false_iff, isSome_eq_false_iff,
    isNone_iff_eq_none, isNone_iff_eq_none]

theorem bare_seeds : Seeds fun _ t => derived t → t.rows = [] := by
  intro path now derived
  cases derived

section

variable [GoFloat] {s s' : TableService} {now moment : Time}

theorem derived_purgeExpiredPartitions (t : TableRecord) (now : Time) :
    derived (purgeExpiredPartitions t now).1 = derived t := by
  rcases purgeExpiredPartitions_cases t now with same | ⟨config, column, -, -, kept⟩
  · rw [same]
  · rw [kept]
    rfl

theorem purgeExpiredPartitions_of_derived (h : derived t) (now : Time) :
    purgeExpiredPartitions t now = (t, false) := by
  rw [derived, Bool.or_eq_true] at h
  rw [purgeExpiredPartitions]
  split
  · rfl
  · rw [if_pos (.inr (.inr h.symm))]

/-- A DML statement does not write to a view or an external table. -/
theorem replaceRows_derived {rows : List Row} {partitions : List String}
    (h : replaceRows now at_ rows partitions t = .ok t') : derived (stamp now t') = false := by
  simp only [replaceRows] at h
  split at h
  · cases h
  next view =>
    split at h
    · cases h
    next external =>
      split at h
      · cases h
      split at h
      · cases h
      · cases h
        exact Bool.or_eq_false_iff.mpr ⟨Bool.not_eq_true _ ▸ view, Bool.not_eq_true _ ▸ external⟩

theorem bare_purges : Purges fun _ t => derived t → t.rows = [] := by
  intro path now t bare is
  rw [derived_purgeExpiredPartitions] at is
  rw [purgeExpiredPartitions_of_derived is]
  exact bare is

/-- The operations that name no table and delete no dataset only read. -/
theorem touchedAt_apply (names : op.names? = none) (stays : ∀ p d, op ≠ .deleteAllForDataset p d) :
    TouchedAt now s (s.apply now op).1 := by
  cases op with
  | list p d start size => exact (TouchedAt.refl.seed now p d).purge p d
  | listAll p d => exact TouchedAt.refl.seed now p d
  | get at_ | getData at_ => exact touchedAt_get s now at_
  | datasetTableCount p d =>
    simp only [apply, TableService.datasetTableCount]
    split
    · exact .refl
    · exact TouchedAt.refl.purge p d
  | deleteAllForDataset p d => exact absurd rfl (stays p d)
  | _ => cases names

/-- The operations of the catalog give no rows to a view or an external table. -/
theorem bare_apply (asked : issued (.catalog now op)) (bare : Bare s) :
    Bare (s.apply now op).1 := by
  have gone (path : TableReference) :
    IfThere (fun _ t => derived t → t.rows = []) path none := .none path
  have seeds := bare_seeds.ifThere
  have there := All.everywhere bare
  cases op with
  | list p d start size | listAll p d | get at_ | getData at_ | datasetTableCount p d =>
    refine All.of_touchedAt bare bare_seeds bare_purges (touchedAt_apply rfl ?_)
    intro p d is
    cases is
  | insert input =>
    rw [apply]
    refine All.insert bare bare_seeds fun at_ _ is => ?_
    rw [issued, Bool.or_eq_true, Bool.and_eq_true] at asked
    rw [derived, Bool.or_eq_true] at is
    rcases asked with ⟨view, external⟩ | rows
    · rw [isNone_iff_eq_none] at view external
      rcases is with is | is
      · simp [newRecord, view] at is
      · simp [newRecord, external] at is
    · exact List.isEmpty_iff.mp rows
  | delete at_ => exact there.delete seeds at_ (gone at_)
  | patch input | update input =>
    rw [apply]
    exact All.edit bare bare_seeds fun at_ t _ _ bare => bare
  | deleteIfVersion at_ v => exact there.deleteIfVersion seeds at_ v (gone at_)
  | replaceRowsIfVersion at_ v rows partitions =>
    refine All.commitIfVersion bare bare_seeds fun t t' _ _ changed is => ?_
    rw [replaceRows_derived changed] at is
    cases is
  | replaceTableIfVersion at_ v schema rows =>
    refine All.commitIfVersion bare bare_seeds fun t t' _ _ changed is => ?_
    split at changed
    · cases changed
    · cases changed
      cases is
  | replaceViewIfVersion at_ v schema view =>
    refine All.commitIfVersion bare bare_seeds fun t t' _ _ changed is => ?_
    cases changed
    rfl
  | addColumnsIfVersion at_ v newFields =>
    refine All.commitIfVersion bare bare_seeds fun t t' _ bare changed is => ?_
    cases changed
    show List.map _ t.rows = []
    rw [bare is, map_nil]
  | dropColumnsIfVersion at_ v dropNames =>
    refine All.dropColumnsIfVersion bare bare_seeds fun t _ bare => ⟨bare, fun is => ?_⟩
    show List.map _ t.rows = []
    rw [bare is, map_nil]
  | renameColumnsIfVersion at_ v renames =>
    refine All.commitIfVersion bare bare_seeds fun t t' _ bare changed is => ?_
    cases changed
    exact bare is
  | renameTableIfVersion at_ newTableID v =>
    exact All.renameTableIfVersion bare bare_seeds at_ newTableID v fun t bare => bare
  | upsertCopyDestination dest schema rows create write => cases asked
  | deleteAllForDataset p d =>
    exact there.deleteAllForDataset p d fun path _ _ => gone path

end

/-! ## Rows that were acknowledged -/

/-- What becomes of a row while columns are added and dropped. -/
inductive Reshaped (row : Row) : Row → Prop where
  | same : Reshaped row row
  | added {row' : Row} (cells : List String) : Reshaped row row' → Reshaped row (row' ++ cells)
  | dropped {row' : Row} (drop : List Nat) :
      Reshaped row row' → Reshaped row (filterColumns row' drop)

/-- The table is read from its own rows, and from the given position on these are the ones
that were written. -/
structure Has (rows : List Row) (k : Nat) (t : TableRecord) : Prop where
  native : derived t = false
  rows : ∀ i row, rows[i]? = some row → ∃ row', t.rows[k + i]? = some row' ∧ Reshaped row row'

variable {rows : List Row} {k : Nat}

theorem Has.append (h : Has rows k t) (more : List Row) (native : derived t' = derived t)
    (is : t'.rows = t.rows ++ more) : Has rows k t' where
  native := native.trans h.native
  rows i row found := by
    obtain ⟨row', there, shape⟩ := h.rows i row found
    rw [is, getElem?_append_left (List.getElem?_eq_some_iff.mp there).1]
    exact ⟨row', there, shape⟩

theorem Has.map (h : Has rows k t) {change : Row → Row} (native : derived t' = derived t)
    (is : t'.rows = t.rows.map change)
    (reshapes : ∀ row row', Reshaped row row' → Reshaped row (change row')) : Has rows k t' where
  native := native.trans h.native
  rows i row found := by
    obtain ⟨row', there, shape⟩ := h.rows i row found
    rw [is, getElem?_map, there]
    exact ⟨change row', rfl, reshapes row row' shape⟩

/-- The rows are in the table. -/
def Holds (path : TableReference) (rows : List Row) (k : Nat) (s : TableService) : Prop :=
  ∃ t, s.record? path = some t ∧ Has rows k t

/-- The operations of the catalog that take the rows of a table away, if they succeed. -/
def replaces (path : TableReference) : CatalogOp → Bool
  | .delete at_ | .deleteIfVersion at_ _ | .replaceRowsIfVersion at_ _ _ _
  | .replaceTableIfVersion at_ _ _ _ | .replaceViewIfVersion at_ _ _ _
  | .renameTableIfVersion at_ _ _ => at_ = path
  | .deleteAllForDataset p d => path.projectID = p ∧ path.datasetID = d
  | _ => false

theorem Holds.of_record {s s' : TableService} (h : Holds path rows k s)
    (same : ∀ t, s.record? path = some t → s'.record? path = some t) : Holds path rows k s' := by
  obtain ⟨t, found, has⟩ := h
  exact ⟨t, same t found, has⟩

/-- What `Holds` says about each path. -/
def HasAt (path : TableReference) (rows : List Row) (k : Nat) (at_ : TableReference)
    (o : Option TableRecord) : Prop :=
  at_ = path → ∃ t, o = some t ∧ Has rows k t

theorem Holds.everywhere {s : TableService} (h : Holds path rows k s) :
    Everywhere (HasAt path rows k) s := by
  rintro at_ rfl
  exact h

/-- Where there is no table, nothing is asked for. -/
theorem HasAt.absent {o : Option TableRecord} (h : HasAt path rows k at_ none) :
    HasAt path rows k at_ o := by
  intro is
  obtain ⟨t, found, -⟩ := h is
  cases found

theorem HasAt.change (h : HasAt path rows k at_ (some t)) (keeps : Has rows k t → Has rows k t') :
    HasAt path rows k at_ (some t') := by
  intro is
  obtain ⟨t, found, has⟩ := h is
  cases found
  exact ⟨t', rfl, keeps has⟩

theorem HasAt.seeds : Everywhere.Seeds (HasAt path rows k) :=
  fun _ _ absent => absent.absent

theorem derived_merge (t : TableRecord) (schema : List TableField) (rows : List Row)
    (write : WriteDisposition) (now : Time) :
    derived (stamp now (merge t schema rows write now)) = derived t := rfl

/-- What the catalog has once the rows are in their table. -/
theorem record?_written (s : TableService) (now : Time) (schema : List TableField) (ack : Ack)
    (at_ : TableReference) : (written s now schema ack).record? at_ =
      if at_ = ack.path then
        some (stamp now (merge
          (destination (s.record? ack.path) ack.path now) schema ack.rows ack.write now))
      else s.record? at_ :=
  record?_commit s now ack.path _ at_

/-- A write leaves its rows behind those that were there, or in their place. -/
theorem has_merge (native : derived t = false) (schema : List TableField) (rows : List Row)
    (write : WriteDisposition) (now : Time) :
    ∃ k, Has rows k (stamp now (merge t schema rows write now)) := by
  by_cases append : write = .writeAppend
  · refine ⟨t.rows.length, native, fun i row found => ⟨row, ?_, .same⟩⟩
    show (if write = .writeAppend then t.rows ++ rows else rows)[t.rows.length + i]? = some row
    rw [if_pos append, getElem?_append_right (Nat.le_add_right _ _), Nat.add_sub_cancel_left, found]
  · refine ⟨0, native, fun i row found => ⟨row, ?_, .same⟩⟩
    show (if write = .writeAppend then t.rows ++ rows else rows)[0 + i]? = some row
    rw [if_neg append, Nat.zero_add, found]

section

variable [GoFloat] {s s' : TableService} {now moment : Time} {ack? : Option Ack}

/-- Nothing in the table has expired. -/
def lasts (now : Time) (path : TableReference) (s : TableService) : Bool :=
  (s.record? path).all fun t => !expired now t && !(purgeExpiredPartitions t now).2

theorem purgeRecord_of_lasts (h : lasts now path s) (found : s.record? path = some t) :
    purgeRecord now t = some t := by
  rw [lasts, found, all_some, Bool.and_eq_true, Bool.not_eq_true', Bool.not_eq_true'] at h
  rw [purgeRecord, if_neg (by simp [h.1])]
  rcases purgeExpiredPartitions_cases t now with same | ⟨config, column, -, -, kept⟩
  · rw [same]
  · rw [kept] at h
    cases h.2

theorem Holds.refused (h : Holds path rows k s) (names : op.names? = some [at_])
    (whole : ∀ path, s.tears now op path = false)
    (spared : ((decide (at_ = path)) && (s.apply now op).2) = false) :
    Holds path rows k (s.apply now op).1 := by
  refine h.of_record fun t found => ?_
  rw [(mutates_apply names whole).frame, record?_touch now op found]
  intro done
  rw [done, Bool.and_true, decide_eq_false_iff_not] at spared
  simpa using fun is => spared is.symm

/-- An operation of the catalog keeps the rows of a table unless it replaces them. -/
theorem holds_apply (asked : issued (.catalog now op))
    (spared : (replaces path op && (s.apply now op).2) = false) (lasting : lasts now path s)
    (h : Holds path rows k s) : Holds path rows k (s.apply now op).1 := by
  have there := h.everywhere
  suffices kept : (s.apply now op).1.Everywhere (HasAt path rows k) from kept path rfl
  cases op with
  | list p d start size | listAll p d | get at_ | getData at_ | datasetTableCount p d =>
    refine (h.of_record fun t found => ?_).everywhere
    refine (touchedAt_apply rfl ?_).record?_eq (purgeRecord_of_lasts lasting found) found
    intro p d is
    cases is
  | delete at_ | deleteIfVersion at_ v | replaceRowsIfVersion at_ v rows' partitions
  | replaceTableIfVersion at_ v schema rows' | replaceViewIfVersion at_ v schema view =>
    exact (h.refused rfl (fun _ => rfl) spared).everywhere
  | insert input =>
    rw [apply]
    exact there.insert HasAt.seeds fun at_ _ absent => absent.absent
  | patch input | update input =>
    rw [apply]
    exact there.edit HasAt.seeds fun at_ t _ _ has =>
      has.change fun has => ⟨has.native, has.rows⟩
  | addColumnsIfVersion at_ v newFields =>
    refine there.commitIfVersion HasAt.seeds fun t t' _ has changed => ?_
    cases changed
    exact has.change fun has => has.map rfl rfl fun row row' shape => shape.added _
  | dropColumnsIfVersion at_ v dropNames =>
    refine there.dropColumnsIfVersion HasAt.seeds fun t _ has => ⟨?_, ?_⟩
    · exact has.change fun has => ⟨has.native, has.rows⟩
    · exact has.change fun has => has.map rfl rfl fun row row' shape => shape.dropped _
  | renameColumnsIfVersion at_ v renames =>
    refine there.commitIfVersion HasAt.seeds fun t t' _ has changed => ?_
    cases changed
    exact has.change fun has => ⟨has.native, has.rows⟩
  | renameTableIfVersion at_ newTableID v =>
    cases done : (s.apply now (.renameTableIfVersion at_ newTableID v)).2 with
    | false =>
      refine (h.of_record fun t found => ?_).everywhere
      rw [(mutates_apply rfl fun _ => rfl).frame,
        record?_touch now _ found]
      intro is
      rw [done] at is
      cases is
    | true =>
      have other : at_ ≠ path := by simpa [replaces, done] using spared
      refine there.renameTableIfVersion HasAt.seeds at_ newTableID v
        (fun t _ is => absurd is other) fun t _ absent => absent.absent
  | upsertCopyDestination dest schema rows create write => cases asked
  | deleteAllForDataset p d =>
    refine there.deleteAllForDataset p d fun at_ project dataset is => ?_
    subst is
    simp [replaces, project, dataset, apply] at spared

/-! ## Requests for writes -/

/-- Reading does not make a view or an external table. -/
theorem not_derived_of_touchedAt (reads : TouchedAt moment s s')
    (native : (s.record? path).all fun t => !derived t) :
    (s'.record? path).all fun t => !derived t := by
  have all : All (fun at_ t => at_ = path → derived t = false) s' := by
    have here : All (fun at_ t => at_ = path → derived t = false) s := by
      rintro at_ t found rfl
      simpa [found] using native
    refine here.of_touchedAt (fun at_ now _ => rfl) (fun at_ now t holds is => ?_) reads
    rw [derived_purgeExpiredPartitions]
    exact holds is
  cases found : s'.record? path with
  | none => rfl
  | some t => simpa using all path t found rfl

/-- A request for a write leaves the other tables as they are. -/
theorem record?_effect (wrote : Effect moment s s' ack?)
    (other : ∀ ack, ack? = some ack → path ≠ ack.path) (lasting : purgeRecord moment t = some t)
    (found : s.record? path = some t) : s'.record? path = some t := by
  cases wrote with
  | reads reads => exact reads.record?_eq lasting found
  | writes now schema ack reads =>
    rw [record?_written, if_neg (other ack rfl), reads.record?_eq lasting found]

/-- A request for a write keeps the rows of a table unless it replaces them. -/
theorem holds_effect (wrote : Effect moment s s' ack?)
    (spared : ack?.all fun ack => ack.path ≠ path || ack.write = .writeAppend)
    (lasting : lasts moment path s) (h : Holds path rows k s) : Holds path rows k s' := by
  obtain ⟨t, found, has⟩ := h
  have lasting := purgeRecord_of_lasts lasting found
  cases wrote with
  | reads reads => exact ⟨t, reads.record?_eq lasting found, has⟩
  | @writes u at_ schema ack reads =>
    have found := reads.record?_eq lasting found
    rw [Holds, record?_written]
    split
    next here =>
      subst here
      refine ⟨_, rfl, ?_⟩
      rw [found]
      have append : ack.write = .writeAppend := by simpa using spared
      refine has.append ack.rows (derived_merge t _ _ _ _) ?_
      rw [append]
      rfl
    · exact ⟨t, found, has⟩

/-- Rows that were acknowledged are in their table, if it is neither a view nor external. -/
theorem holds_of_ack {ack : Ack} (wrote : Effect moment s s' (some ack))
    (native : (s.record? ack.path).all fun t => !derived t) :
    ∃ k, Holds ack.path ack.rows k s' := by
  cases wrote with
  | @writes u at_ schema _ reads =>
    have native := not_derived_of_touchedAt reads native
    have native : derived (destination (u.record? ack.path) ack.path at_) = false := by
      cases found : u.record? ack.path with
      | none => rfl
      | some t =>
        rw [found] at native
        show derived t = false
        simpa using native
    obtain ⟨k, has⟩ := has_merge native schema ack.rows ack.write at_
    refine ⟨k, _, ?_, has⟩
    rw [record?_written, if_pos rfl]

/-- A request for a write keeps views and external tables empty, if its table is neither. -/
theorem bare_effect (wrote : Effect moment s s' ack?)
    (native : ∀ ack, ack? = some ack → (s.record? ack.path).all fun t => !derived t) (bare : Bare s) :
    Bare s' := by
  have there {u : TableService} (reads : TouchedAt moment s u) : Bare u :=
    All.of_touchedAt bare bare_seeds bare_purges reads
  cases wrote with
  | reads reads => exact there reads
  | @writes u at_ schema ack reads =>
    intro path t found
    rw [record?_written] at found
    split at found
    · obtain ⟨k, t', is, has⟩ := holds_of_ack (.writes at_ schema ack reads) (native ack rfl)
      rw [record?_written, if_pos rfl] at is
      cases is
      cases found
      intro is
      rw [has.native] at is
      cases is
    · exact there reads path t found

/-- Where there is a view or an external table, a read finds it or finds nothing. -/
theorem derived_of_get (now : Time) (found : s.record? path = some t) (is : derived t) :
    ((s.get now path).2).all derived := by
  have there : Everywhere (fun at_ o => at_ = path → o.all derived)
      (s.ensureDatasetLocked now path.projectID path.datasetID) := by
    rintro at_ rfl
    rw [record?_ensure now _ _ found]
    exact is
  refine there.purge ?_ path.projectID path.datasetID path rfl
  intro at_ t holds is
  rw [purgeRecord]
  split
  · rfl
  · rw [all_some, derived_purgeExpiredPartitions]
    exact holds is

/-! ## Runs -/

/-- Whether a request looks at the kind of the table it writes to. -/
def checksKind : Operation → Bool
  | .insertAll r => trimPath r.table.projectID r.table.datasetID r.table.tableID = some r.table
  | _ => false

/-- Whether an operation writes to no view and no external table, or refuses to. -/
def writesNative (s : State) (op : Operation) : Bool :=
  checksKind op ||
    (destination? s op).all fun path => (s.catalog.record? path).all fun t => !derived t

/-- Whether the catalog is told to replace the rows of a table, and does so. -/
def deletes (path : TableReference) (s : State) : Operation → Bool
  | .storage (.catalog now op) => replaces path op && (s.catalog.apply now op).2
  | _ => false

/-- Whether an operation leaves the rows of a table in it: nothing in it has expired, and no
request replaces them. -/
def spares (b : Backend) (files : Files) (path : TableReference) (s : State) (op : Operation) :
    Bool :=
  (moment? op).all (fun now => lasts now path s.catalog) && !deletes path s op &&
    (answers b files s op).all fun ack => ack.path ≠ path || ack.write = .writeAppend

variable {b : Backend} {files : Files} {op : Operation}

theorem insertAll_refused {catalog : TableService} (seen : Streaming.Seen)
    {r : Streaming.InsertAllRequest} (found : catalog.record? r.table = some t) (is : derived t) :
    (Streaming.insertAllTableData catalog seen r).committed = false := by
  have read := derived_of_get r.readAt found is
  rw [Streaming.insertAllTableData]
  dsimp only
  split
  · rfl
  next catalog' record get =>
    rw [get, all_some, derived, Bool.or_eq_true] at read
    split
    · rfl
    next view =>
      rw [if_pos (read.resolve_left view)]

/-- A request for a write to a view or an external table is refused. -/
theorem refused_of_derived {s : State} (native : writesNative s op)
    (dest : destination? s op = some path) (found : s.catalog.record? path = some t)
    (is : derived t) : answers b files s op = none := by
  rw [writesNative, dest, all_some, found, all_some, is, Bool.not_true, Bool.or_false] at native
  cases op with
  | insertAll r =>
    rw [checksKind, decide_eq_true_eq] at native
    rw [destination?, request?, bind_some, native] at dest
    cases dest
    rw [answers, request?, bind_some, taken]
    dsimp only
    rw [insertAll_refused s.seen found is]
    rfl
  | _ => cases native

theorem native_of_answers {s : State} {ack : Ack} (native : writesNative s op)
    (answer : answers b files s op = some ack) :
    (s.catalog.record? ack.path).all fun t => !derived t := by
  cases found : s.catalog.record? ack.path with
  | none => rfl
  | some t =>
    cases is : derived t with
    | false => simp [is]
    | true =>
      have refused : answers b files s op = none :=
        refused_of_derived native (destination_of_answers answer) found is
      rw [refused] at answer
      cases answer

theorem bare_step (queries : QueriesReadAt b) {s s' : State} (native : writesNative s op)
    (h : step b files s op = some s') (bare : Bare s.catalog) : Bare s'.catalog := by
  cases steps queries h with
  | catalog asked is =>
    rw [is]
    exact bare_apply asked bare
  | request at_ wrote => exact bare_effect wrote (fun ack => native_of_answers native) bare
  | other is _ => rwa [is]

/-- A request for a write leaves the views and external tables that have not expired as they
are. -/
theorem kept_of_derived (queries : QueriesReadAt b) {s s' : State} (native : writesNative s op)
    (h : step b files s op = some s') (dest : (destination? s op).isSome)
    (found : s.catalog.record? path = some t) (is : derived t)
    (lasting : (moment? op).all fun now => lasts now path s.catalog) :
    s'.catalog.record? path = some t := by
  cases steps queries h with
  | catalog asked same => cases dest
  | @request _ moment at_ wrote =>
    rw [at_] at lasting
    have lasting := purgeRecord_of_lasts lasting found
    refine record?_effect wrote (fun ack answer here => ?_) lasting found
    subst here
    have refused : answers b files s op = none :=
      refused_of_derived native (destination_of_answers answer) found is
    rw [refused] at answer
    cases answer
  | other same _ => rwa [same]

theorem holds_step (queries : QueriesReadAt b) {s s' : State} (spared : spares b files path s op)
    (h : step b files s op = some s') (holds : Holds path rows k s.catalog) :
    Holds path rows k s'.catalog := by
  rw [spares, Bool.and_eq_true, Bool.and_eq_true, Bool.not_eq_true'] at spared
  obtain ⟨⟨lasting, stays⟩, behind⟩ := spared
  cases steps queries h with
  | catalog asked is =>
    rw [is]
    exact holds_apply asked stays lasting holds
  | request at_ wrote =>
    rw [at_] at lasting
    exact holds_effect wrote behind lasting holds
  | other is _ => rwa [is]

end

/-! ## A load job into a view -/

section

attribute [local instance] GoFloat.texts

/-- No engine: a view cannot be read. -/
def noEngine : Backend where
  query s _ _ _ _ := (s, fail "no engine")
  exec s _ _ _ _ _ := (s, fail "no engine")
  informationSchema s _ _ _ _ _ := (s, [], [])

theorem noEngine_readsAt : QueriesReadAt noEngine := fun _ _ _ _ _ => .refl

/-- An upload with a single row. -/
def upload : Files where
  external _ _ := .error "no file"
  detect _ := .error "no file"
  rows _ _ _ := .ok [["home"]]

def withDataset : State := { datasets := { defaults := ["ds"] } }

/-- A table or a view is created. -/
def create (tableID : String) (view : Option ViewConfig) : Operation :=
  .storage (.catalog 1 (.insert
    { projectID := "p"
      datasetID := "ds"
      tableID := tableID
      schema := [⟨"page", "STRING", "", []⟩]
      view := view }))

/-- The row is uploaded. -/
def loadInto (tableID : String) : LoadJob where
  projectID := "p"
  targetDataset := "ds"
  targetTable := tableID
  writeDisposition := "WRITE_APPEND"
  loadSchema := [⟨"page", "STRING", "", []⟩]
  loadInline := true

theorem bare_withDataset : Bare withDataset.catalog := by
  intro path t found
  cases found

/-- The state with the table or the view. -/
def withVisits (view : Option ViewConfig) : State :=
  (step noEngine upload withDataset (create "visits" view)).getD withDataset

/-- The state after the upload, and after another one. -/
def loaded (s : State) : State :=
  (step noEngine upload s (.load 2 (loadInto "visits"))).getD s

end

end LocaQL.Jobs
