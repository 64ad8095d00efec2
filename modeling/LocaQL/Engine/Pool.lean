import LocaQL.Catalog.Types
import Mathlib.Data.List.Sort
import Mathlib.Data.String.Basic

/-!
# The SQL engine pool

The pool's records and its critical sections, one definition for each.  An engine
is named by the order in which it was opened, and the pool maps the name to the
record behind the Go pointer, so a goroutine can still hold an engine that has
left the pool.

A database is a map from `dataset.table` to what was stored under it.  Its
statements can fail: `Faults` says which ones do, and with what text.
-/

namespace LocaQL

open List

/-- What the embedded database stores under one table name. -/
structure EngineTable where
  fields : List TableField
  rows : List Row
deriving DecidableEq

abbrev Database := GoMap String EngineTable

/-- The statements the server runs on an engine to set up and clear tables.  A
table is named by its key `dataset.table`. -/
inductive EngineStatement where
  | createSchema (datasetID : String)
  | createTable (key : String)
  | begin (key : String)
  | prepareInsert (key : String)
  | insertRow (key : String) (index : Nat)
  | commit (key : String)
  | dropTable (key : String)
deriving Repr, DecidableEq

/-- The error text of each statement that fails. -/
abbrev Faults := EngineStatement → Option String

def noFaults : Faults := fun _ => none

abbrev EngineID := Nat

/-- `sqlEnginePoolMaxIdle`. -/
def sqlEnginePoolMaxIdle : Nat := 8

/-- `pooledEngine`, with whether its database handle has been closed. -/
structure PooledEngine where
  db : Database := ∅
  closed : Bool := false
  schemas : List String := []
  tables : GoMap String Nat := ∅
  signature : String := ""
  refCount : Nat := 0

/-- `sqlEnginePool`: the engines it lists, every engine ever opened, and the name
the next one gets. -/
structure SqlEnginePool where
  all : List EngineID := []
  engine : EngineID → PooledEngine := fun _ => {}
  next : EngineID := 0

/-! ## Signatures -/

/-- `cacheableTableRef`. -/
structure CacheableTableRef where
  datasetID : String
  tableID : String
  version : Nat
deriving Repr, DecidableEq

def tableKey (datasetID tableID : String) : String := datasetID ++ "." ++ tableID

def CacheableTableRef.part (r : CacheableTableRef) : String :=
  tableKey r.datasetID r.tableID ++ "@" ++ Nat.repr r.version

def tableSignature (refs : List CacheableTableRef) : String :=
  if refs.isEmpty then ""
  else String.intercalate "|" ((refs.map (·.part)).insertionSort (· ≤ ·))

/-- A name without the characters that separate the parts of a signature. -/
def PlainName (s : String) : Prop := ∀ c ∈ s.toList, c ≠ '.' ∧ c ≠ '@' ∧ c ≠ '|'

instance (s : String) : Decidable (PlainName s) := List.decidableBAll _ s.toList

theorem tableKey_toList (datasetID tableID : String) :
    (tableKey datasetID tableID).toList = datasetID.toList ++ '.' :: tableID.toList := by
  simp [tableKey]

/-- A plain name before the dot makes a key unambiguous. -/
theorem tableKey_inj {d d' t t' : String} (hd : PlainName d) (ht : PlainName t)
    (h : tableKey d t = tableKey d' t') : d = d' ∧ t = t' := by
  have h := congrArg String.toList h
  rw [tableKey_toList, tableKey_toList,
    append_cons_inj_of_notMem (fun m => (hd _ m).1 rfl) (fun m => (ht _ m).1 rfl)] at h
  exact ⟨String.toList_injective h.1, String.toList_injective h.2.2⟩

theorem part_toList (r : CacheableTableRef) :
    r.part.toList = (tableKey r.datasetID r.tableID).toList ++ '@' :: (Nat.repr r.version).toList := by
  simp [CacheableTableRef.part]

variable {r : CacheableTableRef} {refs : List CacheableTableRef}

theorem part_inj {r' : CacheableTableRef} (hd : PlainName r.datasetID) (ht : PlainName r.tableID)
    (h : r.part = r'.part) : r = r' := by
  have h := congrArg String.toList h
  have key : '@' ∉ (tableKey r.datasetID r.tableID).toList := by
    rw [tableKey_toList]
    simp only [mem_append, mem_cons, not_or]
    exact ⟨fun m => (hd _ m).2.1 rfl, by decide, fun m => (ht _ m).2.1 rfl⟩
  rw [part_toList, part_toList,
    append_cons_inj_of_notMem key (GoText.not_mem_repr (by decide) _)] at h
  obtain ⟨hkey, -, hversion⟩ := h
  obtain ⟨h1, h2⟩ := tableKey_inj hd ht (String.toList_injective hkey)
  have h3 := GoText.repr_toList_inj hversion
  cases r
  cases r'
  simp_all

theorem bar_not_mem_part (hd : PlainName r.datasetID) (ht : PlainName r.tableID) :
    '|' ∉ r.part.toList := by
  rw [part_toList, tableKey_toList]
  simp only [mem_append, mem_cons, not_or]
  exact ⟨⟨fun m => (hd _ m).2.2 rfl, by decide, fun m => (ht _ m).2.2 rfl⟩, by decide,
    GoText.not_mem_repr (by decide) _⟩

/-- The parts of a signature can be read back from it. -/
theorem parts_of_tableSignature (ne : refs ≠ [])
    (plain : ∀ r ∈ refs, PlainName r.datasetID ∧ PlainName r.tableID) :
    (tableSignature refs).toList.splitOn '|'
      = ((refs.map (·.part)).insertionSort (· ≤ ·)).map String.toList := by
  have hne : (refs.map (·.part)).insertionSort (· ≤ ·) ≠ [] := by
    intro h
    have := congrArg List.length h
    simp [length_insertionSort, ne] at this
  rw [tableSignature, if_neg (by simpa using ne), String.toList_intercalate]
  refine splitOn_intercalate '|' ?_ (by simpa using hne)
  intro part hpart
  obtain ⟨_, sorted, rfl⟩ := mem_map.1 hpart
  rw [mem_insertionSort, mem_map] at sorted
  obtain ⟨r, hr, rfl⟩ := sorted
  exact bar_not_mem_part (plain r hr).1 (plain r hr).2

/-- Two sets of plainly named tables with one signature are the same set at the same
versions. -/
theorem mem_of_tableSignature_eq {refs' : List CacheableTableRef} (ne : refs ≠ [])
    (ne' : refs' ≠ []) (plain : ∀ r ∈ refs, PlainName r.datasetID ∧ PlainName r.tableID)
    (plain' : ∀ r ∈ refs', PlainName r.datasetID ∧ PlainName r.tableID)
    (h : tableSignature refs = tableSignature refs') (mem : r ∈ refs) : r ∈ refs' := by
  have parts := parts_of_tableSignature ne plain
  rw [h, parts_of_tableSignature ne' plain'] at parts
  have sorted := map_injective_iff.2 (fun _ _ => String.toList_injective) parts
  have hpart : r.part ∈ (refs'.map (·.part)).insertionSort (· ≤ ·) := by
    rw [sorted, mem_insertionSort]
    exact mem_map_of_mem mem
  rw [mem_insertionSort, mem_map] at hpart
  obtain ⟨r', mem', same⟩ := hpart
  rw [← part_inj (plain' r' mem').1 (plain' r' mem').2 same]
  exact mem'

theorem ne_nil_of_tableSignature (h : tableSignature refs ≠ "") : refs ≠ [] := by
  rintro rfl
  exact h rfl

/-! ## One engine -/

namespace PooledEngine

/-- The loop of `reset` over the tracked keys. -/
def dropTables (faults : Faults) (pe : PooledEngine) : List String → PooledEngine × Option String
  | [] => (pe, none)
  | key :: keys =>
    match faults (.dropTable key) with
    | some err => (pe, some s!"drop table {key} while resetting pooled engine: {err}")
    | none => dropTables faults { pe with db := pe.db.delete key } keys

/-- `safeResetPooledEngine`.  A panic inside is an error like any other. -/
def reset (faults : Faults) (pe : PooledEngine) : PooledEngine × Option String :=
  match pe.dropTables faults pe.tables.keys with
  | (pe', some err) => (pe', some err)
  | (pe', none) => ({ pe' with tables := ∅, signature := "" }, none)

def ensureSchema (faults : Faults) (pe : PooledEngine) (datasetID : String) :
    Except String PooledEngine :=
  if datasetID ∈ pe.schemas then .ok pe
  else
    match faults (.createSchema datasetID) with
    | some err => .error err
    | none => .ok { pe with schemas := datasetID :: pe.schemas }

def markTableMaterialized (pe : PooledEngine) (datasetID tableID : String) (version : Nat) :
    PooledEngine :=
  { pe with tables := pe.tables.set (tableKey datasetID tableID) version }

def materializedVersion (pe : PooledEngine) (datasetID tableID : String) : Option Nat :=
  pe.tables.get? (tableKey datasetID tableID)

/-- `dropMaterialized`, by the key that `splitTableKey` takes apart for it. -/
def dropMaterialized (faults : Faults) (pe : PooledEngine) (key : String) :
    Except String PooledEngine :=
  match pe.tables.get? key with
  | none => .ok pe
  | some _ =>
    match faults (.dropTable key) with
    | some err => .error err
    | none => .ok { pe with db := pe.db.delete key, tables := pe.tables.delete key }

/-- Resetting touches only the tables and, when it succeeds, the signature. -/
theorem dropTables_frame (faults : Faults) (pe : PooledEngine) (keys : List String) :
    ∃ db, (pe.dropTables faults keys).1 = { pe with db := db } := by
  induction keys generalizing pe with
  | nil => exact ⟨pe.db, rfl⟩
  | cons key keys ih =>
    unfold dropTables
    split
    · exact ⟨pe.db, rfl⟩
    · exact ih _

@[simp] theorem reset_refCount (faults : Faults) (pe : PooledEngine) :
    (pe.reset faults).1.refCount = pe.refCount := by
  obtain ⟨db, h⟩ := dropTables_frame faults pe pe.tables.keys
  unfold reset
  split <;> simp_all

@[simp] theorem reset_closed (faults : Faults) (pe : PooledEngine) :
    (pe.reset faults).1.closed = pe.closed := by
  obtain ⟨db, h⟩ := dropTables_frame faults pe pe.tables.keys
  unfold reset
  split <;> simp_all

theorem reset_signature (faults : Faults) {pe : PooledEngine} (h : pe.signature = "") :
    (pe.reset faults).1.signature = "" := by
  obtain ⟨db, hdb⟩ := dropTables_frame faults pe pe.tables.keys
  unfold reset
  split <;> simp_all

end PooledEngine

/-! ## Critical sections of the pool -/

namespace SqlEnginePool

def modify (p : SqlEnginePool) (e : EngineID) (f : PooledEngine → PooledEngine) : SqlEnginePool :=
  { p with engine := Function.update p.engine e (f (p.engine e)) }

@[simp] theorem modify_engine (p : SqlEnginePool) (e : EngineID) (f : PooledEngine → PooledEngine)
    (x : EngineID) : (p.modify e f).engine x = if x = e then f (p.engine e) else p.engine x := by
  simp [modify, Function.update_apply]

def tagSignature (p : SqlEnginePool) (e : EngineID) (sig : String) : SqlEnginePool :=
  p.modify e fun pe => { pe with signature := sig }

/-- The engine `acquirePrivate` takes: the first idle one. -/
def idle? (p : SqlEnginePool) : Option EngineID :=
  p.all.find? fun e => (p.engine e).refCount == 0

/-- Taking an idle engine clears its signature in the same critical section. -/
def claim (p : SqlEnginePool) (e : EngineID) : SqlEnginePool :=
  p.modify e fun pe => { pe with refCount := 1, signature := "" }

/-- The exact match of `acquireShared`; whether the engine is in use does not matter. -/
def matching? (p : SqlEnginePool) (sig : String) : Option EngineID :=
  p.all.find? fun e => (p.engine e).signature == sig

def join (p : SqlEnginePool) (e : EngineID) : SqlEnginePool :=
  p.modify e fun pe => { pe with refCount := pe.refCount + 1 }

/-- The second loop of `acquireShared`: an idle engine, a blank one if there is one. -/
def reuseLoop (p : SqlEnginePool) : Option EngineID → List EngineID → Option EngineID
  | reuse, [] => reuse
  | reuse, e :: es =>
    if (p.engine e).refCount ≠ 0 then p.reuseLoop reuse es
    else if (p.engine e).signature = "" then some e
    else p.reuseLoop (reuse <|> some e) es

def reuse? (p : SqlEnginePool) : Option EngineID := p.reuseLoop none p.all

/-- The engines `evictOverCapLocked` closes: what the cap leaves no room for, blank
engines before the others (the stable sort) and otherwise in pool order. -/
def toEvict (p : SqlEnginePool) : List EngineID :=
  let idle := p.all.filter fun e => (p.engine e).refCount == 0
  let sorted := (idle.filter fun e => (p.engine e).signature == "")
    ++ idle.filter fun e => (p.engine e).signature != ""
  sorted.take (idle.length - sqlEnginePoolMaxIdle)

def evictOverCapLocked (p : SqlEnginePool) : SqlEnginePool :=
  { p with
    all := p.all.filter fun e => e ∉ p.toEvict
    engine := fun e =>
      if e ∈ p.toEvict then { p.engine e with closed := true } else p.engine e }

variable {e : EngineID} {p : SqlEnginePool} {sig : String}

theorem idle?_spec (h : p.idle? = some e) : e ∈ p.all ∧ (p.engine e).refCount = 0 := by
  have found := find?_some h
  exact ⟨mem_of_find?_eq_some h, by simpa using found⟩

theorem matching?_spec (h : p.matching? sig = some e) :
    e ∈ p.all ∧ (p.engine e).signature = sig := by
  have found := find?_some h
  exact ⟨mem_of_find?_eq_some h, by simpa using found⟩

theorem reuseLoop_spec {reuse : Option EngineID} {es : List EngineID}
    (h : p.reuseLoop reuse es = some e) : reuse = some e ∨ e ∈ es ∧ (p.engine e).refCount = 0 := by
  induction es generalizing reuse with
  | nil => exact .inl h
  | cons x es ih =>
    rw [reuseLoop] at h
    split at h
    · rcases ih h with h | ⟨mem, idle⟩
      · exact .inl h
      · exact .inr ⟨mem_cons_of_mem _ mem, idle⟩
    next idle =>
      split at h
      · cases h
        exact .inr ⟨mem_cons_self, not_not.1 idle⟩
      · rcases ih h with h | ⟨mem, idle'⟩
        · cases reuse with
          | none =>
            cases h
            exact .inr ⟨mem_cons_self, not_not.1 idle⟩
          | some _ => exact .inl h
        · exact .inr ⟨mem_cons_of_mem _ mem, idle'⟩

theorem reuse?_spec (h : p.reuse? = some e) : e ∈ p.all ∧ (p.engine e).refCount = 0 := by
  rcases reuseLoop_spec h with h | h
  · cases h
  · exact h

/-- Only idle engines are evicted. -/
theorem mem_toEvict (h : e ∈ p.toEvict) : e ∈ p.all ∧ (p.engine e).refCount = 0 := by
  have h := mem_of_mem_take h
  simp only [mem_append, mem_filter, beq_iff_eq] at h
  rcases h with ⟨h, -⟩ | ⟨h, -⟩ <;> exact h

@[simp] theorem evict_next (p : SqlEnginePool) : p.evictOverCapLocked.next = p.next := rfl

theorem mem_evict_all : e ∈ p.evictOverCapLocked.all ↔ e ∈ p.all ∧ e ∉ p.toEvict := by
  simp [evictOverCapLocked]

@[simp] theorem evict_signature (p : SqlEnginePool) (e : EngineID) :
    (p.evictOverCapLocked.engine e).signature = (p.engine e).signature := by
  simp only [evictOverCapLocked]
  split <;> rfl

theorem evict_engine (h : e ∉ p.toEvict) : p.evictOverCapLocked.engine e = p.engine e := by
  simp [evictOverCapLocked, h]

/-- The end of `releasePrivate` after a reset that worked. -/
def returnPrivate (p : SqlEnginePool) (e : EngineID) : SqlEnginePool :=
  (p.modify e fun pe => { pe with refCount := 0 }).evictOverCapLocked

/-- The first critical section of `releasePrivate` after a reset that failed. -/
def abandon (p : SqlEnginePool) (e : EngineID) : SqlEnginePool :=
  p.modify e fun pe => { pe with refCount := 0 }

def releaseShared (p : SqlEnginePool) (e : EngineID) : SqlEnginePool :=
  let p' := p.modify e fun pe => { pe with refCount := pe.refCount - 1 }
  if (p'.engine e).refCount = 0 then p'.evictOverCapLocked else p'

/-- The critical section of `discard`. -/
def remove (p : SqlEnginePool) (e : EngineID) : SqlEnginePool :=
  { p with all := p.all.filter (· ≠ e) }

/-- `pe.db.Close()`. -/
def close (p : SqlEnginePool) (e : EngineID) : SqlEnginePool :=
  p.modify e fun pe => { pe with closed := true }

/-- `openFresh`, once the driver has given a handle. -/
def openFresh (p : SqlEnginePool) : SqlEnginePool :=
  { all := p.all ++ [p.next]
    engine := Function.update p.engine p.next { refCount := 1 }
    next := p.next + 1 }

/-! ### Whole calls

Each method as one goroutine runs it, its critical sections in sequence. -/

def openEngine (p : SqlEnginePool) (openErr : Option String) :
    SqlEnginePool × Except String EngineID :=
  match openErr with
  | some err => (p, .error s!"open real SQL engine: {err}")
  | none => (p.openFresh, .ok p.next)

/-- The reset of a claimed engine; one that cannot be reset is discarded for a fresh one. -/
def resetClaimed (p : SqlEnginePool) (faults : Faults) (openErr : Option String)
    (e : EngineID) : SqlEnginePool × Except String EngineID :=
  let p' := p.modify e fun pe => (pe.reset faults).1
  if ((p.engine e).reset faults).2.isNone then (p', .ok e)
  else ((p'.remove e).close e).openEngine openErr

def acquirePrivate (p : SqlEnginePool) (faults : Faults) (openErr : Option String) :
    SqlEnginePool × Except String EngineID :=
  match p.idle? with
  | some e => (p.claim e).resetClaimed faults openErr e
  | none => p.openEngine openErr

/-- `acquireShared`, with whether it hit. -/
def acquireShared (p : SqlEnginePool) (sig : String) (faults : Faults)
    (openErr : Option String) : SqlEnginePool × Except String EngineID × Bool :=
  match p.matching? sig with
  | some e => (p.join e, .ok e, true)
  | none =>
    match p.reuse? with
    | none =>
      let r := p.openEngine openErr
      (r.1, r.2, false)
    | some e =>
      if (p.engine e).signature = "" then (p.claim e, .ok e, false)
      else
        let r := (p.claim e).resetClaimed faults openErr e
        (r.1, r.2, false)

def releasePrivate (p : SqlEnginePool) (faults : Faults) (e : EngineID) : SqlEnginePool :=
  let p' := p.modify e fun pe => (pe.reset faults).1
  if ((p.engine e).reset faults).2.isNone then p'.returnPrivate e
  else ((p'.abandon e).remove e).close e

/-- From `p` to `p'` only the record of `e` may have changed among the engines still in
the pool, and only `e` may be new. -/
def Others (p p' : SqlEnginePool) (e : EngineID) : Prop :=
  ∀ x ∈ p'.all, x ≠ e → x ∈ p.all ∧ p'.engine x = p.engine x

theorem Others.trans {p' p'' : SqlEnginePool} (h : Others p p' e) (h' : Others p' p'' e) :
    Others p p'' e := by
  intro x mem ne
  obtain ⟨mem', same'⟩ := h' x mem ne
  obtain ⟨mem, same⟩ := h x mem' ne
  exact ⟨mem, same'.trans same⟩

section

variable (p : SqlEnginePool)

theorem others_modify (e : EngineID) (f : PooledEngine → PooledEngine) :
    Others p (p.modify e f) e :=
  fun _ mem ne => ⟨mem, by simp [ne]⟩

theorem others_evict (e : EngineID) : Others p p.evictOverCapLocked e := by
  intro x mem _
  obtain ⟨mem, kept⟩ := mem_evict_all.1 mem
  exact ⟨mem, evict_engine kept⟩

theorem others_remove (e x : EngineID) : Others p (p.remove e) x :=
  fun _ mem _ => ⟨(mem_filter.1 mem).1, rfl⟩

theorem not_mem_remove (e : EngineID) : e ∉ (p.remove e).all := by
  simp [remove]

theorem others_openFresh : Others p p.openFresh p.next := by
  intro x mem ne
  refine ⟨?_, by simp [openFresh, ne]⟩
  simpa [openFresh, ne] using mem

end

theorem reset_ok {faults : Faults} {pe : PooledEngine} (h : (pe.reset faults).2.isNone) :
    (pe.reset faults).1.tables = ∅ ∧ (pe.reset faults).1.signature = "" := by
  unfold PooledEngine.reset at h ⊢
  split
  next found => simp [found] at h
  · exact ⟨rfl, rfl⟩

/-- What an acquire that opens or resets an engine gives: an engine that lists no
table, or an error and no new engine. -/
structure Cleared (p p' : SqlEnginePool) (result : Except String EngineID) : Prop where
  ok : ∀ e, result = .ok e →
    Others p p' e ∧ (p'.engine e).tables = ∅ ∧ (p'.engine e).signature = ""
  error : ∀ err, result = .error err → ∀ x ∈ p'.all, x ∈ p.all ∧ p'.engine x = p.engine x

theorem openEngine_cleared (p : SqlEnginePool) (openErr : Option String) :
    Cleared p (p.openEngine openErr).1 (p.openEngine openErr).2 := by
  cases openErr with
  | some err => exact ⟨nofun, fun _ _ _ mem => ⟨mem, rfl⟩⟩
  | none =>
    refine ⟨fun _ h => ?_, nofun⟩
    cases h
    exact ⟨others_openFresh p, by simp [openEngine, openFresh], by simp [openEngine, openFresh]⟩

theorem resetClaimed_cleared {p0 : SqlEnginePool} (claimed : Others p0 p e) (faults : Faults)
    (openErr : Option String) :
    Cleared p0 (p.resetClaimed faults openErr e).1 (p.resetClaimed faults openErr e).2 := by
  simp only [resetClaimed]
  split
  next ok =>
    obtain ⟨tables, sig⟩ := reset_ok ok
    refine ⟨fun _ h => ?_, nofun⟩
    cases h
    exact ⟨claimed.trans (others_modify _ _ _), by simpa using tables, by simpa using sig⟩
  · -- the engine leaves the pool before the fresh one is opened
    generalize hp1 : ((p.modify e fun pe => (pe.reset faults).1).remove e).close e = p1
    have same : ∀ x ∈ p1.all, x ∈ p0.all ∧ p1.engine x = p0.engine x := by
      subst hp1
      intro x mem
      have ne : x ≠ e := fun h => not_mem_remove _ e (h ▸ mem)
      have removed := (others_modify p e fun pe => (pe.reset faults).1).trans (others_remove _ e e)
      exact claimed.trans (removed.trans (others_modify _ e _)) x mem ne
    have cleared := openEngine_cleared p1 openErr
    refine ⟨fun x h => ?_, fun err h y mem => ?_⟩
    · obtain ⟨others, tables, sig⟩ := cleared.ok x h
      refine ⟨fun y mem ne => ?_, tables, sig⟩
      obtain ⟨mem, record⟩ := others y mem ne
      exact ⟨(same y mem).1, record.trans (same y mem).2⟩
    · obtain ⟨mem, record⟩ := cleared.error err h y mem
      exact ⟨(same y mem).1, record.trans (same y mem).2⟩

theorem acquirePrivate_cleared (p : SqlEnginePool) (faults : Faults) (openErr : Option String) :
    Cleared p (p.acquirePrivate faults openErr).1 (p.acquirePrivate faults openErr).2 := by
  unfold acquirePrivate
  split
  · exact resetClaimed_cleared (others_modify _ _ _) faults openErr
  · exact openEngine_cleared p openErr

theorem acquireShared_miss (miss : p.matching? sig = none) (faults : Faults)
    (openErr : Option String) : (p.acquireShared sig faults openErr).2.2 = false := by
  simp only [acquireShared, miss]
  split
  · rfl
  · split <;> rfl

/-- A miss of `acquireShared` also gives an engine that lists no table, unless it takes
a blank engine that still lists some. -/
theorem acquireShared_cleared (miss : p.matching? sig = none)
    (clean : ∀ e, p.reuse? = some e → (p.engine e).signature = "" → (p.engine e).tables = ∅)
    (faults : Faults) (openErr : Option String) :
    Cleared p (p.acquireShared sig faults openErr).1 (p.acquireShared sig faults openErr).2.1 := by
  simp only [acquireShared, miss]
  split
  · exact openEngine_cleared p openErr
  next e reuse =>
    split
    next blank =>
      refine ⟨fun _ h => ?_, nofun⟩
      cases h
      exact ⟨others_modify _ _ _, by simpa [claim] using clean e reuse blank, by simp [claim]⟩
    · exact resetClaimed_cleared (others_modify _ _ _) faults openErr

theorem others_releaseShared (p : SqlEnginePool) (e : EngineID) :
    Others p (p.releaseShared e) e := by
  simp only [releaseShared]
  split
  · exact (others_modify _ _ _).trans (others_evict _ e)
  · exact others_modify _ _ _

theorem others_releasePrivate (p : SqlEnginePool) (faults : Faults) (e : EngineID) :
    Others p (p.releasePrivate faults e) e := by
  simp only [releasePrivate]
  split
  · exact (others_modify _ _ _).trans ((others_modify _ _ _).trans (others_evict _ e))
  · exact (others_modify _ _ _).trans ((others_modify _ _ _).trans
      ((others_remove _ e e).trans (others_modify _ _ _)))

/-- An engine that comes back from a private lease is blank. -/
theorem releasePrivate_blank {faults : Faults} (mem : e ∈ (p.releasePrivate faults e).all) :
    ((p.releasePrivate faults e).engine e).tables = ∅ ∧
      ((p.releasePrivate faults e).engine e).signature = "" := by
  simp only [releasePrivate] at mem ⊢
  split
  next ok =>
    rw [if_pos ok] at mem
    obtain ⟨tables, sig⟩ := reset_ok ok
    simp only [returnPrivate] at mem ⊢
    rw [evict_engine (mem_evict_all.1 mem).2]
    simpa using ⟨tables, sig⟩
  next failed =>
    rw [if_neg failed] at mem
    exact absurd mem (not_mem_remove _ e)

end SqlEnginePool

end LocaQL
