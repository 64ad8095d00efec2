import LocaQL.Engine.Lease
import LocaQL.Engine.Materialize

/-!
# Queries on the engine pool

`openMaterializedSQLDatabase` from the moment the tables are resolved: acquire an
engine for their signature, materialize unless the acquire hit, tag, run, release.
Each of these is one step of a query, and any number of queries are under way.
Materialization can fail at any statement.

A relation `Good` says which content counts as version `v` of the table with key
`k`.  The invariant `Inv` ties three records of one fact to each other: the
signature an engine is tagged with, its list of materialized tables, and what the
database really holds.
-/

namespace LocaQL.Queries

open SqlEnginePool List

/-- How far a query has come with its engine. -/
inductive Phase where
  /-- Acquired, not materialized. -/
  | opened
  /-- Materialized, not tagged. -/
  | materialized
  /-- Handed to the caller. -/
  | ready
  /-- The materialization failed. -/
  | failed
deriving Repr, DecidableEq

/-- An engine on loan to a query. -/
structure Lease where
  engine : EngineID
  shared : Bool
  sig : String
  resolved : List ResolvedTableMaterialization
  phase : Phase

structure State where
  pool : SqlEnginePool := {}
  leases : List Lease := []

/-- `resolveAllRefs` keeps a query cacheable while every table it meets has a version. -/
def cacheable (readOnly : Bool) (resolved : List ResolvedTableMaterialization) : Bool :=
  readOnly && resolved.all (·.hasVersion)

def signature (readOnly : Bool) (resolved : List ResolvedTableMaterialization) : String :=
  cacheSignature (cacheable readOnly resolved) resolved

/-- The steps of the queries; `i` is the position of the lease. -/
inductive Op where
  | acquire (readOnly : Bool) (resolved : List ResolvedTableMaterialization) (faults : Faults)
      (openErr : Option String)
  | materialize (i : Nat) (faults : Faults)
  | tag (i : Nat)
  | run (i : Nat) (db : Database)
  | release (i : Nat) (faults : Faults)

/-- `acquire` and the lease it gives, if it does not fail. -/
def acquire (p : SqlEnginePool) (sig : String) (resolved : List ResolvedTableMaterialization)
    (faults : Faults) (openErr : Option String) : SqlEnginePool × Option Lease :=
  if sig = "" then
    match p.acquirePrivate faults openErr with
    | (p', .ok e) => (p', some ⟨e, false, sig, resolved, .opened⟩)
    | (p', .error _) => (p', none)
  else
    match p.acquireShared sig faults openErr with
    | (p', .ok e, hit) => (p', some ⟨e, true, sig, resolved, if hit then .ready else .opened⟩)
    | (p', .error _, _) => (p', none)

/-- `releaseFunc`. -/
def release (p : SqlEnginePool) (faults : Faults) (l : Lease) : SqlEnginePool :=
  if l.shared then p.releaseShared l.engine else p.releasePrivate faults l.engine

def step (s : State) : Op → Option State
  | .acquire readOnly resolved faults openErr =>
    let r := acquire s.pool (signature readOnly resolved) resolved faults openErr
    some ⟨r.1, s.leases ++ r.2.toList⟩
  | .materialize i faults =>
    match s.leases[i]? with
    | some l =>
      if l.phase = .opened then
        let r := materializeAllResolved faults (s.pool.engine l.engine) l.resolved l.shared
        let phase : Phase :=
          if r.2.isSome then .failed else if l.shared then .materialized else .ready
        some ⟨s.pool.modify l.engine fun _ => r.1, s.leases.set i { l with phase := phase }⟩
      else none
    | none => none
  | .tag i =>
    match s.leases[i]? with
    | some l =>
      if l.shared = true ∧ l.phase = .materialized then
        some ⟨s.pool.tagSignature l.engine l.sig, s.leases.set i { l with phase := .ready }⟩
      else none
    | none => none
  | .run i db =>
    -- a shared lease only reads
    match s.leases[i]? with
    | some l =>
      if l.shared = false ∧ l.phase = .ready then
        some { s with pool := s.pool.modify l.engine fun pe => { pe with db := db } }
      else none
    | none => none
  | .release i faults =>
    match s.leases[i]? with
    | some l =>
      if l.phase = .ready ∨ l.phase = .failed then
        some ⟨release s.pool faults l, s.leases.eraseIdx i⟩
      else none
    | none => none

/-! ## The invariant -/

/-- A lease as the pool sees it.  A shared lease is exclusive until it is tagged. -/
def Lease.toPhase (l : Lease) : Lease.Phase :=
  if l.shared ∧ l.phase = .ready then .holding l.engine .shared
  else .holding l.engine .exclusive

theorem Lease.lease?_toPhase (l : Lease) : l.toPhase.lease? = some l.engine := by
  unfold toPhase
  split <;> rfl

section Invariant

variable (Good : String → Nat → EngineTable → Prop)

/-- The engine lists each of the tables at its version and holds a good content for it. -/
def Complete (pe : PooledEngine) (resolved : List ResolvedTableMaterialization) : Prop :=
  ∀ r ∈ resolved, pe.tables.get? r.key = some r.version ∧
    ∃ img, pe.db.get? r.key = some img ∧ Good r.key r.version img

def PlainRefs (resolved : List ResolvedTableMaterialization) : Prop :=
  ∀ r ∈ resolved, PlainName r.ref.datasetID ∧ PlainName r.ref.tableID

/-- What holds of a shared lease. -/
structure LeaseOk (p : SqlEnginePool) (l : Lease) : Prop where
  nonempty : l.sig ≠ ""
  sig : l.sig = tableSignature (l.resolved.map (·.cacheRef))
  plain : PlainRefs l.resolved
  versioned : ∀ r ∈ l.resolved, r.hasVersion = true
  good : ∀ r ∈ l.resolved, Good r.key r.version r.image
  opened : l.phase = .opened → (p.engine l.engine).tables = ∅
  materialized : l.phase = .materialized → Complete Good (p.engine l.engine) l.resolved
  ready : l.phase = .ready → (p.engine l.engine).signature = l.sig

/-- A tagged engine holds the tables of its signature. -/
def TagOk (pe : PooledEngine) : Prop :=
  ∃ resolved, PlainRefs resolved ∧ pe.signature = tableSignature (resolved.map (·.cacheRef)) ∧
    Complete Good pe resolved

structure Inv (p : SqlEnginePool) (leases : List Lease) : Prop where
  safe : Lease.Safe p (leases.map Lease.toPhase)
  lease : ∀ l ∈ leases, l.shared = true → LeaseOk Good p l
  tagged : ∀ e ∈ p.all, (p.engine e).signature ≠ "" → TagOk Good (p.engine e)

end Invariant

variable {Good : String → Nat → EngineTable → Prop} {p p' : SqlEnginePool}
  {leases rest : List Lease} {l : Lease} {e : EngineID} {pe pe' : PooledEngine}
  {resolved : List ResolvedTableMaterialization} {readOnly : Bool}

theorem Inv.perm {leases' : List Lease} (h : leases.Perm leases') (inv : Inv Good p leases) :
    Inv Good p leases' where
  safe := inv.safe.perm (h.map _)
  lease l mem := inv.lease l (h.mem_iff.2 mem)
  tagged := inv.tagged

/-- Two records with the same content. -/
structure SameContent (pe pe' : PooledEngine) : Prop where
  tables : pe'.tables = pe.tables
  db : pe'.db = pe.db
  signature : pe'.signature = pe.signature

theorem SameContent.of_eq (h : pe' = pe) : SameContent pe pe' := by
  subst h
  exact ⟨rfl, rfl, rfl⟩

theorem Complete.same (same : SameContent pe pe') (h : Complete Good pe resolved) :
    Complete Good pe' resolved := by
  intro r mem
  rw [same.tables, same.db]
  exact h r mem

theorem TagOk.same (same : SameContent pe pe') (h : TagOk Good pe) : TagOk Good pe' := by
  obtain ⟨resolved, plain, sig, complete⟩ := h
  exact ⟨resolved, plain, same.signature.trans sig, complete.same same⟩

theorem LeaseOk.same (same : SameContent (p.engine l.engine) (p'.engine l.engine))
    (h : LeaseOk Good p l) : LeaseOk Good p' l where
  nonempty := h.nonempty
  sig := h.sig
  plain := h.plain
  versioned := h.versioned
  good := h.good
  opened ph := same.tables.trans (h.opened ph)
  materialized ph := (h.materialized ph).same same
  ready ph := same.signature.trans (h.ready ph)

/-- The rule for a step on engine `e`: the other engines keep their content, the leases
that stay keep theirs, and `e` itself is untagged, unchanged or properly tagged. -/
theorem Inv.of_step {leases' : List Lease} (inv : Inv Good p leases) (others : Others p p' e)
    (safe : Lease.Safe p' (leases'.map Lease.toPhase)) (stay : ∀ m ∈ leases', m.shared = true →
      LeaseOk Good p' m ∨
        m ∈ leases ∧ (m.engine = e → SameContent (p.engine e) (p'.engine e)))
    (tag : e ∈ p'.all → (p'.engine e).signature ≠ "" → TagOk Good (p'.engine e)) :
    Inv Good p' leases' where
  safe := safe
  lease m mem shared := by
    rcases stay m mem shared with ok | ⟨mem', same⟩
    · exact ok
    refine (inv.lease m mem' shared).same ?_
    by_cases he : m.engine = e
    · rw [he]
      exact same he
    · have pooled := (safe.phase _ (mem_map_of_mem mem)).pooled _ m.lease?_toPhase
      exact .of_eq (others _ pooled he).2
  tagged x mem sig := by
    by_cases hx : x = e
    · subst hx
      exact tag mem sig
    · obtain ⟨mem', same⟩ := others x mem hx
      rw [same] at sig ⊢
      exact inv.tagged x mem' sig

/-- A step after which every engine still in the pool is as it was. -/
theorem Inv.of_shrink (inv : Inv Good p leases)
    (same : ∀ x ∈ p'.all, x ∈ p.all ∧ p'.engine x = p.engine x)
    (safe : Lease.Safe p' (leases.map Lease.toPhase)) : Inv Good p' leases where
  safe := safe
  lease m mem shared := by
    have pooled := (safe.phase _ (mem_map_of_mem mem)).pooled _ m.lease?_toPhase
    exact (inv.lease m mem shared).same (.of_eq (same _ pooled).2)
  tagged x mem sig := by
    obtain ⟨mem', record⟩ := same x mem
    rw [record] at sig ⊢
    exact inv.tagged x mem' sig

/-- Nobody else uses an engine that is held exclusively. -/
theorem engine_ne_of_exclusive (safe : Lease.Safe p (.holding e .exclusive :: rest.map Lease.toPhase))
    {m : Lease} (mem : m ∈ rest) : m.engine ≠ e := by
  obtain ⟨-, zero, -⟩ := safe.alone (e := e) rfl
  intro h
  exact Lease.lease?_ne (mem_map_of_mem mem) zero (h ▸ m.lease?_toPhase)

theorem abandoned_not_mem (leases : List Lease) (e : EngineID) :
    .abandoned e ∉ leases.map Lease.toPhase := by
  intro mem
  obtain ⟨l, -, h⟩ := mem_map.1 mem
  unfold Lease.toPhase at h
  split at h <;> cases h

/-! ### Acquire -/

/-- A cacheable query has plain table names, and the rows it resolved are good for
their versions. -/
structure ResolvedOk (Good : String → Nat → EngineTable → Prop) (sig : String)
    (resolved : List ResolvedTableMaterialization) : Prop where
  plain : sig ≠ "" → PlainRefs resolved
  good : sig ≠ "" → ∀ r ∈ resolved, Good r.key r.version r.image

/-- In addition, the blank engine that the acquire may reuse lists no tables. -/
structure AcquireOk (Good : String → Nat → EngineTable → Prop) (p : SqlEnginePool)
    (sig : String) (resolved : List ResolvedTableMaterialization) : Prop
    extends ResolvedOk Good sig resolved where
  clean : sig ≠ "" → p.matching? sig = none →
    ∀ e, p.reuse? = some e → (p.engine e).signature = "" → (p.engine e).tables = ∅

/-- A query with a signature has a version for every table. -/
theorem signature_spec (h : signature readOnly resolved ≠ "") :
    signature readOnly resolved = tableSignature (resolved.map (·.cacheRef)) ∧
      ∀ r ∈ resolved, r.hasVersion = true := by
  unfold signature cacheSignature at h ⊢
  split at h
  next cached =>
    rw [if_pos cached]
    refine ⟨rfl, fun r mem => ?_⟩
    simp only [cacheable, Bool.and_eq_true, all_eq_true] at cached
    exact cached.2 r mem
  · exact absurd rfl h

theorem Inv.acquirePrivate {sig : String} (inv : Inv Good p leases) (faults : Faults)
    (openErr : Option String) :
    match p.acquirePrivate faults openErr with
    | (p', .ok e) => Inv Good p' (⟨e, false, sig, resolved, .opened⟩ :: leases)
    | (p', .error _) => Inv Good p' leases := by
  have cleared := p.acquirePrivate_cleared faults openErr
  have acquired := inv.safe.acquirePrivate (abandoned_not_mem leases) faults openErr
  generalize p.acquirePrivate faults openErr = result at cleared acquired
  obtain ⟨p', e | e⟩ := result
  · exact inv.of_shrink (cleared.error e rfl) acquired
  obtain ⟨others, -, untagged⟩ := cleared.ok e rfl
  refine inv.of_step others acquired (fun m mem shared => ?_) (fun _ sig => absurd untagged sig)
  rcases mem_cons.1 mem with rfl | mem
  · cases shared
  · exact .inr ⟨mem, fun h => absurd h (engine_ne_of_exclusive acquired mem)⟩

theorem Inv.acquireShared (inv : Inv Good p leases) (nonempty : signature readOnly resolved ≠ "")
    (ok : AcquireOk Good p (signature readOnly resolved) resolved) (faults : Faults)
    (openErr : Option String) :
    match p.acquireShared (signature readOnly resolved) faults openErr with
    | (p', .ok e, hit) => Inv Good p' (⟨e, true, signature readOnly resolved, resolved,
        if hit then .ready else .opened⟩ :: leases)
    | (p', .error _, _) => Inv Good p' leases := by
  obtain ⟨hsig, versioned⟩ := signature_spec nonempty
  cases lookup : p.matching? (signature readOnly resolved) with
  | some e =>
    obtain ⟨mem, tagged⟩ := matching?_spec lookup
    have safe := (Lease.safe_cons_idle.2 inv.safe).join mem (tagged ▸ nonempty)
    have same : SameContent (p.engine e) ((p.join e).engine e) := by
      simp only [SqlEnginePool.join, modify_engine, if_true]
      exact ⟨rfl, rfl, rfl⟩
    simp only [SqlEnginePool.acquireShared, lookup]
    refine inv.of_step (others_modify _ _ _) safe (fun m mem shared => ?_)
      fun _ sig => ?_
    · rcases mem_cons.1 mem with rfl | mem
      · exact .inl ⟨nonempty, hsig, ok.plain nonempty, versioned, ok.good nonempty, by simp,
          by simp, fun _ => same.signature.trans tagged⟩
      · exact .inr ⟨mem, fun _ => same⟩
    · rw [same.signature] at sig
      exact (inv.tagged e mem sig).same same
  | none =>
    have cleared := acquireShared_cleared lookup (ok.clean nonempty lookup) faults
      openErr
    have acquired := inv.safe.acquireShared_miss (abandoned_not_mem leases) lookup faults openErr
    have missed := acquireShared_miss lookup faults openErr
    generalize p.acquireShared (signature readOnly resolved) faults openErr = result
      at cleared acquired missed
    obtain ⟨p', e | e, hit⟩ := result
    · exact inv.of_shrink (cleared.error e rfl) acquired
    obtain ⟨others, blank, untagged⟩ := cleared.ok e rfl
    cases missed
    refine inv.of_step others acquired (fun m mem shared => ?_)
      (fun _ sig => absurd untagged sig)
    rcases mem_cons.1 mem with rfl | mem
    · exact .inl ⟨nonempty, hsig, ok.plain nonempty, versioned, ok.good nonempty,
        fun _ => blank, by simp, by simp⟩
    · exact .inr ⟨mem, fun h => absurd h (engine_ne_of_exclusive acquired mem)⟩

theorem Inv.acquire (inv : Inv Good p leases)
    (ok : AcquireOk Good p (signature readOnly resolved) resolved) (faults : Faults)
    (openErr : Option String) :
    Inv Good (acquire p (signature readOnly resolved) resolved faults openErr).1
      ((acquire p (signature readOnly resolved) resolved faults openErr).2.toList ++ leases) := by
  unfold Queries.acquire
  split
  next private_ =>
    have acquired : match p.acquirePrivate faults openErr with
        | (p', .ok e) =>
          Inv Good p' (⟨e, false, signature readOnly resolved, resolved, .opened⟩ :: leases)
        | (p', .error _) => Inv Good p' leases :=
      inv.acquirePrivate faults openErr
    generalize p.acquirePrivate faults openErr = result at acquired ⊢
    obtain ⟨p', e | e⟩ := result <;> exact acquired
  next nonempty =>
    have acquired := inv.acquireShared nonempty ok faults openErr
    generalize p.acquireShared (signature readOnly resolved) faults openErr = result
      at acquired ⊢
    obtain ⟨p', e | e, hit⟩ := result <;> exact acquired

/-! ### Materialize, tag, run and release -/

/-- A lease that is not a shared one handed out is exclusive. -/
theorem Lease.toPhase_exclusive (h : ¬ (l.shared = true ∧ l.phase = .ready)) :
    l.toPhase = .holding l.engine .exclusive := by
  rw [toPhase, if_neg h]

section

variable (inv : Inv Good p (l :: rest))

include inv

theorem Inv.materialize (opened : l.phase = .opened) (faults : Faults) :
    Inv Good
      (p.modify l.engine fun _ =>
        (materializeAllResolved faults (p.engine l.engine) l.resolved l.shared).1)
      ({ l with phase :=
          if (materializeAllResolved faults (p.engine l.engine) l.resolved l.shared).2.isSome
          then .failed else if l.shared then .materialized else .ready } :: rest) := by
  have change := materializeAllResolved_change faults (p.engine l.engine) l.resolved l.shared
  generalize hr : materializeAllResolved faults (p.engine l.engine) l.resolved l.shared = r
    at change ⊢
  have held : l.toPhase = .holding l.engine .exclusive :=
    Lease.toPhase_exclusive (by simp [opened])
  have safe := inv.safe
  rw [map_cons, held] at safe
  have untagged := (safe.alone (e := l.engine) rfl).2.2
  have safe' := safe.use (f := fun _ => r.1) change.closed change.refCount change.signature
  refine inv.of_step (others_modify _ _ _) ?_ (fun m mem shared => ?_)
    (fun _ sig => absurd ?_ sig)
  · rw [map_cons, Lease.toPhase_exclusive]
    · exact safe'
    · rintro ⟨shared, ready⟩
      simp only at shared ready
      rw [shared] at ready
      split at ready <;> cases ready
  · rcases mem_cons.1 mem with rfl | mem
    · have ok := inv.lease l mem_cons_self shared
      have blank := ok.opened opened
      refine .inl ⟨ok.nonempty, ok.sig, ok.plain, ok.versioned, ok.good, fun h => ?_, fun h => ?_,
        fun h => ?_⟩
      · simp only at h shared
        rw [shared] at h
        split at h <;> cases h
      · simp only at h shared
        have succeeded : r.2 = none := by
          cases herr : r.2 with
          | none => rfl
          | some err => simp [herr] at h
        rw [shared, materializeAllResolved, if_pos rfl, reconcileSharedEngine_blank blank] at hr
        have holds : Holds Good (p.engine l.engine) := by
          intro k v listed
          simp [blank] at listed
        obtain ⟨holds', listed, -⟩ := holds.materializeRefs ok.versioned ok.good
          (hr.trans (Prod.ext rfl succeeded))
        intro r' mem
        simp only [modify_engine, if_true]
        exact ⟨listed r' mem, holds' _ _ (listed r' mem)⟩
      · simp only at h shared
        rw [shared] at h
        split at h <;> cases h
    · exact .inr ⟨mem_cons_of_mem _ mem,
        fun h => absurd h (engine_ne_of_exclusive safe mem)⟩
  · simp only [modify_engine, if_true]
    exact change.signature.trans untagged

/-- The signature goes on an engine whose tables are complete. -/
theorem Inv.tag (shared : l.shared = true) (done : l.phase = .materialized) :
    Inv Good (p.tagSignature l.engine l.sig) ({ l with phase := .ready } :: rest) := by
  have ok := inv.lease l mem_cons_self shared
  have held : l.toPhase = .holding l.engine .exclusive := Lease.toPhase_exclusive (by simp [done])
  have safe := inv.safe
  rw [map_cons, held] at safe
  have mem := (safe.alone (e := l.engine) rfl).1
  have joined : Lease.Safe p (.holding l.engine .shared :: rest.map Lease.toPhase) :=
    safe.rephase rfl (.of_lease rfl mem (by simp [Lease.Phase.exclusive?]))
  have complete : Complete Good ((p.tagSignature l.engine l.sig).engine l.engine) l.resolved := by
    simp only [tagSignature, modify_engine, if_true]
    exact ok.materialized done
  have sig : ((p.tagSignature l.engine l.sig).engine l.engine).signature = l.sig := by
    simp [tagSignature]
  refine inv.of_step (others_modify _ _ _) ?_ (fun m mem shared => ?_)
    (fun _ _ => ⟨l.resolved, ok.plain, sig.trans ok.sig, complete⟩)
  · simpa [Lease.toPhase, shared] using joined.tag l.sig
  rcases mem_cons.1 mem with rfl | mem
  · exact .inl ⟨ok.nonempty, ok.sig, ok.plain, ok.versioned, ok.good, by simp, by simp,
      fun _ => sig⟩
  · exact .inr ⟨mem_cons_of_mem _ mem,
      fun h => absurd h (engine_ne_of_exclusive safe mem)⟩

theorem Inv.run (own : l.shared = false) (db : Database) :
    Inv Good (p.modify l.engine fun pe => { pe with db := db }) (l :: rest) := by
  have held : l.toPhase = .holding l.engine .exclusive := Lease.toPhase_exclusive (by simp [own])
  have safe := inv.safe
  rw [map_cons, held] at safe
  have untagged := (safe.alone (e := l.engine) rfl).2.2
  refine inv.of_step (others_modify _ _ _) ?_ (fun m mem shared => ?_)
    (fun _ sig => absurd ?_ sig)
  · rw [map_cons, held]
    exact safe.use rfl rfl rfl
  · rcases mem_cons.1 mem with rfl | mem
    · rw [own] at shared
      cases shared
    · exact .inr ⟨mem_cons_of_mem _ mem,
        fun h => absurd h (engine_ne_of_exclusive safe mem)⟩
  · simpa using untagged

end

/-- Giving back a shared engine leaves its content and its tag. -/
theorem SameContent.releaseShared (mem : e ∈ (p.releaseShared e).all) :
    e ∈ p.all ∧ SameContent (p.engine e) ((p.releaseShared e).engine e) := by
  simp only [SqlEnginePool.releaseShared] at mem ⊢
  split
  next idle =>
    rw [if_pos idle] at mem
    obtain ⟨mem, kept⟩ := mem_evict_all.1 mem
    rw [evict_engine kept]
    simp only [modify_engine, if_true]
    exact ⟨mem, rfl, rfl, rfl⟩
  next busy =>
    rw [if_neg busy] at mem
    simp only [modify_engine, if_true]
    exact ⟨mem, rfl, rfl, rfl⟩

theorem Inv.release (inv : Inv Good p (l :: rest)) (faults : Faults) :
    Inv Good (release p faults l) rest := by
  unfold Queries.release
  split
  next shared =>
    have joined : Lease.Safe p (.holding l.engine .shared :: rest.map Lease.toPhase) := by
      have safe := inv.safe
      have mem := (safe.phase _ mem_cons_self).pooled _ l.lease?_toPhase
      rw [map_cons] at safe
      exact safe.rephase l.lease?_toPhase.symm
        (.of_lease rfl mem (by simp [Lease.Phase.exclusive?]))
    have safe := Lease.safe_cons_idle.1 joined.releaseShared
    refine inv.of_step (p.others_releaseShared _) safe (fun m mem shared => ?_) fun mem sig => ?_
    · refine .inr ⟨mem_cons_of_mem _ mem, fun h => ?_⟩
      have pooled := (safe.phase _ (mem_map_of_mem mem)).pooled _ m.lease?_toPhase
      rw [h] at pooled
      exact (SameContent.releaseShared pooled).2
    · obtain ⟨mem, same⟩ := SameContent.releaseShared mem
      rw [same.signature] at sig
      exact (inv.tagged _ mem sig).same same
  next own =>
    have held : l.toPhase = .holding l.engine .exclusive :=
      Lease.toPhase_exclusive (by simp [own])
    have safe := inv.safe
    rw [map_cons, held] at safe
    refine inv.of_step (p.others_releasePrivate faults _) (safe.releasePrivate faults)
      (fun m mem shared => ?_)
      (fun mem sig => absurd (releasePrivate_blank mem).2 sig)
    exact .inr ⟨mem_cons_of_mem _ mem,
      fun h => absurd h (engine_ne_of_exclusive safe mem)⟩

/-! ### Every step -/

/-- What is asked of each step; only a cacheable acquire is restricted. -/
def StepOk (Good : String → Nat → EngineTable → Prop) (s : State) : Op → Prop
  | .acquire readOnly resolved _ _ => AcquireOk Good s.pool (signature readOnly resolved) resolved
  | _ => True

theorem Inv.step {s t : State} {op : Op} (inv : Inv Good s.pool s.leases) (ok : StepOk Good s op)
    (h : step s op = some t) : Inv Good t.pool t.leases := by
  have front : ∀ {i : Nat} {l : Lease}, s.leases[i]? = some l →
      Inv Good s.pool (l :: s.leases.eraseIdx i) := by
    intro i l hi
    obtain ⟨hlt, rfl⟩ := List.getElem?_eq_some_iff.1 hi
    exact inv.perm (getElem_cons_eraseIdx_perm hlt).symm
  have back : ∀ {p : SqlEnginePool} {i : Nat} {l l' : Lease}, s.leases[i]? = some l →
      Inv Good p (l' :: s.leases.eraseIdx i) → Inv Good p (s.leases.set i l') := by
    intro p i l l' hi inv'
    obtain ⟨hlt, -⟩ := List.getElem?_eq_some_iff.1 hi
    exact inv'.perm (set_perm_cons_eraseIdx hlt l').symm
  cases op with
  | acquire readOnly resolved faults openErr =>
    cases h
    exact (inv.acquire ok faults openErr).perm perm_append_comm
  | materialize i faults =>
    simp only [Queries.step] at h
    split at h
    next l hi =>
      split at h
      next opened =>
        cases h
        exact back hi ((front hi).materialize opened faults)
      · cases h
    · cases h
  | tag i =>
    simp only [Queries.step] at h
    split at h
    next l hi =>
      split at h
      next done =>
        cases h
        exact back hi ((front hi).tag done.1 done.2)
      · cases h
    · cases h
  | run i db =>
    simp only [Queries.step] at h
    split at h
    next l hi =>
      split at h
      next own =>
        cases h
        obtain ⟨hlt, rfl⟩ := List.getElem?_eq_some_iff.1 hi
        exact ((front hi).run own.1 db).perm (getElem_cons_eraseIdx_perm hlt)
      · cases h
    · cases h
  | release i faults =>
    simp only [Queries.step] at h
    split at h
    next l hi =>
      split at h
      · cases h
        exact (front hi).release faults
      · cases h
    · cases h

theorem Inv.initial : Inv Good ({} : State).pool ({} : State).leases where
  safe := ⟨nofun, nofun⟩
  lease := nofun
  tagged := nofun

/-- An engine tagged with the signature of some tables holds each of them. -/
theorem TagOk.complete (h : TagOk Good pe) (nonempty : pe.signature ≠ "")
    (plain : PlainRefs resolved) (sig : pe.signature = tableSignature (resolved.map (·.cacheRef))) :
    Complete Good pe resolved := by
  obtain ⟨resolved', plain', tag, complete⟩ := h
  have same := sig.symm.trans tag
  intro r hr
  -- the signature gives a table of the engine with the same name and version
  have listed : r.cacheRef ∈ resolved'.map (·.cacheRef) := by
    refine mem_of_tableSignature_eq (ne_nil_of_tableSignature (sig ▸ nonempty))
      (ne_nil_of_tableSignature (tag ▸ nonempty)) ?_ ?_ same (mem_map_of_mem hr)
    · intro ref href
      obtain ⟨r, hr, rfl⟩ := mem_map.1 href
      exact plain r hr
    · intro ref href
      obtain ⟨r, hr, rfl⟩ := mem_map.1 href
      exact plain' r hr
  obtain ⟨r', hr', eq⟩ := mem_map.1 listed
  have hkey : r'.key = r.key := by
    have h1 := congrArg CacheableTableRef.datasetID eq
    have h2 := congrArg CacheableTableRef.tableID eq
    simp only [ResolvedTableMaterialization.cacheRef] at h1 h2
    simp only [ResolvedTableMaterialization.key, DatasetTableRef.key, h1, h2]
  have hversion : r'.version = r.version := congrArg CacheableTableRef.version eq
  have found := complete r' hr'
  rwa [hkey, hversion] at found

/-- A query that was handed a shared engine sees good content for each of its tables. -/
theorem Inv.ready_complete (inv : Inv Good p leases) (mem : l ∈ leases) (shared : l.shared = true)
    (ready : l.phase = .ready) : Complete Good (p.engine l.engine) l.resolved := by
  have ok := inv.lease l mem shared
  have sig := ok.ready ready
  have nonempty : (p.engine l.engine).signature ≠ "" := sig ▸ ok.nonempty
  have pooled := (inv.safe.phase _ (mem_map_of_mem mem)).pooled _ l.lease?_toPhase
  exact (inv.tagged _ pooled nonempty).complete nonempty ok.plain (sig.trans ok.sig)

/-- The cache knows version `v` of table `k`: a tagged engine lists it, or a shared lease
is about to bring it in. -/
inductive Cached (p : SqlEnginePool) (leases : List Lease) (k : String) (v : Nat) : Prop where
  | tagged {e : EngineID} : e ∈ p.all → (p.engine e).signature ≠ "" →
      (p.engine e).tables.get? k = some v → Cached p leases k v
  | leased {l : Lease} {r : ResolvedTableMaterialization} : l ∈ leases → l.shared = true →
      r ∈ l.resolved → r.key = k → r.version = v → Cached p leases k v

/-- The invariant for another notion of good content that agrees on what is cached. -/
theorem Inv.mono {Good' : String → Nat → EngineTable → Prop}
    (agree : ∀ k v img, Cached p leases k v → Good k v img → Good' k v img)
    (inv : Inv Good p leases) : Inv Good' p leases where
  safe := inv.safe
  lease l mem shared := by
    have ok := inv.lease l mem shared
    have cached : ∀ r ∈ l.resolved, Cached p leases r.key r.version :=
      fun r hr => .leased mem shared hr rfl rfl
    refine ⟨ok.nonempty, ok.sig, ok.plain, ok.versioned,
      fun r hr => agree _ _ _ (cached r hr) (ok.good r hr), ok.opened, fun done r hr => ?_, ok.ready⟩
    obtain ⟨listed, img, there, good⟩ := ok.materialized done r hr
    exact ⟨listed, img, there, agree _ _ _ (cached r hr) good⟩
  tagged e mem sig := by
    obtain ⟨resolved, plain, tag, complete⟩ := inv.tagged e mem sig
    refine ⟨resolved, plain, tag, fun r hr => ?_⟩
    obtain ⟨listed, img, there, good⟩ := complete r hr
    exact ⟨listed, img, there, agree _ _ _ (.tagged mem sig listed) good⟩

/-! ## A failed materialization -/

/-- A table that a shared query passes over as already materialized, or that it sees when
it runs, holds all rows of the version it resolved. -/
structure NotPoisoned (image : String → Nat → EngineTable) (s : State) : Prop where
  skipped : ∀ l ∈ s.leases, l.shared = true → l.phase = .opened → ∀ r ∈ l.resolved,
    skips (s.pool.engine l.engine) r = true →
    (s.pool.engine l.engine).db.get? r.key = some (image r.key r.version)
  seen : ∀ l ∈ s.leases, l.shared = true → l.phase = .ready → ∀ r ∈ l.resolved,
    (s.pool.engine l.engine).db.get? r.key = some (image r.key r.version)

/-- The content of version `v` of table `k` is `image k v`. -/
def IsImage (image : String → Nat → EngineTable) (k : String) (v : Nat) (img : EngineTable) :
    Prop := img = image k v

theorem Inv.notPoisoned {image : String → Nat → EngineTable} {s : State}
    (inv : Inv (IsImage image) s.pool s.leases) : NotPoisoned image s where
  skipped l mem shared opened r _ skip := by
    have blank := (inv.lease l mem shared).opened opened
    simp [skips, PooledEngine.materializedVersion, blank] at skip
  seen l mem shared ready r hr := by
    obtain ⟨-, img, there, rfl⟩ := inv.ready_complete mem shared ready r hr
    exact there

/-- Whatever fails on the way, no query is poisoned as long as no shared acquire is
given a blank engine that still lists tables. -/
theorem notPoisoned_of_run {image : String → Nat → EngineTable} {ops : List Op} {s : State}
    (run : Run.Exec step (StepOk (IsImage image)) {} ops s) : NotPoisoned image s :=
  (run.invariant (fun _ _ _ inv ok h => Inv.step inv ok h) Inv.initial).notPoisoned

section FailedQuery

instance (resolved : List ResolvedTableMaterialization) : Decidable (PlainRefs resolved) :=
  List.decidableBAll _ resolved

instance (image : String → Nat → EngineTable) (k : String) (v : Nat) (img : EngineTable) :
    Decidable (IsImage image k v img) := decEq img (image k v)

instance (image : String → Nat → EngineTable) (sig : String)
    (resolved : List ResolvedTableMaterialization) :
    Decidable (ResolvedOk (IsImage image) sig resolved) :=
  decidable_of_iff (sig ≠ "" → PlainRefs resolved ∧
      ∀ r ∈ resolved, IsImage image r.key r.version r.image)
    ⟨fun h => ⟨fun ne => (h ne).1, fun ne => (h ne).2⟩, fun h ne => ⟨h.plain ne, h.good ne⟩⟩

instance (image : String → Nat → EngineTable) (p : SqlEnginePool) (sig : String)
    (resolved : List ResolvedTableMaterialization) :
    Decidable (AcquireOk (IsImage image) p sig resolved) :=
  decidable_of_iff (ResolvedOk (IsImage image) sig resolved ∧
      (sig ≠ "" → p.matching? sig = none → ∀ e ∈ p.reuse?.toList,
        (p.engine e).signature = "" → (p.engine e).tables.entries.isEmpty = true))
    ⟨fun h => ⟨h.1, fun ne miss e reuse blank =>
        GoMap.eq_empty_iff.2 (h.2 ne miss e (by simp [reuse]) blank)⟩,
     fun h => ⟨h.toResolvedOk, fun ne miss e reuse blank =>
        GoMap.eq_empty_iff.1 (h.clean ne miss e (by simpa using reuse) blank)⟩⟩

/-- The cacheable queries of a run resolve the rows of one catalog, plainly named. -/
def ResolvesImage (image : String → Nat → EngineTable) : State → Op → Prop
  | _, .acquire readOnly resolved _ _ =>
    ResolvedOk (IsImage image) (signature readOnly resolved) resolved
  | _, _ => True

instance (image : String → Nat → EngineTable) (s : State) (op : Op) :
    Decidable (ResolvesImage image s op) := by
  cases op <;> unfold ResolvesImage <;> infer_instance

instance (image : String → Nat → EngineTable) (s : State) (op : Op) :
    Decidable (StepOk (IsImage image) s op) := by
  cases op <;> unfold StepOk <;> infer_instance

/-- One table at version 3. -/
def orders : ResolvedTableMaterialization where
  ref := ⟨"ds", "orders"⟩
  fields := [⟨"id", "INT64", "", []⟩]
  rows := [["1"], ["2"]]
  found := true
  version := 3
  hasVersion := true
  found_of_hasVersion := fun h => h

/-- The second row cannot be inserted. -/
def secondRowFails : Faults
  | .insertRow _ 1 => some "disk I/O error"
  | _ => none

/-- The query over `orders` fails at its second row, other queries run, and it is sent
again. -/
def retriedQuery (meanwhile : List Op) : List Op :=
  [.acquire true [orders] noFaults none, .materialize 0 secondRowFails, .release 0 noFaults]
    ++ meanwhile
    ++ [.acquire true [orders] noFaults none, .materialize 0 noFaults, .tag 0]

/-- When a private lease has cleared the engine in between, the retry sees the table. -/
theorem notPoisoned_of_run_retriedQuery :
    ∃ s, Run.Exec step (StepOk (IsImage fun _ _ => orders.image)) {}
        (retriedQuery [.acquire false [orders] noFaults none, .materialize 0 noFaults,
          .release 0 noFaults]) s ∧
      s.leases.map (·.phase) = [.ready] ∧ NotPoisoned (fun _ _ => orders.image) s := by
  have reached : ∃ s, Run.after step (StepOk (IsImage fun _ _ => orders.image)) {}
        (retriedQuery [.acquire false [orders] noFaults none, .materialize 0 noFaults,
          .release 0 noFaults]) = some s ∧
      s.leases.map (·.phase) = [.ready] := ⟨_, rfl, rfl⟩
  obtain ⟨s, computed, phases⟩ := reached
  have run := Run.Exec.of_after computed
  exact ⟨s, run, phases, notPoisoned_of_run run⟩

/-- Sent again at once, the query finds `orders` listed, skips it, and runs on an empty
table. -/
theorem notPoisoned_fails :
    ∃ s, Run.Exec step (ResolvesImage fun _ _ => orders.image) {} (retriedQuery []) s ∧
      ¬ NotPoisoned (fun _ _ => orders.image) s := by
  have reached : ∃ s, Run.after step (ResolvesImage fun _ _ => orders.image) {}
        (retriedQuery []) = some s ∧
      ∃ l ∈ s.leases, l.shared = true ∧ l.phase = .ready ∧ orders ∈ l.resolved ∧
        (s.pool.engine l.engine).db.get? orders.key = some ⟨orders.fields, []⟩ :=
    ⟨_, rfl, _, mem_cons_self, rfl, rfl, mem_cons_self, rfl⟩
  obtain ⟨s, computed, l, mem, shared, ready, hr, empty⟩ := reached
  refine ⟨s, .of_after computed, fun safe => ?_⟩
  have complete := safe.seen l mem shared ready orders hr
  rw [empty] at complete
  cases complete

end FailedQuery

end LocaQL.Queries
