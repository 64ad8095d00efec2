import LocaQL.Storage.WriteService
import Mathlib.Data.List.Perm.Basic
import Mathlib.Data.List.Nodup

/-!
# Exactly-once commits

Any number of `BatchCommitWriteStreams` requests and `AppendRows` calls are under way, and
their steps interleave with each other and with every other operation on the catalog.

A request *claims* a stream from its check to its mark.  The check does not see the claims
of other requests, so two of them can claim one stream, and a request that names a stream
twice claims it twice; the rows are then appended twice.  As long as no stream is checked
while it is claimed, the claims are disjoint, and every buffered row is appended at most
once (`exactlyOnce_of_run`).
-/

namespace LocaQL.StorageWrite

open List

structure State where
  service : Service := {}
  requests : List BatchCommit := []
  connections : List Connection := []

inductive Label where
  | createWriteStream (now : Time) (parent : String) (type : StreamType)
  | finalizeWriteStream (name : String)
  | connect
  | switch (c : Nat) (now : Time) (ws : String)
  | append (c : Nat) (now : Time) (rows : List Row) (offset : Option Int)
  | batchCommit (parent : String) (names : List String)
  | advance (i : Nat) (now : Time)
  | catalog (now : Time) (op : CatalogOp)

section

variable [GoFloat]

/-- A failed `AppendRows` call ends its connection: it has no destination any more. -/
def step (s : State) : Label → Option State
  | .createWriteStream now parent type =>
    some { s with service := (createWriteStream s.service now parent type).1 }
  | .finalizeWriteStream name => some { s with service := (finalizeWriteStream s.service name).1 }
  | .connect => some { s with connections := s.connections ++ [{}] }
  | .switch c now ws =>
    s.connections[c]?.map fun conn =>
      let r := switchStream s.service now conn ws
      { s with service := r.1, connections := s.connections.set c (r.2.toOption.getD {}) }
  | .append c now rows offset =>
    s.connections[c]?.map fun conn =>
      let r := appendRows s.service now conn rows offset
      { s with
        service := r.1
        connections := if r.2.isOk then s.connections else s.connections.set c {} }
  | .batchCommit parent names =>
    some { s with
      requests := s.requests ++ (startBatchCommit s.service parent names).toOption.toList }
  | .advance i now =>
    s.requests[i]?.bind fun r =>
      (advance s.service now r).map fun (v, phase) =>
        { s with service := v, requests := s.requests.set i { r with phase := phase } }
  | .catalog now op =>
    some { s with service :=
      { s.service with catalog := (s.service.catalog.apply now op).1 } }

end

/-! ## Claims -/

/-- The streams whose check a request has passed and which it has not marked yet.  A
request with errors gives up. -/
def BatchCommit.claimed (r : BatchCommit) : List StreamID :=
  match r.phase with
  | .check checked _ [] => checked
  | .check _ _ (_ :: _) => []
  | .collect _ _ _ _ => r.streams
  | .append _ _ => r.streams
  | .mark todo _ => todo
  | .done _ => []

def allClaims (requests : List BatchCommit) : List StreamID := requests.flatMap (·.claimed)

/-- The stream a request is about to check. -/
def BatchCommit.checks? (r : BatchCommit) : Option StreamID :=
  match r.phase with
  | .check _ (id :: _) _ => some id
  | _ => none

/-- A stream is checked only while nobody, the request itself included, claims it. -/
def ChecksUnclaimed (s : State) : Label → Prop
  | .advance i _ => ∀ r ∈ s.requests[i]?, ∀ id ∈ r.checks?, id ∉ allClaims s.requests
  | _ => True

/-! ## The invariant -/

def Service.committed (v : Service) (id : StreamID) : Bool :=
  (v.streams[id]?.map (·.committed)).getD false

variable {id : StreamID}

theorem committed_iff {v : Service} :
    v.committed id = true ↔ ∃ st, v.streams[id]? = some st ∧ st.committed = true := by
  unfold Service.committed
  cases v.streams[id]? with
  | none => simp
  | some st => simp

/-- The stream is pending and finalized. -/
def Sealed (v : Service) (id : StreamID) : Prop :=
  ∃ st, v.streams[id]? = some st ∧ st.kind = .pending ∧ st.finalized = true

/-- The stream is not committed, and none of its rows is in a table. -/
structure Fresh (v : Service) (id : StreamID) : Prop where
  uncommitted : v.committed id = false
  unapplied : ∀ a ∈ v.applied, a.origin.stream ≠ id

/-- The request has appended its rows and has still to mark the stream. -/
def BatchCommit.Marks (r : BatchCommit) (id : StreamID) : Prop :=
  ∃ todo now, r.phase = .mark todo now ∧ id ∈ todo

/-- The rows come from different slots of the streams. -/
structure Collected (streams : List StreamID) (allRows : List BufferedRow) : Prop where
  mem : ∀ b ∈ allRows, b.origin.stream ∈ streams
  nodup : (allRows.map (·.origin)).Nodup

def RowsOk (r : BatchCommit) : Prop :=
  match r.phase with
  | .check checked todo _ => r.streams = checked ++ todo
  | .collect collected todo allRows _ =>
    r.streams = collected ++ todo ∧ Collected collected allRows
  | .append allRows _ => Collected r.streams allRows
  | _ => True

structure RequestOk (v : Service) (r : BatchCommit) : Prop where
  claimed : ∀ id ∈ r.claimed, Sealed v id ∧ (r.Marks id ∨ Fresh v id)
  rows : RowsOk r

/-- What is known of a row in a table. -/
structure AppliedOk (v : Service) (requests : List BatchCommit) (a : Applied) : Prop where
  named : a.origin.stream ∈ a.streams
  sealed_ : Sealed v a.origin.stream
  committed : v.committed a.origin.stream = true ∨ ∃ r ∈ requests, r.Marks a.origin.stream

structure Inv (v : Service) (requests : List BatchCommit) : Prop where
  request : ∀ r ∈ requests, RequestOk v r
  claims : (allClaims requests).Nodup
  nodup : (v.applied.map (·.origin)).Nodup
  applied : ∀ a ∈ v.applied, AppliedOk v requests a

variable {v v' : Service} {requests rest : List BatchCommit} {r r' : BatchCommit}
  {st : StorageWriteStream}

theorem Inv.perm {requests' : List BatchCommit} (h : requests.Perm requests') (inv : Inv v requests) :
    Inv v requests' where
  request r mem := inv.request r (h.mem_iff.2 mem)
  claims := (h.flatMap_right _).nodup_iff.1 inv.claims
  nodup := inv.nodup
  applied a mem := by
    obtain ⟨named, sealed_, committed⟩ := inv.applied a mem
    refine ⟨named, sealed_, committed.imp_right ?_⟩
    rintro ⟨r, hr, marks⟩
    exact ⟨r, h.mem_iff.1 hr, marks⟩

theorem claimed_of_marks (h : r.Marks id) : id ∈ r.claimed := by
  obtain ⟨todo, now, phase, mem⟩ := h
  simpa only [BatchCommit.claimed, phase] using mem

section

variable (inv : Inv v (r :: rest))

include inv

/-- No other request claims a stream of `r`. -/
theorem Inv.not_claimed {m : BatchCommit} (mem : m ∈ rest) (claimed : id ∈ m.claimed) :
    id ∉ r.claimed := by
  intro mine
  exact (nodup_append.1 inv.claims).2.2 id mine id (mem_flatMap.2 ⟨m, mem, claimed⟩) rfl

/-- The rule for a step of request `r`, which becomes `r'`: the streams it does not claim
are left alone. -/
theorem Inv.advance (sealed_ : ∀ id, Sealed v id → Sealed v' id)
    (others : ∀ id, id ∉ r.claimed → v'.committed id = v.committed id ∧
      ∀ a ∈ v'.applied, a.origin.stream = id → a ∈ v.applied) (ok : RequestOk v' r')
    (nodupClaims : (allClaims (r' :: rest)).Nodup) (nodup : (v'.applied.map (·.origin)).Nodup)
    (applied : ∀ a ∈ v'.applied, a ∈ v.applied ∨ a.origin.stream ∈ a.streams ∧
      a.origin.stream ∈ r.claimed)
    (marked : ∀ id ∈ r.claimed, ∀ a ∈ v'.applied, a.origin.stream = id →
      v'.committed id = true ∨ r'.Marks id) : Inv v' (r' :: rest) where
  request m mem := by
    rcases mem_cons.1 mem with rfl | mem
    · exact ok
    have okM := inv.request m (mem_cons_of_mem _ mem)
    refine ⟨fun id claimed => ?_, okM.rows⟩
    have disjoint := inv.not_claimed mem claimed
    obtain ⟨sealedId, status⟩ := okM.claimed id claimed
    refine ⟨sealed_ id sealedId, status.imp_right fun fresh => ?_⟩
    obtain ⟨same, old⟩ := others id disjoint
    exact ⟨same.trans fresh.uncommitted, fun a ha eq => fresh.unapplied a (old a ha eq) eq⟩
  claims := nodupClaims
  nodup := nodup
  applied a mem := by
    have known : a.origin.stream ∈ a.streams ∧ Sealed v a.origin.stream := by
      rcases applied a mem with old | ⟨named, claimed⟩
      · exact ⟨(inv.applied a old).named, (inv.applied a old).sealed_⟩
      · exact ⟨named, ((inv.request r mem_cons_self).claimed _ claimed).1⟩
    refine ⟨known.1, sealed_ _ known.2, ?_⟩
    by_cases mine : a.origin.stream ∈ r.claimed
    · exact (marked _ mine a mem rfl).imp_right fun marks => ⟨r', mem_cons_self, marks⟩
    obtain ⟨same, old⟩ := others _ mine
    rcases (inv.applied a (old a mem rfl)).committed with done | ⟨m, hm, marks⟩
    · exact .inl (same.trans done)
    · rcases mem_cons.1 hm with rfl | hm
      · exact absurd (claimed_of_marks marks) mine
      · exact .inr ⟨m, mem_cons_of_mem _ hm, marks⟩

/-- The rule for a step that only changes the request. -/
theorem Inv.rephase (ok : RequestOk v r') (nodupClaims : (allClaims (r' :: rest)).Nodup)
    (marks : ∀ id, r.Marks id → r'.Marks id) : Inv v (r' :: rest) := by
  refine inv.advance (fun _ h => h) (fun _ _ => ⟨rfl, fun _ mem _ => mem⟩) ok nodupClaims inv.nodup
    (fun _ => .inl) fun id mine a mem eq => ?_
  subst eq
  rcases (inv.applied a mem).committed with done | ⟨m, hm, marked⟩
  · exact .inl done
  · rcases mem_cons.1 hm with rfl | hm
    · exact .inr (marks _ marked)
    · exact absurd mine (inv.not_claimed hm (claimed_of_marks marked))

theorem Inv.nodup_claims (sub : r'.claimed.Sublist r.claimed) : (allClaims (r' :: rest)).Nodup :=
  inv.claims.sublist (sub.append (List.Sublist.refl _))

end

theorem claimed_check (dest : TableReference) (streams checked todo : List StreamID)
    (errors : List StreamError) :
    (BatchCommit.mk dest streams (.check checked todo errors)).claimed =
      if errors = [] then checked else [] := by
  cases errors with
  | nil => rfl
  | cons => rfl

/-- Before a request marks, its streams are fresh. -/
theorem RequestOk.fresh (ok : RequestOk v r) (before : ∀ todo now, r.phase ≠ .mark todo now)
    (mem : id ∈ r.claimed) : Fresh v id := by
  rcases (ok.claimed id mem).2 with ⟨todo, now, phase, -⟩ | fresh
  · exact absurd phase (before todo now)
  · exact fresh

/-! ## The passes of a request -/

theorem checkStream_ok {dest : TableReference} (h : checkStream dest st = []) :
    st.kind = .pending ∧ st.finalized = true ∧ st.committed = false := by
  unfold checkStream at h
  split at h
  · cases h
  next pending =>
    split at h
    · cases h
    next final =>
      split at h
      · cases h
      next uncommitted =>
        exact ⟨not_not.1 pending, by simpa using final, by simpa using uncommitted⟩

/-- A stream that nobody claims has rows in a table only if it is committed. -/
theorem Inv.fresh (inv : Inv v requests) (unclaimed : id ∉ allClaims requests)
    (uncommitted : v.committed id = false) : Fresh v id := by
  refine ⟨uncommitted, fun a mem eq => ?_⟩
  subst eq
  rcases (inv.applied a mem).committed with done | ⟨m, hm, marks⟩
  · rw [uncommitted] at done
    cases done
  · exact unclaimed (mem_flatMap.2 ⟨m, hm, claimed_of_marks marks⟩)

variable {dest : TableReference} {streams todo : List StreamID} {id : StreamID} {phase : Phase}

theorem Inv.check {checked : List StreamID} {errors : List StreamError}
    (inv : Inv v (⟨dest, streams, .check checked (id :: todo) errors⟩ :: rest))
    (unclaimed : id ∉ allClaims (⟨dest, streams, .check checked (id :: todo) errors⟩ :: rest))
    (found : v.streams[id]? = some st) :
    Inv v (⟨dest, streams,
      .check (checked ++ [id]) todo (errors ++ checkStream dest st)⟩ :: rest) := by
  have ok := inv.request _ mem_cons_self
  have split : streams = (checked ++ [id]) ++ todo := by
    rw [append_assoc]
    exact ok.rows
  by_cases passes : errors ++ checkStream dest st = []
  · obtain ⟨rfl, good⟩ := append_eq_nil_iff.1 passes
    obtain ⟨pending, final, uncommitted⟩ := checkStream_ok good
    have fresh : Fresh v id := inv.fresh unclaimed (by simp [Service.committed, found, uncommitted])
    rw [passes]
    refine inv.rephase ⟨fun x mem => ?_, split⟩ ?_ nofun
    · rw [claimed_check, if_pos rfl] at mem
      rcases mem_append.1 mem with mem | mem
      · exact ⟨(ok.claimed x mem).1, .inr (ok.fresh nofun mem)⟩
      · rw [mem_singleton.1 mem]
        exact ⟨⟨st, found, pending, final⟩, .inr fresh⟩
    · have perm : (allClaims (⟨dest, streams, .check (checked ++ [id]) todo []⟩ :: rest)).Perm
          (id :: allClaims (⟨dest, streams, .check checked (id :: todo) []⟩ :: rest)) := by
        simp only [allClaims, flatMap_cons, claimed_check, if_true, append_assoc, singleton_append]
        exact perm_middle
      exact perm.nodup_iff.2 (nodup_cons.2 ⟨unclaimed, inv.claims⟩)
  · have none : (BatchCommit.mk dest streams
        (.check (checked ++ [id]) todo (errors ++ checkStream dest st))).claimed = [] := by
      rw [claimed_check, if_neg passes]
    refine inv.rephase ⟨fun x mem => ?_, split⟩ (inv.nodup_claims ?_) nofun
    · rw [none] at mem
      cases mem
    · rw [none]
      exact nil_sublist _

/-- Collecting changes neither the claims nor what is known of the streams. -/
theorem Inv.collect {phase' : Phase} (inv : Inv v (⟨dest, streams, phase⟩ :: rest))
    (before : ∀ todo now, phase ≠ .mark todo now)
    (claimed : (BatchCommit.mk dest streams phase').claimed =
      (BatchCommit.mk dest streams phase).claimed) (rows : RowsOk ⟨dest, streams, phase'⟩) :
    Inv v (⟨dest, streams, phase'⟩ :: rest) := by
  have ok := inv.request _ mem_cons_self
  refine inv.rephase ⟨fun x mem => ?_, rows⟩ (inv.nodup_claims ?_) fun x marks => ?_
  · rw [claimed] at mem
    exact ⟨(ok.claimed x mem).1, .inr (ok.fresh before mem)⟩
  · rw [claimed]
  · obtain ⟨_, _, eq, _⟩ := marks
    exact absurd eq (before _ _)

/-- The rows of one more stream come from slots that are not collected yet. -/
theorem Collected.append {collected : List StreamID} {allRows : List BufferedRow}
    (h : Collected collected allRows) (new : id ∉ collected) (st : StorageWriteStream) :
    Collected (collected ++ [id]) (allRows ++ bufferedRows id st) := by
  have stream : ∀ b ∈ bufferedRows id st, b.origin.stream = id := by
    intro b mem
    obtain ⟨r, -, rfl⟩ := mem_map.1 mem
    rfl
  constructor
  · intro b mem
    rcases mem_append.1 mem with mem | mem
    · exact mem_append_left _ (h.mem b mem)
    · rw [stream b mem]
      exact mem_append_right _ mem_cons_self
  · rw [map_append]
    refine h.nodup.append ?_ fun o mem mem' => ?_
    · have slots : (bufferedRows id st).map (·.origin) =
          (List.range st.buffered.length).map fun i => ⟨id, i⟩ := by
        refine ext_getElem (by simp [bufferedRows]) fun i _ _ => ?_
        simp [bufferedRows]
      rw [slots]
      exact nodup_range.map fun i j eq => by cases eq; rfl
    · obtain ⟨b, hb, rfl⟩ := mem_map.1 mem
      obtain ⟨b', hb', eq⟩ := mem_map.1 mem'
      rw [← stream b' hb', eq] at new
      exact new (h.mem b hb)

/-- The rows are appended: they are all new, and their streams are now to be marked. -/
theorem Inv.append {allRows : List BufferedRow} {fields : List TableField} {now : Time}
    (inv : Inv v (⟨dest, streams, .append allRows fields⟩ :: rest)) (same : v'.streams = v.streams)
    (applied : v'.applied = v.applied ++ allRows.map fun b => ⟨b, dest, streams⟩) :
    Inv v' (⟨dest, streams, .mark streams now⟩ :: rest) := by
  have ok := inv.request _ mem_cons_self
  have collected : Collected streams allRows := ok.rows
  have committed : ∀ id, v'.committed id = v.committed id := fun id => by
    rw [Service.committed, Service.committed, same]
  have sealed_ : ∀ id, Sealed v id → Sealed v' id := fun id h => by
    rwa [Sealed, same]
  have new : ∀ a ∈ v'.applied, a ∈ v.applied ∨
      ∃ b ∈ allRows, a = ⟨b, dest, streams⟩ := by
    intro a mem
    rw [applied] at mem
    refine (mem_append.1 mem).imp_right fun mem => ?_
    obtain ⟨b, hb, rfl⟩ := mem_map.1 mem
    exact ⟨b, hb, rfl⟩
  refine inv.advance sealed_ (fun id unclaimed => ⟨committed id, fun a mem eq => ?_⟩)
    ⟨fun id mem => ⟨sealed_ id (ok.claimed id mem).1, .inl ⟨_, _, rfl, mem⟩⟩, trivial⟩
    inv.claims ?_ (fun a mem => ?_) fun id mem _ _ _ => .inr ⟨_, _, rfl, mem⟩
  · rcases new a mem with old | ⟨b, hb, rfl⟩
    · exact old
    · exact absurd (eq ▸ collected.mem b hb) unclaimed
  · rw [applied, map_append, map_map]
    refine inv.nodup.append collected.nodup fun o mem mem' => ?_
    obtain ⟨a, ha, rfl⟩ := mem_map.1 mem
    obtain ⟨b, hb, eq⟩ := mem_map.1 mem'
    have fresh := ok.fresh nofun (collected.mem b hb)
    exact fresh.unapplied a ha (congrArg Origin.stream eq).symm
  · refine (new a mem).imp_right ?_
    rintro ⟨b, hb, rfl⟩
    exact ⟨collected.mem b hb, collected.mem b hb⟩

theorem streams_modify (v : Service) (id x : StreamID) (f : StorageWriteStream → StorageWriteStream) :
    (v.modify id f).streams[x]? = if x = id then v.streams[x]?.map f else v.streams[x]? := by
  rw [Service.modify, getElem?_modify]
  by_cases h : id = x
  · subst h
    simp
  · simp [h, Ne.symm h]

/-- A change that keeps kind and finalization keeps sealed streams sealed. -/
theorem Sealed.modify {x : StreamID} {f : StorageWriteStream → StorageWriteStream}
    (kind : ∀ st, (f st).kind = st.kind)
    (final : ∀ st, st.finalized = true → (f st).finalized = true) (h : Sealed v x) :
    Sealed (v.modify id f) x := by
  obtain ⟨st, found, pending, finalized⟩ := h
  rw [Sealed, streams_modify]
  split
  · exact ⟨f st, by rw [found, Option.map_some], (kind st).trans pending, final st finalized⟩
  · exact ⟨st, found, pending, finalized⟩

/-- Marking a stream. -/
theorem Inv.mark {now : Time} (inv : Inv v (⟨dest, streams, .mark (id :: todo) now⟩ :: rest)) :
    Inv (v.modify id fun st =>
        { st with committed := true, commitTime := some now, buffered := [] })
      (⟨dest, streams, .mark todo now⟩ :: rest) := by
  have ok := inv.request _ mem_cons_self
  have sealed_ : ∀ x, Sealed v x → Sealed (v.modify id fun st =>
      { st with committed := true, commitTime := some now, buffered := [] }) x :=
    fun x => Sealed.modify (fun _ => rfl) (fun _ h => h)
  refine inv.advance sealed_ (fun x unclaimed => ⟨?_, fun a mem _ => mem⟩)
    ⟨fun x mem => ⟨sealed_ x (ok.claimed x (mem_cons_of_mem _ mem)).1, .inl ⟨_, _, rfl, mem⟩⟩,
      trivial⟩
    (inv.nodup_claims (sublist_cons_self _ _)) inv.nodup (fun a => .inl)
    fun x claimed a mem eq => ?_
  · rw [Service.committed, streams_modify, if_neg (fun h : x = id => unclaimed (h ▸ mem_cons_self))]
    rfl
  · rcases mem_cons.1 claimed with rfl | claimed
    · obtain ⟨st, found, -⟩ := (ok.claimed x mem_cons_self).1
      left
      rw [Service.committed, streams_modify, if_pos rfl, found]
      rfl
    · exact .inr ⟨_, _, rfl, claimed⟩

/-! ## The other steps -/

/-- What the steps other than those of batch commits can do to the streams. -/
structure Later (v v' : Service) : Prop where
  sealed_ : ∀ id, Sealed v id → Sealed v' id
  committed : ∀ id, v'.committed id = v.committed id
  applied : v'.applied = v.applied

theorem Later.refl (v : Service) : Later v v := ⟨fun _ h => h, fun _ => rfl, rfl⟩

theorem Later.trans {v'' : Service} (h1 : Later v v') (h2 : Later v' v'') : Later v v'' :=
  ⟨fun id h => h2.sealed_ id (h1.sealed_ id h), fun id => (h2.committed id).trans (h1.committed id),
    h2.applied.trans h1.applied⟩

theorem Inv.later (inv : Inv v requests) (h : Later v v') : Inv v' requests where
  request r mem := by
    refine ⟨fun id claimed => ?_, (inv.request r mem).rows⟩
    obtain ⟨sealedId, status⟩ := (inv.request r mem).claimed id claimed
    refine ⟨h.sealed_ id sealedId, status.imp_right fun fresh => ⟨?_, ?_⟩⟩
    · exact (h.committed id).trans fresh.uncommitted
    · rw [h.applied]
      exact fresh.unapplied
  claims := inv.claims
  nodup := h.applied ▸ inv.nodup
  applied a mem := by
    rw [h.applied] at mem
    obtain ⟨named, sealedA, committed⟩ := inv.applied a mem
    exact ⟨named, h.sealed_ _ sealedA, committed.imp_left (h.committed _).trans⟩

theorem later_catalog (v : Service) (catalog : TableService) :
    Later v { v with catalog := catalog } := ⟨fun _ h => h, fun _ => rfl, rfl⟩

theorem later_modify {f : StorageWriteStream → StorageWriteStream}
    (kind : ∀ st, (f st).kind = st.kind)
    (final : ∀ st, st.finalized = true → (f st).finalized = true)
    (committed : ∀ st, (f st).committed = st.committed) (v : Service) (id : StreamID) :
    Later v (v.modify id f) := by
  refine ⟨fun x => Sealed.modify kind final, fun x => ?_, rfl⟩
  rw [Service.committed, streams_modify]
  split
  · rw [Option.map_map]
    exact congrArg (fun g => (v.streams[x]?.map g).getD false) (funext committed)
  · rfl

/-- A new stream is not committed. -/
theorem later_addStream (v : Service) (names : GoMap String StreamID) (counter : Nat)
    (uncommitted : st.committed = false) :
    Later v { v with counter := counter, streams := v.streams ++ [st], names := names } := by
  refine ⟨fun id h => ?_, fun id => ?_, rfl⟩
  · obtain ⟨st', there, h⟩ := h
    refine ⟨st', ?_, h⟩
    rw [getElem?_append_left (List.getElem?_eq_some_iff.1 there).1, there]
  · simp only [Service.committed]
    by_cases old : id < v.streams.length
    · rw [getElem?_append_left old]
    rw [getElem?_append_right (not_lt.1 old), getElem?_eq_none (not_lt.1 old)]
    cases id - v.streams.length with
    | zero => exact uncommitted
    | succ => rfl

theorem later_finalizeWriteStream (v : Service) (name : String) :
    Later v (finalizeWriteStream v name).1 := by
  unfold finalizeWriteStream
  split
  · exact .refl v
  · exact later_modify (fun _ => by rfl) (fun _ _ => by rfl) (fun _ => by rfl) v _

/-- A request that arrives claims nothing. -/
theorem Inv.started (inv : Inv v requests) (parent : String) (names : List String) :
    Inv v (requests ++ (startBatchCommit v parent names).toOption.toList) := by
  unfold startBatchCommit
  split
  · simpa [Except.toOption] using inv
  split
  · simpa [Except.toOption] using inv
  next dest _ streams _ =>
    refine Inv.perm (perm_append_singleton _ _).symm ⟨fun r mem => ?_, inv.claims, inv.nodup,
      fun a mem => ?_⟩
    · rcases mem_cons.1 mem with rfl | mem
      · exact ⟨nofun, rfl⟩
      · exact inv.request r mem
    · obtain ⟨named, sealed_, committed⟩ := inv.applied a mem
      refine ⟨named, sealed_, committed.imp_right ?_⟩
      rintro ⟨r, hr, marks⟩
      exact ⟨r, mem_cons_of_mem _ hr, marks⟩

theorem Inv.initial : Inv ({} : State).service ({} : State).requests :=
  ⟨nofun, nodup_nil, nodup_nil, nofun⟩

section

variable [GoFloat] (v : Service) (now : Time)

theorem later_writableTable (table : TableReference) : Later v (writableTable v now table).1 := by
  simp only [writableTable]
  split
  · exact later_catalog _ _
  · split <;> exact later_catalog _ _

theorem later_appendToTable (dest : TableReference) (fields : List TableField) (rows : List Row) :
    Later v (appendToTable v now dest fields rows).1 := later_catalog _ _

theorem later_createWriteStream (parent : String) (type : StreamType) :
    Later v (createWriteStream v now parent type).1 := by
  unfold createWriteStream
  split
  · exact .refl v
  next table _ =>
    have touched := later_writableTable v now table
    split
    next found => rwa [found] at touched
    next v' fields found =>
      rw [found] at touched
      split
      · exact touched
      · exact touched.trans (later_addStream _ _ _ rfl)

theorem later_switchStream (c : Connection) (ws : String) :
    Later v (switchStream v now c ws).1 := by
  unfold switchStream
  split
  · split <;> exact .refl v
  split
  · exact .refl v
  next table _ =>
    have touched := later_writableTable v now table
    split
    next found => rwa [found] at touched
    next found => rwa [found] at touched
  · split <;> exact .refl v

theorem later_appendRows (c : Connection) (rows : List Row) (offset : Option Int) :
    Later v (appendRows v now c rows offset).1 := by
  unfold appendRows
  split
  · exact .refl v
  next table fields _ =>
    have appended := later_appendToTable v now table fields rows
    split
    · exact .refl v
    · split
      next found => rwa [found] at appended
      next found => rwa [found] at appended
  next id fields _ =>
    split
    · exact .refl v
    next st _ =>
      have appended := later_appendToTable v now st.table fields rows
      simp only
      split
      · exact .refl v
      split
      · exact .refl v
      split
      · exact .refl v
      split
      · split
        next found => rwa [found] at appended
        next found =>
          rw [found] at appended
          exact appended.trans
            (later_modify (fun _ => by rfl) (fun _ h => by exact h) (fun _ => by rfl) _ _)
      · exact later_modify (fun _ => by rfl) (fun _ h => by exact h) (fun _ => by rfl) v id

/-! ## Every step -/

variable {v now} {s t : State} {label : Label}

/-- All that a step of a request can do. -/
inductive Advances (v : Service) (now : Time) : BatchCommit → Service → Phase → Prop where
  | check {dest : TableReference} {streams checked todo : List StreamID} {id : StreamID}
      {errors : List StreamError} {st : StorageWriteStream} : v.streams[id]? = some st →
      Advances v now ⟨dest, streams, .check checked (id :: todo) errors⟩ v
        (.check (checked ++ [id]) todo (errors ++ checkStream dest st))
  | checked {dest : TableReference} {streams checked : List StreamID} :
      Advances v now ⟨dest, streams, .check checked [] []⟩ v (.collect [] streams [] [])
  | rejected {dest : TableReference} {streams checked : List StreamID}
      {errors : List StreamError} :
      Advances v now ⟨dest, streams, .check checked [] errors⟩ v (.done (.streamErrors errors))
  | collect {dest : TableReference} {streams collected todo : List StreamID} {id : StreamID}
      {allRows : List BufferedRow} {fields fields' : List TableField} {st : StorageWriteStream} :
      v.streams[id]? = some st →
      Advances v now ⟨dest, streams, .collect collected (id :: todo) allRows fields⟩ v
        (.collect (collected ++ [id]) todo (allRows ++ bufferedRows id st) fields')
  | collected {dest : TableReference} {streams collected : List StreamID}
      {allRows : List BufferedRow} {fields : List TableField} :
      Advances v now ⟨dest, streams, .collect collected [] allRows fields⟩ v
        (.append allRows fields)
  | nothing {dest : TableReference} {streams : List StreamID} {fields : List TableField} :
      Advances v now ⟨dest, streams, .append [] fields⟩ v (.mark streams now)
  | failed {dest : TableReference} {streams : List StreamID} {allRows : List BufferedRow}
      {fields : List TableField} {catalog : TableService} {err : Failure} :
      Advances v now ⟨dest, streams, .append allRows fields⟩ { v with catalog := catalog }
        (.done (.error ⟨.internal, failureText err⟩))
  | appended {dest : TableReference} {streams : List StreamID} {allRows : List BufferedRow}
      {fields : List TableField} :
      (appendToTable v now dest fields (allRows.map (·.row))).2.isOk = true →
      Advances v now ⟨dest, streams, .append allRows fields⟩
        { v with
          catalog := (appendToTable v now dest fields (allRows.map (·.row))).1.catalog
          applied := v.applied ++ allRows.map fun b => ⟨b, dest, streams⟩ }
        (.mark streams now)
  | mark {dest : TableReference} {streams todo : List StreamID} {id : StreamID} {at_ : Time} :
      Advances v now ⟨dest, streams, .mark (id :: todo) at_⟩
        (v.modify id fun st =>
          { st with committed := true, commitTime := some at_, buffered := [] })
        (.mark todo at_)
  | marked {dest : TableReference} {streams : List StreamID} {at_ : Time} :
      Advances v now ⟨dest, streams, .mark [] at_⟩ v (.done (.commitTime at_))

theorem advances (h : advance v now r = some (v', phase)) : Advances v now r v' phase := by
  obtain ⟨dest, streams, before⟩ := r
  cases before with
  | check checked todo errors =>
    cases todo with
    | cons id todo =>
      obtain ⟨st, found, eq⟩ := Option.map_eq_some_iff.1 h
      cases eq
      exact .check found
    | nil =>
      cases h
      split
      next none =>
        subst none
        exact .checked
      · exact .rejected
  | collect collected todo allRows fields =>
    cases todo with
    | cons id todo =>
      obtain ⟨st, found, eq⟩ := Option.map_eq_some_iff.1 h
      cases eq
      exact .collect found
    | nil =>
      cases h
      exact .collected
  | append allRows fields =>
    simp only [advance] at h
    split at h
    next empty =>
      subst empty
      cases h
      exact .nothing
    · have effect : (appendToTable v now dest fields (allRows.map (·.row))).1 =
          { v with
            catalog := (appendToTable v now dest fields (allRows.map (·.row))).1.catalog } := by
        simp only [appendToTable]
      split at h
      next v1 err failed =>
        cases h
        rw [failed] at effect
        dsimp only at effect
        rw [effect]
        exact .failed
      next v1 n done =>
        have ok : (appendToTable v now dest fields (allRows.map (·.row))).2.isOk = true := by
          rw [done]
          rfl
        have appended : Advances v now ⟨dest, streams, .append allRows fields⟩ _ _ := .appended ok
        rw [done] at effect appended
        dsimp only at effect
        cases h
        rw [effect]
        exact appended
  | mark todo now =>
    cases todo with
    | cons id todo =>
      cases h
      exact .mark
    | nil =>
      cases h
      exact .marked
  | done response => cases h

/-- A step of a request. -/
theorem Inv.advanced (inv : Inv v (r :: rest))
    (unclaimed : ∀ id, r.checks? = some id → id ∉ allClaims (r :: rest))
    (h : Advances v now r v' phase) : Inv v' ({ r with phase := phase } :: rest) := by
  have ok := inv.request _ mem_cons_self
  cases h with
  | check found => exact inv.check (unclaimed _ rfl) found
  | checked => exact inv.collect nofun (ok.rows.trans (append_nil _)) ⟨rfl, nofun, nodup_nil⟩
  | rejected => exact inv.rephase ⟨nofun, trivial⟩ (inv.nodup_claims (nil_sublist _)) nofun
  | @collect dest streams collected todo id allRows fields fields' st found =>
    have nodup : streams.Nodup := (nodup_append.1 inv.claims).1
    obtain ⟨split, rows⟩ := ok.rows
    dsimp only at split
    rw [split] at nodup
    have new : id ∉ collected := fun mem =>
      (nodup_append.1 nodup).2.2 id mem id mem_cons_self rfl
    refine inv.collect nofun rfl ⟨?_, rows.append new st⟩
    rw [append_assoc]
    exact split
  | @collected dest streams collected allRows fields =>
    obtain ⟨split, rows⟩ := ok.rows
    have all : streams = collected := split.trans (append_nil _)
    subst all
    exact inv.collect nofun rfl rows
  | nothing => exact inv.append rfl (append_nil _).symm
  | @failed _ _ _ _ catalog =>
    have inv := inv.later (later_catalog v catalog)
    exact inv.rephase ⟨nofun, trivial⟩ (inv.nodup_claims (nil_sublist _)) nofun
  | appended _ => exact inv.append rfl rfl
  | mark => exact inv.mark
  | marked =>
    exact inv.rephase ⟨nofun, trivial⟩ (inv.nodup_claims (nil_sublist _))
      fun x marks => absurd (claimed_of_marks marks) nofun

/-- Every step is one of a request, or leaves the streams' commits alone. -/
theorem step_cases (h : step s label = some t) :
    (Later s.service t.service ∧ (t.requests = s.requests ∨
      ∃ parent names, t.requests =
        s.requests ++ (startBatchCommit s.service parent names).toOption.toList ∧
          t.service = s.service)) ∨
      ∃ i now r phase, label = .advance i now ∧ s.requests[i]? = some r ∧
        advance s.service now r = some (t.service, phase) ∧
        t.requests = s.requests.set i { r with phase := phase } := by
  cases label with
  | createWriteStream now parent type =>
    rw [step, Option.some.injEq] at h
    subst h
    dsimp only
    exact .inl ⟨later_createWriteStream s.service now parent type, .inl rfl⟩
  | finalizeWriteStream name =>
    rw [step, Option.some.injEq] at h
    subst h
    dsimp only
    exact .inl ⟨later_finalizeWriteStream s.service name, .inl rfl⟩
  | connect =>
    rw [step, Option.some.injEq] at h
    subst h
    dsimp only
    exact .inl ⟨.refl _, .inl rfl⟩
  | switch c now ws =>
    obtain ⟨conn, -, rfl⟩ := Option.map_eq_some_iff.1 h
    dsimp only
    exact .inl ⟨later_switchStream s.service now conn ws, .inl rfl⟩
  | append c now rows offset =>
    obtain ⟨conn, -, rfl⟩ := Option.map_eq_some_iff.1 h
    dsimp only
    exact .inl ⟨later_appendRows s.service now conn rows offset, .inl rfl⟩
  | batchCommit parent names =>
    rw [step, Option.some.injEq] at h
    subst h
    dsimp only
    exact .inl ⟨.refl _, .inr ⟨parent, names, rfl, rfl⟩⟩
  | advance i now =>
    obtain ⟨r, found, h⟩ := Option.bind_eq_some_iff.1 h
    obtain ⟨⟨v, phase⟩, advanced, rfl⟩ := Option.map_eq_some_iff.1 h
    exact .inr ⟨i, now, r, phase, rfl, found, advanced, rfl⟩
  | catalog now op =>
    rw [step, Option.some.injEq] at h
    subst h
    dsimp only
    exact .inl ⟨later_catalog s.service _, .inl rfl⟩

theorem Inv.step (inv : Inv s.service s.requests) (ok : ChecksUnclaimed s label)
    (h : step s label = some t) : Inv t.service t.requests := by
  rcases step_cases h with ⟨later, same | ⟨parent, names, requests, service⟩⟩ |
    ⟨i, now, r, phase, rfl, found, advanced, requests⟩
  · rw [same]
    exact inv.later later
  · rw [requests, service]
    exact inv.started parent names
  · obtain ⟨hlt, rfl⟩ := List.getElem?_eq_some_iff.1 found
    have front := getElem_cons_eraseIdx_perm hlt
    rw [requests]
    refine Inv.perm (set_perm_cons_eraseIdx hlt _).symm
      ((inv.perm front.symm).advanced (fun id checks => ?_) (advances advanced))
    intro mem
    exact ok _ found id checks ((front.flatMap_right _).mem_iff.1 mem)

/-! ## Exactly once -/

/-- **Applied rows are in the table.**  The rows that a request records as applied are the rows
that its table has gained. -/
theorem table_of_applied (h : advance v now r = some (v', phase))
    (grew : v'.applied ≠ v.applied) :
    ∃ (allRows : List BufferedRow) (at_ : TableReference) (t : TableRecord),
      v'.applied = v.applied ++ allRows.map (fun b => ⟨b, r.dest, r.streams⟩) ∧
      TableService.trimPath r.dest.projectID r.dest.datasetID r.dest.tableID = some at_ ∧
      v'.catalog.record? at_ = some t ∧
      t.rows = (((v.catalog.ensureDatasetLocked now at_.projectID at_.datasetID).record? at_).map
        (·.rows)).getD [] ++ allRows.map (·.row) := by
  cases advances h with
  | @appended dest streams allRows fields ok =>
    cases trim : TableService.trimPath dest.projectID dest.datasetID dest.tableID with
    | none =>
      simp only [appendToTable, TableService.upsertCopyDestination, trim] at ok
      cases ok
    | some at_ =>
      simp only [appendToTable] at ok ⊢
      obtain ⟨t, found, rows⟩ := TableService.rows_of_append trim ok
      exact ⟨allRows, at_, t, rfl, rfl, found, rows⟩
  | _ => exact absurd rfl grew

theorem Advances.committed (h : Advances v now r v' phase) (done : v.committed id = true) :
    v'.committed id = true := by
  cases h with
  | @mark _ _ _ id' =>
    rw [Service.committed, streams_modify]
    split
    · obtain ⟨st, found, -⟩ := committed_iff.1 done
      rw [found]
      rfl
    · exact done
  | _ => exact done

/-- The rows of a stream that are in a table. -/
def rowsOf (id : StreamID) (v : Service) : List Applied :=
  v.applied.filter (·.origin.stream = id)

/-- A committed stream stays committed, and none of its rows is appended again. -/
theorem committed_step (inv : Inv s.service s.requests) (done : s.service.committed id = true)
    (h : step s label = some t) :
    t.service.committed id = true ∧ rowsOf id t.service = rowsOf id s.service := by
  rcases step_cases h with ⟨later, -⟩ | ⟨i, now, r, phase, -, found, advanced, -⟩
  · rw [rowsOf, later.applied]
    exact ⟨(later.committed id).trans done, rfl⟩
  · refine ⟨(advances advanced).committed done, ?_⟩
    have ok := inv.request r (mem_of_getElem? found)
    generalize t.service = v' at advanced
    cases advances advanced with
    | @appended dest streams allRows fields =>
      rw [rowsOf, rowsOf, filter_append, append_right_eq_self, filter_eq_nil_iff]
      intro a mem eq
      obtain ⟨b, hb, rfl⟩ := mem_map.1 mem
      have mine : b.origin.stream ∈ streams := Collected.mem ok.rows b hb
      have uncommitted := (ok.fresh nofun mine).uncommitted
      rw [of_decide_eq_true eq, done] at uncommitted
      cases uncommitted
    | _ => rfl

/-- The exactly-once contract of a state. -/
structure ExactlyOnce (v : Service) : Prop where
  /-- No buffered row is in a table twice. -/
  once : (v.applied.map (·.origin)).Nodup
  /-- A row got there by a request that named its stream, which is pending and finalized. -/
  named : ∀ a ∈ v.applied, a.origin.stream ∈ a.streams ∧ Sealed v a.origin.stream

/-- **Exactly once.**  As long as no stream is checked while it is claimed, every state
keeps the contract, and a stream that is marked committed never has its rows appended
again. -/
theorem exactlyOnce_of_run {labels : List Label} {s : State}
    (run : Run.Exec step ChecksUnclaimed {} labels s) :
    ExactlyOnce s.service ∧
      ∀ id, s.service.committed id = true → ∀ more t, Run.Exec step ChecksUnclaimed s more t →
        rowsOf id t.service = rowsOf id s.service := by
  have inv : Inv s.service s.requests :=
    run.invariant (I := fun s => Inv s.service s.requests) (fun _ _ _ => Inv.step) Inv.initial
  refine ⟨⟨inv.nodup, fun a mem => ⟨(inv.applied a mem).named, (inv.applied a mem).sealed_⟩⟩,
    fun id done more t on => ?_⟩
  have kept := on.invariant (I := fun t => Inv t.service t.requests ∧
      t.service.committed id = true ∧ rowsOf id t.service = rowsOf id s.service)
    (fun u label w ⟨inv, done, same⟩ ok h =>
      have next := committed_step inv done h
      ⟨inv.step ok h, next.1, next.2.trans same⟩)
    ⟨inv, done, rfl⟩
  exact kept.2.2

end

section Commits

attribute [local instance] GoFloat.texts

instance (s : State) (label : Label) : Decidable (ChecksUnclaimed s label) := by
  cases label <;> unfold ChecksUnclaimed <;> infer_instance

/-- A row is appended to one of the default tables. -/
theorem table_of_applied_users :
    ∃ r v' phase, advance {} 5 r = some (v', phase) ∧ v'.applied.map (·.row) = [["1"]] ∧
      ∃ at_ t, v'.catalog.record? at_ = some t ∧ ∃ before, t.rows = before ++ [["1"]] := by
  have stepped : ∃ r v' phase, advance {} 5 r = some (v', phase) ∧
      v'.applied.map (·.row) = [["1"]] :=
    ⟨⟨⟨"p", "d", "users"⟩, [0], .append [⟨⟨0, 0⟩, ["1"]⟩] []⟩, _, _, rfl, rfl⟩
  obtain ⟨r, v', phase, stepped, gained⟩ := stepped
  obtain ⟨allRows, at_, t, applied, -, found, rows⟩ := table_of_applied stepped fun same => by
    rw [same] at gained
    cases gained
  refine ⟨r, v', phase, stepped, gained, at_, t, found, _, rows.trans (congrArg _ ?_)⟩
  rw [← gained, applied, map_append, map_map]
  rfl

def parent : String := "projects/p/datasets/ds/tables/orders"

def pendingStream : String := "projects/p/datasets/ds/tables/orders/streams/stream_1"

/-- A pending stream with one buffered row, finalized. -/
def prepared : List Label :=
  [.catalog 1 (.insert { projectID := "p", datasetID := "ds", tableID := "orders",
                         schema := [⟨"id", "INT64", "", []⟩] }),
   .createWriteStream 2 parent .pending, .connect, .switch 0 3 pendingStream,
   .append 0 4 [["1"]] none, .finalizeWriteStream pendingStream]

/-- The stream is committed, and committing it again is refused. -/
theorem exactlyOnce_of_run_committedTwice :
    ∃ s, Run.Exec step ChecksUnclaimed {} (prepared ++ [.batchCommit parent [pendingStream]] ++
        List.replicate 7 (.advance 0 5) ++ [.batchCommit parent [pendingStream]] ++
        List.replicate 2 (.advance 1 6)) s ∧
      s.service.applied.map (·.row) = [["1"]] ∧ ExactlyOnce s.service := by
  have reached : ∃ s, Run.after step ChecksUnclaimed {} (prepared ++
        [.batchCommit parent [pendingStream]] ++ List.replicate 7 (.advance 0 5) ++
        [.batchCommit parent [pendingStream]] ++ List.replicate 2 (.advance 1 6)) = some s ∧
      s.service.applied.map (·.row) = [["1"]] := ⟨_, rfl, rfl⟩
  obtain ⟨s, computed, rows⟩ := reached
  have run := Run.Exec.of_after computed
  exact ⟨s, run, rows, (exactlyOnce_of_run run).1⟩

/-- A request that names the stream twice appends its row twice, and so do two requests
that check the stream before either has marked it. -/
theorem exactlyOnce_fails :
    (∃ s, Run.Exec step (fun _ _ => True) {} (prepared ++
        [.batchCommit parent [pendingStream, pendingStream]] ++
        List.replicate 7 (.advance 0 5)) s ∧ ¬ ExactlyOnce s.service) ∧
    ∃ s, Run.Exec step (fun _ _ => True) {} (prepared ++
        [.batchCommit parent [pendingStream], .batchCommit parent [pendingStream],
          .advance 0 5, .advance 1 5] ++
        List.replicate 4 (.advance 0 6) ++ List.replicate 4 (.advance 1 7)) s ∧
      ¬ ExactlyOnce s.service := by
  have twice : ∃ s, Run.after step (fun _ _ => True) {} (prepared ++
        [.batchCommit parent [pendingStream, pendingStream]] ++
        List.replicate 7 (.advance 0 5)) = some s ∧
      s.service.applied.map (·.origin) = [⟨0, 0⟩, ⟨0, 0⟩] := ⟨_, rfl, rfl⟩
  have overlap : ∃ s, Run.after step (fun _ _ => True) {} (prepared ++
        [.batchCommit parent [pendingStream], .batchCommit parent [pendingStream],
          .advance 0 5, .advance 1 5] ++
        List.replicate 4 (.advance 0 6) ++ List.replicate 4 (.advance 1 7)) = some s ∧
      s.service.applied.map (·.origin) = [⟨0, 0⟩, ⟨0, 0⟩] := ⟨_, rfl, rfl⟩
  constructor
  · obtain ⟨s, computed, rows⟩ := twice
    refine ⟨s, .of_after computed, fun once => ?_⟩
    have nodup := once.once
    rw [rows] at nodup
    exact absurd nodup (by decide)
  · obtain ⟨s, computed, rows⟩ := overlap
    refine ⟨s, .of_after computed, fun once => ?_⟩
    have nodup := once.once
    rw [rows] at nodup
    exact absurd nodup (by decide)

end Commits

end LocaQL.StorageWrite
