import LocaQL.Engine.Pool
import LocaQL.Lib.Run
import Mathlib.Data.List.Perm.Basic

/-!
# Leases on pooled engines

Any number of goroutines acquire, tag and release engines.  A goroutine is a
`Phase`: the point between two critical sections where it can be suspended,
with the engine it works on.  Resets and closes happen between critical sections
and are steps of their own, so other goroutines can run between any two of them.

A goroutine has a lease on an engine from the critical section that counts it in
`refCount` to the one that stops counting it or removes the engine from the pool.
-/

namespace LocaQL.Lease

open SqlEnginePool List

/-- The two ways to hold an engine. -/
inductive Kind where
  | exclusive
  | shared
deriving Repr, DecidableEq

/-- Where a goroutine is between two critical sections. -/
inductive Phase where
  /-- Outside the pool's methods, without an engine. -/
  | idle
  /-- Has taken an engine whose reset comes next. -/
  | resetting (e : EngineID) (kind : Kind)
  /-- The reset failed; removing the engine from the pool comes next. -/
  | discarding (e : EngineID) (kind : Kind)
  /-- The engine is out of the pool; closing it comes next, and for an acquire a new engine. -/
  | closing (e : EngineID) (acquire : Option Kind)
  /-- Opening a new engine comes next. -/
  | opening (kind : Kind)
  /-- The acquire has returned the engine. -/
  | holding (e : EngineID) (kind : Kind)
  /-- Inside `releasePrivate`, before its reset. -/
  | returning (e : EngineID)
  /-- The reset of `releasePrivate` worked. -/
  | returned (e : EngineID)
  /-- The reset of `releasePrivate` failed. -/
  | failedReturn (e : EngineID)
  /-- `releasePrivate` has set `refCount` to zero after the failed reset; `discard` comes next. -/
  | abandoned (e : EngineID)
deriving Repr, DecidableEq

/-- The steps of a goroutine.  What a holder does with its engine's content is left
open (`use`). -/
inductive Action where
  | acquirePrivate
  | acquireShared (sig : String)
  | reset (faults : Faults)
  | discard
  | close
  | openFresh (err : Option String)
  | use (db : Database) (schemas : List String) (tables : GoMap String Nat)
  | tagSignature (sig : String)
  | releasePrivate
  | setIdle
  | releaseShared

/-- One step of a goroutine in phase `ph`, when `act` is what it does next. -/
def advance (p : SqlEnginePool) (ph : Phase) (act : Action) : Option (SqlEnginePool × Phase) :=
  match ph, act with
  | .idle, .acquirePrivate =>
    match p.idle? with
    | some e => some (p.claim e, .resetting e .exclusive)
    | none => some (p, .opening .exclusive)
  | .idle, .acquireShared sig =>
    -- `acquire` sends the empty signature to `acquirePrivate`
    if sig = "" then none
    else
      match p.matching? sig with
      | some e => some (p.join e, .holding e .shared)
      | none =>
        match p.reuse? with
        | some e =>
          some (p.claim e,
            if (p.engine e).signature = "" then .holding e .shared
            else .resetting e .shared)
        | none => some (p, .opening .shared)
  | .resetting e kind, .reset faults =>
    some (p.modify e fun pe => (pe.reset faults).1,
      if ((p.engine e).reset faults).2.isNone then .holding e kind else .discarding e kind)
  | .discarding e kind, .discard => some (p.remove e, .closing e (some kind))
  | .closing e (some kind), .close => some (p.close e, .opening kind)
  | .closing e none, .close => some (p.close e, .idle)
  | .opening kind, .openFresh none => some (p.openFresh, .holding p.next kind)
  | .opening _, .openFresh (some _) => some (p, .idle)
  | .holding e kind, .use db schemas tables =>
    some (p.modify e fun pe => { pe with db := db, schemas := schemas, tables := tables },
      .holding e kind)
  | .holding e .shared, .tagSignature sig => some (p.tagSignature e sig, .holding e .shared)
  | .holding e .shared, .releaseShared => some (p.releaseShared e, .idle)
  | .holding e .exclusive, .releasePrivate => some (p, .returning e)
  | .returning e, .reset faults =>
    some (p.modify e fun pe => (pe.reset faults).1,
      if ((p.engine e).reset faults).2.isNone then .returned e else .failedReturn e)
  | .returned e, .setIdle => some (p.returnPrivate e, .idle)
  | .failedReturn e, .setIdle => some (p.abandon e, .abandoned e)
  | .abandoned e, .discard => some (p.remove e, .closing e none)
  | _, _ => none

/-- The pool and the goroutines using it. -/
structure State where
  pool : SqlEnginePool := {}
  threads : List Phase

/-- A step of the goroutine numbered `l.1`. -/
def step (s : State) (l : Nat × Action) : Option State :=
  match s.threads[l.1]? with
  | none => none
  | some ph =>
    (advance s.pool ph l.2).map fun r => { pool := r.1, threads := s.threads.set l.1 r.2 }

/-- No goroutine is inside the pool, which is empty. -/
def initial (goroutines : Nat) : State := { threads := List.replicate goroutines .idle }

/-! ## What a phase holds -/

/-- The engine a goroutine has a lease on. -/
def Phase.lease? : Phase → Option EngineID
  | .resetting e _ | .discarding e _ | .holding e _ | .returning e | .returned e
  | .failedReturn e => some e
  | .idle | .opening _ | .closing _ _ | .abandoned _ => none

/-- The engine a goroutine must not share.  An engine is exclusive also while it is
reset on behalf of a shared acquire. -/
def Phase.exclusive? : Phase → Option EngineID
  | .holding _ .shared => none
  | ph => ph.lease?

variable {e : EngineID} {ph : Phase}

theorem Phase.lease?_of_exclusive? (h : ph.exclusive? = some e) : ph.lease? = some e := by
  cases ph with
  | holding x kind => cases kind <;> simp_all [exclusive?]
  | _ => exact h

/-- The number of leases on `e`. -/
def leases (threads : List Phase) (e : EngineID) : Nat :=
  threads.countP fun ph => ph.lease? = some e

@[simp] theorem leases_cons (ph : Phase) (threads : List Phase) (e : EngineID) :
    leases (ph :: threads) e = leases threads e + if ph.lease? = some e then 1 else 0 := by
  simp [leases, countP_cons]

variable {threads as bs : List Phase} {p' : SqlEnginePool} {kind : Kind} {p : SqlEnginePool}

theorem leases_pos (mem : ph ∈ threads) (h : ph.lease? = some e) : 0 < leases threads e :=
  countP_pos_iff.2 ⟨ph, mem, by simpa using h⟩

/-! ## The invariant -/

/-- What holds of a goroutine in phase `ph` among `threads`. -/
structure PhaseOk (p : SqlEnginePool) (threads : List Phase) (ph : Phase) : Prop where
  pooled : ∀ e, ph.lease? = some e → e ∈ p.all
  alone : ∀ e, ph.exclusive? = some e → leases threads e = 1 ∧ (p.engine e).signature = ""
  abandoned : ∀ e, ph = .abandoned e →
    e < p.next ∧ leases threads e = 0 ∧ (p.engine e).signature = ""
  closing : ∀ e kind, ph = .closing e kind → e < p.next ∧ e ∉ p.all

/-- What holds of an engine in the pool. -/
structure EngineOk (p : SqlEnginePool) (threads : List Phase) (e : EngineID) : Prop where
  old : e < p.next
  isOpen : (p.engine e).closed = false
  counted : (p.engine e).refCount = leases threads e

/-- The invariant of the pool and its goroutines. -/
structure Safe (p : SqlEnginePool) (threads : List Phase) : Prop where
  phase : ∀ ph ∈ threads, PhaseOk p threads ph
  engine : ∀ e ∈ p.all, EngineOk p threads e

theorem leases_perm (h : as.Perm bs) (e : EngineID) : leases as e = leases bs e := h.countP_eq _

section

variable (h : ∀ e, leases as e = leases bs e)

include h

theorem PhaseOk.congr (ok : PhaseOk p as ph) : PhaseOk p bs ph where
  pooled := ok.pooled
  alone e he := h e ▸ ok.alone e he
  abandoned e he := h e ▸ ok.abandoned e he
  closing := ok.closing

theorem EngineOk.congr (ok : EngineOk p as e) : EngineOk p bs e :=
  ⟨ok.old, ok.isOpen, ok.counted.trans (h e)⟩

end

/-- The invariant does not depend on the order of the goroutines. -/
theorem Safe.perm (h : as.Perm bs) (safe : Safe p as) : Safe p bs where
  phase ph mem := (safe.phase ph (h.mem_iff.2 mem)).congr (leases_perm h)
  engine e mem := (safe.engine e mem).congr (leases_perm h)

/-- An engine without a lease is held by no goroutine. -/
theorem lease?_ne (mem : ph ∈ threads) (h : leases threads e = 0) : ph.lease? ≠ some e :=
  fun held => absurd (leases_pos mem held) (by omega)

/-- What a step from phase `ph` to `ph'` may do to the pool while the goroutines in
`rest` are suspended: it removes no engine they hold, gives no signature to a blank
engine the acting goroutine does not hold, and takes no engine that one of them
holds exclusively or has abandoned. -/
structure Frame (p p' : SqlEnginePool) (ph ph' : Phase) (rest : List Phase) : Prop where
  grows : p.next ≤ p'.next
  keeps : ∀ x ∈ p.all, 0 < leases rest x → x ∈ p'.all
  adds : ∀ x ∈ p'.all, x < p.next → x ∈ p.all
  blank : ∀ x, ph.lease? ≠ some x → (p.engine x).signature = "" → (p'.engine x).signature = ""
  takes : ∀ x, ph'.lease? = some x → ph.lease? ≠ some x → (p.engine x).signature = "" →
    x < p.next → leases rest x = 0 ∧ .abandoned x ∉ rest

/-- The suspended goroutines keep their part of the invariant. -/
theorem PhaseOk.frame {ph' q : Phase} {rest : List Phase} (safe : Safe p (ph :: rest))
    (frame : Frame p p' ph ph' rest) (mem : q ∈ rest) : PhaseOk p' (ph' :: rest) q := by
  have ok := safe.phase q (mem_cons_of_mem _ mem)
  refine ⟨fun e he => frame.keeps e (ok.pooled e he) (leases_pos mem he), fun e he => ?_,
    fun e he => ?_, fun e kind he => ?_⟩
  · have held := Phase.lease?_of_exclusive? he
    have pos := leases_pos mem held
    obtain ⟨one, sig⟩ := ok.alone e he
    rw [leases_cons] at one ⊢
    -- the lease of `q` leaves no room for one of the acting goroutine
    have free : ph.lease? ≠ some e := by
      intro h
      rw [if_pos h] at one
      omega
    have free' : ph'.lease? ≠ some e := by
      intro h
      have old := (safe.engine e (ok.pooled e held)).old
      have := (frame.takes e h free sig old).1
      omega
    rw [if_neg free] at one
    exact ⟨by rw [if_neg free', one], frame.blank e free sig⟩
  · obtain ⟨old, zero, sig⟩ := ok.abandoned e he
    subst he
    rw [leases_cons] at zero ⊢
    have free : ph.lease? ≠ some e := by
      intro h
      rw [if_pos h] at zero
      omega
    have free' : ph'.lease? ≠ some e := fun h => (frame.takes e h free sig old).2 mem
    rw [if_neg free] at zero
    exact ⟨old.trans_le frame.grows, by rw [if_neg free', zero], frame.blank e free sig⟩
  · obtain ⟨old, gone⟩ := ok.closing e kind he
    exact ⟨old.trans_le frame.grows, fun h => gone (frame.adds e h old)⟩

/-! ## Every critical section keeps the invariant -/

section Steps

variable {p : SqlEnginePool} {ph ph' : Phase} {rest : List Phase} {e : EngineID}

section

variable (safe : Safe p (ph :: rest))

include safe

theorem Safe.of_frame (frame : Frame p p' ph ph' rest) (own : PhaseOk p' (ph' :: rest) ph')
    (engine : ∀ x ∈ p'.all, EngineOk p' (ph' :: rest) x) : Safe p' (ph' :: rest) where
  phase q mem := by
    rcases mem_cons.1 mem with rfl | mem
    · exact own
    · exact PhaseOk.frame safe frame mem
  engine := engine

/-- A change to the record of one pooled engine by a goroutine that holds no other
engine before or after it. -/
theorem Safe.modify {f : PooledEngine → PooledEngine} (mem : e ∈ p.all)
    (before : ∀ x ≠ e, ph.lease? ≠ some x) (after : ∀ x ≠ e, ph'.lease? ≠ some x)
    (isOpen : (f (p.engine e)).closed = (p.engine e).closed)
    (counted : (f (p.engine e)).refCount = leases (ph' :: rest) e) (blank : ph.lease? = some e ∨
      ((p.engine e).signature = "" → (f (p.engine e)).signature = ""))
    (takes : ph'.lease? = some e → ph.lease? ≠ some e → (p.engine e).signature = "" →
      leases rest e = 0 ∧ .abandoned e ∉ rest) (own : PhaseOk (p.modify e f) (ph' :: rest) ph') :
    Safe (p.modify e f) (ph' :: rest) := by
  refine safe.of_frame ⟨le_rfl, fun x hx _ => hx, fun x hx _ => hx, fun x hx sig => ?_,
    fun x hx free sig _ => ?_⟩ own fun x hx => ⟨(safe.engine x hx).old, ?_, ?_⟩
  · rw [modify_engine]
    split
    next h =>
      subst h
      exact (blank.resolve_left hx) sig
    · exact sig
  · by_cases h : x = e
    · subst h
      exact takes hx free sig
    · exact absurd hx (after x h)
  · rw [modify_engine]
    split
    · rw [isOpen]
      exact (safe.engine e mem).isOpen
    · exact (safe.engine x hx).isOpen
  · rw [modify_engine]
    split
    next h => rw [counted, h]
    next h =>
      rw [(safe.engine x hx).counted, leases_cons, leases_cons, if_neg (before x h),
        if_neg (after x h)]

/-- A goroutine with an exclusive lease has the only one. -/
theorem Safe.alone (h : ph.exclusive? = some e) :
    e ∈ p.all ∧ leases rest e = 0 ∧ (p.engine e).signature = "" := by
  have ok := safe.phase ph mem_cons_self
  have held := Phase.lease?_of_exclusive? h
  obtain ⟨one, sig⟩ := ok.alone e h
  rw [leases_cons, if_pos held] at one
  exact ⟨ok.pooled e held, by omega, sig⟩

end

/-- A goroutine holds one engine at a time. -/
theorem lease?_ne_of_held (held : ph.lease? = some e) : ∀ x ≠ e, ph.lease? ≠ some x := by
  simp [held, eq_comm]

/-- A phase that keeps or takes a lease meets its own part of the invariant. -/
theorem PhaseOk.of_lease (held : ph.lease? = some e) (mem : e ∈ p.all)
    (alone : ph.exclusive? = some e → leases threads e = 1 ∧ (p.engine e).signature = "") :
    PhaseOk p threads ph where
  pooled x hx := by
    rw [held] at hx
    cases hx
    exact mem
  alone x hx := by
    have held' := Phase.lease?_of_exclusive? hx
    rw [held] at held'
    cases held'
    exact alone hx
  abandoned x hx := by
    subst hx
    cases held
  closing x kind hx := by
    subst hx
    cases held

/-- Taking an idle engine that nobody has abandoned. -/
theorem Safe.claim (safe : Safe p (ph :: rest)) (free : ph.lease? = none)
    (held : ph'.lease? = some e) (mem : e ∈ p.all) (idle : (p.engine e).refCount = 0)
    (kept : .abandoned e ∉ rest) : Safe (p.claim e) (ph' :: rest) := by
  have zero : leases rest e = 0 := by
    have counted := (safe.engine e mem).counted
    rw [idle, leases_cons, free] at counted
    simpa using counted.symm
  have one : leases (ph' :: rest) e = 1 := by rw [leases_cons, if_pos held, zero]
  exact safe.modify mem (by simp [free]) (lease?_ne_of_held held) rfl one.symm (.inr fun _ => rfl)
    (fun _ _ _ => ⟨zero, kept⟩) (.of_lease held mem fun _ => ⟨one, by simp⟩)

/-- Joining an engine by its signature. -/
theorem Safe.join (safe : Safe p (.idle :: rest)) (mem : e ∈ p.all)
    (tagged : (p.engine e).signature ≠ "") : Safe (p.join e) (.holding e .shared :: rest) := by
  have counted := (safe.engine e mem).counted
  refine safe.modify mem (by simp [Phase.lease?]) (lease?_ne_of_held rfl) rfl ?_
    (.inr fun sig => sig) (fun _ _ sig => absurd sig tagged) (.of_lease rfl mem ?_)
  · rw [leases_cons] at counted ⊢
    simp [Phase.lease?] at counted ⊢
    exact counted
  · simp [Phase.exclusive?]

/-- A reset by the goroutine that holds the engine exclusively. -/
theorem Safe.reset (faults : Faults) (safe : Safe p (ph :: rest)) (own : ph.exclusive? = some e)
    (held : ph'.lease? = some e) :
    Safe (p.modify e fun pe => (pe.reset faults).1) (ph' :: rest) := by
  obtain ⟨mem, zero, sig⟩ := safe.alone own
  have lease := Phase.lease?_of_exclusive? own
  have counted := (safe.engine e mem).counted
  have one : leases (ph' :: rest) e = 1 := by rw [leases_cons, if_pos held, zero]
  refine safe.modify mem (lease?_ne_of_held lease) (lease?_ne_of_held held) (by simp) ?_ (.inl lease)
    (fun _ h => absurd lease h) (.of_lease held mem fun _ => ⟨one, ?_⟩)
  · rw [PooledEngine.reset_refCount, counted, one, leases_cons, if_pos lease, zero]
  · rw [modify_engine, if_pos rfl]
    exact PooledEngine.reset_signature faults sig

/-- Eviction closes engines that nobody holds. -/
theorem Safe.evict (safe : Safe p threads) : Safe p.evictOverCapLocked threads where
  phase q mem := by
    have ok := safe.phase q mem
    refine ⟨fun x hx => ?_, fun x hx => ?_, fun x hx => ?_, fun x kind hx => ?_⟩
    · refine mem_evict_all.2 ⟨ok.pooled x hx, fun evicted => ?_⟩
      have idle := (mem_toEvict evicted).2
      rw [(safe.engine x (ok.pooled x hx)).counted] at idle
      exact lease?_ne mem idle hx
    · simpa using ok.alone x hx
    · simpa using ok.abandoned x hx
    · obtain ⟨old, gone⟩ := ok.closing x kind hx
      exact ⟨old, fun h => gone (mem_evict_all.1 h).1⟩
  engine x hx := by
    obtain ⟨mem, kept⟩ := mem_evict_all.1 hx
    have ok := safe.engine x mem
    have same := evict_engine kept
    exact ⟨ok.old, same ▸ ok.isOpen, same ▸ ok.counted⟩

/-- The phase of a goroutine without a lease, if it is not leaving an engine behind. -/
theorem PhaseOk.idle (threads : List Phase) : PhaseOk p threads .idle where
  pooled := nofun
  alone := nofun
  abandoned := nofun
  closing := nofun

theorem PhaseOk.opening (threads : List Phase) (kind : Kind) :
    PhaseOk p threads (.opening kind) where
  pooled := nofun
  alone := nofun
  abandoned := nofun
  closing := nofun

/-- A step that changes neither the pool nor the lease. -/
theorem Safe.rephase (safe : Safe p (ph :: rest)) (same : ph'.lease? = ph.lease?)
    (own : PhaseOk p (ph' :: rest) ph') : Safe p (ph' :: rest) := by
  refine safe.of_frame ⟨le_rfl, fun x hx _ => hx, fun x hx _ => hx, fun x _ sig => sig,
    fun x hx free => absurd (same ▸ hx) free⟩ own fun x hx => ?_
  have ok := safe.engine x hx
  refine ⟨ok.old, ok.isOpen, ok.counted.trans ?_⟩
  rw [leases_cons, leases_cons, same]

/-- Work of a holder on the content of its engine. -/
theorem Safe.use {f : PooledEngine → PooledEngine} (safe : Safe p (.holding e kind :: rest))
    (isOpen : (f (p.engine e)).closed = (p.engine e).closed)
    (count : (f (p.engine e)).refCount = (p.engine e).refCount)
    (sig : (f (p.engine e)).signature = (p.engine e).signature) :
    Safe (p.modify e f) (.holding e kind :: rest) := by
  have own := safe.phase _ mem_cons_self
  have mem := own.pooled e rfl
  refine safe.modify mem (lease?_ne_of_held rfl) (lease?_ne_of_held rfl)
    isOpen (count.trans (safe.engine e mem).counted) (.inl rfl) (fun _ h => absurd rfl h)
    (.of_lease rfl mem fun excl => ?_)
  rw [modify_engine, if_pos rfl, sig]
  exact own.alone e excl

/-- Tagging by a goroutine that shares the engine. -/
theorem Safe.tag (sig : String) (safe : Safe p (.holding e .shared :: rest)) :
    Safe (p.tagSignature e sig) (.holding e .shared :: rest) := by
  have mem := (safe.phase _ mem_cons_self).pooled e rfl
  refine safe.modify mem (lease?_ne_of_held rfl) (lease?_ne_of_held rfl) rfl
    (safe.engine e mem).counted (.inl rfl) (fun _ h => absurd rfl h) (.of_lease rfl mem ?_)
  simp [Phase.exclusive?]

/-- Giving up the lease on an engine by setting `refCount` to what the others hold. -/
theorem Safe.release {count : Nat} (safe : Safe p (ph :: rest)) (held : ph.lease? = some e)
    (free : ph'.lease? = none) (counted : count = leases rest e)
    (own : PhaseOk (p.modify e fun pe => { pe with refCount := count }) (ph' :: rest) ph') :
    Safe (p.modify e fun pe => { pe with refCount := count }) (ph' :: rest) := by
  have mem := (safe.phase ph mem_cons_self).pooled e held
  refine safe.modify mem (lease?_ne_of_held held) (by simp [free]) rfl ?_ (.inl held)
    (fun h => absurd h (by simp [free])) own
  rw [leases_cons, free]
  simpa using counted

theorem Safe.releaseShared (safe : Safe p (.holding e .shared :: rest)) :
    Safe (p.releaseShared e) (.idle :: rest) := by
  have mem := (safe.phase _ mem_cons_self).pooled e rfl
  have counted := (safe.engine e mem).counted
  rw [leases_cons, Phase.lease?, if_pos rfl] at counted
  have released : Safe (p.modify e fun pe => { pe with refCount := (p.engine e).refCount - 1 })
      (.idle :: rest) :=
    safe.release rfl rfl (by omega) (.idle _)
  simp only [SqlEnginePool.releaseShared]
  split
  · exact released.evict
  · exact released

/-- `discard` takes an engine out of the pool that no other goroutine holds. -/
theorem Safe.remove {kind : Option Kind} (safe : Safe p (ph :: rest)) (old : e < p.next)
    (before : ∀ x ≠ e, ph.lease? ≠ some x) (zero : leases rest e = 0) :
    Safe (p.remove e) (.closing e kind :: rest) := by
  have gone : e ∉ (p.remove e).all := by simp [SqlEnginePool.remove]
  have unleased : (Phase.closing e kind).lease? = none := rfl
  refine safe.of_frame ⟨le_rfl, fun x hx pos => ?_, fun x hx _ => ?_, fun x _ sig => sig,
      by simp [unleased]⟩
    ⟨by simp [unleased], by simp [Phase.exclusive?, unleased], by simp, fun x k hx => ?_⟩
    fun x hx => ?_
  · have : x ≠ e := by
      rintro rfl
      omega
    simp [SqlEnginePool.remove, hx, this]
  · exact (mem_filter.1 hx).1
  · cases hx
    exact ⟨old, gone⟩
  · obtain ⟨mem, ne⟩ := mem_filter.1 hx
    have ok := safe.engine x mem
    refine ⟨ok.old, ok.isOpen, ok.counted.trans ?_⟩
    rw [leases_cons, leases_cons, if_neg (before x (by simpa using ne))]
    simp [Phase.lease?]

/-- Closing an engine that has left the pool. -/
theorem Safe.close {kind : Option Kind} (safe : Safe p (.closing e kind :: rest))
    (free : ph'.lease? = none) (own : PhaseOk (p.close e) (ph' :: rest) ph') :
    Safe (p.close e) (ph' :: rest) := by
  obtain ⟨-, gone⟩ := (safe.phase _ mem_cons_self).closing e kind rfl
  refine safe.of_frame ⟨le_rfl, fun x hx _ => hx, fun x hx _ => hx, fun x _ sig => ?_,
    fun x hx => by rw [free] at hx; cases hx⟩ own fun x hx => ?_
  · simp only [SqlEnginePool.close, modify_engine]
    split
    next h => subst h; exact sig
    · exact sig
  · have ok := safe.engine x hx
    have ne : x ≠ e := fun h => gone (h ▸ hx)
    have same : (p.close e).engine x = p.engine x := by simp [SqlEnginePool.close, ne]
    refine ⟨ok.old, same ▸ ok.isOpen, same ▸ ok.counted.trans ?_⟩
    rw [leases_cons, leases_cons, free]
    simp [Phase.lease?]

/-- A fresh engine is held by the goroutine that opened it. -/
theorem Safe.openFresh (safe : Safe p (.opening kind :: rest)) :
    Safe p.openFresh (.holding p.next kind :: rest) := by
  have unused : leases rest p.next = 0 := by
    refine Nat.eq_zero_of_not_pos fun pos => ?_
    obtain ⟨q, mem, held⟩ := countP_pos_iff.1 pos
    have ok := safe.phase q (mem_cons_of_mem _ mem)
    exact lt_irrefl _ (safe.engine _ (ok.pooled _ (by simpa using held))).old
  have one : leases (.holding p.next kind :: rest) p.next = 1 := by
    rw [leases_cons, Phase.lease?, if_pos rfl, unused]
  refine safe.of_frame ⟨Nat.le_succ _, fun x hx _ => ?_, fun x hx old => ?_, fun x _ sig => ?_,
    fun x hx _ _ old => ?_⟩ (.of_lease rfl ?_ fun _ => ⟨one, ?_⟩) fun x hx => ?_
  · exact mem_append_left _ hx
  · rcases mem_append.1 hx with hx | hx
    · exact hx
    · rw [mem_singleton.1 hx] at old
      exact absurd old (lt_irrefl _)
  · simp only [SqlEnginePool.openFresh, Function.update_apply]
    split
    · rfl
    · exact sig
  · cases hx
    exact absurd old (lt_irrefl _)
  · exact mem_append_right _ mem_cons_self
  · simp [SqlEnginePool.openFresh]
  · rcases mem_append.1 hx with hx | hx
    · have ok := safe.engine x hx
      have ne : x ≠ p.next := Nat.ne_of_lt ok.old
      have same : p.openFresh.engine x = p.engine x := by
        simp [SqlEnginePool.openFresh, ne]
      refine ⟨ok.old.trans (Nat.lt_succ_self _), same ▸ ok.isOpen, same ▸ ok.counted.trans ?_⟩
      rw [leases_cons, leases_cons]
      simp [Phase.lease?, ne.symm]
    · cases mem_singleton.1 hx
      refine ⟨Nat.lt_succ_self _, ?_, ?_⟩
      · simp [SqlEnginePool.openFresh]
      · simp only [SqlEnginePool.openFresh, Function.update_self]
        exact one.symm

/-- The idle engine an acquire would take. -/
def takes? (p : SqlEnginePool) : Action → Option EngineID
  | .acquirePrivate => p.idle?
  | .acquireShared sig =>
    match p.matching? sig with
    | some _ => none
    | none => p.reuse?
  | _ => none

/-- One goroutine's step, while the others are suspended. -/
theorem Safe.advance {act : Action} (safe : Safe p (ph :: rest))
    (spared : ∀ e, takes? p act = some e → .abandoned e ∉ rest)
    (h : advance p ph act = some (p', ph')) : Safe p' (ph' :: rest) := by
  unfold Lease.advance at h
  split at h
  · -- acquirePrivate
    split at h <;> cases h
    next e idle =>
      obtain ⟨mem, zero⟩ := idle?_spec idle
      exact safe.claim rfl rfl mem zero (spared e idle)
    · exact safe.rephase rfl (.opening _ _)
  · -- acquireShared
    next sig =>
    split at h
    · cases h
    next nonempty =>
      split at h
      next e hit =>
        cases h
        obtain ⟨mem, tagged⟩ := matching?_spec hit
        exact safe.join mem (tagged ▸ nonempty)
      next miss =>
        split at h <;> cases h
        next e reuse =>
          obtain ⟨mem, zero⟩ := reuse?_spec reuse
          have kept := spared e (by simp [takes?, miss, reuse])
          split
          · exact safe.claim rfl rfl mem zero kept
          · exact safe.claim rfl rfl mem zero kept
        · exact safe.rephase rfl (.opening _ _)
  · -- reset before the acquire returns
    cases h
    split
    · exact safe.reset _ rfl rfl
    · exact safe.reset _ rfl rfl
  · -- discard on behalf of an acquire
    next e kind =>
    cases h
    obtain ⟨mem, zero, -⟩ := safe.alone (e := e) rfl
    exact safe.remove (safe.engine e mem).old (lease?_ne_of_held rfl) zero
  · cases h
    exact safe.close rfl (.opening _ _)
  · cases h
    exact safe.close rfl (.idle _)
  · cases h
    exact safe.openFresh
  · cases h
    exact safe.rephase rfl (.idle _)
  · cases h
    exact safe.use rfl rfl rfl
  · cases h
    exact safe.tag _
  · cases h
    exact safe.releaseShared
  · -- releasePrivate
    next e =>
    cases h
    obtain ⟨mem, zero, sig⟩ := safe.alone (e := e) rfl
    exact safe.rephase rfl (.of_lease rfl mem fun _ => ⟨by simp [Phase.lease?, zero], sig⟩)
  · cases h
    split
    · exact safe.reset _ rfl rfl
    · exact safe.reset _ rfl rfl
  · -- the end of releasePrivate
    next e =>
    cases h
    obtain ⟨mem, zero, -⟩ := safe.alone (e := e) rfl
    exact (safe.release rfl rfl zero.symm (.idle _)).evict
  · -- refCount is zeroed before the discard
    next e =>
    cases h
    obtain ⟨mem, zero, sig⟩ := safe.alone (e := e) rfl
    refine safe.release rfl rfl zero.symm ⟨nofun, nofun, fun x hx => ?_, nofun⟩
    cases hx
    exact ⟨(safe.engine e mem).old, by simp [Phase.lease?, zero], by simpa using sig⟩
  · -- discard at the end of releasePrivate
    next e =>
    cases h
    obtain ⟨old, zero, -⟩ := (safe.phase _ mem_cons_self).abandoned e rfl
    exact safe.remove old (by simp [Phase.lease?]) (by simpa [Phase.lease?] using zero)
  · cases h

end Steps

/-! ## Whole calls -/

section Calls

variable {p : SqlEnginePool} {rest : List Phase} {e : EngineID}

/-- A goroutine outside the pool can come and go. -/
theorem safe_cons_idle : Safe p (.idle :: rest) ↔ Safe p rest := by
  have count (x : EngineID) : leases (.idle :: rest) x = leases rest x := by simp [Phase.lease?]
  constructor
  · intro safe
    exact ⟨fun q mem => (safe.phase q (mem_cons_of_mem _ mem)).congr count,
      fun x mem => (safe.engine x mem).congr count⟩
  · intro safe
    refine ⟨fun q mem => ?_, fun x mem => (safe.engine x mem).congr fun x => (count x).symm⟩
    rcases mem_cons.1 mem with rfl | mem
    · exact .idle _
    · exact (safe.phase q mem).congr fun x => (count x).symm

/-- The outcome of an acquire: the caller holds the engine, or nothing. -/
def Acquired (rest : List Phase) (p : SqlEnginePool) : Except String EngineID → Prop
  | .ok e => Safe p (.holding e .exclusive :: rest)
  | .error _ => Safe p rest

theorem Safe.openEngine (safe : Safe p rest) (openErr : Option String) :
    Acquired rest (p.openEngine openErr).1 (p.openEngine openErr).2 := by
  cases openErr with
  | some err => exact safe
  | none =>
    have opening : Safe p (.opening .exclusive :: rest) :=
      (safe_cons_idle.2 safe).rephase rfl (.opening _ _)
    exact opening.openFresh

theorem Safe.resetClaimed (safe : Safe p (.resetting e kind :: rest)) (faults : Faults)
    (openErr : Option String) :
    Acquired rest (p.resetClaimed faults openErr e).1 (p.resetClaimed faults openErr e).2 := by
  simp only [SqlEnginePool.resetClaimed]
  split
  · exact safe.reset faults rfl rfl
  have failed : Safe _ (.discarding e kind :: rest) := safe.reset faults rfl rfl
  obtain ⟨mem, zero, -⟩ := failed.alone (e := e) rfl
  have removed : Safe _ (.closing e none :: rest) :=
    failed.remove (failed.engine e mem).old (lease?_ne_of_held rfl) zero
  exact (safe_cons_idle.1 (removed.close rfl (.idle _))).openEngine openErr

section

variable (safe : Safe p rest) (spared : ∀ e, .abandoned e ∉ rest)

include safe spared

theorem Safe.acquirePrivate (faults : Faults) (openErr : Option String) :
    Acquired rest (p.acquirePrivate faults openErr).1 (p.acquirePrivate faults openErr).2 := by
  unfold SqlEnginePool.acquirePrivate
  split
  next e idle =>
    obtain ⟨mem, zero⟩ := idle?_spec idle
    have claimed : Safe _ (.resetting e .exclusive :: rest) :=
      (safe_cons_idle.2 safe).claim rfl rfl mem zero (spared e)
    exact claimed.resetClaimed faults openErr
  · exact safe.openEngine openErr

/-- A miss of `acquireShared`. -/
theorem Safe.acquireShared_miss {sig : String} (miss : p.matching? sig = none) (faults : Faults)
    (openErr : Option String) :
    Acquired rest (p.acquireShared sig faults openErr).1
      (p.acquireShared sig faults openErr).2.1 := by
  simp only [SqlEnginePool.acquireShared, miss]
  split
  · exact safe.openEngine openErr
  next e reuse =>
    obtain ⟨mem, zero⟩ := reuse?_spec reuse
    split
    · exact (safe_cons_idle.2 safe).claim rfl rfl mem zero (spared e)
    · have claimed : Safe _ (.resetting e .shared :: rest) :=
        (safe_cons_idle.2 safe).claim rfl rfl mem zero (spared e)
      exact claimed.resetClaimed faults openErr

end

theorem Safe.releasePrivate (safe : Safe p (.holding e .exclusive :: rest)) (faults : Faults) :
    Safe (p.releasePrivate faults e) rest := by
  have reset : ∀ ph : Phase, ph.lease? = some e →
      Safe (p.modify e fun pe => (pe.reset faults).1) (ph :: rest) :=
    fun ph held => safe.reset faults rfl held
  simp only [SqlEnginePool.releasePrivate]
  split
  · obtain ⟨-, zero, -⟩ := safe.alone (e := e) rfl
    exact safe_cons_idle.1 ((reset (.returned e) rfl).release rfl rfl zero.symm (.idle _)).evict
  · obtain ⟨mem, zero, sig⟩ := (reset (.failedReturn e) rfl).alone (e := e) rfl
    have abandoned : Safe _ (.abandoned e :: rest) :=
      (reset (.failedReturn e) rfl).release rfl rfl zero.symm ⟨by simp [Phase.lease?],
        by simp [Phase.exclusive?, Phase.lease?], fun x hx => by
          cases hx
          exact ⟨((reset (.failedReturn e) rfl).engine e mem).old, by simp [Phase.lease?, zero],
            by simpa using sig⟩, by simp⟩
    obtain ⟨old, -, -⟩ := (abandoned.phase _ mem_cons_self).abandoned e rfl
    have removed : Safe _ (.closing e none :: rest) :=
      abandoned.remove old (by simp [Phase.lease?]) zero
    exact safe_cons_idle.1 (removed.close rfl (.idle _))

end Calls

/-! ## Lease safety -/

/-- What the pool promises: an exclusive lease is the only one, `refCount` counts the
leases on each pooled engine, and a closed engine has no lease. -/
structure LeaseSafe (s : State) : Prop where
  exclusive : ∀ (i j : Nat) (ph q : Phase) (e : EngineID), i ≠ j → s.threads[i]? = some ph →
    ph.exclusive? = some e → s.threads[j]? = some q → q.lease? ≠ some e
  counted : ∀ e ∈ s.pool.all, (s.pool.engine e).refCount = leases s.threads e
  isOpen : ∀ e, (s.pool.engine e).closed = true → leases s.threads e = 0

/-- A closed engine has left the pool, and leases are on pooled engines. -/
theorem Safe.leaseSafe {s : State} (safe : Safe s.pool s.threads) : LeaseSafe s where
  exclusive i j ph q e ne hi excl hj held := by
    obtain ⟨hlt, rfl⟩ := List.getElem?_eq_some_iff.1 hi
    have split := getElem_cons_eraseIdx_perm hlt
    obtain ⟨-, zero, -⟩ := (safe.perm split.symm).alone excl
    have mem : q ∈ s.threads.eraseIdx i := by
      rw [mem_eraseIdx_iff_getElem?]
      exact ⟨j, ne.symm, hj⟩
    exact lease?_ne mem zero held
  counted e mem := (safe.engine e mem).counted
  isOpen e closed := by
    refine Nat.eq_zero_of_not_pos fun pos => ?_
    obtain ⟨q, mem, held⟩ := countP_pos_iff.1 pos
    have mem := (safe.phase q mem).pooled e (by simpa using held)
    rw [(safe.engine e mem).isOpen] at closed
    cases closed

/-- No goroutine takes an engine that another one has marked idle only to discard it. -/
def SparesAbandoned (s : State) (l : Nat × Action) : Prop :=
  ∀ e, takes? s.pool l.2 = some e → .abandoned e ∉ s.threads

instance (s : State) (l : Nat × Action) : Decidable (SparesAbandoned s l) :=
  match h : takes? s.pool l.2 with
  | none => isTrue (by simp [SparesAbandoned, h])
  | some e => decidable_of_iff (.abandoned e ∉ s.threads) (by simp [SparesAbandoned, h])

theorem Safe.step {s t : State} {l : Nat × Action} (safe : Safe s.pool s.threads)
    (spares : SparesAbandoned s l) (h : step s l = some t) : Safe t.pool t.threads := by
  unfold Lease.step at h
  split at h
  · cases h
  next ph hi =>
    obtain ⟨⟨p', ph'⟩, adv, rfl⟩ := Option.map_eq_some_iff.1 h
    obtain ⟨hlt, rfl⟩ := List.getElem?_eq_some_iff.1 hi
    have split := getElem_cons_eraseIdx_perm hlt
    have advanced := (safe.perm split.symm).advance
      (fun e he mem => spares e he (mem_of_mem_eraseIdx mem)) adv
    exact advanced.perm (set_perm_cons_eraseIdx hlt ph').symm

theorem Safe.initial (goroutines : Nat) :
    Safe (initial goroutines).pool (initial goroutines).threads where
  phase ph mem := by
    rw [eq_of_mem_replicate mem]
    exact .idle _
  engine e mem := by cases mem

/-- Every state reached by goroutines that spare abandoned engines is lease safe. -/
theorem leaseSafe_of_run {goroutines : Nat} {ls : List (Nat × Action)} {s : State}
    (run : Run.Exec step SparesAbandoned (initial goroutines) ls s) : LeaseSafe s :=
  (run.invariant (fun _ _ _ safe spares h => Safe.step safe spares h)
    (Safe.initial goroutines)).leaseSafe

/-- Two goroutines.  Number 0 fails to drop a table when it releases its private
engine; number 1 acquires while the engine is being given up. -/
def failedRelease (meanwhile : List (Nat × Action)) : List (Nat × Action) :=
  [(0, .acquirePrivate), (0, .openFresh none),
   (0, .use ∅ [] (GoMap.set ∅ "ds.t" 1)), (0, .releasePrivate),
   (0, .reset fun _ => some "disk I/O error"), (0, .setIdle)]
    ++ meanwhile ++ [(0, .discard), (0, .close)]

/-- With another engine to take, the failed release harms nobody. -/
theorem leaseSafe_of_run_failedRelease :
    ∃ s, Run.Exec step SparesAbandoned (initial 2) (failedRelease []
        ++ [(1, .acquireShared "ds.t@1"), (1, .openFresh none), (1, .tagSignature "ds.t@1"),
            (0, .acquireShared "ds.t@1")]) s ∧
      s.threads = [.holding 1 .shared, .holding 1 .shared] ∧ LeaseSafe s := by
  have reached : ∃ s, Run.after step SparesAbandoned (initial 2) (failedRelease []
        ++ [(1, .acquireShared "ds.t@1"), (1, .openFresh none), (1, .tagSignature "ds.t@1"),
            (0, .acquireShared "ds.t@1")]) = some s ∧
      s.threads = [.holding 1 .shared, .holding 1 .shared] := ⟨_, rfl, rfl⟩
  obtain ⟨s, computed, threads⟩ := reached
  have run := Run.Exec.of_after computed
  exact ⟨s, run, threads, leaseSafe_of_run run⟩

/-- Number 1 takes the engine before it is discarded, and is left with a private lease
on a closed engine. -/
theorem leaseSafe_fails :
    ∃ s, Run.Exec step (fun _ _ => True) (initial 2)
        (failedRelease [(1, .acquirePrivate), (1, .reset noFaults)]) s ∧
      s.threads = [.idle, .holding 0 .exclusive] ∧ (s.pool.engine 0).closed = true ∧
      ¬ LeaseSafe s := by
  have reached : ∃ s, Run.after step (fun _ _ => True) (initial 2)
        (failedRelease [(1, .acquirePrivate), (1, .reset noFaults)]) = some s ∧
      s.threads = [.idle, .holding 0 .exclusive] ∧ (s.pool.engine 0).closed = true :=
    ⟨_, rfl, rfl, rfl⟩
  obtain ⟨s, computed, threads, closed⟩ := reached
  refine ⟨s, .of_after computed, threads, closed, fun safe => ?_⟩
  have free := safe.isOpen 0 closed
  rw [threads] at free
  cases free

end LocaQL.Lease
