import LocaQL.Jobs.Scheduler
import LocaQL.Lib.GoChannel

/-!
# The slots of runs

`run` takes up to three slots, one after the other: one of `runSlots`, one of `storageWriteSlots`,
and the one of the table that its job names.  Each of them is a channel, and what a run has taken
is given back by a deferred call.  The deferred calls come when the run returns, from wherever it
does, and also when an executor panics, before `recoverJobPanic`.

Here the channels and the deferred calls are explicit, and every send, every receive and every
critical section is a step of its own, so the steps of all goroutines interleave.  `effect` says
what one step does to slots.  In every reachable state the values in a channel are the goroutines
that are to receive from it (`Inv.conserved`), no goroutine takes a slot twice, and since all of
them take the slots in the same order, one of them can go on (`slots_safe`).
-/

namespace LocaQL.Slots

open GoChannel List Option

open JobService (Outcome)

/-! ## Goroutines -/

inductive Slot where
  | run
  | storageWrite
  | resource (key : String)
deriving Repr, DecidableEq

/-- How far a goroutine has come. -/
inductive Pc where
  | queued
  | entered
  | accepted (jobType : JobType) (resourceKey : String)
  | writing (jobType : JobType) (resourceKey : String)
  | opened (jobType : JobType) (resourceKey : String)
  | locked (jobType : JobType) (resourceKey : String)
  | running (jobType : JobType) (resourceKey : String)
  | executing (jobType : JobType) (resourceKey : String)
  | executed (jobType : JobType) (resourceKey : String) (outcome : Outcome)
  | unwinding (panic : Option String)
  | returned

/-- A goroutine `run(jobID, projectID)`.  A deferred call receives from a channel, or does
nothing. -/
structure Goroutine where
  projectID : String
  jobID : String
  pc : Pc := .queued
  deferred : List (Option Slot) := []

/-- What a goroutine has done with a slot. -/
inductive Event where
  | acquired (i : Nat) (slot : Slot)
  | released (i : Nat) (slot : Slot)
deriving Repr, DecidableEq

/-- The service with its channels and goroutines, and what has been done with the slots. -/
structure Protocol where
  service : JobService
  runSlots : Option GoChannel
  storageWriteSlots : Option GoChannel
  resourceSlots : GoMap String GoChannel := ∅
  goroutines : List Goroutine := []
  events : List Event := []

/-- The steps of a goroutine. -/
inductive GoLabel where
  | enter
  | accept (now : Time)
  | acquireStorageWriteSlot
  | openResourceSlot
  | acquireResourceSlot
  | start (now : Time)
  | execute
  | complete (result : Except String JobStatistics)
  | panic (text : String)
  | finish (now : Time)
  | release
  | recover (now : Time)

inductive Label where
  | insert (now : Time) (opts : JobInsertOptions)
  | cancel (now : Time) (projectID jobID : String)
  | go (i : Nat) (label : GoLabel)

namespace Protocol

def channel (s : Protocol) : Slot → Option GoChannel
  | .run => s.runSlots
  | .storageWrite => s.storageWriteSlots
  | .resource key => s.resourceSlots.get? key

def put (s : Protocol) (slot : Slot) (c : GoChannel) : Protocol :=
  match slot with
  | .run => { s with runSlots := some c }
  | .storageWrite => { s with storageWriteSlots := some c }
  | .resource key => { s with resourceSlots := s.resourceSlots.set key c }

def move (s : Protocol) (i : Nat) (g : Goroutine) : Protocol :=
  { s with goroutines := s.goroutines.set i g }

/-- The goroutine sends, defers the receive, and goes on. -/
def acquire (s : Protocol) (i : Nat) (g : Goroutine) (slot : Slot) (pc : Pc) : Option Protocol :=
  match (s.channel slot).bind send with
  | none => none
  | some c => some (move { s.put slot c with events := s.events ++ [.acquired i slot] } i
      { g with pc := pc, deferred := some slot :: g.deferred })

/-- The goroutine has nothing to take, defers a call that does nothing, and goes on. -/
def pass (s : Protocol) (i : Nat) (g : Goroutine) (pc : Pc) : Protocol :=
  s.move i { g with pc := pc, deferred := none :: g.deferred }

/-- The next deferred call. -/
def release (s : Protocol) (i : Nat) (g : Goroutine) : Option Protocol :=
  match g.deferred with
  | [] => none
  | none :: rest => some (s.move i { g with deferred := rest })
  | some slot :: rest =>
    match (s.channel slot).bind receive with
    | none => none
    | some c => some (move { s.put slot c with events := s.events ++ [.released i slot] } i
        { g with deferred := rest })

/-- The next step of `run`. -/
def goStep (s : Protocol) (i : Nat) (g : Goroutine) (label : GoLabel) : Option Protocol :=
  match g.pc, label with
  | .queued, .enter =>
    match s.runSlots with
    | none => some (s.pass i g .entered)
    | some _ => s.acquire i g .run .entered
  | .entered, .accept now =>
    let result := s.service.accept now g.projectID g.jobID
    let pc := match result.2 with
      | none => .unwinding none
      | some (t, k) => .accepted t k
    some ({ s with service := result.1 }.move i { g with pc := pc })
  | .accepted t k, .acquireStorageWriteSlot =>
    if s.storageWriteSlots.isNone || !Phase.requiresStorageWriteBackpressure t k then
      some (s.pass i g (.writing t k))
    else s.acquire i g .storageWrite (.writing t k)
  | .writing t k, .openResourceSlot =>
    if GoText.trimSpaceStr k = "" then some (s.pass i g (.locked t k))
    else
      let s := if (s.resourceSlots.get? k).isSome then s
        else s.put (.resource k) (make 1)
      some (s.move i { g with pc := .opened t k })
  | .opened t k, .acquireResourceSlot => s.acquire i g (.resource k) (.locked t k)
  | .locked t k, .start now =>
    let result := s.service.start now g.projectID g.jobID
    some ({ s with service := result.1 }.move i
      { g with pc := if result.2 then .running t k else .unwinding none })
  | .running t k, .execute =>
    let pc :=
      if s.service.hasExecutor t then
        match s.service.job? g.projectID g.jobID with
        | none => .unwinding none
        | some _ => .executing t k
      else .executed t k none
    some (s.move i { g with pc := pc })
  | .executing t k, .complete result =>
    some (s.move i { g with pc := .executed t k (some result) })
  | .executing _ _, .panic text => some (s.move i { g with pc := .unwinding (some text) })
  | .executed t _ outcome, .finish now =>
    some ({ s with service := s.service.finish now g.projectID g.jobID t outcome }.move i
      { g with pc := .unwinding none })
  | .unwinding _, .release => s.release i g
  | .unwinding panic, .recover now =>
    if g.deferred ≠ [] then none
    else
      let service := match panic with
        | none => s.service
        | some text => s.service.recoverJobPanic now g.projectID g.jobID text
      some ({ s with service := service }.move i { g with pc := .returned })
  | _, _ => none

/-- The goroutine that an insertion starts, if it created a job. -/
def spawned : Except JobIDConflictError (JobRecord × Bool) → List Goroutine
  | .ok (jr, true) => [{ projectID := jr.projectID, jobID := jr.jobID }]
  | _ => []

def step (s : Protocol) : Label → Option Protocol
  | .insert now opts =>
    let result := s.service.insert now opts
    some { s with service := result.1, goroutines := s.goroutines ++ spawned result.2 }
  | .cancel now projectID jobID =>
    some { s with service := (s.service.cancel now projectID jobID).1 }
  | .go i label => s.goroutines[i]?.bind fun g => s.goStep i g label

/-- A service without goroutines, with the channels that its limits ask for. -/
def fresh (service : JobService) : Protocol where
  service := service
  runSlots := (service.maxConcurrent.filter (0 < ·)).map make
  storageWriteSlots := (service.maxStorageWrite.filter (0 < ·)).map make

end Protocol

/-! ## What a step does to slots -/

/-- The place of a slot in the order in which slots are taken. -/
def Slot.rank : Slot → Nat
  | .run => 0
  | .storageWrite => 1
  | .resource _ => 2

/-- The slots of a lower rank have been taken, or passed. -/
def Pc.stage : Pc → Nat
  | .queued => 0
  | .entered | .accepted _ _ => 1
  | .writing _ _ | .opened _ _ => 2
  | _ => 3

/-- The step that leads there neither opens a channel nor ends the goroutine. -/
def Pc.plain : Pc → Bool
  | .opened _ _ | .returned => false
  | _ => true

/-- The slots that a goroutine is to give back. -/
def Goroutine.held (g : Goroutine) : List Slot := g.deferred.reduceOption

namespace Protocol

variable {s : Protocol}

theorem channel_put (slot slot' : Slot) (c : GoChannel) :
    (s.put slot c).channel slot' = if slot' = slot then some c else s.channel slot' := by
  cases slot with
  | run | storageWrite =>
    cases slot' with
    | run => rfl
    | storageWrite => rfl
    | resource key => rfl
  | resource key =>
    cases slot' with
    | run => rfl
    | storageWrite => rfl
    | resource key' =>
      show GoMap.get? (s.resourceSlots.set key c) key' = _
      rw [GoMap.get?_set]
      by_cases same : key' = key
      · rw [if_pos same, if_pos (congrArg Slot.resource same)]
      · rw [if_neg same, if_neg fun eq => same (Slot.resource.inj eq)]
        rfl

theorem put_goroutines (slot : Slot) (c : GoChannel) :
    (s.put slot c).goroutines = s.goroutines ∧ (s.put slot c).events = s.events := by
  cases slot with
  | run | storageWrite | resource key => exact ⟨rfl, rfl⟩

end Protocol

/-- What one step does to the channels, the goroutines and the events. -/
inductive Effect (s s' : Protocol) : Prop where
  | spawned (gs : List Goroutine) : (∀ g ∈ gs, g.pc = .queued ∧ g.deferred = []) →
      s'.channel = s.channel → s'.goroutines = s.goroutines ++ gs → s'.events = s.events →
      Effect s s'
  | advanced {i : Nat} {g : Goroutine} (g' : Goroutine) : s.goroutines[i]? = some g → g'.held = g.held →
      g.pc.stage ≤ g'.pc.stage → (g'.pc = .returned → g'.deferred = []) →
      (∀ t k, g'.pc = .opened t k → (s'.channel (.resource k)).isSome) →
      (s'.channel = s.channel ∨ ∃ k, s.channel (.resource k) = none ∧
        s'.channel = (s.put (.resource k) (make 1)).channel) →
      s'.goroutines = s.goroutines.set i g' → s'.events = s.events → Effect s s'
  | acquired {i : Nat} {g : Goroutine} (g' : Goroutine) {slot : Slot} {c c' : GoChannel} :
      s.goroutines[i]? = some g → s.channel slot = some c → c.send = some c' →
      g.pc.stage = slot.rank → g'.pc.stage = slot.rank + 1 → g'.pc.plain = true →
      g'.held = slot :: g.held → s'.channel = (s.put slot c').channel →
      s'.goroutines = s.goroutines.set i g' → s'.events = s.events ++ [.acquired i slot] →
      Effect s s'
  | released {i : Nat} {g : Goroutine} (g' : Goroutine) {slot : Slot} {c c' : GoChannel} :
      s.goroutines[i]? = some g → s.channel slot = some c → c.receive = some c' →
      g'.pc = g.pc → (∃ p, g.pc = .unwinding p) → g.held = slot :: g'.held →
      s'.channel = (s.put slot c').channel →
      s'.goroutines = s.goroutines.set i g' → s'.events = s.events ++ [.released i slot] →
      Effect s s'

variable {slot : Slot} {c : GoChannel}

section

variable {s s' : Protocol} {i : Nat} {g : Goroutine}

theorem acquire_effect {pc : Pc} (found : s.goroutines[i]? = some g)
    (h : s.acquire i g slot pc = some s') (stage : g.pc.stage = slot.rank)
    (next : pc.stage = slot.rank + 1) (plain : pc.plain = true) : Effect s s' := by
  rw [Protocol.acquire] at h
  cases sent : (s.channel slot).bind send with
  | none =>
    rw [sent] at h
    cases h
  | some c' =>
    rw [sent] at h
    cases h
    obtain ⟨c, there, sent⟩ := bind_eq_some_iff.mp sent
    exact .acquired { g with pc := pc, deferred := some slot :: g.deferred } found there
      sent stage next plain rfl rfl
      (congrArg (List.set · i _) (Protocol.put_goroutines slot c').1) rfl

/-- A step that takes no slot and gives none back. -/
theorem held_effect (g' : Goroutine) (found : s.goroutines[i]? = some g) (held : g'.held = g.held)
    (stage : g.pc.stage ≤ g'.pc.stage) (plain : g'.pc.plain = true) (service : JobService) :
    Effect s ({ s with service := service }.move i g') := by
  refine .advanced g' found held stage (fun is => ?_) (fun t k is => ?_) (.inl rfl) rfl rfl
  · rw [is] at plain
    cases plain
  · rw [is] at plain
    cases plain

theorem move_effect (pc : Pc) (found : s.goroutines[i]? = some g) (stage : g.pc.stage ≤ pc.stage)
    (plain : pc.plain = true) (service : JobService) :
    Effect s ({ s with service := service }.move i { g with pc := pc }) :=
  held_effect { g with pc := pc } found rfl stage plain service

section

variable (found : s.goroutines[i]? = some g)

include found

theorem pass_effect {pc : Pc} (stage : g.pc.stage ≤ pc.stage) (plain : pc.plain = true) :
    Effect s (s.pass i g pc) :=
  held_effect { g with pc := pc, deferred := none :: g.deferred } found rfl stage plain
    s.service

theorem release_effect {panic : Option String} (pc : g.pc = .unwinding panic)
    (h : s.release i g = some s') : Effect s s' := by
  rw [Protocol.release] at h
  cases calls : g.deferred with
  | nil =>
    rw [calls] at h
    cases h
  | cons call rest =>
    rw [calls] at h
    cases call with
    | none =>
      cases h
      have held : ({ g with deferred := rest } : Goroutine).held = g.held := by
        rw [Goroutine.held, Goroutine.held, calls]
        rfl
      exact held_effect _ found held (Nat.le_refl _) (by rw [pc]; rfl) s.service
    | some slot =>
      cases got : (s.channel slot).bind receive with
      | none =>
        simp only [got] at h
        cases h
      | some c' =>
        simp only [got] at h
        cases h
        obtain ⟨c, there, got⟩ := bind_eq_some_iff.mp got
        have held : g.held = slot :: ({ g with deferred := rest } : Goroutine).held := by
          rw [Goroutine.held, Goroutine.held, calls]
          rfl
        exact .released { g with deferred := rest } found there got rfl ⟨_, pc⟩ held
          rfl (congrArg (List.set · i _) (Protocol.put_goroutines slot c').1) rfl

theorem open_effect {t : JobType} {k : String} (stage : g.pc.stage = 2) :
    Effect s ((if (s.resourceSlots.get? k).isSome then s
      else s.put (.resource k) (make 1)).move i { g with pc := .opened t k }) := by
  split
  next there =>
    refine .advanced { g with pc := .opened t k } found rfl (Nat.le_of_eq stage)
      (fun is => Pc.noConfusion is) ?_ (.inl rfl) rfl rfl
    intro t' k' is
    cases is
    exact there
  next absent =>
    refine .advanced { g with pc := .opened t k } found rfl (Nat.le_of_eq stage)
      (fun is => Pc.noConfusion is) ?_ (.inr ⟨k, not_isSome_iff_eq_none.mp absent, rfl⟩) rfl rfl
    intro t' k' is
    cases is
    show ((s.put (.resource k) (make 1)).channel (.resource k)).isSome
    rw [Protocol.channel_put, if_pos rfl]
    rfl

theorem go_effect {label : GoLabel} (h : s.goStep i g label = some s') : Effect s s' := by
  have stage {pc : Pc} (is : g.pc = pc) {n : Nat} (le : pc.stage ≤ n) : g.pc.stage ≤ n := is ▸ le
  rw [Protocol.goStep.eq_def] at h
  split at h
  next pc =>
    split at h
    · cases h
      exact pass_effect found (stage pc (Nat.zero_le _)) rfl
    · exact acquire_effect found h (congrArg Pc.stage pc) rfl rfl
  next now pc =>
    cases h
    cases (s.service.accept now g.projectID g.jobID).2 with
    | none => exact move_effect (.unwinding none) found (stage pc (Nat.le_add_left 1 2)) rfl _
    | some tk => exact move_effect (.accepted tk.1 tk.2) found (stage pc (Nat.le_refl 1)) rfl _
  next t k pc =>
    split at h
    · cases h
      exact pass_effect found (stage pc (Nat.le_succ 1)) rfl
    · exact acquire_effect found h (congrArg Pc.stage pc) rfl rfl
  next t k pc =>
    split at h
    · cases h
      exact pass_effect found (stage pc (Nat.le_succ 2)) rfl
    · cases h
      exact open_effect found (congrArg Pc.stage pc)
  next t k pc => exact acquire_effect found h (congrArg Pc.stage pc) rfl rfl
  next t k now pc =>
    cases h
    cases (s.service.start now g.projectID g.jobID).2 with
    | true => exact move_effect (.running t k) found (stage pc (Nat.le_refl 3)) rfl _
    | false => exact move_effect (.unwinding none) found (stage pc (Nat.le_refl 3)) rfl _
  next t k pc =>
    cases h
    split
    · cases s.service.job? g.projectID g.jobID with
      | none => exact move_effect (.unwinding none) found (stage pc (Nat.le_refl 3)) rfl _
      | some j => exact move_effect (.executing t k) found (stage pc (Nat.le_refl 3)) rfl _
    · exact move_effect (.executed t k none) found (stage pc (Nat.le_refl 3)) rfl _
  next t k result pc =>
    cases h
    exact move_effect (.executed t k (some result)) found (stage pc (Nat.le_refl 3)) rfl _
  next t k text pc =>
    cases h
    exact move_effect (.unwinding (some text)) found (stage pc (Nat.le_refl 3)) rfl _
  next t k outcome now pc =>
    cases h
    exact move_effect (.unwinding none) found (stage pc (Nat.le_refl 3)) rfl _
  next panic pc => exact release_effect found pc h
  next panic now pc =>
    split at h
    · cases h
    next done =>
      cases h
      refine .advanced { g with pc := .returned } found rfl (stage pc (Nat.le_refl 3))
        (fun _ => Classical.not_not.mp done) (fun t k is => ?_) (.inl rfl) rfl rfl
      cases is
  · cases h

end

/-- **One step.** -/
theorem effect {label : Label} (h : s.step label = some s') : Effect s s' := by
  cases label with
  | insert now opts =>
    cases h
    refine .spawned (Protocol.spawned (s.service.insert now opts).2) ?_ rfl rfl rfl
    intro g mem
    generalize (s.service.insert now opts).2 = result at mem
    rw [Protocol.spawned.eq_def] at mem
    split at mem
    · cases mem_singleton.mp mem
      exact ⟨rfl, rfl⟩
    · cases mem
  | cancel now projectID jobID =>
    cases h
    exact .spawned [] (fun g mem => absurd mem not_mem_nil) rfl (append_nil _).symm rfl
  | go i label =>
    obtain ⟨g, found, h⟩ := bind_eq_some_iff.mp h
    exact go_effect found h

end

/-! ## The invariant -/

/-- How many goroutines are to give a slot back. -/
def Protocol.holders (s : Protocol) (slot : Slot) : Nat :=
  s.goroutines.countP fun g => slot ∈ g.held

/-- How often a goroutine has taken a slot. -/
def Protocol.taken (s : Protocol) (i : Nat) (slot : Slot) : Nat :=
  s.events.count (.acquired i slot)

/-- How often a goroutine has given a slot back. -/
def Protocol.given (s : Protocol) (i : Nat) (slot : Slot) : Nat :=
  s.events.count (.released i slot)

/-- The slots of a goroutine are taken in the order of their ranks, and given back in the other
one. -/
structure Goroutine.Shape (g : Goroutine) : Prop where
  order : g.held.Pairwise fun a b => b.rank < a.rank
  behind : ∀ slot ∈ g.held, slot.rank < g.pc.stage
  done : g.pc = .returned → g.deferred = []

/-- What a goroutine has done with a slot so far. -/
structure Balanced (s : Protocol) (i : Nat) (g : Goroutine) (slot : Slot) : Prop where
  balance : s.taken i slot = s.given i slot + g.held.count slot
  once : s.taken i slot ≤ 1
  later : g.pc.stage ≤ slot.rank → s.taken i slot = 0

/-- The values in a channel are the goroutines that are to receive from it. -/
structure Conserved (s : Protocol) : Prop where
  length : ∀ slot c, s.channel slot = some c → c.length = s.holders slot
  made : ∀ slot, s.channel slot = none → s.holders slot = 0
  capacity : ∀ slot c, s.channel slot = some c → 0 < c.capacity
  single : ∀ k c, s.channel (.resource k) = some c → c.capacity = 1

structure Inv (s : Protocol) : Prop where
  shape : ∀ g ∈ s.goroutines, g.Shape
  opened : ∀ g ∈ s.goroutines, ∀ t k, g.pc = .opened t k → (s.channel (.resource k)).isSome
  conserved : Conserved s
  balanced : ∀ i g, s.goroutines[i]? = some g → ∀ slot, Balanced s i g slot
  unborn : ∀ i, s.goroutines.length ≤ i → ∀ slot, s.taken i slot = 0 ∧ s.given i slot = 0

section

variable {s s' : Protocol} {i : Nat} {g g' : Goroutine} {c' : GoChannel}

theorem Goroutine.Shape.nodup (h : g.Shape) : g.held.Nodup :=
  h.order.imp fun lt eq => by rw [eq] at lt; exact Nat.lt_irrefl _ lt

theorem counts_of_append {es : List Event} (events : s'.events = s.events ++ es) (j : Nat)
    (slot : Slot) : s'.taken j slot = s.taken j slot + es.count (.acquired j slot) ∧
      s'.given j slot = s.given j slot + es.count (.released j slot) := by
  rw [Protocol.taken, Protocol.given, events, count_append, count_append]
  exact ⟨rfl, rfl⟩

theorem counts_of_same (events : s'.events = s.events) (j : Nat) (slot : Slot) :
    s'.taken j slot = s.taken j slot ∧ s'.given j slot = s.given j slot :=
  counts_of_append (events.trans (append_nil _).symm) j slot

/-- The counts of a goroutine that did nothing. -/
theorem Balanced.of_same {j : Nat} {h : Goroutine} (b : Balanced s j h slot)
    (counts : s'.taken j slot = s.taken j slot ∧ s'.given j slot = s.given j slot) :
    Balanced s' j h slot := by
  obtain ⟨taken, given⟩ := counts
  exact ⟨by rw [taken, given, b.balance], taken ▸ b.once, taken ▸ b.later⟩

/-- The goroutines after a change of one of them. -/
theorem getElem?_of_set (found : s.goroutines[i]? = some g)
    (set : s'.goroutines = s.goroutines.set i g') {j : Nat} {h : Goroutine}
    (at_ : s'.goroutines[j]? = some h) : (j = i ∧ h = g') ∨ (j ≠ i ∧ s.goroutines[j]? = some h) := by
  rw [set, getElem?_set] at at_
  split at at_
  next same =>
    subst same
    obtain ⟨lt, -⟩ := List.getElem?_eq_some_iff.mp found
    rw [if_pos lt] at at_
    exact .inl ⟨rfl, (Option.some.inj at_).symm⟩
  next other => exact .inr ⟨fun eq => other eq.symm, at_⟩

/-- The channels that a step may open. -/
theorem channel_cases (changed : s'.channel = s.channel ∨ ∃ k, s.channel (.resource k) = none ∧
      s'.channel = (s.put (.resource k) (make 1)).channel) (slot : Slot) :
    s'.channel slot = s.channel slot ∨ (∃ k, slot = .resource k) ∧ s.channel slot = none ∧
      s'.channel slot = some (make 1) := by
  rcases changed with same | ⟨k, absent, opened⟩
  · exact .inl (congrFun same slot)
  rw [opened, Protocol.channel_put]
  by_cases eq : slot = .resource k
  · subst eq
    rw [if_pos rfl]
    exact .inr ⟨⟨k, rfl⟩, absent, rfl⟩
  · rw [if_neg eq]
    exact .inl rfl

/-- Every slot stays as it is, or has a channel that fits. -/
theorem Conserved.of_slots (h : Conserved s)
    (slots : ∀ slot, s'.channel slot = s.channel slot ∧ s'.holders slot = s.holders slot ∨
      ∃ c, s'.channel slot = some c ∧ c.length = s'.holders slot ∧ 0 < c.capacity ∧
        ∀ k, slot = .resource k → c.capacity = 1) :
    Conserved s' ∧ ∀ slot, (s.channel slot).isSome → (s'.channel slot).isSome := by
  refine ⟨⟨?_, ?_, ?_, ?_⟩, ?_⟩
  · intro slot d is
    rcases slots slot with ⟨same, holders⟩ | ⟨c, there, length, -⟩
    · rw [holders]
      exact h.length slot d (same ▸ is)
    · cases there.symm.trans is
      exact length
  · intro slot none
    rcases slots slot with ⟨same, holders⟩ | ⟨c, there, -⟩
    · rw [holders]
      exact h.made slot (same ▸ none)
    · cases there.symm.trans none
  · intro slot d is
    rcases slots slot with ⟨same, -⟩ | ⟨c, there, -, capacity, -⟩
    · exact h.capacity slot d (same ▸ is)
    · cases there.symm.trans is
      exact capacity
  · intro k d is
    rcases slots (.resource k) with ⟨same, -⟩ | ⟨c, there, -, -, single⟩
    · exact h.single k d (same ▸ is)
    · cases there.symm.trans is
      exact single k rfl
  · intro slot is
    rcases slots slot with ⟨same, -⟩ | ⟨c, there, -⟩
    · rwa [same]
    · rw [there]
      rfl

/-- A send or a receive of one goroutine. -/
theorem Conserved.of_put (h : Conserved s) (there : s.channel slot = some c)
    (capacity : c'.capacity = c.capacity) (channel : s'.channel = (s.put slot c').channel)
    (here : c'.length = s'.holders slot)
    (elsewhere : ∀ slot' ≠ slot, s'.holders slot' = s.holders slot') :
    Conserved s' ∧ ∀ slot', (s.channel slot').isSome → (s'.channel slot').isSome := by
  refine h.of_slots fun slot' => ?_
  rw [channel, Protocol.channel_put]
  by_cases eq : slot' = slot
  · subst eq
    refine .inr ⟨c', if_pos rfl, here, capacity ▸ h.capacity slot' c there, ?_⟩
    rintro k rfl
    rw [capacity]
    exact h.single k c there
  · exact .inl ⟨if_neg eq, elsewhere slot' eq⟩

section

variable (inv : Inv s)

include inv

/-- One goroutine takes a step. -/
theorem Inv.moved (found : s.goroutines[i]? = some g) (set : s'.goroutines = s.goroutines.set i g')
    (shape : g'.Shape) (opened : ∀ t k, g'.pc = .opened t k → (s'.channel (.resource k)).isSome)
    (channels : Conserved s' ∧ ∀ slot, (s.channel slot).isSome → (s'.channel slot).isSome)
    (others : ∀ j ≠ i, ∀ slot, s'.taken j slot = s.taken j slot ∧ s'.given j slot = s.given j slot)
    (balanced : ∀ slot, Balanced s' i g' slot) : Inv s' := by
  have mem_cases {h : Goroutine} (mem : h ∈ s'.goroutines) : h = g' ∨ h ∈ s.goroutines := by
    rw [set] at mem
    exact (mem_or_eq_of_mem_set mem).symm
  obtain ⟨conserved, still⟩ := channels
  constructor
  case shape =>
    intro h mem
    rcases mem_cases mem with rfl | mem
    · exact shape
    · exact inv.shape h mem
  case opened =>
    intro h mem t k pc
    rcases mem_cases mem with rfl | mem
    · exact opened t k pc
    · exact still _ (inv.opened h mem t k pc)
  case conserved => exact conserved
  case balanced =>
    intro j h at_ slot
    rcases getElem?_of_set found set at_ with ⟨rfl, rfl⟩ | ⟨ne, at_⟩
    · exact balanced slot
    · exact (inv.balanced j h at_ slot).of_same (others j ne slot)
  case unborn =>
    intro j beyond slot
    rw [set, length_set] at beyond
    have lt := (List.getElem?_eq_some_iff.mp found).1
    obtain ⟨taken, given⟩ := others j (by omega) slot
    rw [taken, given]
    exact inv.unborn j beyond slot

theorem Inv.spawned {gs : List Goroutine} (fresh : ∀ g ∈ gs, g.pc = .queued ∧ g.deferred = [])
    (channel : s'.channel = s.channel) (goroutines : s'.goroutines = s.goroutines ++ gs)
    (events : s'.events = s.events) : Inv s' := by
  have held {g : Goroutine} (mem : g ∈ gs) : g.held = [] := by
    rw [Goroutine.held, (fresh g mem).2]
    rfl
  have holders (slot : Slot) : s'.holders slot = s.holders slot := by
    have none : gs.countP (fun g => decide (slot ∈ g.held)) = 0 := by
      refine countP_eq_zero.mpr fun g mem => ?_
      rw [held mem]
      simp
    rw [Protocol.holders, goroutines, countP_append, none]
    rfl
  have counts := counts_of_same events
  constructor
  case shape =>
    intro g mem
    rw [goroutines] at mem
    rcases mem_append.mp mem with old | new
    · exact inv.shape g old
    refine ⟨?_, ?_, fun _ => (fresh g new).2⟩
    · rw [held new]
      exact .nil
    · rw [held new]
      intro slot mem
      cases mem
  case opened =>
    intro g mem t k pc
    rw [goroutines] at mem
    rw [channel]
    rcases mem_append.mp mem with old | new
    · exact inv.opened g old t k pc
    · rw [(fresh g new).1] at pc
      cases pc
  case conserved =>
    exact (inv.conserved.of_slots fun slot => .inl ⟨congrFun channel slot, holders slot⟩).1
  case balanced =>
    intro i g found slot
    rw [goroutines, getElem?_append] at found
    split at found
    · exact (inv.balanced i g found slot).of_same (counts i slot)
    next beyond =>
      obtain ⟨taken, given⟩ := counts i slot
      obtain ⟨none, none'⟩ := inv.unborn i (Nat.le_of_not_lt beyond) slot
      have mem := mem_of_getElem? found
      refine ⟨?_, by rw [taken, none]; exact Nat.zero_le 1, fun _ => taken.trans none⟩
      rw [taken, given, none, none', held mem, count_nil]
  case unborn =>
    intro i beyond slot
    obtain ⟨taken, given⟩ := counts i slot
    rw [goroutines, length_append] at beyond
    rw [taken, given]
    exact inv.unborn i (by omega) slot

section

variable (found : s.goroutines[i]? = some g)

include found

theorem Inv.advanced (held : g'.held = g.held) (stage : g.pc.stage ≤ g'.pc.stage)
    (on : g'.pc = .returned → g'.deferred = [])
    (opened : ∀ t k, g'.pc = .opened t k → (s'.channel (.resource k)).isSome)
    (changed : s'.channel = s.channel ∨ ∃ k, s.channel (.resource k) = none ∧
      s'.channel = (s.put (.resource k) (make 1)).channel)
    (set : s'.goroutines = s.goroutines.set i g') (events : s'.events = s.events) : Inv s' := by
  have holders (slot : Slot) : s'.holders slot = s.holders slot := by
    rw [Protocol.holders, set]
    exact countP_set_same found (by rw [held])
  have old := inv.shape g (mem_of_getElem? found)
  have counts := counts_of_same events
  refine inv.moved found set ⟨held ▸ old.order, fun slot mem => ?_, on⟩ opened
    (inv.conserved.of_slots fun slot => ?_) (fun j _ => counts j) fun slot => ?_
  · rw [held] at mem
    exact Nat.lt_of_lt_of_le (old.behind slot mem) stage
  · rcases channel_cases changed slot with same | ⟨-, absent, new⟩
    · exact .inl ⟨same, holders slot⟩
    · refine .inr ⟨_, new, ?_, Nat.one_pos, fun _ _ => rfl⟩
      rw [holders]
      exact (inv.conserved.made slot absent).symm
  · obtain ⟨balance, once, later⟩ := (inv.balanced i g found slot).of_same (counts i slot)
    exact ⟨by rw [balance, held], once, fun le => later (Nat.le_trans stage le)⟩

theorem Inv.acquired (there : s.channel slot = some c) (sent : c.send = some c')
    (stage : g.pc.stage = slot.rank) (next : g'.pc.stage = slot.rank + 1)
    (plain : g'.pc.plain = true) (held : g'.held = slot :: g.held)
    (channel : s'.channel = (s.put slot c').channel) (set : s'.goroutines = s.goroutines.set i g')
    (events : s'.events = s.events ++ [.acquired i slot]) : Inv s' := by
  have old := inv.shape g (mem_of_getElem? found)
  obtain ⟨length, capacity⟩ := send_eq_some sent
  have new : slot ∉ g.held := fun mem =>
    Nat.lt_irrefl _ (stage ▸ old.behind slot mem)
  have gain : s'.holders slot = s.holders slot + 1 := by
    rw [Protocol.holders, set]
    exact countP_set_gain found (by simpa using new) (by simp [held])
  have same (slot' : Slot) (ne : slot' ≠ slot) : s'.holders slot' = s.holders slot' := by
    rw [Protocol.holders, set]
    exact countP_set_same found (by simp [held, ne])
  have counts (j : Nat) (slot' : Slot) (ne : ¬(i = j ∧ slot = slot')) :
      s'.taken j slot' = s.taken j slot' ∧ s'.given j slot' = s.given j slot' := by
    obtain ⟨taken, given⟩ := counts_of_append events j slot'
    rw [count_singleton, if_neg (by simpa using ne)] at taken
    exact ⟨taken, given⟩
  refine inv.moved found set ⟨?_, fun slot' mem => ?_, fun is => ?_⟩ (fun t k pc => ?_)
    (inv.conserved.of_put there capacity channel
      (by rw [length, gain, inv.conserved.length slot c there]) same)
    (fun j ne slot' => counts j slot' fun both => ne both.1.symm) fun slot' => ?_
  · rw [held]
    refine .cons (fun slot' mem => ?_) old.order
    have := old.behind slot' mem
    omega
  · rw [held] at mem
    rcases mem_cons.mp mem with rfl | mem
    · omega
    · have := old.behind slot' mem
      omega
  · rw [is] at plain
    cases plain
  · rw [pc] at plain
    cases plain
  · obtain ⟨balance, once, later⟩ := inv.balanced i g found slot'
    by_cases eq : slot = slot'
    · subst eq
      obtain ⟨taken, given⟩ := counts_of_append events i slot
      rw [count_singleton_self] at taken
      have none := later (Nat.le_of_eq stage)
      refine ⟨?_, by omega, fun le => by omega⟩
      rw [taken, given, balance, held, count_cons_self, Nat.add_assoc]
      rfl
    · obtain ⟨taken, given⟩ := counts i slot' fun both => eq both.2
      refine ⟨?_, taken ▸ once, fun le => ?_⟩
      · rw [taken, given, balance, held, count_cons_of_ne eq]
      · rw [taken]
        exact later (by omega)

theorem Inv.released (there : s.channel slot = some c) (got : c.receive = some c')
    (pc : g'.pc = g.pc) (unwinding : ∃ p, g.pc = .unwinding p) (held : g.held = slot :: g'.held)
    (channel : s'.channel = (s.put slot c').channel) (set : s'.goroutines = s.goroutines.set i g')
    (events : s'.events = s.events ++ [.released i slot]) : Inv s' := by
  have old := inv.shape g (mem_of_getElem? found)
  obtain ⟨length, capacity⟩ := receive_eq_some got
  have gone : slot ∉ g'.held := by
    have := old.nodup
    rw [held] at this
    exact (nodup_cons.mp this).1
  have lose : s.holders slot = s'.holders slot + 1 := by
    rw [Protocol.holders, Protocol.holders, set]
    exact countP_set_lose found (by simp [held]) (by simpa using gone)
  have same (slot' : Slot) (ne : slot' ≠ slot) : s'.holders slot' = s.holders slot' := by
    rw [Protocol.holders, set]
    exact countP_set_same found (by simp [held, ne])
  have counts (j : Nat) (slot' : Slot) (ne : ¬(i = j ∧ slot = slot')) :
      s'.taken j slot' = s.taken j slot' ∧ s'.given j slot' = s.given j slot' := by
    obtain ⟨taken, given⟩ := counts_of_append events j slot'
    rw [count_singleton, if_neg (by simpa using ne)] at given
    exact ⟨taken, given⟩
  obtain ⟨panic, unwinding⟩ := unwinding
  refine inv.moved found set ⟨?_, fun slot' mem => ?_, fun is => ?_⟩ (fun t k is => ?_)
    (inv.conserved.of_put there capacity channel
      (by have := inv.conserved.length slot c there; omega) same)
    (fun j ne slot' => counts j slot' fun both => ne both.1.symm) fun slot' => ?_
  · have order := old.order
    rw [held] at order
    exact (pairwise_cons.mp order).2
  · rw [pc]
    exact old.behind slot' (held ▸ mem_cons_of_mem _ mem)
  · cases (pc.trans unwinding).symm.trans is
  · cases (pc.trans unwinding).symm.trans is
  · obtain ⟨balance, once, later⟩ := inv.balanced i g found slot'
    by_cases eq : slot = slot'
    · subst eq
      obtain ⟨taken, given⟩ := counts_of_append events i slot
      rw [count_singleton_self] at given
      refine ⟨?_, taken ▸ once, fun le => taken.trans (later (pc ▸ le))⟩
      rw [taken, given, Nat.add_assoc, Nat.add_comm 1, ← count_cons_self, ← held]
      exact balance
    · obtain ⟨taken, given⟩ := counts i slot' fun both => eq both.2
      refine ⟨?_, taken ▸ once, fun le => taken.trans (later (pc ▸ le))⟩
      rw [taken, given, balance, held, count_cons_of_ne eq]

end

/-- The step keeps the invariant. -/
theorem Inv.step {label : Label} (h : s.step label = some s') : Inv s' := by
  cases effect h with
  | spawned gs fresh channel goroutines events => exact inv.spawned fresh channel goroutines events
  | advanced g' found held stage on opened changed set events =>
    exact inv.advanced found held stage on opened changed set events
  | acquired g' found there sent stage next plain held channel set events =>
    exact inv.acquired found there sent stage next plain held channel set events
  | released g' found there got pc unwinding held channel set events =>
    exact inv.released found there got pc unwinding held channel set events

/-! ## Somebody goes on -/

/-- The goroutine can take a step. -/
def Protocol.Goes (s : Protocol) (i : Nat) (g : Goroutine) : Prop :=
  ∃ label, (s.goStep i g label).isSome

/-- A goroutine that has not returned has come further. -/
def Protocol.Later (s : Protocol) (stage : Nat) : Prop :=
  ∃ (j : Nat) (h : Goroutine), s.goroutines[j]? = some h ∧ h.pc ≠ .returned ∧ stage < h.pc.stage

/-- Whoever finds a channel full waits for a goroutine that has come further. -/
theorem Inv.later_of_full (there : s.channel slot = some c) (full : c.send = none) :
    s.Later slot.rank := by
  have some_ : 0 < s.holders slot := by
    rw [← inv.conserved.length slot c there, send_eq_none full]
    exact inv.conserved.capacity slot c there
  obtain ⟨h, mem, holds⟩ := countP_pos_iff.mp some_
  have holds : slot ∈ h.held := of_decide_eq_true holds
  obtain ⟨j, at_⟩ := getElem?_of_mem mem
  refine ⟨j, h, at_, fun returned => ?_, (inv.shape h mem).behind slot holds⟩
  rw [Goroutine.held, (inv.shape h mem).done returned] at holds
  cases holds

theorem Inv.acquires (there : s.channel slot = some c) (i : Nat) (g : Goroutine) (pc : Pc) :
    (s.acquire i g slot pc).isSome ∨ s.Later slot.rank := by
  cases sent : c.send with
  | none => exact .inr (inv.later_of_full there sent)
  | some c' =>
    rw [Protocol.acquire, there, bind_some, sent]
    exact .inl rfl

/-- What a goroutine has taken it can give back. -/
theorem Inv.unwinds (found : s.goroutines[i]? = some g) {panic : Option String}
    (pc : g.pc = .unwinding panic) : s.Goes i g := by
  cases calls : g.deferred with
  | nil =>
    refine ⟨.recover 0, ?_⟩
    simp only [Protocol.goStep, pc, calls, ne_eq, not_true_eq_false, if_false, isSome_some]
  | cons call rest =>
    refine ⟨.release, ?_⟩
    simp only [Protocol.goStep, pc, Protocol.release, calls]
    cases call with
    | none => rfl
    | some slot =>
      have mem : slot ∈ g.held := by
        rw [Goroutine.held, calls]
        exact mem_cons_self
      have some_ : 0 < s.holders slot :=
        countP_pos_iff.mpr ⟨g, mem_of_getElem? found, decide_eq_true mem⟩
      cases there : s.channel slot with
      | none =>
        rw [inv.conserved.made slot there] at some_
        cases some_
      | some c =>
        rw [← inv.conserved.length slot c there] at some_
        obtain ⟨c', got⟩ := isSome_iff_exists.mp (receive_isSome some_)
        have next : (s.channel slot).bind receive = some c' := by
          rw [there, bind_some, got]
        dsimp only
        rw [next]
        rfl

/-- A goroutine goes on, or waits for one that has come further. -/
theorem Inv.goes_or_waits (found : s.goroutines[i]? = some g) (live : g.pc ≠ .returned) :
    s.Goes i g ∨ s.Later g.pc.stage := by
  cases pc : g.pc with
  | queued =>
    cases slots : s.runSlots with
    | none => exact .inl ⟨.enter, by simp only [Protocol.goStep, pc, slots, isSome_some]⟩
    | some c =>
      have there : s.channel .run = some c := slots
      refine (inv.acquires there i g .entered).imp_left fun h => ⟨.enter, ?_⟩
      simp only [Protocol.goStep, pc, slots]
      exact h
  | entered => exact .inl ⟨.accept 0, by simp only [Protocol.goStep, pc, isSome_some]⟩
  | accepted t k =>
    by_cases free : (s.storageWriteSlots.isNone ||
        !Phase.requiresStorageWriteBackpressure t k) = true
    · refine .inl ⟨.acquireStorageWriteSlot, ?_⟩
      simp only [Protocol.goStep, pc, free, if_true, isSome_some]
    · cases slots : s.storageWriteSlots with
      | none =>
        rw [slots] at free
        exact absurd rfl free
      | some c =>
        have there : s.channel .storageWrite = some c := slots
        refine (inv.acquires there i g (.writing t k)).imp_left
          fun h => ⟨.acquireStorageWriteSlot, ?_⟩
        simp only [Protocol.goStep, pc, if_neg free]
        exact h
  | writing t k =>
    refine .inl ⟨.openResourceSlot, ?_⟩
    simp only [Protocol.goStep, pc]
    split
    · rfl
    · rfl
  | opened t k =>
    obtain ⟨c, there⟩ := isSome_iff_exists.mp
      (inv.opened g (mem_of_getElem? found) t k pc)
    refine (inv.acquires there i g (.locked t k)).imp_left fun h => ⟨.acquireResourceSlot, ?_⟩
    simp only [Protocol.goStep, pc]
    exact h
  | locked t k => exact .inl ⟨.start 0, by simp only [Protocol.goStep, pc, isSome_some]⟩
  | running t k => exact .inl ⟨.execute, by simp only [Protocol.goStep, pc, isSome_some]⟩
  | executing t k =>
    exact .inl ⟨.panic "", by simp only [Protocol.goStep, pc, isSome_some]⟩
  | executed t k outcome =>
    exact .inl ⟨.finish 0, by simp only [Protocol.goStep, pc, isSome_some]⟩
  | unwinding panic => exact .inl (inv.unwinds found pc)
  | returned => exact absurd pc live

end

theorem Pc.stage_le (pc : Pc) : pc.stage ≤ 3 := by
  rw [Pc.stage.eq_def]
  split <;> omega

theorem step_of_goes (found : s.goroutines[i]? = some g) (goes : s.Goes i g) :
    ∃ label s', s.step (.go i label) = some s' := by
  obtain ⟨label, goes⟩ := goes
  obtain ⟨s', goes⟩ := isSome_iff_exists.mp goes
  refine ⟨label, s', ?_⟩
  rw [Protocol.step, found]
  exact goes

/-- **No deadlock.**  By the order in which all goroutines take the slots. -/
theorem Inv.progress (inv : Inv s) (found : s.goroutines[i]? = some g) (live : g.pc ≠ .returned) :
    ∃ j label s', s.step (.go j label) = some s' := by
  obtain ⟨⟨j, h⟩, ⟨at_, -⟩, goes⟩ := moves_of_order
    (fun a : Nat × Goroutine => s.goroutines[a.1]? = some a.2 ∧ a.2.pc ≠ .returned)
    (fun a => s.Goes a.1 a.2) (fun a => a.2.pc.stage) 3 (fun a _ => a.2.pc.stage_le)
    (fun a alive => (inv.goes_or_waits alive.1 alive.2).imp_right
      fun ⟨j, h, at_, on, later⟩ => ⟨(j, h), ⟨at_, on⟩, later⟩)
    (show s.goroutines[(i, g).1]? = some (i, g).2 ∧ (i, g).2.pc ≠ .returned from ⟨found, live⟩)
  exact ⟨j, step_of_goes at_ goes⟩

end

/-! ## Reachable states -/

theorem inv_fresh (service : JobService) : Inv (.fresh service) := by
  constructor
  case shape => intro g mem; cases mem
  case opened => intro g mem; cases mem
  case conserved =>
    have made (limit : Option Nat) {c : GoChannel}
        (is : (limit.filter (0 < ·)).map make = some c) : c.length = 0 ∧ 0 < c.capacity := by
      obtain ⟨n, filtered, rfl⟩ := map_eq_some_iff.mp is
      exact ⟨rfl, of_decide_eq_true (filter_eq_some_iff.mp filtered).2⟩
    have each (slot : Slot) (c : GoChannel)
        (is : (Protocol.fresh service).channel slot = some c) : c.length = 0 ∧ 0 < c.capacity := by
      cases slot with
      | run | storageWrite => exact made _ is
      | resource k => cases is
    refine ⟨fun slot c is => (each slot c is).1, fun slot _ => rfl,
      fun slot c is => (each slot c is).2, fun k c is => ?_⟩
    cases is
  case balanced => intro i g found; cases found
  case unborn => exact fun i _ slot => ⟨rfl, rfl⟩

/-- A channel that is there keeps its capacity. -/
theorem capacity_of_effect {s s' : Protocol} (h : Effect s s') (there : s.channel slot = some c) :
    ∃ c', s'.channel slot = some c' ∧ c'.capacity = c.capacity := by
  have put {slot' : Slot} {d d' : GoChannel} (is : s.channel slot' = some d)
      (capacity : d'.capacity = d.capacity) (channel : s'.channel = (s.put slot' d').channel) :
      ∃ c', s'.channel slot = some c' ∧ c'.capacity = c.capacity := by
    rw [channel, Protocol.channel_put]
    split
    next eq =>
      subst eq
      rw [there] at is
      cases is
      exact ⟨d', rfl, capacity⟩
    · exact ⟨c, there, rfl⟩
  cases h with
  | spawned gs fresh channel goroutines events => exact ⟨c, by rw [channel, there], rfl⟩
  | advanced g' found held stage on opened changed set events =>
    rcases channel_cases changed slot with same | ⟨-, absent, -⟩
    · exact ⟨c, by rw [same, there], rfl⟩
    · rw [there] at absent
      cases absent
  | acquired g' found is sent stage next plain held channel set events =>
    exact put is (send_eq_some sent).2 channel
  | released g' found is got pc unwinding held channel set events =>
    exact put is (receive_eq_some got).2 channel

/-- The steps of all goroutines, insertions and cancellations, in any order. -/
abbrev Reaches (service : JobService) (s : Protocol) : Prop :=
  ∃ labels, Run.Exec Protocol.step (fun _ _ => True) (.fresh service) labels s

theorem inv_of_reaches {service : JobService} {s : Protocol} (h : Reaches service s) : Inv s := by
  obtain ⟨labels, run⟩ := h
  exact run.invariant (fun s a t inv _ step => inv.step step) (inv_fresh service)

/-- No more goroutines hold a slot than there are slots. -/
theorem holders_le {service : JobService} {s : Protocol} (h : Reaches service s) (slot : Slot)
    {n : Nat} (limit : (Protocol.fresh service).channel slot = some (make n)) :
    s.holders slot ≤ n := by
  have inv := inv_of_reaches h
  obtain ⟨labels, run⟩ := h
  have capacity : ∃ c, s.channel slot = some c ∧ c.capacity = n := by
    refine run.invariant (I := fun s => ∃ c, s.channel slot = some c ∧ c.capacity = n) ?_
      ⟨_, limit, rfl⟩
    rintro s a t ⟨c, there, rfl⟩ - step
    exact capacity_of_effect (effect step) there
  obtain ⟨c, there, rfl⟩ := capacity
  rw [← inv.conserved.length slot c there]
  exact c.bounded

/-- A service that runs one job at a time. -/
def oneAtATime : JobService := { requestIDTTL := 0, maxConcurrent := some 1 }

/-- Two jobs are inserted, and the first one enters. -/
def twoJobs : List Label :=
  [.insert 0 { projectID := "p", jobType := "query" },
    .insert 0 { projectID := "p", jobType := "query" }, .go 0 .enter]

end LocaQL.Slots
