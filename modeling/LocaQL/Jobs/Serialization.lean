import LocaQL.Jobs.RequestIDs
import LocaQL.Sql.Server

/-!
# Jobs that change the same table

A run takes the slot of its job's resource key before it starts the job and gives it back after
the executor has returned, so that no two runs with the same key are in their executors at the
same time.  The key is made at insertion, of the table that the client names or, if there is
none, of the target that `parsePersistentSQLStatement` finds.  Executors find the table
themselves: a statement that creates or drops a view or alters a table gets no key at all, and a
key is made of names that are not trimmed.  Two jobs that add a column to the same table are in
their executors together (`altered_together`).

If every job is inserted for the table that it changes, jobs that change the same table are
serialized (`serialized_of_keyed`).
-/

namespace LocaQL

open JobService List

open JobService (Edit)

/-! ## The table that a job changes -/

/-- The tables that a statement changes, as its executor finds them. -/
def Sql.changedTables (projectID : String) (queryText : List Char) : List TableReference :=
  let trimmed := trimSemicolon queryText
  let here (target : TableReference) : List TableReference :=
    if GoText.equalFold target.projectID projectID then [localPath projectID target] else []
  match parsePersistentViewStatement projectID trimmed with
  | some (.ok stmt) => here stmt.target
  | some (.error _) => []
  | none =>
    match parsePersistentAlterTableRenameTo projectID trimmed with
    | some (.ok stmt) => here stmt.target ++ here { stmt.target with tableID := stmt.action }
    | some (.error _) => []
    | none =>
      match matchAlterTableLead projectID trimmed with
      | some (.ok lead) => here lead.target
      | some (.error _) => []
      | none =>
        match parsePersistentSQLStatement projectID trimmed with
        | some (.ok stmt) => here stmt.target
        | _ => []

/-- The tables that a job changes. -/
def JobRecord.changed (j : JobRecord) : List TableReference :=
  match j.jobType with
  | .load | .copy =>
    if j.targetDataset = "" ∨ j.targetTable = "" then []
    else [⟨j.projectID, j.targetDataset, j.targetTable⟩]
  | .query => Sql.changedTables j.projectID j.queryText.toList
  | .extract | .script => []

/-- The key of a table. -/
def TableReference.key (x : TableReference) : String :=
  x.projectID ++ ":" ++ x.datasetID ++ "." ++ x.tableID

/-- The table that a job is inserted for: the one that the client names, or the target of its
statement. -/
def JobInsertOptions.insertedFor (opts : JobInsertOptions) : TableReference :=
  ⟨opts.projectID, (withTarget opts).targetDataset,
    (withTarget opts).targetTable⟩

/-- Every job is inserted for the table that it changes. -/
def InsertsKeyed : JobLabel → Prop
  | .insert now opts => ∀ id, ∀ x ∈ (newJob (withTarget opts) id now).changed,
      x = opts.insertedFor ∧ x.datasetID ≠ "" ∧ x.tableID ≠ ""
  | _ => True

/-- The key of the job is that of the table that it changes. -/
def JobRecord.Keyed (j : JobRecord) : Prop := ∀ x ∈ j.changed, j.resourceKey = x.key

theorem resourceKey_newJob (opts : JobInsertOptions) (id : String) (now : Time) :
    (newJob opts id now).resourceKey = buildResourceKey opts := rfl

theorem keyed_newJob {now : Time} {opts : JobInsertOptions} (h : InsertsKeyed (.insert now opts))
    (id : String) : (newJob (withTarget opts) id now).Keyed := by
  intro x mem
  obtain ⟨rfl, dataset, table⟩ := h id x mem
  rw [resourceKey_newJob, buildResourceKey, if_neg, withTarget_projectID]
  · rfl
  · rintro (empty | empty)
    · exact dataset empty
    · exact table empty

/-- What was given with a job says which tables it changes, and its key. -/
theorem JobRecord.Keyed.of_given {j j' : JobRecord} (h : j.Keyed) (same : j'.given = j.given) :
    j'.Keyed := by
  intro x mem
  have changed : j'.given.changed = j.given.changed := by rw [same]
  have key : j'.given.resourceKey = j.given.resourceKey := by rw [same]
  have mem : x ∈ j.changed := changed ▸ mem
  exact key.trans (h x mem)

theorem TableReference.trimSpaceStr_key (x : TableReference) : GoText.trimSpaceStr x.key ≠ "" := by
  refine GoText.trimSpaceStr_ne_of_mem (c := ':') ?_ (by decide)
  rw [key]
  simp

/-! ## Slots of tables -/

/-- No two runs hold the slot of the same table. -/
def Exclusive (runs : List JobRun) : Prop :=
  ∀ (i i' : Nat) (r r' : JobRun) (k : String), runs[i]? = some r → runs[i']? = some r' →
    r.phase.lock? = some k → r'.phase.lock? = some k → i = i'

section

variable {runs : List JobRun} {i : Nat} {r : JobRun} {phase : Phase}

/-- A run keeps the slot that it holds, gives it back, or takes one that is free. -/
theorem Exclusive.set (h : Exclusive runs) (found : runs[i]? = some r)
    (lock : phase.lock? = r.phase.lock? ∨ phase.lock? = none ∨
      ∀ r' ∈ runs, r'.phase.lock? ≠ phase.lock?) :
    Exclusive (runs.set i { r with phase := phase }) := by
  have own (i' : Nat) (r' : JobRun) (k : String)
      (found' : runs[i']? = some r') (other : i ≠ i') (here : phase.lock? = some k)
      (there : r'.phase.lock? = some k) : False := by
    rcases lock with same | none | free
    · exact other (h i i' r r' k found found' (same.symm.trans here) there)
    · rw [none] at here
      cases here
    · exact free r' (mem_of_getElem? found') (there.trans here.symm)
  intro a b ra rb k foundA foundB lockA lockB
  rw [getElem?_set] at foundA foundB
  by_contra ne
  split at foundA
  next isA =>
    subst isA
    rw [if_neg ne] at foundB
    split at foundA
    · cases foundA
      exact own b rb k foundB ne lockA lockB
    · cases foundA
  · split at foundB
    next isB =>
      subst isB
      split at foundB
      · cases foundB
        exact own a ra k foundA (Ne.symm ne) lockB lockA
      · cases foundB
    · exact ne (h a b ra rb k foundA foundB lockA lockB)

/-- A new run holds no slot. -/
theorem Exclusive.append (h : Exclusive runs) {new : List JobRun}
    (free : ∀ r ∈ new, r.phase.lock? = none) : Exclusive (runs ++ new) := by
  have old (i : Nat) (r : JobRun) (k : String) (found : (runs ++ new)[i]? = some r)
      (lock : r.phase.lock? = some k) : runs[i]? = some r := by
    rw [getElem?_append] at found
    split at found
    · exact found
    · rw [free r (mem_of_getElem? found)] at lock
      cases lock
  intro i i' r r' k found found' lock lock'
  exact h i i' r r' k (old i r k found lock) (old i' r' k found' lock') lock lock'

end

variable {phase : Phase} {r : JobRun} {s : System}

theorem Moves.lock?_cases {label : RunLabel} (h : Moves s r label phase) :
    phase.lock? = r.phase.lock? ∨ phase.lock? = none ∨
      ∀ r' ∈ s.runs, r'.phase.lock? ≠ phase.lock? := by
  cases h with
  | enter _ | accept _ _ _ | write _ => exact .inr (.inl rfl)
  | @lock t k _ free =>
    rw [System.lockFree, Bool.or_eq_true, decide_eq_true_eq, all_eq_true] at free
    by_cases blank : GoText.trimSpaceStr k = ""
    · exact .inr (.inl (if_pos blank))
    · refine .inr (.inr fun r' mem => ?_)
      rw [Phase.lock?, if_neg blank]
      exact of_decide_eq_true (free.resolve_left blank r' mem)
  | skip is _ | complete is => exact .inl (by rw [is]; rfl)
  | panic _ | leave _ => exact .inr (.inl rfl)
  | missing _ _ lock =>
    rcases lock with same | none
    · exact .inl same
    · exact .inr (.inl none)

theorem Edits.lock?_cases {j : JobRecord} {label : RunLabel} {e : Edit}
    (h : Edits r j label e phase) : phase.lock? = r.phase.lock? ∨ phase.lock? = none := by
  cases h with
  | stop slots _ _ same => exact .inl same
  | start is _ | finish is => exact .inl (by rw [is]; rfl)
  | recover _ => exact .inr rfl

/-! ## Keys -/

attribute [local irreducible] JobService.created JobService.edit JobService.withTarget
  cleanupExpiredRequestIDsLocked reloaded

/-- The key that a run has read, until it calls the executor. -/
def Phase.key? : Phase → Option String
  | .accepted _ k | .writing _ k | .locked _ k | .running _ k => some k
  | _ => none

/-- Whether the run is in its executor. -/
def Phase.executes : Phase → Bool
  | .executing _ _ _ => true
  | _ => false

/-- The run has read the key of its job, and its executor changes the table of that key. -/
structure JobRun.Sound (s : JobService) (r : JobRun) : Prop where
  known : ∀ j k, s.job? r.projectID r.jobID = some j → r.phase.key? = some k → j.resourceKey = k
  executing : ∀ t k snapshot, r.phase = .executing t k snapshot → ∀ x ∈ snapshot.changed, k = x.key

/-- All records stay, and what was given with their jobs. -/
def KeepsGiven (s s' : JobService) : Prop :=
  ∀ p id j, s.job? p id = some j → ∃ j', s'.job? p id = some j' ∧ j'.given = j.given

theorem Transition.keepsGiven {s' : System} {label : JobLabel} (h : Distinct s)
    (transition : Transition s label s') : KeepsGiven s.service s'.service := by
  intro p id j found
  have step := transition.service
  generalize s'.service = service at step
  cases step with
  | inserted inserts => exact ⟨j, (h.inserts inserts).2 p id j found, rfl⟩
  | edited there keeps =>
    rw [job?_edit]
    split
    next is =>
      obtain ⟨rfl, rfl⟩ := Prod.mk.inj is
      rw [there] at found
      rw [← Option.some.inj found]
      exact ⟨_, rfl, keeps⟩
    · exact ⟨j, found, rfl⟩
  | unchanged => exact ⟨j, found, rfl⟩
  | restarted path =>
    rw [h.saved.jobs path, found]
    exact ⟨_, rfl, rfl⟩

/-- Every job is keyed by the table that it changes. -/
theorem ServiceStep.keyed {s s' : JobService} {label : JobLabel} (step : ServiceStep s label s')
    (saved : s.Saved) (inserts : InsertsKeyed label)
    (keyed : ∀ p id j, s.job? p id = some j → j.Keyed) :
    ∀ p id j, s'.job? p id = some j → j.Keyed := by
  intro p id j found
  cases step with
  | inserted result =>
    cases result with
    | retried _ | refused _ =>
      rw [job?_cleanup] at found
      exact keyed p id j found
    | generated _ _ =>
      rw [job?_created, job?_countID, job?_cleanup] at found
      split at found
      · rw [← Option.some.inj found]
        exact keyed_newJob inserts _
      · exact keyed p id j found
    | supplied _ _ _ _ =>
      rw [job?_created, job?_cleanup] at found
      split at found
      · rw [← Option.some.inj found]
        exact keyed_newJob inserts _
      · exact keyed p id j found
  | edited there keeps =>
    rw [job?_edit] at found
    split at found
    · rw [← Option.some.inj found]
      exact (keyed _ _ _ there).of_given keeps
    · exact keyed p id j found
  | unchanged => exact keyed p id j found
  | restarted path =>
    rw [saved.jobs path] at found
    obtain ⟨j', there, rfl⟩ := Option.map_eq_some_iff.mp found
    exact (keyed p id j' there).of_given (given_persisted j')

section

variable {s : System} {r : JobRun} {phase : Phase} {label : RunLabel} {j : JobRecord}

theorem JobRun.Sound.of_keepsGiven {s s' : JobService} (h : r.Sound s)
    (has : (s.job? r.projectID r.jobID).isSome) (kept : KeepsGiven s s') : r.Sound s' := by
  refine ⟨fun j' k found key => ?_, h.executing⟩
  obtain ⟨j, there⟩ := Option.isSome_iff_exists.mp has
  obtain ⟨j'', found', same⟩ := kept _ _ j there
  rw [found'] at found
  rw [Option.some.inj found] at same
  have keys : j'.given.resourceKey = j.given.resourceKey := by rw [same]
  exact keys.trans (h.known j k there key)

/-- A run goes on with the key that it has, or without one. -/
theorem JobRun.Sound.of_key {s : JobService} (h : r.Sound s)
    (key : phase.key? = none ∨ phase.key? = r.phase.key?) (outside : phase.executes = false) :
    ({ r with phase := phase } : JobRun).Sound s := by
  refine ⟨fun j k found is => h.known j k found ?_, fun t k snapshot is => ?_⟩
  · have is : phase.key? = some k := is
    rcases key with none | same
    · rw [none] at is
      cases is
    · exact same.symm.trans is
  · have is : phase = .executing t k snapshot := is
    rw [is] at outside
    cases outside

theorem Moves.sound (moves : Moves s r label phase) (h : r.Sound s.service) :
    ({ r with phase := phase } : JobRun).Sound s.service := by
  cases moves with
  | enter _ => exact h.of_key (.inl rfl) rfl
  | accept _ there _ =>
    refine ⟨fun j k found key => ?_, fun _ _ _ is => ?_⟩
    · have found : s.service.job? r.projectID r.jobID = some j := found
      rw [there] at found
      rw [← Option.some.inj found]
      exact Option.some.inj key
    · cases is
  | write is | lock is _ => exact h.of_key (.inr (by rw [is]; rfl)) rfl
  | skip _ _ | complete _ | panic _ | leave _ => exact h.of_key (.inl rfl) rfl
  | missing _ ended _ =>
    cases phase with
    | leaving slots | returned => exact h.of_key (.inl rfl) rfl
    | _ => cases ended

theorem Edits.sound {e : Edit} (edits : Edits r j label e phase) (h : r.Sound s.service) :
    ({ r with phase := phase } : JobRun).Sound s.service := by
  cases edits with
  | stop slots _ _ _ => exact h.of_key (.inl rfl) rfl
  | start is _ => exact h.of_key (.inr (by rw [is]; rfl)) rfl
  | finish _ | recover _ => exact h.of_key (.inl rfl) rfl

end

theorem System.phase_of_spawned {result : Except JobIDConflictError (JobRecord × Bool)}
    (mem : r ∈ spawned result) : r.phase = .queued := by
  rw [spawned.eq_def] at mem
  split at mem
  · rw [mem_singleton.mp mem]
  · cases mem

/-! ## The invariant -/

/-- Jobs are distinct and keyed by the tables that they change, runs have read the keys of their
jobs, and no two of them hold the same slot. -/
structure Serial (s : System) : Prop where
  distinct : Distinct s
  keyed : ∀ p id j, s.service.job? p id = some j → j.Keyed
  sound : ∀ r ∈ s.runs, r.Sound s.service
  exclusive : Exclusive s.runs

section

variable {s s' : System} {label : JobLabel}

theorem Serial.move {i : Nat} (h : Serial s) (found : s.runs[i]? = some r)
    (moved : ({ r with phase := phase } : JobRun).Sound s.service)
    (lock : phase.lock? = r.phase.lock? ∨ phase.lock? = none ∨
      ∀ r' ∈ s.runs, r'.phase.lock? ≠ phase.lock?)
    (runs : s'.runs = s.runs.set i { r with phase := phase })
    (kept : KeepsGiven s.service s'.service) (distinct : Distinct s')
    (keyed : ∀ p id j, s'.service.job? p id = some j → j.Keyed) : Serial s' := by
  refine ⟨distinct, keyed, fun r' mem => ?_, ?_⟩
  · rw [runs] at mem
    have has := h.distinct.present
    rcases mem_or_eq_of_mem_set mem with old | rfl
    · exact (h.sound r' old).of_keepsGiven (has r' old) kept
    · exact moved.of_keepsGiven (has r (mem_of_getElem? found)) kept
  · rw [runs]
    exact h.exclusive.set found lock

theorem serial_step (h : Serial s) (inserts : InsertsKeyed label)
    (transition : Transition s label s') (distinct : Distinct s') : Serial s' := by
  have kept := transition.keepsGiven h.distinct
  have keyed := transition.service.keyed h.distinct.saved inserts h.keyed
  have same (runs : s'.runs = s.runs) : Serial s' := by
    refine ⟨distinct, keyed, fun r mem => ?_, ?_⟩
    · rw [runs] at mem
      exact (h.sound r mem).of_keepsGiven (h.distinct.present r mem) kept
    · rw [runs]
      exact h.exclusive
  cases transition with
  | inserted result =>
    refine ⟨distinct, keyed, fun r mem => ?_, h.exclusive.append fun r mem => ?_⟩
    · rcases mem_append.mp mem with old | new
      · exact (h.sound r old).of_keepsGiven (h.distinct.present r old) kept
      · have queued := System.phase_of_spawned new
        refine ⟨fun j k _ key => ?_, fun t k snapshot is => ?_⟩
        · rw [queued] at key
          cases key
        · rw [queued] at is
          cases is
    · rw [System.phase_of_spawned mem]
      rfl
  | cancelled _ | unknown _ => exact same rfl
  | restarted path => exact ⟨distinct, keyed, by simp, fun i i' r r' k found => by cases found⟩
  | moved found moves =>
    exact h.move found (moves.sound (h.sound _ (mem_of_getElem? found))) moves.lock?_cases
      rfl kept distinct keyed
  | executed found phase _ there =>
    have sound := h.sound _ (mem_of_getElem? found)
    refine h.move found ?_ (.inl ?_) rfl kept distinct keyed
    · refine ⟨fun _ _ _ key => ?_, fun t k snapshot is x mem => ?_⟩
      · cases key
      · cases is
        have read := sound.known _ _ there (by rw [phase]; rfl)
        exact read.symm.trans (h.keyed _ _ _ there x mem)
    · rw [phase]
      rfl
  | edited found there edits =>
    exact h.move found (edits.sound (h.sound _ (mem_of_getElem? found)))
      (edits.lock?_cases.imp_right .inl) rfl kept distinct keyed

end

/-- **Serialization.**  In every run in which each job is inserted for the table that it changes,
and clients supply no ID that the service has yet to make up, no two jobs that change the same
table are in their executors at the same time. -/
theorem serialized_of_keyed {service : JobService} (new : service.New) {labels : List JobLabel}
    {s : System} (run : Run.Exec System.step
      (fun u label => SuppliesApart u label ∧ InsertsKeyed label) ⟨service, [], []⟩ labels s)
    {i i' : Nat} {r r' : JobRun} (found : s.runs[i]? = some r) (found' : s.runs[i']? = some r')
    {t t' : JobType} {k k' : String} {snapshot snapshot' : JobRecord}
    (executing : r.phase = .executing t k snapshot)
    (executing' : r'.phase = .executing t' k' snapshot') {x : TableReference}
    (changes : x ∈ snapshot.changed) (changes' : x ∈ snapshot'.changed) : i = i' := by
  have start : Serial ⟨service, [], []⟩ := by
    refine ⟨new.distinct, fun p id j there => ?_, by simp, fun i i' r r' k there => ?_⟩
    · rw [new.absent] at there
      cases there
    · cases there
  have serial : Serial s := by
    refine run.invariant (I := Serial) ?_ start
    rintro u label v held ⟨apart, inserts⟩ step
    exact serial_step held inserts (transition step) (distinct_step held.distinct apart step)
  have lock {r : JobRun} {t : JobType} {k : String} {snapshot : JobRecord} (mem : r ∈ s.runs)
      (executing : r.phase = .executing t k snapshot) (changes : x ∈ snapshot.changed) :
      r.phase.lock? = some x.key := by
    rw [executing, ← (serial.sound r mem).executing t k snapshot executing x changes]
    refine if_neg ?_
    rw [(serial.sound r mem).executing t k snapshot executing x changes]
    exact x.trimSpaceStr_key
  exact serial.exclusive i i' r r' x.key found found'
    (lock (mem_of_getElem? found) executing changes)
    (lock (mem_of_getElem? found') executing' changes')

/-- The table of the run in its executor. -/
def System.executing? (s : System) (i : Nat) : List TableReference :=
  match s.runs[i]?.map JobRun.phase with
  | some (.executing _ _ snapshot) => snapshot.changed
  | _ => []

theorem System.of_executing {i : Nat} {x : TableReference} (mem : x ∈ s.executing? i) :
    ∃ r t k snapshot, s.runs[i]? = some r ∧
      r.phase = .executing t k snapshot ∧ x ∈ snapshot.changed := by
  rw [System.executing?] at mem
  split at mem
  next t k snapshot is =>
    obtain ⟨r, found, phase⟩ := Option.map_eq_some_iff.mp is
    exact ⟨r, t, k, snapshot, found, phase, mem⟩
  · cases mem

/-- While a job inserts into a table, no other job that changes the table is in its executor. -/
theorem serialized_of_keyed_insert :
    ∃ s, Run.Exec System.step (fun u label => SuppliesApart u label ∧ InsertsKeyed label)
        ⟨wiredService, [], []⟩
        ([.insert 1 (selectOne "" "INSERT INTO ds.t VALUES (1)"),
          .insert 1 (selectOne "" "DELETE FROM ds.t WHERE a = 1")] ++ runToExecutor 0) s ∧
      ⟨"p", "ds", "t"⟩ ∈ s.executing? 0 ∧ ⟨"p", "ds", "t"⟩ ∉ s.executing? 1 := by
  have keyed (text : String)
      (changed : (newJob (withTarget (selectOne "" text)) "" 1).changed =
        [⟨"p", "ds", "t"⟩])
      (names : (selectOne "" text).insertedFor = ⟨"p", "ds", "t"⟩) :
      InsertsKeyed (.insert 1 (selectOne "" text)) := by
    intro id x mem
    have mem : x ∈ (newJob (withTarget (selectOne "" text)) "" 1).changed := mem
    rw [changed, mem_singleton] at mem
    subst mem
    exact ⟨names.symm, by decide, by decide⟩
  have reached : (Run.after System.step SuppliesApart ⟨wiredService, [], []⟩
      ([.insert 1 (selectOne "" "INSERT INTO ds.t VALUES (1)"),
        .insert 1 (selectOne "" "DELETE FROM ds.t WHERE a = 1")] ++ runToExecutor 0)).any fun s =>
      decide (⟨"p", "ds", "t"⟩ ∈ s.executing? 0) := by decide +kernel
  obtain ⟨s, reached, first⟩ := (Option.any_eq_true _ _).mp reached
  have run := (Run.Exec.of_after reached).forall_labels (P := InsertsKeyed) (by
    simp only [cons_append, nil_append, forall_mem_cons]
    refine ⟨keyed _ (by decide +kernel) (by decide +kernel),
      keyed _ (by decide +kernel) (by decide +kernel), ?_⟩
    simp [runToExecutor, InsertsKeyed])
  have first := of_decide_eq_true first
  refine ⟨s, run, first, fun second => ?_⟩
  obtain ⟨r, t, k, snapshot, found, phase, changes⟩ := System.of_executing first
  obtain ⟨r', t', k', snapshot', found', phase', changes'⟩ := System.of_executing second
  exact absurd (serialized_of_keyed wiredService_new run found found' phase phase' changes changes')
    (by decide)

/-- Two jobs add a column to the same table, and are in their executors together. -/
theorem altered_together :
    ∃ s, Run.Exec System.step SuppliesApart ⟨wiredService, [], []⟩
        ([.insert 1 (selectOne "" "ALTER TABLE ds.t ADD COLUMN a INT64"),
          .insert 1 (selectOne "" "ALTER TABLE ds.t ADD COLUMN b INT64")] ++
          runToExecutor 0 ++ runToExecutor 1) s ∧
      ⟨"p", "ds", "t"⟩ ∈ s.executing? 0 ∧ ⟨"p", "ds", "t"⟩ ∈ s.executing? 1 := by
  have reached : (Run.after System.step SuppliesApart ⟨wiredService, [], []⟩
      ([.insert 1 (selectOne "" "ALTER TABLE ds.t ADD COLUMN a INT64"),
        .insert 1 (selectOne "" "ALTER TABLE ds.t ADD COLUMN b INT64")] ++
        runToExecutor 0 ++ runToExecutor 1)).any fun s =>
      decide (⟨"p", "ds", "t"⟩ ∈ s.executing? 0 ∧ ⟨"p", "ds", "t"⟩ ∈ s.executing? 1) := by
    decide +kernel
  obtain ⟨s, reached, together⟩ := (Option.any_eq_true _ _).mp reached
  exact ⟨s, Run.Exec.of_after reached, of_decide_eq_true together⟩

end LocaQL
