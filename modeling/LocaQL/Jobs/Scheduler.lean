import LocaQL.Jobs.Service

/-!
# Runs of jobs

Every insertion starts a goroutine, `run`, for the job it created.  Between its critical
sections the lock of the service is free, so a run is a sequence of transitions, and
cancellations, insertions and other runs come in between.  A `Phase` says how far a run has come
and which slots it holds: one of the slots that limit concurrent runs, one of those that limit
writes, and the slot of the table that its job names.

What an executor returns, or that it panics, is part of the label.  The calls of executors are
kept as a history.  `restart` stands for a new process that loads the file of the service.

`transition` says all that one step can do.
-/

namespace LocaQL

open GoText (trimSpaceStr)

open JobService (Outcome)

/-! ## Phases -/

inductive Phase where
  | queued
  | entered
  | accepted (jobType : JobType) (resourceKey : String)
  | writing (jobType : JobType) (resourceKey : String)
  | locked (jobType : JobType) (resourceKey : String)
  | running (jobType : JobType) (resourceKey : String)
  | executing (jobType : JobType) (resourceKey : String) (snapshot : JobRecord)
  | executed (jobType : JobType) (resourceKey : String) (outcome : Outcome)
  | panicked (text : String)
  | leaving (slots : Option (JobType × String))
  | returned

namespace Phase

/-- Whether the executor of the job has not been called yet. -/
def before : Phase → Bool
  | .queued | .entered | .accepted _ _ | .writing _ _ | .locked _ _ | .running _ _ => true
  | _ => false

/-- Whether the run has not marked its job as running yet. -/
def waiting : Phase → Bool
  | .queued | .entered | .accepted _ _ | .writing _ _ | .locked _ _ => true
  | _ => false

/-- Whether the run has written the end of its job. -/
def ended : Phase → Bool
  | .leaving _ | .returned => true
  | _ => false

/-- Whether the run holds one of the slots for concurrent runs.  A panic releases all slots
before it is recovered from. -/
def holdsRunSlot : Phase → Bool
  | .queued | .panicked _ | .returned => false
  | _ => true

def requiresStorageWriteBackpressure (jobType : JobType) (resourceKey : String) : Bool :=
  match jobType with
  | .load | .copy => true
  | .query => trimSpaceStr resourceKey ≠ ""
  | .extract | .script => false

/-- Whether the run holds one of the slots for writes. -/
def holdsStorageSlot : Phase → Bool
  | .writing t k | .locked t k | .running t k | .executing t k _ | .executed t k _
  | .leaving (some (t, k)) => requiresStorageWriteBackpressure t k
  | _ => false

/-- The table whose slot the run holds. -/
def lock? : Phase → Option String
  | .locked _ k | .running _ k | .executing _ k _ | .executed _ k _ | .leaving (some (_, k)) =>
    if trimSpaceStr k = "" then none else some k
  | _ => none

end Phase

/-- A goroutine `run(jobID, projectID)`. -/
structure JobRun where
  projectID : String
  jobID : String
  phase : Phase := .queued

/-- The job of a run. -/
def JobRun.job (r : JobRun) : String × String := (r.projectID, r.jobID)

/-- The service, its runs, and the jobs whose executors have been called. -/
structure System where
  service : JobService
  runs : List JobRun := []
  executions : List (String × String) := []

/-- The transitions of a run. -/
inductive RunLabel where
  | enter
  | accept (now : Time)
  | acquireStorageWriteSlot
  | acquireResourceSlot
  | start (now : Time)
  | execute
  | complete (result : Except String JobStatistics)
  | panic (text : String)
  | finish (now : Time)
  | recover (now : Time)
  | leave

inductive JobLabel where
  | insert (now : Time) (opts : JobInsertOptions)
  | cancel (now : Time) (projectID jobID : String)
  | restart
  | run (i : Nat) (label : RunLabel)

namespace System

/-- Whether another run may take one of a limited number of slots. -/
def slotFree (s : System) (limit : Option Nat) (holds : Phase → Bool) : Bool :=
  limit.all fun n => decide (s.runs.countP (fun r => holds r.phase) < n)

/-- Whether no run holds the slot of the table. -/
def lockFree (s : System) (resourceKey : String) : Bool :=
  trimSpaceStr resourceKey = "" || s.runs.all fun r => r.phase.lock? ≠ some resourceKey

/-- The run goes on to another phase. -/
def move (s : System) (i : Nat) (r : JobRun) (phase : Phase) : System :=
  { s with runs := s.runs.set i { r with phase := phase } }

/-- The next step of `run`. -/
def runStep (s : System) (i : Nat) (r : JobRun) (label : RunLabel) : Option System :=
  match r.phase, label with
  | .queued, .enter =>
    if s.slotFree s.service.maxConcurrent Phase.holdsRunSlot then some (s.move i r .entered)
    else none
  | .entered, .accept now =>
    let result := s.service.accept now r.projectID r.jobID
    let phase := match result.2 with
      | none => .leaving none
      | some (t, k) => .accepted t k
    some ({ s with service := result.1 }.move i r phase)
  | .accepted t k, .acquireStorageWriteSlot =>
    if !Phase.requiresStorageWriteBackpressure t k ||
        s.slotFree s.service.maxStorageWrite Phase.holdsStorageSlot then
      some (s.move i r (.writing t k))
    else none
  | .writing t k, .acquireResourceSlot =>
    if s.lockFree k then some (s.move i r (.locked t k)) else none
  | .locked t k, .start now =>
    let result := s.service.start now r.projectID r.jobID
    some ({ s with service := result.1 }.move i r
      (if result.2 then .running t k else .leaving (some (t, k))))
  | .running t k, .execute =>
    if s.service.hasExecutor t then
      match s.service.job? r.projectID r.jobID with
      | none => some (s.move i r (.leaving (some (t, k))))
      | some snapshot =>
        some ({ s with executions := s.executions ++ [r.job] }.move i r
          (.executing t k snapshot))
    else some (s.move i r (.executed t k none))
  | .executing t k _, .complete result => some (s.move i r (.executed t k (some result)))
  | .executing _ _ _, .panic text => some (s.move i r (.panicked text))
  | .executed t k outcome, .finish now =>
    some ({ s with
      service := s.service.finish now r.projectID r.jobID t outcome }.move i r
        (.leaving (some (t, k))))
  | .panicked text, .recover now =>
    some ({ s with
      service := s.service.recoverJobPanic now r.projectID r.jobID text }.move i r .returned)
  | .leaving _, .leave => some (s.move i r .returned)
  | _, _ => none

/-- The run that an insertion starts, if it created a job. -/
def spawned : Except JobIDConflictError (JobRecord × Bool) → List JobRun
  | .ok (jr, true) => [{ projectID := jr.projectID, jobID := jr.jobID }]
  | _ => []

def step (s : System) : JobLabel → Option System
  | .insert now opts =>
    let result := s.service.insert now opts
    some { s with service := result.1, runs := s.runs ++ spawned result.2 }
  | .cancel now projectID jobID =>
    some { s with service := (s.service.cancel now projectID jobID).1 }
  | .restart =>
    if trimSpaceStr s.service.persistencePath = "" then none
    else some { s with service := s.service.newJobServiceWithPersistence, runs := [] }
  | .run i label => s.runs[i]?.bind fun r => s.runStep i r label

end System

/-! ## What a step does -/

namespace JobService

/-- A change of one record, under the lock. -/
structure Edit where
  record : JobRecord
  counted : Bool
  bumped : Bool

/-- The record is changed, the job counted and the version of the project raised as the change
says, and the file written. -/
def edit (s : JobService) (projectID jobID : String) (e : Edit) : JobService :=
  let s := if e.counted then s.settle projectID jobID e.record
    else s.store projectID jobID e.record
  (if e.bumped then s.bump projectID else s).persistLocked

/-- The record that `run` ends with. -/
def final (jr : JobRecord) (now : Time) (jobType : JobType) (outcome : Outcome) : JobRecord :=
  if jr.cancelRequested then stopped jr "job cancelled" now
  else { outcomeRecord jr jobType outcome with state := .done, endedAt := now }

/-- The record of a job whose executor panicked. -/
def panicRecord (jr : JobRecord) (now : Time) (text : String) : JobRecord :=
  { jr with
    state := .done
    errorReason := "internalError"
    errorMessage := "job execution panicked and was recovered at the process boundary: " ++ text
    endedAt := now }

section

variable (opts : JobInsertOptions)

/-- The target is all that a statement changes of the options. -/
theorem withTarget_cases :
    ∃ targetDataset targetTable, withTarget opts =
      { opts with targetDataset := targetDataset, targetTable := targetTable } := by
  rw [withTarget]
  split
  · split
    · exact ⟨_, _, rfl⟩
    · exact ⟨opts.targetDataset, opts.targetTable, rfl⟩
  · exact ⟨opts.targetDataset, opts.targetTable, rfl⟩

@[simp] theorem withTarget_projectID : (withTarget opts).projectID = opts.projectID := by
  obtain ⟨_, _, is⟩ := withTarget_cases opts
  rw [is]

@[simp] theorem withTarget_requestID : (withTarget opts).requestID = opts.requestID := by
  obtain ⟨_, _, is⟩ := withTarget_cases opts
  rw [is]

@[simp] theorem withTarget_requestedJobID :
    (withTarget opts).requestedJobID = opts.requestedJobID := by
  obtain ⟨_, _, is⟩ := withTarget_cases opts
  rw [is]

end

section

variable (s : JobService) (now : Time)

/-- Forgetting request IDs leaves everything else as it is. -/
theorem cleanup_eq :
    s.cleanupExpiredRequestIDsLocked now =
      { s with
        requestIDIndex := (s.cleanupExpiredRequestIDsLocked now).requestIDIndex } := by
  rw [cleanupExpiredRequestIDsLocked]
  split
  · rfl
  · rfl

@[simp] theorem job?_cleanup (projectID jobID : String) :
    (s.cleanupExpiredRequestIDsLocked now).job? projectID jobID = s.job? projectID jobID := by
  rw [cleanup_eq]
  rfl

@[simp] theorem counter_cleanup : (s.cleanupExpiredRequestIDsLocked now).counter = s.counter := by
  rw [cleanup_eq]

/-- An insertion finds an earlier job, is refused, or creates a job at an ID that the service
makes up or the client supplies. -/
inductive Inserts (s : JobService) (now : Time) (opts : JobInsertOptions) :
    JobService × Except JobIDConflictError (JobRecord × Bool) → Prop where
  | retried {j : JobRecord} :
      (s.cleanupExpiredRequestIDsLocked now).retried? opts.projectID opts.requestID = some j →
      Inserts s now opts (s.cleanupExpiredRequestIDsLocked now, .ok (j, false))
  | refused {err : JobIDConflictError} :
      (s.cleanupExpiredRequestIDsLocked now).retried? opts.projectID opts.requestID = none →
      Inserts s now opts (s.cleanupExpiredRequestIDsLocked now, .error err)
  | generated : trimSpaceStr opts.requestedJobID = "" →
      (s.cleanupExpiredRequestIDsLocked now).retried? opts.projectID opts.requestID = none →
      Inserts s now opts
        ((s.cleanupExpiredRequestIDsLocked now).countID.created now (withTarget opts)
            (generatedJobID (s.counter + 1)),
          .ok (newJob (withTarget opts) (generatedJobID (s.counter + 1)) now, true))
  | supplied : trimSpaceStr opts.requestedJobID ≠ "" →
      (s.cleanupExpiredRequestIDsLocked now).retried? opts.projectID opts.requestID = none →
      s.job? opts.projectID (trimSpaceStr opts.requestedJobID) = none →
      isValidJobID (trimSpaceStr opts.requestedJobID) →
      Inserts s now opts
        ((s.cleanupExpiredRequestIDsLocked now).created now (withTarget opts)
            (trimSpaceStr opts.requestedJobID),
          .ok (newJob (withTarget opts) (trimSpaceStr opts.requestedJobID) now, true))

theorem inserts (opts : JobInsertOptions) : Inserts s now opts (s.insert now opts) := by
  rw [insert]
  rw [withTarget_projectID, withTarget_requestID, withTarget_requestedJobID]
  split
  next j found => exact .retried found
  next fresh =>
    rw [resolveJobIDLocked]
    by_cases empty : trimSpaceStr opts.requestedJobID = ""
    · rw [if_pos empty, counter_cleanup]
      exact .generated empty fresh
    · rw [if_neg empty]
      by_cases valid : isValidJobID (trimSpaceStr opts.requestedJobID)
      · rw [if_neg (by simp [valid]), job?_cleanup]
        cases absent : s.job? opts.projectID (trimSpaceStr opts.requestedJobID) with
        | some j => exact .refused fresh
        | none => exact .supplied empty fresh absent valid
      · rw [if_pos (by simp [valid])]
        exact .refused fresh

end

section

variable {s : JobService} {projectID jobID : String} {j : JobRecord}

section

variable (now : Time)

theorem accept_missing (missing : s.job? projectID jobID = none) :
    s.accept now projectID jobID = (s, none) := by
  rw [accept, missing]

theorem accept_of_cancelled (found : s.job? projectID jobID = some j)
    (cancelled : j.cancelRequested = true) : s.accept now projectID jobID =
      (s.edit projectID jobID ⟨stopped j "job cancelled before execution" now, true, false⟩,
        none) := by
  rw [accept, found]
  exact if_pos cancelled

theorem accept_of_waiting (found : s.job? projectID jobID = some j)
    (waits : j.cancelRequested = false) :
    s.accept now projectID jobID = (s, some (j.jobType, j.resourceKey)) := by
  rw [accept, found]
  exact if_neg (by simp [waits])

theorem start_missing (missing : s.job? projectID jobID = none) :
    s.start now projectID jobID = (s, false) := by
  rw [start, missing]

theorem start_of_cancelled (found : s.job? projectID jobID = some j)
    (cancelled : j.cancelRequested = true) : s.start now projectID jobID =
      (s.edit projectID jobID ⟨stopped j "job cancelled before execution" now, true, false⟩,
        false) := by
  rw [start, found]
  exact if_pos cancelled

theorem start_of_waiting (found : s.job? projectID jobID = some j)
    (waits : j.cancelRequested = false) : s.start now projectID jobID =
      (s.edit projectID jobID ⟨{ j with state := .running, startedAt := now }, false, true⟩,
        true) := by
  rw [start, found]
  exact if_neg (by simp [waits])

theorem finish_missing (t : JobType) (outcome : Outcome) (missing : s.job? projectID jobID = none) :
    s.finish now projectID jobID t outcome = s := by
  rw [finish, missing]

theorem finish_eq (t : JobType) (outcome : Outcome) (found : s.job? projectID jobID = some j) :
    s.finish now projectID jobID t outcome =
      s.edit projectID jobID ⟨final j now t outcome, true, true⟩ := by
  rw [finish, found]
  rfl

theorem recoverJobPanic_missing (text : String) (missing : s.job? projectID jobID = none) :
    s.recoverJobPanic now projectID jobID text = s := by
  rw [recoverJobPanic, missing]

theorem recoverJobPanic_eq (text : String) (found : s.job? projectID jobID = some j) :
    s.recoverJobPanic now projectID jobID text =
      s.edit projectID jobID ⟨panicRecord j now text, true, false⟩ := by
  rw [recoverJobPanic, found]
  rfl

theorem cancel_missing (missing : s.job? projectID jobID = none) :
    (s.cancel now projectID jobID).1 = s := by
  rw [cancel, missing]

theorem cancel_eq (found : s.job? projectID jobID = some j) :
    (s.cancel now projectID jobID).1 = s.edit projectID jobID ⟨cancelled j now, false, true⟩ := by
  rw [cancel, found, edit]
  dsimp only
  rw [if_neg Bool.false_ne_true, if_pos rfl]

end

end

end JobService

open JobService (Edit)

/-- The steps of a run that leave all records as they are. -/
inductive Moves (s : System) (r : JobRun) : RunLabel → Phase → Prop where
  | enter : r.phase = .queued → Moves s r .enter .entered
  | accept {now : Time} {j : JobRecord} : r.phase = .entered →
      s.service.job? r.projectID r.jobID = some j → j.cancelRequested = false →
      Moves s r (.accept now) (.accepted j.jobType j.resourceKey)
  | write {t : JobType} {k : String} : r.phase = .accepted t k →
      Moves s r .acquireStorageWriteSlot (.writing t k)
  | lock {t : JobType} {k : String} : r.phase = .writing t k → s.lockFree k →
      Moves s r .acquireResourceSlot (.locked t k)
  | skip {t : JobType} {k : String} : r.phase = .running t k → s.service.hasExecutor t = false →
      Moves s r .execute (.executed t k none)
  | complete {t : JobType} {k : String} {snapshot : JobRecord}
      {result : Except String JobStatistics} : r.phase = .executing t k snapshot →
      Moves s r (.complete result) (.executed t k (some result))
  | panic {t : JobType} {k text : String} {snapshot : JobRecord} :
      r.phase = .executing t k snapshot → Moves s r (.panic text) (.panicked text)
  | leave {slots : Option (JobType × String)} : r.phase = .leaving slots →
      Moves s r .leave .returned
  | missing {label : RunLabel} {phase : Phase} :
      s.service.job? r.projectID r.jobID = none → phase.ended → phase.lock? = r.phase.lock? ∨
        phase.lock? = none → Moves s r label phase

/-- The steps of a run that change the record of its job. -/
inductive Edits (r : JobRun) (j : JobRecord) : RunLabel → Edit → Phase → Prop where
  | stop {now : Time} {label : RunLabel} (slots : Option (JobType × String)) : r.phase.waiting →
      j.cancelRequested → (Phase.leaving slots).lock? = r.phase.lock? →
      Edits r j label ⟨JobService.stopped j "job cancelled before execution" now, true, false⟩
        (.leaving slots)
  | start {now : Time} {t : JobType} {k : String} : r.phase = .locked t k →
      j.cancelRequested = false →
      Edits r j (.start now) ⟨{ j with state := .running, startedAt := now }, false, true⟩
        (.running t k)
  | finish {now : Time} {t : JobType} {k : String} {outcome : Outcome} :
      r.phase = .executed t k outcome →
      Edits r j (.finish now) ⟨JobService.final j now t outcome, true, true⟩
        (.leaving (some (t, k)))
  | recover {now : Time} {text : String} : r.phase = .panicked text →
      Edits r j (.recover now) ⟨JobService.panicRecord j now text, true, false⟩ .returned

/-- All that one step can do. -/
inductive Transition (s : System) : JobLabel → System → Prop where
  | inserted {now : Time} {opts : JobInsertOptions}
      {result : JobService × Except JobIDConflictError (JobRecord × Bool)} :
      JobService.Inserts s.service now opts result →
      Transition s (.insert now opts)
        { s with service := result.1, runs := s.runs ++ System.spawned result.2 }
  | cancelled {now : Time} {projectID jobID : String} {j : JobRecord} :
      s.service.job? projectID jobID = some j →
      Transition s (.cancel now projectID jobID)
        { s with
          service := s.service.edit projectID jobID ⟨JobService.cancelled j now, false, true⟩ }
  | unknown {now : Time} {projectID jobID : String} :
      s.service.job? projectID jobID = none → Transition s (.cancel now projectID jobID) s
  | restarted : trimSpaceStr s.service.persistencePath ≠ "" →
      Transition s .restart
        { s with service := s.service.newJobServiceWithPersistence, runs := [] }
  | moved {i : Nat} {r : JobRun} {label : RunLabel} {phase : Phase} : s.runs[i]? = some r →
      Moves s r label phase → Transition s (.run i label) (s.move i r phase)
  | executed {i : Nat} {r : JobRun} {t : JobType} {k : String} {snapshot : JobRecord} :
      s.runs[i]? = some r → r.phase = .running t k → s.service.hasExecutor t →
      s.service.job? r.projectID r.jobID = some snapshot →
      Transition s (.run i .execute)
        ({ s with executions := s.executions ++ [r.job] }.move i r (.executing t k snapshot))
  | edited {i : Nat} {r : JobRun} {j : JobRecord} {label : RunLabel} {e : Edit} {phase : Phase} :
      s.runs[i]? = some r → s.service.job? r.projectID r.jobID = some j → Edits r j label e phase →
      Transition s (.run i label)
        ({ s with service := s.service.edit r.projectID r.jobID e }.move i r phase)

section

variable {s s' : System} {i : Nat} {r : JobRun}

section

variable (found : s.runs[i]? = some r)

include found

theorem transition_accept (phase : r.phase = .entered) (now : Time) :
    Transition s (.run i (.accept now))
      ({ s with service := (s.service.accept now r.projectID r.jobID).1 }.move i r
        (match (s.service.accept now r.projectID r.jobID).2 with
          | none => .leaving none
          | some (t, k) => .accepted t k)) := by
  cases there : s.service.job? r.projectID r.jobID with
  | none =>
    rw [JobService.accept_missing now there]
    exact .moved found (.missing there rfl (.inr rfl))
  | some j =>
    cases cancelled : j.cancelRequested with
    | false =>
      rw [JobService.accept_of_waiting now there cancelled]
      exact .moved found (.accept phase there cancelled)
    | true =>
      rw [JobService.accept_of_cancelled now there cancelled]
      dsimp only
      refine .edited found there (.stop none ?_ cancelled ?_)
      · rw [phase]
        rfl
      · rw [phase]
        rfl

theorem transition_start {t : JobType} {k : String} (phase : r.phase = .locked t k) (now : Time) :
    Transition s (.run i (.start now))
      ({ s with service := (s.service.start now r.projectID r.jobID).1 }.move i r
        (if (s.service.start now r.projectID r.jobID).2 then .running t k
          else .leaving (some (t, k)))) := by
  cases there : s.service.job? r.projectID r.jobID with
  | none =>
    rw [JobService.start_missing now there]
    refine .moved found (.missing there rfl (.inl ?_))
    rw [phase]
    rfl
  | some j =>
    cases cancelled : j.cancelRequested with
    | false =>
      rw [JobService.start_of_waiting now there cancelled, if_pos rfl]
      dsimp only
      exact .edited found there (.start phase cancelled)
    | true =>
      rw [JobService.start_of_cancelled now there cancelled, if_neg Bool.false_ne_true]
      dsimp only
      refine .edited found there (.stop (some (t, k)) ?_ cancelled ?_)
      · rw [phase]
        rfl
      · rw [phase]
        rfl

theorem transition_finish {t : JobType} {k : String} {outcome : Outcome}
    (phase : r.phase = .executed t k outcome) (now : Time) :
    Transition s (.run i (.finish now))
      ({ s with
        service := s.service.finish now r.projectID r.jobID t outcome }.move i r
          (.leaving (some (t, k)))) := by
  cases there : s.service.job? r.projectID r.jobID with
  | none =>
    rw [JobService.finish_missing now t outcome there]
    refine .moved found (.missing there rfl (.inl ?_))
    rw [phase]
    rfl
  | some j =>
    rw [JobService.finish_eq now t outcome there]
    exact .edited found there (.finish phase)

theorem transition_recover {text : String} (phase : r.phase = .panicked text) (now : Time) :
    Transition s (.run i (.recover now))
      ({ s with
        service := s.service.recoverJobPanic now r.projectID r.jobID text }.move i r
          .returned) := by
  cases there : s.service.job? r.projectID r.jobID with
  | none =>
    rw [JobService.recoverJobPanic_missing now text there]
    exact .moved found (.missing there rfl (.inr rfl))
  | some j =>
    rw [JobService.recoverJobPanic_eq now text there]
    exact .edited found there (.recover phase)

/-- A step of a run is a transition. -/
theorem transition_run {label : RunLabel} (h : s.runStep i r label = some s') :
    Transition s (.run i label) s' := by
  rw [System.runStep.eq_def] at h
  split at h
  next phase =>
    split at h
    · cases h
      exact .moved found (.enter phase)
    · cases h
  next now phase =>
    cases h
    exact transition_accept found phase now
  next t k phase =>
    split at h
    · cases h
      exact .moved found (.write phase)
    · cases h
  next t k phase =>
    split at h
    next free =>
      cases h
      exact .moved found (.lock phase free)
    · cases h
  next t k now phase =>
    cases h
    exact transition_start found phase now
  next t k phase =>
    split at h
    next has =>
      split at h
      next there =>
        cases h
        refine .moved found (.missing there rfl (.inl ?_))
        rw [phase]
        rfl
      next snapshot there =>
        cases h
        exact .executed found phase has there
    next has =>
      cases h
      exact .moved found (.skip phase (by simpa using has))
  next phase =>
    cases h
    exact .moved found (.complete phase)
  next phase =>
    cases h
    exact .moved found (.panic phase)
  next t k outcome now phase =>
    cases h
    exact transition_finish found phase now
  next text now phase =>
    cases h
    exact transition_recover found phase now
  next phase =>
    cases h
    exact .moved found (.leave phase)
  · cases h

end

end

/-- **One step.**  Every step of the system is one of the transitions. -/
theorem transition {s s' : System} {label : JobLabel} (h : s.step label = some s') :
    Transition s label s' := by
  cases label with
  | insert now opts =>
    rw [System.step, Option.some.injEq] at h
    have inserts := JobService.inserts s.service now opts
    generalize s.service.insert now opts = result at h inserts
    subst h
    exact .inserted inserts
  | cancel now projectID jobID =>
    rw [System.step, Option.some.injEq] at h
    subst h
    cases there : s.service.job? projectID jobID with
    | none =>
      rw [JobService.cancel_missing now there]
      exact .unknown there
    | some j =>
      rw [JobService.cancel_eq now there]
      exact .cancelled there
  | restart =>
    rw [System.step] at h
    split at h
    · cases h
    next path =>
      rw [Option.some.injEq] at h
      subst h
      exact .restarted path
  | run i label =>
    obtain ⟨r, found, h⟩ := Option.bind_eq_some_iff.mp h
    exact transition_run found h

end LocaQL
