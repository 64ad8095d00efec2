import LocaQL.Jobs.Records
import LocaQL.Lib.Run

/-!
# The job service

The job service keeps the records of all jobs, hands out job IDs and remembers request IDs for a
while.  Every insertion starts a goroutine that runs the job: it waits for the slots that limit
concurrent work, marks the record as running, calls the executor of its type and marks the
record as done.  Between these steps the lock of the service is free, so a run is several
transitions (`Phase`), and cancellations, other insertions and other runs come in between.

A state of the whole is a `System`: the service, all runs so far, and the calls of executors as
a history.  What an executor returns is part of the label.  `restart` stands for a new process
that loads the file the service writes after every change.
-/

namespace LocaQL

/-- `requestIDRecord`. -/
structure RequestIDRecord where
  jobID : String
  createdAt : Time
deriving Repr, DecidableEq

/-- `jobServiceSnapshot`. -/
structure JobServiceSnapshot where
  counter : Nat
  jobsByProject : GoMap String (GoMap String JobRecord)
  requestIDIndex : GoMap String (GoMap String RequestIDRecord)
  -- The service neither fills it nor reads it back.
  projectVersions : GoMap String Nat := ∅

/-- `jobService`, without its channels.  `executors` are the types of job that have one; the
file is the one at `persistencePath`. -/
structure JobService where
  jobsByProject : GoMap String (GoMap String JobRecord) := ∅
  requestIDIndex : GoMap String (GoMap String RequestIDRecord) := ∅
  projectVersions : GoMap String Nat := ∅
  requestIDTTL : Int
  maxConcurrent : Option Nat := none
  maxStorageWrite : Option Nat := none
  persistencePath : String := ""
  executors : List JobType := []
  counter : Nat := 0
  submittedTotal : Nat := 0
  completedTotal : Nat := 0
  failedTotal : Nat := 0
  file : Option JobServiceSnapshot := none

/-- `jobIDConflictError`. -/
structure JobIDConflictError where
  msg : String
  httpStatus : Nat
  reason : String
deriving Repr, DecidableEq

def isJobIDChar (c : Char) : Bool :=
  GoText.isLower c || GoText.isUpper c || Sql.isDigit c || c == '_' || c == '-'

def maxJobIDLength : Nat := 1024

def isValidJobID (id : String) : Bool :=
  decide (id.utf8ByteSize ≤ maxJobIDLength) && !id.toList.isEmpty && id.toList.all isJobIDChar

/-- The ID that the service makes up. -/
def generatedJobID (n : Nat) : String := "job_" ++ Nat.repr n

namespace JobService

/-- Fifteen minutes, in nanoseconds. -/
def defaultRequestIDTTL : Int := 15 * 60 * 1000000000

/-! ## Records -/

/-- `s.jobsByProject[projectID][jobID]`. -/
def job? (s : JobService) (projectID jobID : String) : Option JobRecord :=
  (s.jobsByProject.get? projectID).bind fun jobs => jobs.get? jobID

/-- The record is put at its ID, over the one that was there. -/
def store (s : JobService) (projectID jobID : String) (jr : JobRecord) : JobService :=
  { s with
    jobsByProject := s.jobsByProject.set projectID
      (((s.jobsByProject.get? projectID).getD ∅).set jobID jr) }

/-- `s.projectVersions[projectID]`. -/
def version (s : JobService) (projectID : String) : Nat :=
  (s.projectVersions.get? projectID).getD 0

/-- `s.projectVersions[projectID]++`. -/
def bump (s : JobService) (projectID : String) : JobService :=
  { s with projectVersions := s.projectVersions.set projectID (s.version projectID + 1) }

/-! ## Persistence -/

/-- What `encoding/json` keeps of a record. -/
def persisted (j : JobRecord) : JobRecord :=
  { j with
    loadInlineData := none
    loadInlineName := ""
    loadInline := false }

def persistLockedInner (s : JobService) : JobServiceSnapshot where
  counter := s.counter
  jobsByProject := s.jobsByProject.filterMap fun jobs => some (jobs.filterMap (some ∘ persisted))
  requestIDIndex := s.requestIDIndex

def persistLocked (s : JobService) : JobService :=
  if GoText.trimSpaceStr s.persistencePath = "" then s
  else { s with file := some s.persistLockedInner }

def loadPersistence (s : JobService) : JobService :=
  if GoText.trimSpaceStr s.persistencePath = "" then s
  else
    match s.file with
    | none => s
    | some snap =>
      { s with
        jobsByProject := snap.jobsByProject
        requestIDIndex := snap.requestIDIndex
        counter := snap.counter }

/-- `newJobServiceWithPersistence`, at the path and with the limits of the given service. -/
def newJobServiceWithPersistence (s : JobService) : JobService :=
  loadPersistence
    { requestIDTTL := defaultRequestIDTTL
      maxConcurrent := s.maxConcurrent
      maxStorageWrite := s.maxStorageWrite
      persistencePath := s.persistencePath
      executors := s.executors
      file := s.file }

/-! ## Insertion -/

/-- Request IDs older than their lifetime are forgotten. -/
def cleanupExpiredRequestIDsLocked (s : JobService) (now : Time) : JobService :=
  if s.requestIDTTL ≤ 0 then s
  else
    { s with
      requestIDIndex := s.requestIDIndex.filterMap fun idx =>
        let idx := idx.filterMap fun ref =>
          if ref.createdAt + s.requestIDTTL < now then none else some ref
        if idx = ∅ then none else some idx }

/-- `s.counter++`. -/
def countID (s : JobService) : JobService := { s with counter := s.counter + 1 }

def resolveJobIDLocked (s : JobService) (projectID requestedJobID : String) :
    JobService × Except JobIDConflictError String :=
  let requestedJobID := GoText.trimSpaceStr requestedJobID
  if requestedJobID = "" then
    (s.countID, .ok (generatedJobID (s.counter + 1)))
  else if !isValidJobID requestedJobID then
    (s, .error
      { msg := "Invalid job ID " ++ GoText.quote requestedJobID ++
          ": must be 1-1024 characters matching ^[A-Za-z0-9_-]+$"
        httpStatus := 400
        reason := "invalid" })
  else if (s.job? projectID requestedJobID).isSome then
    (s, .error
      { msg := "Already Exists: Job " ++ projectID ++ ":" ++ requestedJobID
        httpStatus := 409
        reason := "duplicate" })
  else (s, .ok requestedJobID)

/-- The target of a statement that names one stands in for a missing target. -/
def withTarget (opts : JobInsertOptions) : JobInsertOptions :=
  if GoText.trimSpaceStr opts.targetDataset = "" ∧ GoText.trimSpaceStr opts.targetTable = "" ∧
      !opts.isScript then
    match Sql.parsePersistentSQLStatement opts.projectID opts.queryText.toList with
    | some (.ok stmt) =>
      { opts with targetDataset := stmt.target.datasetID, targetTable := stmt.target.tableID }
    | _ => opts
  else opts

/-- `s.requestIDIndex[projectID][requestID]`. -/
def request? (s : JobService) (projectID requestID : String) : Option RequestIDRecord :=
  (s.requestIDIndex.get? projectID).bind fun idx => idx.get? requestID

/-- The request ID is remembered, if there is one. -/
def remember (s : JobService) (projectID requestID jobID : String) (now : Time) : JobService :=
  if requestID = "" then s
  else
    { s with
      requestIDIndex := s.requestIDIndex.set projectID
        (((s.requestIDIndex.get? projectID).getD ∅).set requestID ⟨jobID, now⟩) }

/-- The job that an earlier insertion with the same request ID created. -/
def retried? (s : JobService) (projectID requestID : String) : Option JobRecord :=
  if requestID = "" then none
  else (s.request? projectID requestID).bind fun ref => s.job? projectID ref.jobID

/-- The service with a new job. -/
def created (s : JobService) (now : Time) (opts : JobInsertOptions) (jobID : String) : JobService :=
  let s := s.store opts.projectID jobID (newJob opts jobID now)
  let s := { s with submittedTotal := s.submittedTotal + 1 }
  (s.remember opts.projectID opts.requestID jobID now).persistLocked

/-- `insert`: the job, and whether it was created. -/
def insert (s : JobService) (now : Time) (opts : JobInsertOptions) :
    JobService × Except JobIDConflictError (JobRecord × Bool) :=
  let opts := withTarget opts
  let projectID := opts.projectID
  let s := s.cleanupExpiredRequestIDsLocked now
  match s.retried? projectID opts.requestID with
  | some existing => (s, .ok (existing, false))
  | none =>
    match s.resolveJobIDLocked projectID opts.requestedJobID with
    | (s, .error err) => (s, .error err)
    | (s, .ok jobID) =>
      (s.created now opts jobID, .ok (newJob opts jobID now, true))

/-- The options that a child job of a script is inserted with. -/
def childOptions (opts : JobInsertOptions) (parentJobID : String) : JobInsertOptions where
  projectID := opts.projectID
  parentJobID := parentJobID
  userEmail := opts.userEmail
  queryText := opts.queryText
  jobType := "query"
  isScript := false

/-- The loop over the parts of a script, with the time of each insertion. -/
def insertChildren (opts : JobInsertOptions) (parentJobID : String) :
    JobService → List (Time × String) → JobService × List (Option JobRecord)
  | s, [] => (s, [])
  | s, (now, _) :: parts =>
    let r := s.insert now (childOptions opts parentJobID)
    let rest := insertChildren opts parentJobID r.1 parts
    (rest.1, r.2.toOption.map (·.1) :: rest.2)

/-! ## Runs -/

def recordJobOutcomeLocked (s : JobService) (jr : JobRecord) : JobService × JobRecord :=
  let jr := { jr with loadInlineData := none }
  if jr.errorReason = "" then ({ s with completedTotal := s.completedTotal + 1 }, jr)
  else ({ s with failedTotal := s.failedTotal + 1 }, jr)

/-- The record is counted and put in place. -/
def settle (s : JobService) (projectID jobID : String) (jr : JobRecord) : JobService :=
  let r := s.recordJobOutcomeLocked jr
  r.1.store projectID jobID r.2

/-- The record of a job that was stopped. -/
def stopped (jr : JobRecord) (message : String) (now : Time) : JobRecord :=
  { jr with
    state := .done
    errorReason := "stopped"
    errorMessage := message
    endedAt := now }

/-- A run finds its job cancelled before it was started. -/
def stopBeforeExecution (s : JobService) (now : Time) (projectID jobID : String)
    (jr : JobRecord) : JobService :=
  (s.settle projectID jobID (stopped jr "job cancelled before execution" now)).persistLocked

/-- The first critical section of `run`; a run that goes on knows the type and the key of its
job. -/
def accept (s : JobService) (now : Time) (projectID jobID : String) :
    JobService × Option (JobType × String) :=
  match s.job? projectID jobID with
  | none => (s, none)
  | some jr =>
    if jr.cancelRequested then (s.stopBeforeExecution now projectID jobID jr, none)
    else (s, some (jr.jobType, jr.resourceKey))

/-- The second critical section of `run`, and whether the run goes on. -/
def start (s : JobService) (now : Time) (projectID jobID : String) : JobService × Bool :=
  match s.job? projectID jobID with
  | none => (s, false)
  | some jr =>
    if jr.cancelRequested then (s.stopBeforeExecution now projectID jobID jr, false)
    else
      let jr := { jr with state := .running, startedAt := now }
      (((s.store projectID jobID jr).bump projectID).persistLocked, true)

/-- Whether there is an executor for the type of job; `runJobExecutors` has none for scripts. -/
def hasExecutor (s : JobService) (jobType : JobType) : Bool :=
  jobType ≠ .script && decide (jobType ∈ s.executors)

/-- What the executor made of a job: nothing if there is none. -/
abbrev Outcome := Option (Except String JobStatistics)

/-- The record once the executor has returned. -/
def outcomeRecord (jr : JobRecord) (jobType : JobType) : Outcome → JobRecord
  | some (.error err) =>
    { jr with
      errorReason := "invalid"
      errorMessage := err
      errors := [⟨"invalid", err, "configuration." ++ jobType.text⟩] }
  | some (.ok stats) => { jr with statistics := stats }
  | none => applyExecutorResult jr

/-- The last critical section of `run`. -/
def finish (s : JobService) (now : Time) (projectID jobID : String) (jobType : JobType)
    (outcome : Outcome) : JobService :=
  match s.job? projectID jobID with
  | none => s
  | some jr =>
    let jr :=
      if jr.cancelRequested then stopped jr "job cancelled" now
      else { outcomeRecord jr jobType outcome with state := .done, endedAt := now }
    ((s.settle projectID jobID jr).bump projectID).persistLocked

def recoverJobPanic (s : JobService) (now : Time) (projectID jobID text : String) : JobService :=
  match s.job? projectID jobID with
  | none => s
  | some jr =>
    let jr :=
      { jr with
        state := .done
        errorReason := "internalError"
        errorMessage :=
          "job execution panicked and was recovered at the process boundary: " ++ text
        endedAt := now }
    (s.settle projectID jobID jr).persistLocked

/-! ## Cancellation -/

/-- The record of a job whose cancellation was asked for. -/
def cancelled (jr : JobRecord) (now : Time) : JobRecord :=
  let jr := { jr with cancelRequested := true }
  if jr.state = .pending then
    { stopped jr "job cancelled before execution" now with loadInlineData := none }
  else jr

def cancel (s : JobService) (now : Time) (projectID jobID : String) :
    JobService × Option JobRecord :=
  match s.job? projectID jobID with
  | none => (s, none)
  | some jr =>
    let jr := cancelled jr now
    (((s.store projectID jobID jr).bump projectID).persistLocked, some jr)

end JobService

end LocaQL
