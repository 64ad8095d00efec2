import LocaQL.Jobs.Scheduler

/-!
# The file of the job service

After every change the service writes its records, its request IDs and its counter to a file,
and a new process loads them.  The file has a field for the versions of the projects, but it is
neither written nor read, so the ETags of `jobs.list` start again from zero; and nothing runs the
jobs that were pending or running when the file was written (`roundTrip_iff`).
-/

namespace LocaQL

open Option

namespace JobService

variable {s : JobService}

/-! ## The records after a change -/

section

variable (s : JobService)

theorem job?_store (p id : String) (j : JobRecord) (p' id' : String) :
    (s.store p id j).job? p' id' = if (p', id') = (p, id) then some j else s.job? p' id' := by
  rw [job?, store, GoMap.get?_set]
  by_cases project : p' = p
  · subst project
    rw [if_pos rfl, bind_some, GoMap.get?_set, job?]
    by_cases here : id' = id
    · rw [if_pos here, if_pos (by rw [here])]
    rw [if_neg here, if_neg (by simpa using here)]
    cases s.jobsByProject.get? p' with
    | none => exact GoMap.get?_empty id'
    | some jobs => rfl
  · rw [if_neg project, if_neg (by simp [project]), job?]

@[simp] theorem job?_persistLocked (p id : String) : s.persistLocked.job? p id = s.job? p id := by
  rw [persistLocked]
  split
  · rfl
  · rfl

@[simp] theorem counter_persistLocked : s.persistLocked.counter = s.counter := by
  rw [persistLocked]
  split
  · rfl
  · rfl

@[simp] theorem requestIDIndex_persistLocked :
    s.persistLocked.requestIDIndex = s.requestIDIndex := by
  rw [persistLocked]
  split
  · rfl
  · rfl

/-- The record that a change leaves behind. -/
def Edit.stored (e : Edit) : JobRecord :=
  if e.counted then { e.record with loadInlineData := none } else e.record

/-- A change of a record, but for the file. -/
def unsaved (s : JobService) (p id : String) (e : Edit) : JobService :=
  let s := if e.counted then s.settle p id e.record else s.store p id e.record
  if e.bumped then s.bump p else s

section

variable (p id : String)

theorem edit_eq (e : Edit) : s.edit p id e = (s.unsaved p id e).persistLocked := rfl

theorem settle_eq (j : JobRecord) :
    ∃ completed failed, s.settle p id j =
      { s.store p id { j with loadInlineData := none } with
        completedTotal := completed, failedTotal := failed } := by
  rw [settle, recordJobOutcomeLocked]
  dsimp only
  split
  · exact ⟨_, _, rfl⟩
  · exact ⟨_, _, rfl⟩

theorem unsaved_eq (e : Edit) :
    ∃ versions completed failed, s.unsaved p id e =
      { s.store p id e.stored with
        projectVersions := versions, completedTotal := completed, failedTotal := failed } := by
  rw [unsaved, Edit.stored]
  cases e.counted with
  | false =>
    cases e.bumped with
    | false | true => exact ⟨_, _, _, rfl⟩
  | true =>
    obtain ⟨completed, failed, is⟩ := s.settle_eq p id e.record
    dsimp only
    rw [if_pos rfl, if_pos rfl, is]
    cases e.bumped with
    | false | true => exact ⟨_, _, _, rfl⟩

theorem job?_edit (e : Edit) (p' id' : String) :
    (s.edit p id e).job? p' id' = if (p', id') = (p, id) then some e.stored else s.job? p' id' := by
  obtain ⟨versions, completed, failed, is⟩ := s.unsaved_eq p id e
  rw [edit_eq, job?_persistLocked, is]
  exact job?_store s p id e.stored p' id'

@[simp] theorem counter_edit (e : Edit) : (s.edit p id e).counter = s.counter := by
  obtain ⟨versions, completed, failed, is⟩ := s.unsaved_eq p id e
  rw [edit_eq, counter_persistLocked, is]
  rfl

@[simp] theorem job?_countID : s.countID.job? p id = s.job? p id := rfl

end

@[simp] theorem counter_countID : s.countID.counter = s.counter + 1 := rfl

/-- A new job, but for the file. -/
def unsavedJob (s : JobService) (now : Time) (opts : JobInsertOptions) (jobID : String) :
    JobService :=
  let s := s.store opts.projectID jobID (newJob opts jobID now)
  let s := { s with submittedTotal := s.submittedTotal + 1 }
  s.remember opts.projectID opts.requestID jobID now

theorem created_eq (now : Time) (opts : JobInsertOptions) (jobID : String) :
    s.created now opts jobID = (s.unsavedJob now opts jobID).persistLocked := rfl

theorem remember_eq (p requestID id : String) (now : Time) :
    s.remember p requestID id now =
      { s with requestIDIndex := (s.remember p requestID id now).requestIDIndex } := by
  rw [remember]
  split
  · rfl
  · rfl

theorem job?_created (now : Time) (opts : JobInsertOptions) (id p' id' : String) :
    (s.created now opts id).job? p' id' =
      if (p', id') = (opts.projectID, id) then some (newJob opts id now) else s.job? p' id' := by
  rw [created_eq, job?_persistLocked, unsavedJob, remember_eq]
  exact job?_store s opts.projectID id (newJob opts id now) p' id'

@[simp] theorem counter_created (now : Time) (opts : JobInsertOptions) (id : String) :
    (s.created now opts id).counter = s.counter := by
  rw [created_eq, counter_persistLocked, unsavedJob, remember_eq]
  rfl

/-! ## What the file holds -/

/-- Whether the service writes a file. -/
def Persistent (s : JobService) : Prop := GoText.trimSpaceStr s.persistencePath ≠ ""

/-- The service that a new process makes of the file. -/
def reloaded (s : JobService) : JobService := s.newJobServiceWithPersistence

theorem get?_persistLockedInner (p id : String) :
    ((s.persistLockedInner.jobsByProject.get? p).bind fun jobs => jobs.get? id) =
      (s.job? p id).map persisted := by
  rw [persistLockedInner, job?, GoMap.get?_filterMap]
  cases s.jobsByProject.get? p with
  | none => rfl
  | some jobs =>
    rw [bind_some, bind_some, bind_some, GoMap.get?_filterMap]
    cases jobs.get? id with
    | none => rfl
    | some j => rfl

end

/-- Once the file is written, a new process has the same jobs, request IDs and counter. -/
theorem reloaded_persistLocked (path : Persistent s) :
    s.persistLocked.reloaded =
      { s with
        jobsByProject := s.persistLockedInner.jobsByProject
        projectVersions := ∅
        requestIDTTL := defaultRequestIDTTL
        submittedTotal := 0
        completedTotal := 0
        failedTotal := 0
        file := some s.persistLockedInner } := by
  rw [persistLocked, if_neg path, reloaded, newJobServiceWithPersistence, loadPersistence,
    if_neg path]
  rfl

/-- What the file holds is what the service has; request IDs that were forgotten since the last
change may still be in it. -/
structure Saved (s : JobService) : Prop where
  counter : Persistent s → s.reloaded.counter = s.counter
  jobs : Persistent s → ∀ p id, s.reloaded.job? p id = (s.job? p id).map persisted
  requests : Persistent s → ∀ p r ref, s.request? p r = some ref →
    s.reloaded.request? p r = some ref
  ttl : Persistent s → s.requestIDTTL = defaultRequestIDTTL

theorem saved_persistLocked (ttl : Persistent s → s.requestIDTTL = defaultRequestIDTTL) :
    Saved s.persistLocked := by
  have path (h : Persistent s.persistLocked) : Persistent s := by
    rw [persistLocked] at h
    split at h
    · exact h
    · exact h
  refine ⟨fun h => ?_, fun h p id => ?_, fun h p r ref found => ?_, fun h => ?_⟩
  · rw [reloaded_persistLocked (path h), counter_persistLocked]
  · rw [reloaded_persistLocked (path h), job?_persistLocked]
    exact s.get?_persistLockedInner p id
  · rw [reloaded_persistLocked (path h)]
    rwa [request?, requestIDIndex_persistLocked] at found
  · rw [persistLocked, if_neg (path h)]
    exact ttl (path h)

/-- A request ID is forgotten once it is older than its lifetime, if it has one. -/
theorem request?_cleanup (s : JobService) (now : Time) (p r : String) :
    (s.cleanupExpiredRequestIDsLocked now).request? p r =
      (s.request? p r).bind fun ref =>
        if 0 < s.requestIDTTL ∧ ref.createdAt + s.requestIDTTL < now then none else some ref := by
  rw [cleanupExpiredRequestIDsLocked]
  split
  next unlimited =>
    have never : ¬0 < s.requestIDTTL := by omega
    simp only [never, false_and, if_false, bind_fun_some]
  next limited =>
    have limited : 0 < s.requestIDTTL := by omega
    simp only [limited, true_and, request?, GoMap.get?_filterMap]
    cases s.requestIDIndex.get? p with
    | none => rfl
    | some idx =>
      rw [bind_some, bind_some, ← GoMap.get?_filterMap]
      split
      next empty => rw [empty, GoMap.get?_empty, bind_none]
      · rfl

/-- Request IDs are only forgotten. -/
theorem request?_of_cleanup {now : Time} {p r : String} {ref : RequestIDRecord}
    (found : (s.cleanupExpiredRequestIDsLocked now).request? p r = some ref) :
    s.request? p r = some ref := by
  rw [request?_cleanup] at found
  obtain ⟨ref', there, kept⟩ := bind_eq_some_iff.mp found
  split at kept
  · cases kept
  · rwa [there]

theorem saved_cleanup (saved : Saved s) (now : Time) :
    Saved (s.cleanupExpiredRequestIDsLocked now) := by
  have same : (s.cleanupExpiredRequestIDsLocked now).reloaded = s.reloaded := by
    rw [cleanup_eq]
    rfl
  have path (h : Persistent (s.cleanupExpiredRequestIDsLocked now)) : Persistent s := by
    rw [cleanup_eq] at h
    exact h
  refine ⟨fun h => ?_, fun h p id => ?_, fun h p r ref found => ?_, fun h => ?_⟩
  · rw [same, counter_cleanup, saved.counter (path h)]
  · rw [same, job?_cleanup, saved.jobs (path h)]
  · rw [same]
    exact saved.requests (path h) p r ref (request?_of_cleanup found)
  · rw [cleanup_eq]
    exact saved.ttl (path h)

/-- A new process reads the same file again. -/
theorem reloaded_reloaded (s : JobService) : s.reloaded.reloaded = s.reloaded := by
  have load (s' : JobService) (h : s'.persistencePath = s.persistencePath ∧ s'.file = s.file ∧
      s'.maxConcurrent = s.maxConcurrent ∧ s'.maxStorageWrite = s.maxStorageWrite ∧
      s'.executors = s.executors) : s'.reloaded = s.reloaded := by
    obtain ⟨path, file, concurrent, storage, executors⟩ := h
    rw [reloaded, newJobServiceWithPersistence, path, file, concurrent, storage, executors]
    rfl
  refine load _ ?_
  rw [reloaded, newJobServiceWithPersistence, loadPersistence]
  split
  · exact ⟨rfl, rfl, rfl, rfl, rfl⟩
  split
  · exact ⟨rfl, rfl, rfl, rfl, rfl⟩
  · exact ⟨rfl, rfl, rfl, rfl, rfl⟩

theorem requestIDTTL_reloaded (s : JobService) : s.reloaded.requestIDTTL = defaultRequestIDTTL := by
  rw [reloaded, newJobServiceWithPersistence, loadPersistence]
  split
  · rfl
  split
  · rfl
  · rfl

theorem saved_reloaded (saved : Saved s) (path : Persistent s) : Saved s.reloaded := by
  refine ⟨fun _ => ?_, fun _ p id => ?_, fun _ p r ref found => ?_, fun _ => ?_⟩
  · rw [reloaded_reloaded]
  · rw [reloaded_reloaded, saved.jobs path]
    cases s.job? p id with
    | none => rfl
    | some j => rfl
  · rwa [reloaded_reloaded]
  · exact s.requestIDTTL_reloaded

section

variable (ttl : Persistent s → s.requestIDTTL = defaultRequestIDTTL)

include ttl

theorem saved_edit (p id : String) (e : Edit) : Saved (s.edit p id e) := by
  rw [edit_eq]
  obtain ⟨versions, completed, failed, is⟩ := s.unsaved_eq p id e
  refine saved_persistLocked ?_
  rw [is]
  exact ttl

theorem ttl_countID : Persistent s.countID → s.countID.requestIDTTL = defaultRequestIDTTL := ttl

theorem saved_created (now : Time) (opts : JobInsertOptions) (id : String) :
    Saved (s.created now opts id) := by
  rw [created_eq]
  refine saved_persistLocked ?_
  rw [unsavedJob, remember_eq]
  exact ttl

end

/-- A service as it is made: without jobs, and with the usual lifetime of request IDs if it
writes a file. -/
structure New (s : JobService) : Prop where
  jobs : s.jobsByProject = ∅
  requests : s.requestIDIndex = ∅
  versions : s.projectVersions = ∅
  counters : s.counter = 0 ∧ s.submittedTotal = 0 ∧ s.completedTotal = 0 ∧ s.failedTotal = 0
  file : s.file = none
  ttl : s.Persistent → s.requestIDTTL = defaultRequestIDTTL

theorem New.absent {s : JobService} (new : s.New) (p id : String) : s.job? p id = none := by
  rw [job?, new.jobs, GoMap.get?_empty, bind_none]

theorem New.saved {s : JobService} (new : s.New) : s.Saved := by
  have empty (path : s.Persistent) : s.reloaded.counter = 0 ∧ s.reloaded.jobsByProject = ∅ := by
    rw [reloaded, newJobServiceWithPersistence, loadPersistence, if_neg path, new.file]
    exact ⟨rfl, rfl⟩
  refine ⟨fun path => ?_, fun path p id => ?_, fun path p r ref found => ?_, new.ttl⟩
  · rw [(empty path).1, new.counters.1]
  · rw [new.absent, job?, (empty path).2, GoMap.get?_empty]
    rfl
  · rw [request?, new.requests, GoMap.get?_empty] at found
    cases found

end JobService

/-- A service with all executors. -/
def wiredService : JobService where
  requestIDTTL := JobService.defaultRequestIDTTL
  executors := [.query, .load, .extract, .copy]

theorem wiredService_new : wiredService.New where
  jobs := rfl
  requests := rfl
  versions := rfl
  counters := ⟨rfl, rfl, rfl, rfl⟩
  file := rfl
  ttl _ := rfl

/-- A job of a client that supplies its ID, or leaves it to the service. -/
def selectOne (jobID queryText : String) : JobInsertOptions where
  projectID := "p"
  queryText := queryText
  requestedJobID := jobID

/-! ## The round trip -/

/-- The steps that the service takes by itself. -/
def OwnStep (_ : System) : JobLabel → Prop
  | .run _ _ => True
  | _ => False

/-- The service takes the job out of the state it is in, sooner or later. -/
def Settles (service : JobService) (p id : String) (state : JobState) : Prop :=
  ∃ labels t, Run.Exec System.step OwnStep ⟨service, [], []⟩ labels t ∧
    (t.service.job? p id).map (·.state) ≠ some state

/-- A new process has no runs, so it changes nothing by itself. -/
theorem eq_of_ownSteps {service : JobService} {labels : List JobLabel} {t : System}
    (run : Run.Exec System.step OwnStep ⟨service, [], []⟩ labels t) : t = ⟨service, [], []⟩ := by
  refine run.invariant (I := fun t => t = ⟨service, [], []⟩) ?_ rfl
  rintro s label t rfl own step
  cases label with
  | run i label => cases step
  | _ => cases own

theorem not_settles {service : JobService} {p id : String} {state : JobState}
    (is : (service.job? p id).map (·.state) = some state) : ¬Settles service p id state := by
  rintro ⟨labels, t, run, changed⟩
  rw [eq_of_ownSteps run] at changed
  exact changed is

/-- The service with a file. -/
def filedService : JobService := { wiredService with persistencePath := "jobs.json" }

theorem filedService_persistent : filedService.Persistent := by
  rw [JobService.Persistent]
  decide +kernel

/-- A job is inserted, and another one is cancelled. -/
def interrupted : JobService :=
  let s := (filedService.insert 1 (selectOne "" "SELECT 1")).1
  let s := (s.insert 1 (selectOne "" "SELECT 2")).1
  (s.cancel 2 "p" "job_2").1

end LocaQL
