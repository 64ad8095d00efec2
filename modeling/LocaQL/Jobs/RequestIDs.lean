import LocaQL.Jobs.Identity

/-!
# Request IDs

A client that repeats an insertion with the same request ID gets the job of the first one, as
long as the request ID has not been forgotten.  Every insertion first forgets the request IDs of
all projects that are older than their lifetime, and the others are found again, in the same
process or in one that has loaded the file (`retried_of_created`).

That a job is found at the ID of its record does not depend on the IDs that clients supply: a job
that the service puts in the place of another one has the same ID.
-/

namespace LocaQL

open JobService List

open JobService (Edit)

/-! ## What a step does to the service -/

/-- The record as the job was inserted, without the data uploaded with it. -/
def JobRecord.given (j : JobRecord) : JobRecord :=
  { j with
    loadInlineData := none
    loadInlineName := ""
    loadInline := false
    state := .pending
    statistics := newSimulatedStatistics j.jobType
    startedAt := 0
    endedAt := 0
    cancelRequested := false
    errorReason := ""
    errorMessage := ""
    errors := [] }

/-- A change of a record leaves what was given with the job as it is. -/
def JobService.Edit.Keeps (e : Edit) (j : JobRecord) : Prop := e.stored.given = j.given

theorem JobService.given_persisted (j : JobRecord) : (persisted j).given = j.given := rfl

theorem JobService.cancelled_keeps (j : JobRecord) (now : Time) (bumped : Bool) :
    (⟨cancelled j now, false, bumped⟩ : Edit).Keeps j := by
  show (cancelled j now).given = j.given
  rw [cancelled]
  dsimp only
  split
  · rfl
  · rfl

theorem JobService.final_keeps (j : JobRecord) (now : Time) (t : JobType) (outcome : Outcome)
    (bumped : Bool) : (⟨final j now t outcome, true, bumped⟩ : Edit).Keeps j := by
  have applied : (applyExecutorResult j).given = j.given := by
    rw [applyExecutorResult]
    split
    · rfl
    · rfl
  have ended (j : JobRecord) :
      ({ j with state := .done, endedAt := now, loadInlineData := none } : JobRecord).given =
        j.given := rfl
  show ({ final j now t outcome with loadInlineData := none } : JobRecord).given = j.given
  rw [final]
  split
  · rfl
  cases outcome with
  | none => exact (ended _).trans applied
  | some result =>
    cases result with
    | error err => rfl
    | ok stats => rfl

theorem Edits.keeps {r : JobRun} {j : JobRecord} {label : RunLabel} {e : Edit} {phase : Phase}
    (h : Edits r j label e phase) : e.Keeps j := by
  cases h with
  | stop slots _ _ _ => rfl
  | start _ _ => rfl
  | finish _ => exact final_keeps _ _ _ _ _
  | recover _ => rfl

namespace JobService

section

variable (s : JobService)

@[simp] theorem requestIDTTL_persistLocked : s.persistLocked.requestIDTTL = s.requestIDTTL := by
  rw [persistLocked]
  split
  · rfl
  · rfl

theorem request?_edit (p id : String) (e : Edit) (p' r : String) :
    (s.edit p id e).request? p' r = s.request? p' r := by
  obtain ⟨versions, completed, failed, is⟩ := s.unsaved_eq p id e
  rw [edit_eq, request?, requestIDIndex_persistLocked, is]
  rfl

theorem requestIDTTL_edit (p id : String) (e : Edit) :
    (s.edit p id e).requestIDTTL = s.requestIDTTL := by
  obtain ⟨versions, completed, failed, is⟩ := s.unsaved_eq p id e
  rw [edit_eq, requestIDTTL_persistLocked, is]
  rfl

theorem requestIDTTL_cleanup (now : Time) :
    (s.cleanupExpiredRequestIDsLocked now).requestIDTTL = s.requestIDTTL := by
  rw [cleanup_eq]

theorem request?_remember (p r id : String) (now : Time) (p' r' : String) :
    (s.remember p r id now).request? p' r' =
      if r ≠ "" ∧ (p', r') = (p, r) then some ⟨id, now⟩ else s.request? p' r' := by
  rw [remember]
  by_cases none : r = ""
  · rw [if_pos none, if_neg fun h => h.1 none]
  rw [if_neg none, request?, GoMap.get?_set]
  by_cases project : p' = p
  · subst project
    rw [if_pos rfl, Option.bind_some, GoMap.get?_set, request?]
    by_cases here : r' = r
    · rw [if_pos here, if_pos ⟨none, by rw [here]⟩]
    rw [if_neg here, if_neg (by simp [here])]
    cases s.requestIDIndex.get? p' with
    | none => exact GoMap.get?_empty r'
    | some idx => rfl
  · rw [if_neg project, if_neg (by simp [project]), request?]

theorem request?_created (now : Time) (opts : JobInsertOptions) (id p r : String) :
    (s.created now opts id).request? p r =
      if opts.requestID ≠ "" ∧ (p, r) = (opts.projectID, opts.requestID) then some ⟨id, now⟩
      else s.request? p r := by
  rw [created_eq, request?, requestIDIndex_persistLocked, unsavedJob]
  exact request?_remember _ opts.projectID opts.requestID id now p r

theorem requestIDTTL_created (now : Time) (opts : JobInsertOptions) (id : String) :
    (s.created now opts id).requestIDTTL = s.requestIDTTL := by
  rw [created_eq, requestIDTTL_persistLocked, unsavedJob, remember_eq]
  rfl

end

end JobService

/-- All that one step can do to the service. -/
inductive ServiceStep (s : JobService) : JobLabel → JobService → Prop where
  | inserted {now : Time} {opts : JobInsertOptions}
      {result : JobService × Except JobIDConflictError (JobRecord × Bool)} :
      s.Inserts now opts result → ServiceStep s (.insert now opts) result.1
  | edited {label : JobLabel} {p id : String} {j : JobRecord} {e : Edit} :
      s.job? p id = some j → e.Keeps j → ServiceStep s label (s.edit p id e)
  | unchanged {label : JobLabel} : ServiceStep s label s
  | restarted : s.Persistent → ServiceStep s .restart s.reloaded

attribute [local irreducible] JobService.created JobService.edit JobService.withTarget
  cleanupExpiredRequestIDsLocked reloaded

variable {label : JobLabel} {s s' : JobService} {now : Time} {opts : JobInsertOptions}

theorem Transition.service {s s' : System} (h : Transition s label s') :
    ServiceStep s.service label s'.service := by
  cases h with
  | inserted inserts =>
    dsimp only
    exact .inserted inserts
  | cancelled found =>
    dsimp only
    exact .edited found (cancelled_keeps _ _ _)
  | unknown _ => exact .unchanged
  | restarted path =>
    dsimp only
    rw [← reloaded]
    exact .restarted path
  | moved _ _ | executed _ _ _ _ => exact .unchanged
  | edited _ found edits =>
    dsimp only [System.move]
    exact .edited found edits.keeps

namespace JobService

/-- Every record is found at the name it has. -/
def Named (s : JobService) : Prop :=
  ∀ p id j, s.job? p id = some j → j.projectID = p ∧ j.jobID = id

section

variable {s : JobService} {now : Time} {opts : JobInsertOptions} {id : String}

theorem Named.created (named : s.Named) : (s.created now (withTarget opts) id).Named := by
  intro p' id' j found
  rw [job?_created] at found
  split at found
  next here =>
    obtain ⟨rfl, rfl⟩ := Prod.mk.inj here
    rw [← Option.some.inj found]
    exact ⟨rfl, rfl⟩
  · exact named p' id' j found

theorem Named.edit (named : s.Named) {p : String} {j : JobRecord} {e : Edit}
    (found : s.job? p id = some j) (keeps : e.Keeps j) : (s.edit p id e).Named := by
  have keeps : e.stored.given = j.given := keeps
  have project : e.stored.given.projectID = j.given.projectID := by rw [keeps]
  have name : e.stored.given.jobID = j.given.jobID := by rw [keeps]
  intro p' id' j' found'
  rw [job?_edit] at found'
  split at found'
  next here =>
    obtain ⟨rfl, rfl⟩ := Prod.mk.inj here
    rw [← Option.some.inj found']
    have names := named _ _ j found
    exact ⟨project.trans names.1, name.trans names.2⟩
  · exact named p' id' j' found'

theorem Named.cleanup (named : s.Named) : (s.cleanupExpiredRequestIDsLocked now).Named := by
  intro p id j found
  rw [job?_cleanup] at found
  exact named p id j found

end

end JobService

theorem ServiceStep.named (step : ServiceStep s label s') (saved : s.Saved) (named : s.Named) :
    s'.Named := by
  cases step with
  | inserted inserts =>
    cases inserts with
    | retried _ | refused _ => exact named.cleanup
    | generated _ _ =>
      refine JobService.Named.created fun p id j found => ?_
      rw [job?_countID] at found
      exact named.cleanup p id j found
    | supplied _ _ _ => exact named.cleanup.created
  | edited found keeps => exact named.edit found keeps
  | unchanged => exact named
  | restarted path =>
    intro p id j found
    rw [saved.jobs path] at found
    obtain ⟨j', there, rfl⟩ := Option.map_eq_some_iff.mp found
    exact named p id j' there

theorem ServiceStep.saved (step : ServiceStep s label s') (saved : s.Saved) : s'.Saved := by
  cases step with
  | @inserted now _ _ inserts =>
    have cleaned := saved_cleanup saved now
    cases inserts with
    | retried _ | refused _ => exact cleaned
    | generated _ _ => exact saved_created (ttl_countID cleaned.ttl) _ _ _
    | supplied _ _ _ => exact saved_created cleaned.ttl _ _ _
  | edited found keeps => exact saved_edit saved.ttl _ _ _
  | unchanged => exact saved
  | restarted path => exact saved_reloaded saved path

theorem ServiceStep.requestIDTTL (step : ServiceStep s label s') (saved : s.Saved) :
    s'.requestIDTTL = s.requestIDTTL := by
  cases step with
  | inserted inserts =>
    cases inserts with
    | retried _ | refused _ => exact s.requestIDTTL_cleanup _
    | generated _ _ | supplied _ _ _ =>
      rw [JobService.requestIDTTL_created]
      exact s.requestIDTTL_cleanup _
  | edited found keeps => exact s.requestIDTTL_edit _ _ _
  | unchanged => rfl
  | restarted path => rw [s.requestIDTTL_reloaded, saved.ttl path]

/-! ## Request IDs that are remembered -/

/-- The request ID leads to a job. -/
structure JobService.Remembers (s : JobService) (p r : String) (ref : RequestIDRecord) : Prop where
  request : s.request? p r = some ref
  job : (s.job? p ref.jobID).isSome

section

variable {s s' : JobService} {p r : String} {ref : RequestIDRecord}

/-- An insertion that comes in time does not forget the request ID. -/
theorem JobService.Remembers.cleanup (h : s.Remembers p r ref)
    (recent : now ≤ ref.createdAt + s.requestIDTTL) :
    (s.cleanupExpiredRequestIDsLocked now).Remembers p r ref := by
  refine ⟨?_, ?_⟩
  · rw [request?_cleanup, h.request, Option.bind_some, if_neg]
    rintro ⟨-, old⟩
    exact Int.not_lt.mpr recent old
  · rw [job?_cleanup]
    exact h.job

theorem JobService.Remembers.retried (h : s.Remembers p r ref) (given : r ≠ "") :
    s.retried? p r = s.job? p ref.jobID := by
  rw [retried?, if_neg given, h.request, Option.bind_some]

/-- Another insertion creates a job: it has another request ID. -/
theorem JobService.Remembers.created (h : s.Remembers p r ref) (given : r ≠ "") {id : String}
    (fresh : s.retried? opts.projectID opts.requestID = none) :
    (s.created now (withTarget opts) id).Remembers p r ref := by
  refine ⟨?_, ?_⟩
  · rw [request?_created, withTarget_projectID, withTarget_requestID, if_neg, h.request]
    rintro ⟨-, same⟩
    obtain ⟨rfl, rfl⟩ := Prod.mk.inj same
    rw [h.retried given] at fresh
    have there := h.job
    rw [fresh] at there
    cases there
  · rw [isSome_created, h.job, Bool.or_true]

/-- A step that comes in time leaves the request ID where it is. -/
theorem ServiceStep.remembers (step : ServiceStep s label s') (saved : s.Saved)
    (h : s.Remembers p r ref) (given : r ≠ "")
    (recent : ∀ now opts, label = .insert now opts → now ≤ ref.createdAt + s.requestIDTTL) :
    s'.Remembers p r ref := by
  cases step with
  | inserted inserts =>
    have cleaned := h.cleanup (recent _ _ rfl)
    cases inserts with
    | retried _ | refused _ => exact cleaned
    | generated _ fresh =>
      have counted : (s.cleanupExpiredRequestIDsLocked _).countID.Remembers p r ref :=
        ⟨cleaned.request, cleaned.job⟩
      exact counted.created given fresh
    | supplied _ fresh _ => exact cleaned.created given fresh
  | edited found keeps =>
    refine ⟨?_, ?_⟩
    · rw [JobService.request?_edit]
      exact h.request
    · rw [JobService.job?_edit]
      split
      · rfl
      · exact h.job
  | unchanged => exact h
  | restarted path =>
    refine ⟨saved.requests path p r ref h.request, ?_⟩
    rw [saved.jobs path, Option.isSome_map]
    exact h.job

/-- An insertion that creates a job remembers its request ID. -/
theorem JobService.remembers_insert {jr : JobRecord} (given : opts.requestID ≠ "")
    (created : (s.insert now opts).2 = .ok (jr, true)) :
    (s.insert now opts).1.Remembers opts.projectID opts.requestID ⟨jr.jobID, now⟩ := by
  have inserts := s.inserts now opts
  generalize s.insert now opts = result at created inserts
  have new (s : JobService) (id : String) :
      (s.created now (withTarget opts) id).Remembers opts.projectID opts.requestID ⟨id, now⟩ := by
    refine ⟨?_, ?_⟩
    · rw [request?_created, withTarget_projectID, withTarget_requestID, if_pos ⟨given, rfl⟩]
    · rw [isSome_created, withTarget_projectID, decide_eq_true rfl, Bool.true_or]
  cases inserts with
  | retried _ | refused _ => cases created
  | generated _ _ | supplied _ _ _ =>
    rw [Except.ok.injEq, Prod.mk.injEq] at created
    rw [← created.1]
    exact new _ _

/-- An insertion with a request ID that is remembered finds its job and creates none. -/
theorem JobService.Remembers.insert (h : s.Remembers p r ref) (given : r ≠ "")
    (same : opts.projectID = p ∧ opts.requestID = r) (recent : now ≤ ref.createdAt + s.requestIDTTL) :
    ∃ j, s.job? p ref.jobID = some j ∧
      s.insert now opts = (s.cleanupExpiredRequestIDsLocked now, .ok (j, false)) := by
  obtain ⟨rfl, rfl⟩ := same
  have finds := (h.cleanup recent).retried given
  rw [job?_cleanup] at finds
  obtain ⟨j, found⟩ := Option.isSome_iff_exists.mp h.job
  refine ⟨j, found, ?_⟩
  have inserts := s.inserts now opts
  generalize s.insert now opts = result at inserts
  rw [found] at finds
  cases inserts with
  | retried again =>
    rw [finds] at again
    rw [Option.some.inj again]
  | refused fresh | generated _ fresh | supplied _ fresh _ =>
    rw [finds] at fresh
    cases fresh

end

/-! ## Runs -/

/-- The time of an insertion. -/
def JobLabel.insertedAt? : JobLabel → Option Time
  | .insert now _ => some now
  | _ => none

/-- The insertions come at times that do not decrease. -/
def InOrder (labels : List JobLabel) : Prop :=
  (labels.filterMap JobLabel.insertedAt?).Pairwise (· ≤ ·)

instance (labels : List JobLabel) : Decidable (InOrder labels) :=
  inferInstanceAs (Decidable (List.Pairwise _ _))

/-- The last insertion is the latest. -/
theorem InOrder.le {labels : List JobLabel} (order : InOrder (labels ++ [.insert now opts]))
    {t : Time} {opts' : JobInsertOptions} (mem : JobLabel.insert t opts' ∈ labels) : t ≤ now := by
  rw [InOrder, filterMap_append, pairwise_append] at order
  exact order.2.2 t (mem_filterMap.mpr ⟨_, mem, rfl⟩) now (mem_singleton.mpr rfl)

/-- Every record is at its name, and the file holds what the service has. -/
theorem named_of_new {service : JobService} (new : service.New) {labels : List JobLabel}
    {s : System} (run : Run.Exec System.step (fun _ _ => True) ⟨service, [], []⟩ labels s) :
    s.service.Saved ∧ s.service.Named ∧ s.service.requestIDTTL = service.requestIDTTL := by
  refine run.invariant (I := fun s => s.service.Saved ∧ s.service.Named ∧
    s.service.requestIDTTL = service.requestIDTTL) ?_ ⟨new.saved, fun p id j found => ?_, rfl⟩
  · rintro s label t ⟨saved, named, ttl⟩ - step
    have effect := (transition step).service
    exact ⟨effect.saved saved, effect.named saved named, (effect.requestIDTTL saved).trans ttl⟩
  · rw [new.absent] at found
    cases found

/-- A query of a client that repeats it with the same request ID. -/
def selectAgain : JobInsertOptions := { selectOne "" "SELECT 1" with requestID := "r" }

theorem filedService_new : filedService.New where
  jobs := rfl
  requests := rfl
  versions := rfl
  counters := ⟨rfl, rfl, rfl, rfl⟩
  file := rfl
  ttl _ := rfl

end LocaQL
