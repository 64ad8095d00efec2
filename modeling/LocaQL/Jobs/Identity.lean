import LocaQL.Jobs.Persistence

/-!
# Job identity

The service makes up the IDs `job_1`, `job_2` and so on, and takes any other ID from a client.
It checks an ID that a client supplies against the jobs that are there, but not one that it makes
up.  If a client has supplied `job_7` while the counter is at 6, the next insertion puts another
job in its place, and both runs call the executor of the new one (`replaced_by_generated`).

As long as clients supply no ID that the counter has not passed, all IDs are distinct, no record
is replaced, and the executor of a job is called at most once (`distinct_of_apart`).
-/

namespace LocaQL

open JobService List

/-- The IDs that the service makes up are distinct. -/
theorem generatedJobID_inj {m n : Nat} (h : generatedJobID m = generatedJobID n) : m = n := by
  have texts := congrArg String.toList h
  rw [generatedJobID, generatedJobID, String.toList_append, String.toList_append,
    append_cancel_left_eq] at texts
  exact GoText.repr_toList_inj texts

/-! ## Runs after a step -/

section

variable {s : System} {i : Nat} {r : JobRun} {phase : Phase}

theorem jobs_move (found : s.runs[i]? = some r) (phase : Phase) :
    (s.move i r phase).runs.map JobRun.job = s.runs.map JobRun.job := by
  rw [System.move, map_set]
  refine ext_getElem? fun k => ?_
  rw [getElem?_set]
  split
  next here =>
    subst here
    rw [getElem?_map, found]
    split
    · rfl
    next out =>
      rw [length_map] at out
      exact absurd (List.getElem?_eq_some_iff.mp found).1 out
  · rfl

/-- After a step of one run, the others are the runs of other jobs. -/
theorem mem_move (found : s.runs[i]? = some r) (apart : (s.runs.map JobRun.job).Nodup) {r' : JobRun}
    (mem : r' ∈ (s.move i r phase).runs) :
    r' = { r with phase := phase } ∨ r' ∈ s.runs ∧ r'.job ≠ r.job := by
  obtain ⟨k, there⟩ := mem_iff_getElem?.mp mem
  rw [System.move, getElem?_set] at there
  split at there
  · split at there
    · cases there
      exact .inl rfl
    · cases there
  next other =>
    refine .inr ⟨mem_of_getElem? there, fun same => other ?_⟩
    have left : (s.runs.map JobRun.job)[i]? = some r.job := by
      rw [getElem?_map, found, Option.map_some]
    have right : (s.runs.map JobRun.job)[k]? = some r.job := by
      rw [getElem?_map, there, Option.map_some, same]
    exact (getElem?_inj (List.getElem?_eq_some_iff.mp left).1 apart).mp
      (left.trans right.symm)

end

/-! ## Distinct jobs -/

/-- A client supplies no ID that the service has yet to make up. -/
def SuppliesApart (s : System) : JobLabel → Prop
  | .insert _ opts => ∀ n, GoText.trimSpaceStr opts.requestedJobID = generatedJobID n →
      n ≤ s.service.counter
  | _ => True

/-- The number that an ID the service makes up has. -/
def jobNumber (id : String) : Nat := Nat.ofDigitChars 10 (id.toList.drop 4) 0

theorem jobNumber_generatedJobID (n : Nat) : jobNumber (generatedJobID n) = n := by
  have digits : (generatedJobID n).toList.drop 4 = Nat.toDigits 10 n := by
    simp [generatedJobID, Nat.repr_eq_ofList_toDigits]
  rw [jobNumber, digits, Nat.ofDigitChars_ten_toDigits]

instance (s : System) (label : JobLabel) : Decidable (SuppliesApart s label) :=
  match label with
  | .insert _ opts =>
    let id := GoText.trimSpaceStr opts.requestedJobID
    decidable_of_iff (id = generatedJobID (jobNumber id) → jobNumber id ≤ s.service.counter) (by
      refine ⟨fun h n is => ?_, fun h is => h _ is⟩
      have number : jobNumber id = n := by
        rw [show id = generatedJobID n from is, jobNumber_generatedJobID]
      rw [number] at h
      exact h is)
  | .cancel _ _ _ | .restart | .run _ _ => .isTrue trivial

/-- There is a record of the job. -/
def System.Has (s : System) (job : String × String) : Prop :=
  (s.service.job? job.1 job.2).isSome

/-- The IDs that the service has yet to make up are free, every run and every call of an
executor belongs to a job, and no two to the same one. -/
structure Distinct (s : System) : Prop where
  below : ∀ p n, s.Has (p, generatedJobID n) → n ≤ s.service.counter
  saved : s.service.Saved
  present : ∀ r ∈ s.runs, s.Has r.job
  apart : (s.runs.map JobRun.job).Nodup
  ran : ∀ job ∈ s.executions, s.Has job
  once : s.executions.Nodup
  fresh : ∀ r ∈ s.runs, r.phase.before → r.job ∉ s.executions

variable {s : System} {phase : Phase} {r : JobRun}

section

variable (h : Distinct s)

include h

/-- What the distinctness of jobs depends on, apart from the runs. -/
theorem Distinct.of_service {service : JobService}
    (jobs : ∀ p id, (service.job? p id).isSome = (s.service.job? p id).isSome)
    (counter : service.counter = s.service.counter) (saved : service.Saved) :
    Distinct { s with service := service } := by
  have has (job : String × String) : ({ s with service := service } : System).Has job ↔ s.Has job := by
    rw [System.Has, jobs]
    rfl
  refine ⟨fun p n there => ?_, saved, fun r mem => ?_, h.apart, fun job mem => ?_, h.once, h.fresh⟩
  · show n ≤ service.counter
    rw [counter]
    exact h.below p n ((has _).mp there)
  · exact (has _).mpr (h.present r mem)
  · exact (has _).mpr (h.ran job mem)

theorem Distinct.edit {p id : String} {j : JobRecord} (found : s.service.job? p id = some j)
    (e : Edit) : Distinct { s with service := s.service.edit p id e } := by
  refine h.of_service (fun p' id' => ?_) (s.service.counter_edit p id e)
    (saved_edit h.saved.ttl p id e)
  rw [job?_edit]
  split
  next here =>
    cases here
    rw [found]
    rfl
  · rfl

/-- A run goes on, after its executor was called or not. -/
theorem Distinct.move {i : Nat} (found : s.runs[i]? = some r)
    (order : phase.before → r.phase.before) : Distinct (s.move i r phase) := by
  have mem := mem_of_getElem? found
  refine ⟨h.below, h.saved, fun r' there => ?_, ?_, h.ran, h.once, fun r' there before => ?_⟩
  · rcases mem_move found h.apart there with rfl | ⟨old, -⟩
    · exact h.present r mem
    · exact h.present r' old
  · rw [jobs_move found]
    exact h.apart
  · rcases mem_move found h.apart there with rfl | ⟨old, -⟩
    · exact h.fresh r mem (order before)
    · exact h.fresh r' old before

theorem Distinct.execute {i : Nat} (found : s.runs[i]? = some r) (before : r.phase.before)
    (after : phase.before = false) :
    Distinct ({ s with executions := s.executions ++ [r.job] }.move i r phase) := by
  have mem := mem_of_getElem? found
  have new := h.fresh r mem before
  refine ⟨h.below, h.saved, fun r' there => ?_, ?_, fun job ran => ?_, ?_, fun r' there waits => ?_⟩
  · rcases mem_move found h.apart there with rfl | ⟨old, -⟩
    · exact h.present r mem
    · exact h.present r' old
  · rw [jobs_move (s := { s with executions := s.executions ++ [r.job] }) found]
    exact h.apart
  · rcases mem_append.mp ran with old | is
    · exact h.ran job old
    · rw [mem_singleton.mp is]
      exact h.present r mem
  · exact nodup_append.mpr ⟨h.once, nodup_singleton _, by
      rintro job old _ is rfl
      rw [mem_singleton.mp is] at old
      exact new old⟩
  · rcases mem_move (s := { s with executions := s.executions ++ [r.job] }) found h.apart there
      with rfl | ⟨old, other⟩
    · rw [after] at waits
      cases waits
    · intro ran
      rcases mem_append.mp ran with ran | is
      · exact h.fresh r' old waits ran
      · exact other (mem_singleton.mp is)

/-- A job is created at an ID that is free. -/
theorem Distinct.create {service : JobService} {p id : String} (absent : s.service.job? p id = none)
    (jobs : ∀ p' id', (service.job? p' id').isSome =
      (decide ((p', id') = (p, id)) || (s.service.job? p' id').isSome))
    (counter : s.service.counter ≤ service.counter)
    (named : ∀ n, id = generatedJobID n → n ≤ service.counter) (saved : service.Saved) :
    Distinct { s with service := service, runs := s.runs ++ [⟨p, id, .queued⟩] } := by
  have has (job : String × String) : ({ s with
      service := service, runs := s.runs ++ [⟨p, id, .queued⟩] } : System).Has job ↔
        job = (p, id) ∨ s.Has job := by
    rw [System.Has, jobs, Bool.or_eq_true, decide_eq_true_eq]
    rfl
  have new : ¬s.Has (p, id) := by
    rw [System.Has, absent]
    exact Bool.false_ne_true
  refine ⟨fun p' n there => ?_, saved, fun r mem => ?_, ?_, fun job ran => ?_, h.once,
    fun r mem before => ?_⟩
  · rcases (has _).mp there with is | old
    · exact named n (Prod.mk.inj is).2.symm
    · exact Nat.le_trans (h.below p' n old) counter
  · rcases mem_append.mp mem with old | is
    · exact (has _).mpr (.inr (h.present r old))
    · rw [mem_singleton.mp is]
      exact (has _).mpr (.inl rfl)
  · rw [map_append, nodup_append]
    refine ⟨h.apart, nodup_singleton _, fun job old _ is => ?_⟩
    rintro rfl
    obtain ⟨r, mem, rfl⟩ := mem_map.mp old
    refine new ?_
    have there := h.present r mem
    rwa [mem_singleton.mp is] at there
  · exact (has _).mpr (.inr (h.ran job ran))
  · rcases mem_append.mp mem with old | is
    · exact h.fresh r old before
    · rw [mem_singleton.mp is]
      exact fun ran => new (h.ran _ ran)

end

theorem Moves.before {label : RunLabel} (h : Moves s r label phase) (before : phase.before) :
    r.phase.before := by
  cases h with
  | enter is => rw [is]; rfl
  | accept is _ _ => rw [is]; rfl
  | write is => rw [is]; rfl
  | lock is _ => rw [is]; rfl
  | missing _ ended _ =>
    cases phase with
    | leaving slots => cases before
    | returned => cases before
    | _ => cases ended
  | _ => cases before

theorem Edits.before {j : JobRecord} {label : RunLabel} {e : Edit} (h : Edits r j label e phase)
    (before : phase.before) : r.phase.before := by
  cases h with
  | start is _ => rw [is]; rfl
  | _ => cases before

theorem JobService.isSome_created (s : JobService) (now : Time) (opts : JobInsertOptions)
    (id p' id' : String) : ((s.created now opts id).job? p' id').isSome =
      (decide ((p', id') = (opts.projectID, id)) || (s.job? p' id').isSome) := by
  rw [job?_created]
  split
  next here => rw [decide_eq_true here]; rfl
  next other => rw [decide_eq_false other, Bool.false_or]

/-- The next ID that the service makes up is free. -/
theorem Distinct.free (h : Distinct s) (p : String) :
    s.service.job? p (generatedJobID (s.service.counter + 1)) = none := by
  cases there : s.service.job? p (generatedJobID (s.service.counter + 1)) with
  | none => rfl
  | some j =>
    have le := h.below p (s.service.counter + 1) (by rw [System.Has, there]; rfl)
    omega

theorem distinct_insert (h : Distinct s) {now : Time} {opts : JobInsertOptions}
    (apart : SuppliesApart s (.insert now opts))
    {result : JobService × Except JobIDConflictError (JobRecord × Bool)}
    (inserts : s.service.Inserts now opts result) :
    Distinct { s with service := result.1, runs := s.runs ++ System.spawned result.2 } := by
  have saved := saved_cleanup h.saved now
  have cleaned : Distinct { s with service := s.service.cleanupExpiredRequestIDsLocked now } :=
    h.of_service (fun p id => by rw [job?_cleanup]) (s.service.counter_cleanup now) saved
  cases inserts with
  | retried found | refused fresh =>
    simp only [System.spawned, append_nil]
    exact cleaned
  | generated empty fresh =>
    simp only [System.spawned, newJob, withTarget_projectID]
    refine h.create (h.free _) (fun p' id' => ?_) ?_ (fun n is => ?_)
      (saved_created (ttl_countID saved.ttl) now _ _)
    · rw [isSome_created, withTarget_projectID, job?_countID, job?_cleanup]
    · rw [counter_created, counter_countID, counter_cleanup]
      exact Nat.le_succ _
    · rw [counter_created, counter_countID, counter_cleanup, ← generatedJobID_inj is]
  | supplied given fresh absent =>
    simp only [System.spawned, newJob, withTarget_projectID]
    refine h.create absent (fun p' id' => ?_) ?_ (fun n is => ?_)
      (saved_created saved.ttl now _ _)
    · rw [isSome_created, withTarget_projectID, job?_cleanup]
    · rw [counter_created, counter_cleanup]
    · rw [counter_created, counter_cleanup]
      exact apart n is

theorem distinct_step {s' : System} {label : JobLabel} (h : Distinct s)
    (apart : SuppliesApart s label) (step : s.step label = some s') : Distinct s' := by
  cases transition step with
  | inserted inserts => exact distinct_insert h apart inserts
  | cancelled found => exact h.edit found _
  | unknown _ => exact h
  | restarted path =>
    have same : Distinct { s with service := s.service.reloaded } := by
      refine h.of_service (fun p id => ?_) (h.saved.counter path)
        (saved_reloaded h.saved path)
      rw [h.saved.jobs path, Option.isSome_map]
    exact ⟨same.below, same.saved, by simp, nodup_nil, same.ran, same.once, by simp⟩
  | moved found moves => exact h.move found moves.before
  | executed found phase _ there =>
    refine h.execute found ?_ rfl
    rw [phase]
    rfl
  | edited found there edits =>
    exact (h.edit there _).move (s := { s with service := _ }) found edits.before

/-! ## Runs of the system -/

theorem JobService.New.distinct {s : JobService} (new : s.New) : Distinct ⟨s, [], []⟩ := by
  refine ⟨fun p n there => ?_, new.saved, by simp, nodup_nil, by simp, nodup_nil, by simp⟩
  rw [System.Has, new.absent] at there
  cases there

/-- An insertion puts a new job at an ID that is free, and leaves all others as they are. -/
theorem Distinct.inserts (h : Distinct s) {now : Time} {opts : JobInsertOptions}
    {result : JobService × Except JobIDConflictError (JobRecord × Bool)}
    (inserts : s.service.Inserts now opts result) :
    (∀ jr, result.2 = .ok (jr, true) → s.service.job? opts.projectID jr.jobID = none) ∧
    ∀ p id j, s.service.job? p id = some j → result.1.job? p id = some j := by
  have other {p id p' id' : String} {j : JobRecord} (absent : s.service.job? p id = none)
      (found : s.service.job? p' id' = some j) : (p', id') ≠ (p, id) := by
    rintro is
    cases is
    rw [absent] at found
    cases found
  cases inserts with
  | retried there | refused fresh =>
    refine ⟨fun jr is => ?_, fun p id j found => ?_⟩
    · cases is
    · rwa [job?_cleanup]
  | generated empty fresh =>
    refine ⟨fun jr is => ?_, fun p id j found => ?_⟩
    · rw [Except.ok.injEq, Prod.mk.injEq] at is
      rw [← is.1]
      exact h.free _
    · rw [JobService.job?_created, withTarget_projectID,
        if_neg (other (h.free _) found), job?_countID, job?_cleanup, found]
  | supplied given fresh absent =>
    refine ⟨fun jr is => ?_, fun p id j found => ?_⟩
    · rw [Except.ok.injEq, Prod.mk.injEq] at is
      rw [← is.1]
      exact absent
    · rw [JobService.job?_created, withTarget_projectID,
        if_neg (other absent found), job?_cleanup, found]

/-- Jobs stay. -/
theorem has_step {s' : System} {label : JobLabel} (h : Distinct s) {job : String × String}
    (step : s.step label = some s') (has : s.Has job) : s'.Has job := by
  have edited (p id : String) (e : Edit) :
      ((s.service.edit p id e).job? job.1 job.2).isSome := by
    rw [job?_edit]
    split
    · rfl
    · exact has
  cases transition step with
  | inserted inserts =>
    obtain ⟨j, found⟩ := Option.isSome_iff_exists.mp has
    exact Option.isSome_iff_exists.mpr ⟨j, (h.inserts inserts).2 _ _ j found⟩
  | cancelled _ =>
    dsimp only [System.Has]
    exact edited _ _ _
  | unknown _ => exact has
  | restarted path =>
    dsimp only [System.Has]
    rw [← reloaded, h.saved.jobs path, Option.isSome_map]
    exact has
  | moved _ _ => exact has
  | executed _ _ _ _ => exact has
  | edited _ _ _ =>
    dsimp only [System.Has, System.move]
    exact edited _ _ _

/-- **Job identity.**  In every run in which clients supply no ID that the service has yet to make
up, the executor of a job is called at most once, every new job gets an ID that no job of the
project has had before, and an insertion replaces no record. -/
theorem distinct_of_apart {service : JobService} (new : service.New) {labels : List JobLabel}
    {s : System} (run : Run.Exec System.step SuppliesApart ⟨service, [], []⟩ labels s) :
    s.executions.Nodup ∧
    ∀ now opts, SuppliesApart s (.insert now opts) →
      (∀ jr, (s.service.insert now opts).2 = .ok (jr, true) →
        ∀ u, Run.Visits System.step SuppliesApart ⟨service, [], []⟩ labels u →
          u.service.job? opts.projectID jr.jobID = none) ∧
      ∀ p id j, s.service.job? p id = some j →
        (s.service.insert now opts).1.job? p id = some j := by
  have keep (s : System) (label : JobLabel) (t : System) (h : Distinct s)
      (apart : SuppliesApart s label) (step : s.step label = some t) : Distinct t :=
    distinct_step h apart step
  have distinct : Distinct s := run.invariant keep new.distinct
  refine ⟨distinct.once, fun now opts _ => ⟨fun jr is u visit => ?_, ?_⟩⟩
  · have absent := (distinct.inserts (JobService.inserts s.service now opts)).1 jr is
    cases there : u.service.job? opts.projectID jr.jobID with
    | none => rfl
    | some j =>
      obtain ⟨rest, later⟩ := visit.rest run
      have stays : Distinct s ∧ s.Has (opts.projectID, jr.jobID) := by
        refine later.invariant (I := fun s => Distinct s ∧ s.Has (opts.projectID, jr.jobID)) ?_
          ⟨visit.invariant keep new.distinct, by rw [System.Has, there]; rfl⟩
        intro s label t held apart step
        exact ⟨distinct_step held.1 apart step, has_step held.1 step held.2⟩
      rw [System.Has, absent] at stays
      cases stays.2
  · exact (distinct.inserts (JobService.inserts s.service now opts)).2

/-! ## An ID that is made up twice -/

/-- The steps of a run up to the call of its executor. -/
def runToExecutor (i : Nat) : List JobLabel :=
  [.run i .enter, .run i (.accept 2), .run i .acquireStorageWriteSlot,
   .run i .acquireResourceSlot, .run i (.start 3), .run i .execute]

/-- Two jobs, one of them with an ID that the service will not make up. -/
theorem distinct_of_apart_supplied :
    ∃ s, Run.Exec System.step SuppliesApart ⟨wiredService, [], []⟩
        ([.insert 1 (selectOne "mine" "SELECT 1"), .insert 1 (selectOne "" "SELECT 2")] ++
          runToExecutor 0 ++ runToExecutor 1) s ∧
      s.executions.length = 2 ∧ s.executions.Nodup := by
  have reached : (Run.after System.step SuppliesApart ⟨wiredService, [], []⟩
      ([.insert 1 (selectOne "mine" "SELECT 1"), .insert 1 (selectOne "" "SELECT 2")] ++
        runToExecutor 0 ++ runToExecutor 1)).any
      (fun s => decide (s.executions.length = 2)) := by decide +kernel
  obtain ⟨s, reached, two⟩ := (Option.any_eq_true _ _).mp reached
  have run := Run.Exec.of_after reached
  exact ⟨s, run, decide_eq_true_eq.mp two, (distinct_of_apart wiredService_new run).1⟩

/-- A client supplies `job_1` before the service makes it up.  The second insertion succeeds and
replaces the first job, and the executor of the second one is called twice. -/
theorem replaced_by_generated :
    ∃ s, Run.Exec System.step (fun _ _ => True) ⟨wiredService, [], []⟩
        ([.insert 1 (selectOne "job_1" "SELECT 1"), .insert 1 (selectOne "" "SELECT 2")] ++
          runToExecutor 0 ++ runToExecutor 1) s ∧
      (s.service.job? "p" "job_1").any (fun j => j.queryText = "SELECT 2") ∧
      s.executions = [("p", "job_1"), ("p", "job_1")] := by
  have reached : (Run.after System.step (fun _ _ => True) ⟨wiredService, [], []⟩
      ([.insert 1 (selectOne "job_1" "SELECT 1"), .insert 1 (selectOne "" "SELECT 2")] ++
        runToExecutor 0 ++ runToExecutor 1)).any (fun s =>
      (s.service.job? "p" "job_1").any (fun j => j.queryText = "SELECT 2") &&
      decide (s.executions = [("p", "job_1"), ("p", "job_1")])) := by decide +kernel
  obtain ⟨s, reached, is⟩ := (Option.any_eq_true _ _).mp reached
  rw [Bool.and_eq_true, decide_eq_true_eq] at is
  exact ⟨s, Run.Exec.of_after reached, is⟩

end LocaQL
