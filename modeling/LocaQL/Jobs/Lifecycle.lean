import LocaQL.Jobs.Identity

/-!
# The life of a job

A run takes the record of its job from pending over running to done, and cancellations may come
at any time.  The phase of a run says which state its job is in (`Phase.state`), with one
exception: a job that is cancelled while it is pending is done at once, and its run finds the
cancellation later and writes the end of the job once more (`ended_twice`).

In every run in which clients supply no ID that the service has yet to make up, states only go
forward, a job that is done keeps its error and its statistics, and every job whose run has ended
is counted once (`settled_of_apart`).  If no job is cancelled while it is pending, the time at
which a job ended stays as well (`final_of_calm`).
-/

namespace LocaQL

open JobService List

open JobService (Edit)

/-! ## Records -/

theorem JobState.rank_le (state : JobState) : state.rank ≤ JobState.done.rank := by
  cases state with
  | pending => decide
  | running => decide
  | done => decide

/-- The state that a run in this phase has brought its job to. -/
def Phase.state : Phase → JobState
  | .queued | .entered | .accepted _ _ | .writing _ _ | .locked _ _ => .pending
  | .running _ _ | .executing _ _ _ | .executed _ _ _ | .panicked _ => .running
  | .leaving _ | .returned => .done

theorem Phase.state_of_waiting {phase : Phase} (h : phase.waiting) : phase.state = .pending := by
  cases phase with
  | queued => rfl
  | entered => rfl
  | accepted t k => rfl
  | writing t k => rfl
  | locked t k => rfl
  | _ => cases h

theorem Phase.ended_iff {phase : Phase} : phase.ended = true ↔ phase.state = .done := by
  cases phase with
  | leaving slots | returned => exact ⟨fun _ => rfl, fun _ => rfl⟩
  | _ =>
    constructor
    · intro h
      cases h
    · intro h
      cases h

/-- The job was cancelled while it was pending. -/
structure StoppedEarly (j : JobRecord) : Prop where
  state : j.state = .done
  cancelled : j.cancelRequested = true
  reason : j.errorReason = "stopped"
  message : j.errorMessage = "job cancelled before execution"

/-- The record fits the phase of its run; `early` says whether jobs may be cancelled while they
are pending. -/
def Agrees (early : Prop) (phase : Phase) (j : JobRecord) : Prop :=
  j.state = phase.state ∧ (j.state = .pending → j.cancelRequested = false) ∨
    early ∧ phase.state = .pending ∧ StoppedEarly j

/-- From one record of a job to a later one: the state goes forward, and a job that is done stays
as it is. -/
structure Advances (early : Prop) (j j' : JobRecord) : Prop where
  forward : j.state.rank ≤ j'.state.rank
  state : j.state = .done → j'.state = .done
  error : j.state = .done → j'.errorReason = j.errorReason ∧ j'.errorMessage = j.errorMessage ∧
    j'.errors = j.errors
  statistics : j.state = .done → j'.statistics = j.statistics
  endedAt : j.state = .done → early ∨ j'.endedAt = j.endedAt

variable {e : Edit} {label : RunLabel}

section

variable {early : Prop} {j j' j'' : JobRecord} {phase : Phase}

theorem Advances.refl (j : JobRecord) : Advances early j j where
  forward := Nat.le_refl _
  state h := h
  error _ := ⟨rfl, rfl, rfl⟩
  statistics _ := rfl
  endedAt _ := .inr rfl

theorem Advances.trans (h1 : Advances early j j') (h2 : Advances early j' j'') :
    Advances early j j'' where
  forward := Nat.le_trans h1.forward h2.forward
  state h := h2.state (h1.state h)
  error h := by
    have first := h1.error h
    have second := h2.error (h1.state h)
    exact ⟨second.1.trans first.1, second.2.1.trans first.2.1, second.2.2.trans first.2.2⟩
  statistics h := (h2.statistics (h1.state h)).trans (h1.statistics h)
  endedAt h := by
    rcases h1.endedAt h with may | first
    · exact .inl may
    · rcases h2.endedAt (h1.state h) with may | second
      · exact .inl may
      · exact .inr (second.trans first)

/-- A job that is not done goes on to a later state. -/
theorem Advances.of_lt (h : j.state.rank < j'.state.rank) : Advances early j j' := by
  have other : j.state ≠ .done := by
    intro done
    rw [done] at h
    exact Nat.not_lt.mpr j'.state.rank_le h
  exact ⟨Nat.le_of_lt h, fun is => absurd is other, fun is => absurd is other,
    fun is => absurd is other, fun is => absurd is other⟩

/-- A cancellation stops a job that is pending, and leaves a mark on all others. -/
theorem agrees_cancelled (agrees : Agrees early phase j) (now : Time)
    (spares : early ∨ j.state ≠ .pending) :
    Agrees early phase (JobService.cancelled j now) ∧
      Advances early j (JobService.cancelled j now) := by
  rw [JobService.cancelled]
  dsimp only
  by_cases pending : j.state = .pending
  · rw [if_pos pending]
    have may : early := spares.resolve_right fun h => h pending
    refine ⟨.inr ⟨may, ?_, rfl, rfl, rfl, rfl⟩, .of_lt ?_⟩
    · rcases agrees with ⟨is, -⟩ | ⟨-, is, -⟩
      · rw [← is, pending]
      · exact is
    · rw [pending]
      exact Nat.zero_lt_succ _
  · rw [if_neg pending]
    refine ⟨?_, Nat.le_refl _, fun h => h, fun _ => ⟨rfl, rfl, rfl⟩, fun _ => rfl, fun _ => .inr rfl⟩
    rcases agrees with ⟨is, -⟩ | ⟨may, is, stopped⟩
    · exact .inl ⟨is, fun h => absurd h pending⟩
    · exact .inr ⟨may, is, stopped.state, rfl, stopped.reason, stopped.message⟩

/-- Only the steps that change a record change what a run has brought its job to. -/
theorem Moves.state_eq {s : System} {r : JobRun} (h : Moves s r label phase)
    (found : s.service.job? r.projectID r.jobID = some j) : phase.state = r.phase.state := by
  cases h with
  | enter is => rw [is]; rfl
  | accept is _ _ => rw [is]; rfl
  | write is => rw [is]; rfl
  | lock is _ => rw [is]; rfl
  | skip is _ => rw [is]; rfl
  | complete is => rw [is]; rfl
  | panic is => rw [is]; rfl
  | leave is => rw [is]; rfl
  | missing absent _ _ =>
    rw [absent] at found
    cases found

theorem Agrees.of_state {phase' : Phase} (h : Agrees early phase j)
    (same : phase'.state = phase.state) : Agrees early phase' j := by
  rw [Agrees, same]
  exact h

theorem JobService.state_final (j : JobRecord) (now : Time) (t : JobType) (outcome : Outcome) :
    (final j now t outcome).state = .done := by
  rw [final]
  split
  · rfl
  · rfl

theorem JobService.Edit.state_stored (e : Edit) : e.stored.state = e.record.state := by
  rw [Edit.stored]
  split
  · rfl
  · rfl

/-- A record is written with the state of the new phase. -/
theorem agrees_onward (new : e.record.state = phase.state) (later : j.state.rank < phase.state.rank) :
    Agrees early phase e.stored ∧ Advances early j e.stored := by
  have state : e.stored.state = phase.state := e.state_stored.trans new
  refine ⟨.inl ⟨state, fun pending => ?_⟩, .of_lt (by rwa [state])⟩
  rw [← state, pending] at later
  exact absurd later (Nat.not_lt_zero _)

/-- A run that has started finds its job running. -/
theorem Agrees.running (h : Agrees early phase j) (is : phase.state = .running) :
    j.state = .running := by
  rcases h with ⟨state, -⟩ | ⟨-, waits, -⟩
  · rw [state, is]
  · rw [is] at waits
    cases waits

/-- A run that writes the record of its job brings the job on to the state of its new phase. -/
theorem Edits.agrees {r : JobRun} (h : Edits r j label e phase) (agrees : Agrees early r.phase j) :
    Agrees early phase e.stored ∧ Advances early j e.stored := by
  cases h with
  | stop slots waits cancelled _ =>
    rcases agrees with ⟨state, mark⟩ | ⟨may, -, stopped⟩
    · rw [mark (state.trans (Phase.state_of_waiting waits))] at cancelled
      cases cancelled
    · -- The run writes the end of a job that has ended.
      refine ⟨.inl ⟨rfl, fun is => by cases is⟩, ?_⟩
      refine ⟨JobState.rank_le _, fun _ => rfl, fun _ => ⟨?_, ?_, rfl⟩, fun _ => rfl,
        fun _ => .inl may⟩
      · exact stopped.reason.symm
      · exact stopped.message.symm
  | start is waits =>
    refine agrees_onward rfl ?_
    rcases agrees with ⟨state, -⟩ | ⟨-, -, stopped⟩
    · rw [state, is]
      exact Nat.lt_succ_self _
    · rw [stopped.cancelled] at waits
      cases waits
  | finish is =>
    refine agrees_onward (state_final _ _ _ _) ?_
    rw [agrees.running (by rw [is]; rfl)]
    exact Nat.lt_succ_self _
  | recover is =>
    refine agrees_onward rfl ?_
    rw [agrees.running (by rw [is]; rfl)]
    exact Nat.lt_succ_self _

end

/-! ## Totals -/

/-- The number of jobs counted as completed, or as failed. -/
def JobService.total (s : JobService) (ok : Bool) : Nat :=
  if ok then s.completedTotal else s.failedTotal

/-- Whether the job has ended without an error. -/
def JobRecord.succeeded (j : JobRecord) : Bool := decide (j.errorReason = "")

namespace JobService

theorem total_persistLocked (s : JobService) (ok : Bool) : s.persistLocked.total ok = s.total ok := by
  rw [persistLocked]
  split
  · rfl
  · rfl

theorem total_cleanup (s : JobService) (now : Time) (ok : Bool) :
    (s.cleanupExpiredRequestIDsLocked now).total ok = s.total ok := by
  rw [cleanup_eq]
  rfl

theorem total_created (s : JobService) (now : Time) (opts : JobInsertOptions) (id : String)
    (ok : Bool) : (s.created now opts id).total ok = s.total ok := by
  rw [created_eq, total_persistLocked, unsavedJob, remember_eq]
  rfl

/-- A change that counts adds one to one of the totals. -/
theorem total_edit (s : JobService) (p id : String) (e : Edit) (ok : Bool) :
    (s.edit p id e).total ok =
      s.total ok + if e.counted && (e.record.succeeded == ok) then 1 else 0 := by
  have settled : (s.settle p id e.record).total ok =
      s.total ok + if e.record.succeeded == ok then 1 else 0 := by
    rw [settle, recordJobOutcomeLocked, JobRecord.succeeded]
    dsimp only
    split
    next none =>
      rw [decide_eq_true none]
      cases ok with
      | false => rfl
      | true => rfl
    next some =>
      rw [decide_eq_false some]
      cases ok with
      | false => rfl
      | true => rfl
  have bumped (s : JobService) (b : Bool) : (if b then s.bump p else s).total ok = s.total ok := by
    cases b with
    | false => rfl
    | true => rfl
  rw [edit_eq, total_persistLocked, unsaved, bumped]
  cases e.counted with
  | false => rfl
  | true => exact settled

end JobService

/-- Whether the run has ended, and its job with the outcome. -/
def System.counts (s : System) (ok : Bool) (r : JobRun) : Bool :=
  r.phase.ended && (s.service.job? r.projectID r.jobID).any fun j => j.succeeded == ok

/-- The number of runs that have ended with the outcome. -/
def System.tally (s : System) (ok : Bool) : Nat := s.runs.countP (s.counts ok)

section

variable {s s' : System} {i : Nat} {r : JobRun} {phase : Phase}

/-- One run goes on, and what the runs before it count stays. -/
theorem tally_set (ok : Bool) (found : s.runs[i]? = some r)
    (runs : s'.runs = s.runs.set i { r with phase := phase })
    (same : ∀ r' ∈ s.runs, s'.counts ok r' = s.counts ok r') :
    s'.tally ok + (if s.counts ok r then 1 else 0) =
      s.tally ok + if s'.counts ok { r with phase := phase } then 1 else 0 := by
  obtain ⟨bound, is⟩ := List.getElem?_eq_some_iff.mp found
  have mem := mem_of_getElem? found
  have old : s.runs.countP (s'.counts ok) = s.tally ok :=
    countP_congr fun r' mem => by rw [same r' mem]
  rw [System.tally, runs, countP_set bound, is, old, same r mem]
  by_cases one : s.counts ok r
  · have pos : 0 < s.tally ok := countP_pos_iff.mpr ⟨r, mem, one⟩
    rw [if_pos one]
    omega
  · rw [if_neg one]
    omega

end

/-! ## The invariant -/

/-- Jobs are distinct, each of them has a run, its record fits the phase of the run, and the
totals are those of the runs that have ended. -/
structure Living (early : Prop) (s : System) : Prop where
  distinct : Distinct s
  run : ∀ job, s.Has job → job ∈ s.runs.map JobRun.job
  agrees : ∀ r ∈ s.runs, ∀ j, s.service.job? r.projectID r.jobID = some j →
    Agrees early r.phase j
  counted : ∀ ok, s.service.total ok = s.tally ok

/-- The records of all jobs advance from one state to another. -/
def Onward (early : Prop) (s s' : System) : Prop :=
  ∀ p id j, s.service.job? p id = some j →
    ∃ j', s'.service.job? p id = some j' ∧ Advances early j j'

section

variable {early : Prop} {s s' : System} {i : Nat} {r : JobRun} {j : JobRecord} {phase : Phase}
  {p id : String}

theorem Living.move (h : Living early s) (found : s.runs[i]? = some r)
    (state : phase.state = r.phase.state) (service : s'.service = s.service)
    (runs : s'.runs = s.runs.set i { r with phase := phase }) (distinct : Distinct s') :
    Living early s' := by
  have mem := mem_of_getElem? found
  have ended : phase.ended = r.phase.ended := by
    rw [Bool.eq_iff_iff, Phase.ended_iff, Phase.ended_iff, state]
  refine ⟨distinct, fun job has => ?_, fun r' mem' j' there' => ?_, fun ok => ?_⟩
  · have same : s'.runs.map JobRun.job = s.runs.map JobRun.job := by
      rw [runs]
      exact jobs_move found phase
    rw [same]
    refine h.run job ?_
    rwa [System.Has, service] at has
  · rw [service] at there'
    have mem' : r' ∈ (s.move i r phase).runs := by
      rw [runs] at mem'
      exact mem'
    rcases mem_move found h.distinct.apart mem' with rfl | ⟨old, -⟩
    · exact (h.agrees r mem j' there').of_state state
    · exact h.agrees r' old j' there'
  · have same (r' : JobRun) : s'.counts ok r' = s.counts ok r' := by
      rw [System.counts, service]
      rfl
    have counts := tally_set ok found runs fun r' _ => same r'
    have moved : s'.counts ok { r with phase := phase } = s.counts ok r := by
      rw [same, System.counts, System.counts]
      dsimp only
      rw [ended]
    rw [moved] at counts
    rw [service, h.counted ok]
    omega

/-- A change is counted if the run ends with it. -/
theorem Edits.counted (h : Edits r j label e phase) :
    e.counted = phase.ended ∧ r.phase.ended = false := by
  cases h with
  | stop slots waits _ _ =>
    refine ⟨rfl, ?_⟩
    rw [Bool.eq_false_iff, Ne, Phase.ended_iff, Phase.state_of_waiting waits]
    intro is
    cases is
  | start is _ | finish is | recover is =>
    rw [is]
    exact ⟨rfl, rfl⟩

theorem JobService.Edit.succeeded_stored (e : Edit) : e.stored.succeeded = e.record.succeeded := by
  rw [Edit.stored]
  split
  · rfl
  · rfl

/-- Runs of other jobs count as before. -/
theorem counts_edit (service : s'.service = s.service.edit p id e) (ok : Bool)
    (other : r.job ≠ (p, id)) : s'.counts ok r = s.counts ok r := by
  have other : (r.projectID, r.jobID) ≠ (p, id) := other
  rw [System.counts, service, job?_edit, if_neg other, System.counts]

section

variable (h : Living early s)

include h

theorem Living.edit (found : s.runs[i]? = some r)
    (there : s.service.job? r.projectID r.jobID = some j) (edits : Edits r j label e phase)
    (service : s'.service = s.service.edit r.projectID r.jobID e)
    (runs : s'.runs = s.runs.set i { r with phase := phase }) (distinct : Distinct s') :
    Living early s' ∧ Onward early s s' := by
  have mem := mem_of_getElem? found
  obtain ⟨agrees, advances⟩ := edits.agrees (h.agrees r mem j there)
  obtain ⟨counted, going⟩ := edits.counted
  have own : (r.projectID, r.jobID) = r.job := rfl
  have jobs (p id : String) : s'.service.job? p id =
      if (p, id) = r.job then some e.stored else s.service.job? p id := by
    rw [service, job?_edit]
    rfl
  refine ⟨⟨distinct, fun job has => ?_, fun r' mem' j' there' => ?_, fun ok => ?_⟩,
    fun p id j' there' => ?_⟩
  · have same : s'.runs.map JobRun.job = s.runs.map JobRun.job := by
      rw [runs]
      exact jobs_move found phase
    rw [same]
    rw [System.Has, jobs] at has
    split at has
    next is =>
      have is : job = r.job := is
      rw [is]
      exact mem_map_of_mem mem
    · exact h.run job has
  · have mem' : r' ∈ (s.move i r phase).runs := by
      rw [runs] at mem'
      exact mem'
    rw [jobs] at there'
    rcases mem_move found h.distinct.apart mem' with rfl | ⟨old, other⟩
    · dsimp only at there'
      rw [if_pos own] at there'
      rw [← Option.some.inj there']
      exact agrees
    · have other : (r'.projectID, r'.jobID) ≠ r.job := other
      rw [if_neg other] at there'
      exact h.agrees r' old j' there'
  · have same : ∀ r' ∈ s.runs, s'.counts ok r' = s.counts ok r' := by
      intro r' mem'
      by_cases is : r'.job = r.job
      · rw [inj_on_of_nodup_map h.distinct.apart mem' mem is, System.counts, System.counts,
          going, Bool.false_and, Bool.false_and]
      · exact counts_edit service ok is
    have counts := tally_set ok found runs same
    have before : s.counts ok r = false := by rw [System.counts, going, Bool.false_and]
    have after : s'.counts ok { r with phase := phase } =
        (e.counted && (e.record.succeeded == ok)) := by
      rw [System.counts, jobs]
      dsimp only
      rw [if_pos own, counted, Option.any_some, e.succeeded_stored]
    rw [before, after] at counts
    rw [service, JobService.total_edit, h.counted ok, ← counts]
    exact Nat.add_zero _
  · rw [jobs]
    split
    next is =>
      have same : j = j' := by
        rw [show p = r.projectID from (Prod.mk.inj is).1,
          show id = r.jobID from (Prod.mk.inj is).2, there] at there'
        exact Option.some.inj there'
      rw [← same]
      exact ⟨_, rfl, advances⟩
    · exact ⟨j', there', .refl j'⟩

theorem Living.cancel {now : Time} (found : s.service.job? p id = some j)
    (service : s'.service = s.service.edit p id ⟨JobService.cancelled j now, false, true⟩)
    (runs : s'.runs = s.runs) (spares : early ∨ j.state ≠ .pending) (distinct : Distinct s') :
    Living early s' ∧ Onward early s s' := by
  have jobs (p' id' : String) : s'.service.job? p' id' =
      if (p', id') = (p, id) then some (JobService.cancelled j now)
      else s.service.job? p' id' := by
    rw [service, job?_edit]
    rfl
  -- What the cancellation does to the record, seen from the run of the job.
  have effect (r : JobRun) (mem : r ∈ s.runs) (is : (r.projectID, r.jobID) = (p, id)) :
      Agrees early r.phase (JobService.cancelled j now) ∧
        Agrees early r.phase j ∧ Advances early j (JobService.cancelled j now) := by
    obtain ⟨rfl, rfl⟩ := Prod.mk.inj is
    have agrees := h.agrees r mem j found
    obtain ⟨agrees', advances⟩ := agrees_cancelled agrees now spares
    exact ⟨agrees', agrees, advances⟩
  refine ⟨⟨distinct, fun job has => ?_, fun r mem j' there => ?_, fun ok => ?_⟩,
    fun p' id' j' there => ?_⟩
  · rw [runs]
    refine h.run job ?_
    rw [System.Has, jobs] at has
    split at has
    next is =>
      have is : job = (p, id) := is
      rw [is, System.Has, found]
      rfl
    · exact has
  · rw [runs] at mem
    rw [jobs] at there
    split at there
    next is =>
      rw [← Option.some.inj there]
      exact (effect r mem is).1
    · exact h.agrees r mem j' there
  · rw [service, JobService.total_edit, h.counted ok, System.tally, System.tally, runs]
    refine countP_congr fun r mem => ?_
    by_cases is : (r.projectID, r.jobID) = (p, id)
    · obtain ⟨-, agrees, advances⟩ := effect r mem is
      rw [System.counts, System.counts, jobs, if_pos is]
      obtain ⟨rfl, rfl⟩ := Prod.mk.inj is
      rw [found, Option.any_some, Option.any_some]
      cases ended : r.phase.ended with
      | false => exact Iff.rfl
      | true =>
        have done : j.state = .done := by
          have state := Phase.ended_iff.mp ended
          rcases agrees with ⟨is, -⟩ | ⟨-, is, -⟩
          · rw [is, state]
          · rw [state] at is
            cases is
        rw [JobRecord.succeeded, JobRecord.succeeded, (advances.error done).1]
    · rw [counts_edit service ok is]
  · rw [jobs]
    split
    next is =>
      obtain ⟨rfl, rfl⟩ := Prod.mk.inj is
      rw [found] at there
      obtain ⟨r, mem, is⟩ := mem_map.mp
        (h.run (p', id') (by rw [System.Has, found]; rfl))
      rw [← Option.some.inj there]
      exact ⟨_, rfl, (effect r mem is).2.2⟩
    · exact ⟨j', there, .refl j'⟩

/-- The jobs and the totals stay as they are. -/
theorem Living.of_service (jobs : ∀ p id, s'.service.job? p id = s.service.job? p id)
    (totals : ∀ ok, s'.service.total ok = s.service.total ok) (runs : s'.runs = s.runs)
    (distinct : Distinct s') : Living early s' := by
  refine ⟨distinct, fun job has => ?_, fun r mem j there => ?_, fun ok => ?_⟩
  · rw [runs]
    rw [System.Has, jobs] at has
    exact h.run job has
  · rw [runs] at mem
    rw [jobs] at there
    exact h.agrees r mem j there
  · have counts : s'.counts ok = s.counts ok := by
      funext r
      rw [System.counts, System.counts, jobs]
    rw [totals, h.counted ok, System.tally, System.tally, runs, counts]

theorem Living.create (absent : s.service.job? p id = none)
    (jobs : ∀ p' id', s'.service.job? p' id' =
      if (p', id') = (p, id) then some j else s.service.job? p' id')
    (new : j.state = .pending ∧ j.cancelRequested = false)
    (totals : ∀ ok, s'.service.total ok = s.service.total ok)
    (runs : s'.runs = s.runs ++ [⟨p, id, .queued⟩]) (distinct : Distinct s') : Living early s' := by
  have other (r : JobRun) (mem : r ∈ s.runs) : (r.projectID, r.jobID) ≠ (p, id) := by
    intro is
    obtain ⟨rfl, rfl⟩ := Prod.mk.inj is
    have there := h.distinct.present r mem
    rw [System.Has, JobRun.job, absent] at there
    cases there
  refine ⟨distinct, fun job has => ?_, fun r mem j' there => ?_, fun ok => ?_⟩
  · rw [runs, map_append, mem_append]
    rw [System.Has, jobs] at has
    split at has
    next is => exact .inr (mem_singleton.mpr is)
    · exact .inl (h.run job has)
  · rw [runs] at mem
    rw [jobs] at there
    rcases mem_append.mp mem with old | is
    · rw [if_neg (other r old)] at there
      exact h.agrees r old j' there
    · rw [mem_singleton] at is
      subst is
      rw [if_pos rfl] at there
      rw [← Option.some.inj there]
      exact .inl ⟨new.1, fun _ => new.2⟩
  · rw [totals, h.counted ok, System.tally, System.tally, runs, countP_append]
    have same : s.runs.countP (s'.counts ok) = s.runs.countP (s.counts ok) := by
      refine countP_congr fun r mem => ?_
      rw [System.counts, System.counts, jobs, if_neg (other r mem)]
    rw [same]
    rfl

end

theorem pending_newJob (opts : JobInsertOptions) (jobID : String) (now : Time) :
    (newJob opts jobID now).state = .pending ∧ (newJob opts jobID now).cancelRequested = false :=
  ⟨rfl, rfl⟩

theorem Living.insert {now : Time} {opts : JobInsertOptions}
    {result : JobService × Except JobIDConflictError (JobRecord × Bool)} (h : Living early s)
    (inserts : s.service.Inserts now opts result) (service : s'.service = result.1)
    (runs : s'.runs = s.runs ++ System.spawned result.2) (distinct : Distinct s') :
    Living early s' ∧ Onward early s s' := by
  refine ⟨?_, fun p id j found => ⟨j, ?_, .refl j⟩⟩
  · cases inserts with
    | retried _ | refused _ =>
      simp only [System.spawned, append_nil] at runs
      refine h.of_service (fun p id => ?_) (fun ok => ?_) runs distinct
      · rw [service, job?_cleanup]
      · rw [service, JobService.total_cleanup]
    | generated _ _ =>
      refine h.create (h.distinct.free opts.projectID) (fun p' id' => ?_)
        (pending_newJob (withTarget opts) (generatedJobID (s.service.counter + 1)) now)
        (fun ok => ?_) ?_ distinct
      · rw [service, job?_created, withTarget_projectID, job?_countID, job?_cleanup]
      · rw [service, JobService.total_created]
        exact s.service.total_cleanup now ok
      · rw [runs, System.spawned, newJob, withTarget_projectID]
    | supplied _ _ absent =>
      refine h.create absent (fun p' id' => ?_)
        (pending_newJob (withTarget opts) (GoText.trimSpaceStr opts.requestedJobID) now)
        (fun ok => ?_) ?_ distinct
      · rw [service, job?_created, withTarget_projectID, job?_cleanup]
      · rw [service, JobService.total_created, JobService.total_cleanup]
      · rw [runs, System.spawned, newJob, withTarget_projectID]
  · rw [service]
    exact (h.distinct.inserts inserts).2 p id j found

end

/-! ## Runs of the system -/

/-- The process goes on, and a client supplies no ID that the service has yet to make up. -/
def Apart (s : System) : JobLabel → Prop
  | .restart => False
  | label => SuppliesApart s label

/-- A job is cancelled while it is pending. -/
def CancelsPending (s : System) : JobLabel → Prop
  | .cancel _ p id => (s.service.job? p id).any fun j => decide (j.state = .pending)
  | _ => False

/-- No job is cancelled while it is pending, either. -/
def Calm (s : System) (label : JobLabel) : Prop := Apart s label ∧ ¬CancelsPending s label

instance (s : System) (label : JobLabel) : Decidable (Apart s label) :=
  match label with
  | .restart => inferInstanceAs (Decidable False)
  | .insert now opts => inferInstanceAs (Decidable (SuppliesApart s (.insert now opts)))
  | .cancel now p id => inferInstanceAs (Decidable (SuppliesApart s (.cancel now p id)))
  | .run i label => inferInstanceAs (Decidable (SuppliesApart s (.run i label)))

instance (s : System) (label : JobLabel) : Decidable (CancelsPending s label) :=
  match label with
  | .cancel _ p id => inferInstanceAs
      (Decidable ((s.service.job? p id).any fun j => decide (j.state = .pending)))
  | .restart | .insert _ _ | .run _ _ => inferInstanceAs (Decidable False)

instance (s : System) (label : JobLabel) : Decidable (Calm s label) :=
  inferInstanceAs (Decidable (_ ∧ _))

theorem Apart.supplies {s : System} {label : JobLabel} (h : Apart s label) :
    SuppliesApart s label := by
  cases label with
  | restart => cases h
  | insert now opts => exact h
  | cancel now p id => trivial
  | run i label => trivial

attribute [local irreducible] JobService.edit JobService.newJobServiceWithPersistence

theorem living_step {early : Prop} {s s' : System} {label : JobLabel} (h : Living early s)
    (apart : Apart s label) (spares : early ∨ ¬CancelsPending s label)
    (transition : Transition s label s') (distinct : Distinct s') :
    Living early s' ∧ Onward early s s' := by
  have same (s' : System) (service : s'.service = s.service) : Onward early s s' := by
    intro p id j found
    rw [service]
    exact ⟨j, found, .refl j⟩
  cases transition with
  | inserted inserts => exact h.insert inserts rfl rfl distinct
  | cancelled found =>
    refine h.cancel found rfl rfl ?_ distinct
    rcases spares with may | spares
    · exact .inl may
    · refine .inr fun pending => spares ?_
      rw [CancelsPending, found, Option.any_some, decide_eq_true pending]
  | unknown _ => exact ⟨h, same s rfl⟩
  | restarted path => cases apart
  | moved found moves =>
    obtain ⟨j, there⟩ := Option.isSome_iff_exists.mp
      (h.distinct.present _ (mem_of_getElem? found))
    exact ⟨h.move found (moves.state_eq there) rfl rfl distinct, same _ rfl⟩
  | executed found phase _ there =>
    refine ⟨h.move found ?_ rfl rfl distinct, same _ rfl⟩
    rw [phase]
    rfl
  | edited found there edits => exact h.edit found there edits rfl rfl distinct

theorem JobService.New.living {s : JobService} (new : s.New) (early : Prop) :
    Living early ⟨s, [], []⟩ := by
  refine ⟨new.distinct, fun job has => ?_, by simp, fun ok => ?_⟩
  · rw [System.Has, new.absent] at has
    cases has
  · rw [total, new.counters.2.2.1, new.counters.2.2.2, ite_self]
    rfl

/-- A run that keeps to the conditions keeps the invariant, and brings all jobs forward. -/
theorem living_run {early : Prop} {s t : System} {labels : List JobLabel} (h : Living early s)
    (run : Run.Exec System.step (fun s label => Apart s label ∧ (early ∨ ¬CancelsPending s label))
      s labels t) : Living early t ∧ Onward early s t := by
  refine run.invariant (I := fun t => Living early t ∧ Onward early s t) ?_
    ⟨h, fun p id j found => ⟨j, found, .refl j⟩⟩
  rintro u label v ⟨living, onward⟩ ⟨apart, spares⟩ step
  have distinct := distinct_step living.distinct apart.supplies step
  obtain ⟨living', next⟩ := living_step living apart spares (transition step) distinct
  refine ⟨living', fun p id j found => ?_⟩
  obtain ⟨j', found', advances⟩ := onward p id j found
  obtain ⟨j'', found'', advances'⟩ := next p id j' found'
  exact ⟨j'', found'', advances.trans advances'⟩

/-- **Jobs.**  In every run in which clients supply no ID that the service has yet to make up,
states only go forward, a job that is done keeps its error and its statistics, and the totals
count every run that has ended once. -/
theorem settled_of_apart {service : JobService} (new : service.New) {before after : List JobLabel}
    {s t : System} (run : Run.Exec System.step Apart ⟨service, [], []⟩ before s)
    (rest : Run.Exec System.step Apart s after t) :
    Onward True s t ∧ ∀ ok, t.service.total ok = t.tally ok := by
  have free (s : System) (label : JobLabel) (apart : Apart s label) :
      Apart s label ∧ (True ∨ ¬CancelsPending s label) := ⟨apart, .inl trivial⟩
  obtain ⟨living, onward⟩ := living_run (living_run (new.living True) (run.mono free)).1
    (rest.mono free)
  exact ⟨onward, living.counted⟩

/-- A job is cancelled while it is pending. -/
theorem settled_of_apart_cancelled :
    ∃ s t, Run.Exec System.step Apart ⟨wiredService, [], []⟩
        [.insert 1 (selectOne "" "SELECT 1")] s ∧
      Run.Exec System.step Apart s [.cancel 2 "p" "job_1"] t ∧
      Onward True s t ∧ ∀ ok, t.service.total ok = t.tally ok := by
  have reached : (Run.after System.step Apart ⟨wiredService, [], []⟩
      ([.insert 1 (selectOne "" "SELECT 1")] ++ [.cancel 2 "p" "job_1"])).isSome := by
    decide +kernel
  obtain ⟨t, reached⟩ := Option.isSome_iff_exists.mp reached
  obtain ⟨s, run, rest⟩ := (Run.Exec.of_after reached).split
  exact ⟨s, t, run, rest, settled_of_apart wiredService_new run rest⟩

/-- **The life of a job.**  If, moreover, no job is cancelled while it is pending, a job that is
done keeps the time at which it ended as well. -/
theorem final_of_calm {service : JobService} (new : service.New) {before after : List JobLabel}
    {s t : System} (run : Run.Exec System.step Calm ⟨service, [], []⟩ before s)
    (rest : Run.Exec System.step Calm s after t) :
    (∀ p id j, s.service.job? p id = some j → ∃ j', t.service.job? p id = some j' ∧
      j.state.rank ≤ j'.state.rank ∧
      (j.state = .done → j'.state = .done ∧ j'.errorReason = j.errorReason ∧
        j'.errorMessage = j.errorMessage ∧ j'.errors = j.errors ∧
        j'.statistics = j.statistics ∧ j'.endedAt = j.endedAt)) ∧
    (t.runs.map JobRun.job).Nodup ∧ (∀ job, t.Has job ↔ job ∈ t.runs.map JobRun.job) ∧
    (∀ r ∈ t.runs, r.phase = .returned →
      (t.service.job? r.projectID r.jobID).any fun j => decide (j.state = .done)) ∧
    t.service.completedTotal = t.tally true ∧ t.service.failedTotal = t.tally false := by
  have calm (s : System) (label : JobLabel) (calm : Calm s label) :
      Apart s label ∧ (False ∨ ¬CancelsPending s label) := ⟨calm.1, .inr calm.2⟩
  obtain ⟨living, onward⟩ := living_run (living_run (new.living False) (run.mono calm)).1
    (rest.mono calm)
  refine ⟨fun p id j found => ?_, living.distinct.apart, fun job => ⟨living.run job, ?_⟩,
    fun r mem is => ?_, living.counted true, living.counted false⟩
  · obtain ⟨j', found', advances⟩ := onward p id j found
    refine ⟨j', found', advances.forward, fun done => ?_⟩
    obtain ⟨reason, message, errors⟩ := advances.error done
    exact ⟨advances.state done, reason, message, errors, advances.statistics done,
      (advances.endedAt done).resolve_left not_false⟩
  · intro ran
    obtain ⟨r, mem, rfl⟩ := mem_map.mp ran
    exact living.distinct.present r mem
  · obtain ⟨j, found⟩ := Option.isSome_iff_exists.mp (living.distinct.present r mem)
    have found : t.service.job? r.projectID r.jobID = some j := found
    rw [found, Option.any_some, decide_eq_true_eq]
    rcases living.agrees r mem j found with ⟨state, -⟩ | ⟨-, waits, -⟩
    · rw [state, is]
      rfl
    · rw [is] at waits
      cases waits

/-- A job runs to its end, is cancelled after that, and its run returns. -/
theorem final_of_calm_query :
    ∃ s t, Run.Exec System.step Calm ⟨wiredService, [], []⟩
        (.insert 1 (selectOne "" "SELECT 1") :: runToExecutor 0 ++
          [.run 0 (.complete (.error "no such table")), .run 0 (.finish 4)]) s ∧
      Run.Exec System.step Calm s [.cancel 5 "p" "job_1", .run 0 .leave] t ∧
      (∀ p id j, s.service.job? p id = some j → ∃ j', t.service.job? p id = some j' ∧
        j.state.rank ≤ j'.state.rank) ∧ t.service.failedTotal = t.tally false := by
  have reached : ((Run.after System.step Calm ⟨wiredService, [], []⟩
      (.insert 1 (selectOne "" "SELECT 1") :: runToExecutor 0 ++
        [.run 0 (.complete (.error "no such table")), .run 0 (.finish 4)])).bind fun s =>
      Run.after System.step Calm s [.cancel 5 "p" "job_1", .run 0 .leave]).isSome := by
    decide +kernel
  obtain ⟨t, reached⟩ := Option.isSome_iff_exists.mp reached
  obtain ⟨s, run, rest⟩ := Option.bind_eq_some_iff.mp reached
  have run := Run.Exec.of_after run
  have rest := Run.Exec.of_after rest
  obtain ⟨onward, -, -, -, -, failed⟩ := final_of_calm wiredService_new run rest
  refine ⟨s, t, run, rest, fun p id j found => ?_, failed⟩
  obtain ⟨j', found', forward, -⟩ := onward p id j found
  exact ⟨j', found', forward⟩

/-- A job is cancelled while it is pending, and ends again when its run finds that out. -/
theorem ended_twice :
    ∃ s t, Run.Exec System.step Apart ⟨wiredService, [], []⟩
        [.insert 1 (selectOne "" "SELECT 1"), .cancel 2 "p" "job_1"] s ∧
      Run.Exec System.step Apart s [.run 0 .enter, .run 0 (.accept 3)] t ∧
      (s.service.job? "p" "job_1").any (fun j => j.state = .done ∧ j.endedAt = 2) ∧
      (t.service.job? "p" "job_1").any (fun j => j.state = .done ∧ j.endedAt = 3) := by
  have reached : (Run.after System.step Apart ⟨wiredService, [], []⟩
      [.insert 1 (selectOne "" "SELECT 1"), .cancel 2 "p" "job_1"]).any fun s =>
      (s.service.job? "p" "job_1").any (fun j => j.state = .done ∧ j.endedAt = 2) &&
      (Run.after System.step Apart s [.run 0 .enter, .run 0 (.accept 3)]).any fun t =>
        (t.service.job? "p" "job_1").any (fun j => j.state = .done ∧ j.endedAt = 3) := by
    decide +kernel
  obtain ⟨s, run, is⟩ := (Option.any_eq_true _ _).mp reached
  rw [Bool.and_eq_true] at is
  obtain ⟨t, rest, later⟩ := (Option.any_eq_true _ _).mp is.2
  exact ⟨s, t, Run.Exec.of_after run, Run.Exec.of_after rest, is.1, later⟩

end LocaQL
