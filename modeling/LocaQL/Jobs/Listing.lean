import LocaQL.Jobs.Lifecycle
import LocaQL.Jobs.RequestIDs

/-!
# Listings of jobs

`jobs.list` sends the version of the project as an ETag, and answers a request that has the same
ETag with 304 Not Modified.  The version is raised when a job is started, finished or cancelled,
but neither when a job is inserted nor when the panic of an executor is recovered from, so a
client that has seen an empty listing is told that it is still current after a job was inserted
(`listed_stale`).

Between two listings with none of these in the project, the version tells whether anything that a
listing shows has changed (`listing_of_tracked`).  A listing depends on the records of a project,
without what no client is shown, and on nothing else: the order of the records is by the time of
their creation and by their IDs, which are distinct.
-/

namespace LocaQL

open List

open JobService (Edit)

/-! ## The listing -/

structure JobListFilters where
  stateFilter : String := ""
  userEmail : String := ""
  allUsers : Bool := false
  parentJobID : String := ""
  minCreated : Time := 0
  maxCreated : Time := 0
deriving Repr, DecidableEq

/-- The tests in the loop of `list`; a time that is zero is not given. -/
def JobListFilters.keeps (filters : JobListFilters) (jr : JobRecord) : Bool :=
  !(filters.stateFilter ≠ "" && jr.state.text ≠ filters.stateFilter) &&
  !(!filters.allUsers && filters.userEmail ≠ "" && jr.userEmail ≠ filters.userEmail) &&
  !(filters.parentJobID ≠ "" && jr.parentJobID ≠ filters.parentJobID) &&
  !(filters.minCreated ≠ 0 && jr.createdAt < filters.minCreated) &&
  !(filters.maxCreated ≠ 0 && filters.maxCreated < jr.createdAt)

/-- The order of a listing: the newest job first, and jobs of the same time by their IDs. -/
def NewestFirst (a b : JobRecord) : Prop :=
  b.createdAt < a.createdAt ∨ a.createdAt = b.createdAt ∧ b.jobID ≤ a.jobID

instance : DecidableRel NewestFirst := fun a b =>
  inferInstanceAs (Decidable (b.createdAt < a.createdAt ∨ a.createdAt = b.createdAt ∧
    b.jobID ≤ a.jobID))

/-- One page of a list, and the start of the next page if there is one. -/
def page {α : Type} (items : List α) (start size : Nat) : List α × String :=
  let start := min start items.length
  let stop := min (start + size) items.length
  ((items.take stop).drop start, if stop < items.length then toString stop else "")

/-- `list`: the jobs of a page, the start of the next one, and the version of the project. -/
def JobService.list (s : JobService) (projectID : String) (filters : JobListFilters)
    (start size : Nat) : List JobRecord × String × Nat :=
  let version := s.version projectID
  match s.jobsByProject.get? projectID with
  | none => ([], "", version)
  | some proj =>
    let all := proj.values.insertionSort NewestFirst
    let items := page (all.filter filters.keeps) start size
    (items.1, items.2, version)

/-- `base64.RawURLEncoding`. -/
def rawURLEncoding : List UInt8 → List Char
  | [] => []
  | [a] => [digit (a.toNat / 4), digit (a.toNat % 4 * 16)]
  | [a, b] => [digit (a.toNat / 4), digit (a.toNat % 4 * 16 + b.toNat / 16),
      digit (b.toNat % 16 * 4)]
  | a :: b :: c :: rest =>
    digit (a.toNat / 4) :: digit (a.toNat % 4 * 16 + b.toNat / 16) ::
      digit (b.toNat % 16 * 4 + c.toNat / 64) :: digit (c.toNat % 64) :: rawURLEncoding rest
where
  digit (n : Nat) : Char :=
    "ABCDEFGHIJKLMNOPQRSTUVWXYZabcdefghijklmnopqrstuvwxyz0123456789-_".toList.getD n 'A'

def encodePageToken (start : Nat) : String :=
  String.ofList (rawURLEncoding ("idx:" ++ toString start).toUTF8.toList)

/-- The token for the next page. -/
def nextPageToken (next : String) : String :=
  match next.toNat? with
  | some n => encodePageToken n
  | none => next

/-- The ETag of a version. -/
def etag (version : Nat) : String := "\"v" ++ toString version ++ "\""

/-- What `listJobs` answers. -/
inductive ListAnswer where
  | notModified (etag : String)
  | ok (etag : String) (body : Json)

/-- The body of a listing. -/
def JobService.listing (s : JobService) (projectID : String) (filters : JobListFilters)
    (start size : Nat) : Json :=
  let (items, next, version) := s.list projectID filters start size
  .obj ([("kind", .str "bigquery#jobList"), ("jobs", .arr (items.map renderJobResource)),
    ("etag", .str (etag version))] ++
    if next = "" then [] else [("nextPageToken", .str (nextPageToken next))])

/-- `listJobs`, with `checkETag`. -/
def JobService.listJobs (s : JobService) (ifNoneMatch projectID : String)
    (filters : JobListFilters) (start size : Nat) : ListAnswer :=
  let tag := etag (s.list projectID filters start size).2.2
  if ifNoneMatch = tag then .notModified tag
  else .ok tag (s.listing projectID filters start size)

/-! ## What a listing depends on -/

instance : Std.Total NewestFirst where
  total a b := by
    rcases lt_trichotomy a.createdAt b.createdAt with lt | eq | gt
    · exact .inr (.inl lt)
    · rcases String.le_total a.jobID b.jobID with le | ge
      · exact .inr (.inr ⟨eq.symm, le⟩)
      · exact .inl (.inr ⟨eq, ge⟩)
    · exact .inl (.inl gt)

instance : IsTrans JobRecord NewestFirst where
  trans a b c := by
    rintro (lt | ⟨eq, le⟩) (lt' | ⟨eq', le'⟩)
    · exact .inl (lt_trans lt' lt)
    · exact .inl (eq' ▸ lt)
    · exact .inl (eq ▸ lt')
    · exact .inr ⟨eq.trans eq', String.le_trans le' le⟩

theorem NewestFirst.jobID_eq {a b : JobRecord} (h : NewestFirst a b) (h' : NewestFirst b a) :
    a.jobID = b.jobID := by
  rcases h with lt | ⟨eq, le⟩
  · rcases h' with lt' | ⟨eq', -⟩
    · exact absurd lt (lt_asymm lt')
    · rw [eq'] at lt
      exact absurd lt (lt_irrefl _)
  · rcases h' with lt' | ⟨-, le'⟩
    · rw [eq] at lt'
      exact absurd lt' (lt_irrefl _)
    · exact String.le_antisymm le' le

/-- A page of the images is the image of the page. -/
theorem page_map {α β : Type} (f : α → β) (items : List α) (start size : Nat) :
    page (items.map f) start size = ((page items start size).1.map f, (page items start size).2) := by
  rw [page, page]
  dsimp only
  rw [length_map, map_drop, map_take]

namespace JobService

/-- The records of a project. -/
def records (s : JobService) (p : String) : List JobRecord :=
  GoMap.values ((s.jobsByProject.get? p).getD ∅)

theorem job?_eq (s : JobService) (p id : String) :
    s.job? p id = GoMap.get? ((s.jobsByProject.get? p).getD ∅) id := by
  rw [job?]
  cases s.jobsByProject.get? p with
  | none => exact (GoMap.get?_empty id).symm
  | some jobs => rfl

theorem mem_records {s : JobService} {p : String} {j : JobRecord} :
    j ∈ s.records p ↔ ∃ id, s.job? p id = some j := by
  simp only [records, job?_eq, GoMap.mem_values]

/-- The jobs that a listing is a page of. -/
def listed (s : JobService) (p : String) (filters : JobListFilters) : List JobRecord :=
  ((s.records p).insertionSort NewestFirst).filter filters.keeps

theorem list_eq (s : JobService) (p : String) (filters : JobListFilters) (start size : Nat) :
    s.list p filters start size =
      ((page (s.listed p filters) start size).1, (page (s.listed p filters) start size).2,
        s.version p) := by
  rw [list, listed, records]
  cases s.jobsByProject.get? p with
  | none =>
    have empty : GoMap.values (∅ : GoMap String JobRecord) = [] := rfl
    simp [page, empty]
  | some jobs => rfl

variable {s t : JobService} {p : String}

section

variable (named : s.Named)
  (same : ∀ id, (t.job? p id).map JobRecord.shown = (s.job? p id).map JobRecord.shown)

include named same

/-- Records that are shown alike are listed alike: their IDs are distinct, so that there is only
one way to sort them. -/
theorem shown_listed (filters : JobListFilters) :
    (t.listed p filters).map JobRecord.shown = (s.listed p filters).map JobRecord.shown := by
  have filtered (s : JobService) : (s.listed p filters).map JobRecord.shown =
      (((s.records p).map JobRecord.shown).insertionSort NewestFirst).filter filters.keeps := by
    rw [listed, ← map_insertionSort NewestFirst NewestFirst JobRecord.shown (s.records p)
      fun a _ b _ => Iff.rfl, filter_map]
    rfl
  have perm : ((t.records p).map JobRecord.shown).Perm ((s.records p).map JobRecord.shown) := by
    refine GoMap.perm_values fun id => ?_
    rw [← job?_eq, ← job?_eq, same]
  have sorted : ((t.records p).map JobRecord.shown).insertionSort NewestFirst =
      ((s.records p).map JobRecord.shown).insertionSort NewestFirst := by
    have sorts (l : List JobRecord) := perm_insertionSort NewestFirst l
    refine List.Perm.eq_of_pairwise ?_ (pairwise_insertionSort _ _)
      (pairwise_insertionSort _ _) ((sorts _).trans (perm.trans (sorts _).symm))
    intro a b memA memB ab ba
    obtain ⟨j, mem, rfl⟩ := mem_map.mp (perm.mem_iff.mp ((sorts _).mem_iff.mp memA))
    obtain ⟨j', mem', rfl⟩ := mem_map.mp ((sorts _).mem_iff.mp memB)
    obtain ⟨id, found⟩ := mem_records.mp mem
    obtain ⟨id', found'⟩ := mem_records.mp mem'
    have ids : id = id' := by
      rw [← (named p id j found).2, ← (named p id' j' found').2]
      exact ab.jobID_eq ba
    rw [ids, found'] at found
    rw [Option.some.inj found]
  rw [filtered, filtered, sorted]

/-- A listing depends on what is shown of the records, and on the version. -/
theorem listing_congr (version : t.version p = s.version p) (filters : JobListFilters)
    (start size : Nat) : t.listing p filters start size = s.listing p filters start size := by
  have shown (s : JobService) :
      (page (s.listed p filters) start size).1.map renderJobResource =
        (page ((s.listed p filters).map JobRecord.shown) start size).1.map renderJobResource ∧
      (page (s.listed p filters) start size).2 =
        (page ((s.listed p filters).map JobRecord.shown) start size).2 := by
    rw [page_map, map_map]
    exact ⟨rfl, rfl⟩
  have listed := shown_listed named same filters
  rw [listing, listing, list_eq, list_eq]
  dsimp only
  rw [(shown t).1, (shown t).2, (shown s).1, (shown s).2, listed, version]

end

/-! ## Versions -/

section

variable (s : JobService)

@[simp] theorem version_persistLocked (p : String) : s.persistLocked.version p = s.version p := by
  rw [persistLocked]
  split
  · rfl
  · rfl

theorem version_cleanup (now : Time) (p : String) :
    (s.cleanupExpiredRequestIDsLocked now).version p = s.version p := by
  rw [cleanup_eq]
  rfl

theorem version_created (now : Time) (opts : JobInsertOptions) (id p : String) :
    (s.created now opts id).version p = s.version p := by
  rw [created_eq, version_persistLocked, unsavedJob, remember_eq]
  rfl

theorem version_bump (p p' : String) :
    (s.bump p).version p' = s.version p' + if p' = p then 1 else 0 := by
  rw [bump, version, GoMap.get?_set]
  split
  next is =>
    rw [is]
    rfl
  · rfl

/-- A change raises the version of its project, if it raises any. -/
theorem version_edit (p id : String) (e : Edit) (p' : String) :
    (s.edit p id e).version p' = s.version p' + if e.bumped && p' = p then 1 else 0 := by
  have settled : (if e.counted then s.settle p id e.record else s.store p id e.record).version p' =
      s.version p' := by
    cases e.counted with
    | false => rfl
    | true =>
      obtain ⟨completed, failed, is⟩ := s.settle_eq p id e.record
      rw [if_pos rfl, is]
      rfl
  rw [edit_eq, version_persistLocked, unsaved]
  cases e.bumped with
  | false => exact settled
  | true =>
    rw [if_pos rfl, version_bump, settled, Bool.true_and]
    simp only [decide_eq_true_eq]

/-- Records of other projects stay as they are. -/
theorem job?_edit_of_ne {p p' : String} (id : String) (e : Edit) (id' : String) (other : p' ≠ p) :
    (s.edit p id e).job? p' id' = s.job? p' id' := by
  rw [job?_edit, if_neg]
  intro is
  exact other (Prod.mk.inj is).1

theorem job?_created_of_ne (now : Time) {opts : JobInsertOptions} {p : String} (id id' : String)
    (other : p ≠ opts.projectID) : (s.created now opts id).job? p id' = s.job? p id' := by
  rw [job?_created, if_neg]
  intro is
  exact other (Prod.mk.inj is).1

end

end JobService

/-! ## Steps that the version misses -/

/-- The insertion creates a job: it does not repeat a request that is remembered, and the ID that
it asks for, if any, is valid and free. -/
def JobService.Creates (s : JobService) (now : Time) (opts : JobInsertOptions) : Prop :=
  (s.cleanupExpiredRequestIDsLocked now).retried? opts.projectID opts.requestID = none ∧
    (GoText.trimSpaceStr opts.requestedJobID = "" ∨
      isValidJobID (GoText.trimSpaceStr opts.requestedJobID) ∧
        s.job? opts.projectID (GoText.trimSpaceStr opts.requestedJobID) = none)

/-- No job of the project is created, and no panic in the project is recovered from. -/
def Tracked (p : String) (s : System) : JobLabel → Prop
  | .insert now opts => opts.projectID = p → ¬s.service.Creates now opts
  | .run i (.recover _) => ∀ r, s.runs[i]? = some r → r.projectID ≠ p
  | _ => True

/-- What is shown of the records of a project. -/
def Shows (p : String) (shown : String → Option JobRecord) (s : System) : Prop :=
  ∀ id, (s.service.job? p id).map JobRecord.shown = shown id

section

variable {p : String} {shown : String → Option JobRecord} {s s' : System}

theorem tracks_of_shown (version : s'.service.version p = s.service.version p)
    (same : ∀ id, (s'.service.job? p id).map JobRecord.shown =
      (s.service.job? p id).map JobRecord.shown) :
    Run.Tracks (fun s => s.service.version p) (Shows p shown) s s' where
  le := Nat.le_of_eq version.symm
  kept _ shows id := (same id).trans (shows id)

theorem tracks_insert {now : Time} {opts : JobInsertOptions}
    {result : JobService × Except JobIDConflictError (JobRecord × Bool)}
    (inserts : s.service.Inserts now opts result) (service : s'.service = result.1)
    (tracked : opts.projectID = p → ¬s.service.Creates now opts) :
    Run.Tracks (fun s => s.service.version p) (Shows p shown) s s' := by
  cases inserts with
  | retried _ | refused _ =>
    refine tracks_of_shown ?_ fun id => ?_
    · rw [service, JobService.version_cleanup]
    · rw [service, JobService.job?_cleanup]
  | generated empty fresh =>
    have other : p ≠ (JobService.withTarget opts).projectID := by
      rw [JobService.withTarget_projectID]
      intro is
      exact tracked is.symm ⟨fresh, .inl empty⟩
    refine tracks_of_shown ?_ fun id => ?_
    · rw [service, JobService.version_created]
      exact s.service.version_cleanup now p
    · rw [service, JobService.job?_created_of_ne _ _ _ _ other, JobService.job?_countID,
        JobService.job?_cleanup]
  | supplied given fresh absent valid =>
    have other : p ≠ (JobService.withTarget opts).projectID := by
      rw [JobService.withTarget_projectID]
      intro is
      exact tracked is.symm ⟨fresh, .inr ⟨valid, absent⟩⟩
    refine tracks_of_shown ?_ fun id => ?_
    · rw [service, JobService.version_created, JobService.version_cleanup]
    · rw [service, JobService.job?_created_of_ne _ _ _ _ other, JobService.job?_cleanup]

/-- A change of a record raises the version, or shows nothing new. -/
theorem tracks_edit {p' id : String} {j : JobRecord} {e : Edit}
    (found : s.service.job? p' id = some j) (service : s'.service = s.service.edit p' id e)
    (bumped : p = p' → e.bumped = true ∨ e.stored.shown = j.shown) :
    Run.Tracks (fun s => s.service.version p) (Shows p shown) s s' := by
  by_cases project : p = p'
  · subst project
    rcases bumped rfl with bumped | same
    · refine .of_lt ?_
      rw [service, JobService.version_edit, bumped]
      simp
    · refine ⟨?_, fun _ shows id' => ?_⟩
      · rw [service, JobService.version_edit]
        exact Nat.le_add_right _ _
      · rw [← shows id', service, JobService.job?_edit]
        split
        next is =>
          rw [(Prod.mk.inj is).2, found, Option.map_some, Option.map_some, same]
        · rfl
  · refine tracks_of_shown ?_ fun id' => ?_
    · rw [service, JobService.version_edit, decide_eq_false project, Bool.and_false]
      rfl
    · rw [service, JobService.job?_edit_of_ne _ _ _ _ project]

/-- A job that was cancelled while it was pending is stopped once more: nothing that is shown
changes. -/
theorem StoppedEarly.shown_stopped {j : JobRecord} (h : StoppedEarly j) (now : Time) :
    (⟨JobService.stopped j "job cancelled before execution" now, true, false⟩ : Edit).stored.shown =
      j.shown := by
  rw [JobService.Edit.stored, if_pos rfl, JobService.stopped, JobRecord.shown, JobRecord.shown,
    ← h.reason, ← h.message]
  dsimp only
  rw [← h.state]

/-- A run raises the version when it writes the record of its job, unless it stops a job that has
been stopped, or recovers from a panic. -/
theorem Edits.bumped_or_shown {r : JobRun} {j : JobRecord} {label : RunLabel} {e : Edit}
    {phase : Phase} (h : Edits r j label e phase) (agrees : Agrees True r.phase j)
    (calm : ∀ now, label ≠ .recover now) : e.bumped = true ∨ e.stored.shown = j.shown := by
  cases h with
  | stop slots waits cancelled _ =>
    rcases agrees with ⟨state, mark⟩ | ⟨-, -, stopped⟩
    · rw [mark (state.trans (Phase.state_of_waiting waits))] at cancelled
      cases cancelled
    · exact .inr (stopped.shown_stopped _)
  | start _ _ | finish _ => exact .inl rfl
  | recover _ => exact absurd rfl (calm _)

attribute [local irreducible] JobService.edit JobService.newJobServiceWithPersistence

theorem tracks_step {label : JobLabel} (h : Living True s) (apart : Apart s label)
    (tracked : Tracked p s label) (transition : Transition s label s') :
    Run.Tracks (fun s => s.service.version p) (Shows p shown) s s' := by
  have same (s' : System) (service : s'.service = s.service) :
      Run.Tracks (fun s => s.service.version p) (Shows p shown) s s' := by
    refine tracks_of_shown ?_ fun id => ?_
    · rw [service]
    · rw [service]
  cases transition with
  | inserted inserts => exact tracks_insert inserts rfl tracked
  | cancelled found => exact tracks_edit found rfl fun _ => .inl rfl
  | unknown _ => exact same s rfl
  | restarted path => cases apart
  | moved _ _ | executed _ _ _ _ => exact same _ rfl
  | edited found there edits =>
    refine tracks_edit there rfl fun project => ?_
    refine edits.bumped_or_shown (h.agrees _ (mem_of_getElem? found) _ there) ?_
    rintro now rfl
    exact tracked _ found project.symm

end

/-! ## Runs -/

theorem etag_inj {m n : Nat} (h : etag m = etag n) : m = n := by
  have texts := congrArg String.toList h
  rw [etag, etag, String.toList_append, String.toList_append, String.toList_append,
    String.toList_append, append_cancel_right_eq, append_cancel_left_eq] at texts
  exact GoText.repr_toList_inj texts

/-- **Listings.**  Between two listings of a project of which no job is created and no panic is
recovered from, the same version means the same contents, and the answer that nothing has changed
is given only if the listing that the client holds is current. -/
theorem listing_of_tracked {service : JobService} (new : service.New) {before after : List JobLabel}
    {s t : System} {p : String} (run : Run.Exec System.step Apart ⟨service, [], []⟩ before s)
    (rest : Run.Exec System.step (fun u label => Apart u label ∧ Tracked p u label) s after t)
    (filters : JobListFilters) (start size : Nat) :
    (t.service.version p = s.service.version p →
      t.service.listing p filters start size = s.service.listing p filters start size) ∧
    ∀ header tag body, s.service.listJobs header p filters start size = .ok tag body →
      ∀ tag', t.service.listJobs tag p filters start size = .notModified tag' →
        t.service.listing p filters start size = body := by
  have free (u : System) (label : JobLabel) (apart : Apart u label) :
      Apart u label ∧ (True ∨ ¬CancelsPending u label) := ⟨apart, .inl trivial⟩
  have living := (living_run (new.living True) (run.mono free)).1
  have named := (named_of_new new (run.mono fun _ _ _ => trivial)).2.1
  have lives := rest.with_invariant (I := Living True) (fun u label v living guard step =>
    (living_step living guard.1 (.inl trivial) (transition step)
      (distinct_step living.distinct guard.1.supplies step)).1) living
  have tracks : Run.Tracks (fun u => u.service.version p)
      (Shows p fun id => (s.service.job? p id).map JobRecord.shown) s t :=
    lives.tracks fun u label v guard step =>
      tracks_step guard.2 guard.1.1 guard.1.2 (transition step)
  have contents (same : t.service.version p = s.service.version p) :
      t.service.listing p filters start size = s.service.listing p filters start size :=
    JobService.listing_congr named (tracks.kept same fun _ => rfl) same filters start size
  refine ⟨contents, fun header tag body answered tag' unmodified => ?_⟩
  rw [JobService.listJobs, JobService.list_eq] at answered unmodified
  dsimp only at answered unmodified
  split at answered
  · cases answered
  split at unmodified
  next is =>
    rw [ListAnswer.ok.injEq] at answered
    rw [← answered.2]
    exact contents (etag_inj (is.symm.trans answered.1.symm))
  · cases unmodified

/-- While the executor of a job returns, nothing that is listed changes. -/
theorem listing_of_tracked_query :
    ∃ s t, Run.Exec System.step Apart ⟨wiredService, [], []⟩
        (.insert 1 (selectOne "" "SELECT 1") :: runToExecutor 0) s ∧
      Run.Exec System.step (fun u label => Apart u label ∧ Tracked "p" u label) s
        [.run 0 (.complete (.error "no such table"))] t ∧
      t.service.listing "p" {} 0 10 = s.service.listing "p" {} 0 10 := by
  have reached : (Run.after System.step Apart ⟨wiredService, [], []⟩
      (.insert 1 (selectOne "" "SELECT 1") :: runToExecutor 0)).any fun s =>
      (s.step (.run 0 (.complete (.error "no such table")))).any fun t =>
        decide (t.service.version "p" = s.service.version "p") := by decide +kernel
  obtain ⟨s, run, is⟩ := (Option.any_eq_true _ _).mp reached
  obtain ⟨t, step, same⟩ := (Option.any_eq_true _ _).mp is
  have run := Run.Exec.of_after run
  have rest : Run.Exec System.step (fun u label => Apart u label ∧ Tracked "p" u label) s
      [.run 0 (.complete (.error "no such table"))] t := .cons ⟨trivial, trivial⟩ step .nil
  exact ⟨s, t, run, rest,
    (listing_of_tracked wiredService_new run rest {} 0 10).1 (of_decide_eq_true same)⟩

/-- A job is inserted, and the version stays: a client that has seen no jobs is told that nothing
has changed. -/
theorem listed_stale :
    ∃ t, Run.Exec System.step Apart ⟨wiredService, [], []⟩ [.insert 1 (selectOne "" "SELECT 1")] t ∧
      (wiredService.list "p" {} 0 10).1.map (·.jobID) = [] ∧
      (t.service.list "p" {} 0 10).1.map (·.jobID) = ["job_1"] ∧
      (∃ body, wiredService.listJobs "" "p" {} 0 10 = .ok (etag 0) body) ∧
      t.service.listJobs (etag 0) "p" {} 0 10 = .notModified (etag 0) := by
  have reached : (Run.after System.step Apart ⟨wiredService, [], []⟩
      [.insert 1 (selectOne "" "SELECT 1")]).any fun t =>
      decide ((t.service.list "p" {} 0 10).1.map (·.jobID) = ["job_1"]) &&
        decide ((t.service.list "p" {} 0 10).2.2 = 0) := by decide +kernel
  obtain ⟨t, run, is⟩ := (Option.any_eq_true _ _).mp reached
  rw [Bool.and_eq_true, decide_eq_true_eq, decide_eq_true_eq] at is
  refine ⟨t, Run.Exec.of_after run, rfl, is.1, ⟨_, rfl⟩, ?_⟩
  rw [JobService.listJobs, is.2]
  exact if_pos rfl

end LocaQL
