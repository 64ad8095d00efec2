import LocaQL.Jobs.RequestIDs
import LocaQL.Lib.SqlLex

/-!
# Scripts

`insertJob` takes a text for a script if `splitScriptStatements` cuts it into more than one part,
and `insertScriptWithChildren` inserts a child for each part.  The parts are counted and not used:
every child gets the text of the whole script, so that each statement is executed once for every
part that there is (`executed_twice`).  A semicolon in a literal or a comment counts as well.

A text whose statements are executed once is one that is not cut at all, or has no statements;
no script with two statements is (`once_iff`).
-/

namespace LocaQL

open List

open JobService (Edit)

/-! ## Insertion of a script -/

namespace JobService

/-- `insertScriptWithChildren`; the clock gives the times of the insertions. -/
def insertScriptWithChildren (s : JobService) (clock : Nat → Time) (opts : JobInsertOptions) :
    JobService × Except JobIDConflictError (JobRecord × List (Option JobRecord) × Bool) :=
  match s.insert (clock 0) opts with
  | (s, .error err) => (s, .error err)
  | (s, .ok (parent, false)) => (s, .ok (parent, [], false))
  | (s, .ok (parent, true)) =>
    let parts := splitScriptStatements opts.queryText
    let r := insertChildren opts parent.jobID s (parts.mapIdx fun i part => (clock (i + 1), part))
    (r.1, .ok (parent, r.2, true))

/-- The end of `insertJob`: the job, its children, and whether it was created. -/
def insertJob (s : JobService) (clock : Nat → Time) (opts : JobInsertOptions) :
    JobService × Except JobIDConflictError (JobRecord × List (Option JobRecord) × Bool) :=
  if 1 < (splitScriptStatements opts.queryText).length then
    s.insertScriptWithChildren clock { opts with isScript := true }
  else
    match s.insert (clock 0) opts with
    | (s, .error err) => (s, .error err)
    | (s, .ok (jr, created)) => (s, .ok (jr, [], created))

end JobService

/-- The statements that the executor of a job is given. -/
def JobRecord.executed (j : JobRecord) : List (List Char) :=
  if j.jobType = .query then SqlLex.statements j.queryText.toList else []

/-- Over a job and its children, each statement of the text is executed at most once, and each
child executes the statement that has its place in the text. -/
structure OncePerStatement (text : String) (parent : JobRecord)
    (children : List (Option JobRecord)) : Prop where
  once : ∀ x, ((parent :: children.filterMap id).flatMap JobRecord.executed).count x ≤
    (SqlLex.statements text.toList).count x
  inOrder : ∀ (i : Nat) (j : JobRecord), children[i]? = some (some j) →
    j.executed = (SqlLex.statements text.toList)[i]?.toList

/-! ## Parts -/

theorem length_splitScriptStatements (query : String) :
    (splitScriptStatements query).length =
      max 1 ((query.toList.splitOn ';').filter fun part =>
        part.any fun c => !GoText.isSpace c).length := by
  have nonblank (part : List Char) :
      (!(GoText.trimSpace part).isEmpty) = part.any fun c => !GoText.isSpace c := by
    rw [Bool.eq_iff_iff, Bool.not_eq_true', ← Bool.not_eq_true, List.isEmpty_iff,
      GoText.trimSpace_eq_nil_iff, any_eq_true]
    push Not
    simp only [Bool.not_eq_true', Bool.not_eq_true]
  have parts : (((query.toList.splitOn ';').map GoText.trimSpace).filter fun p => !p.isEmpty).length
      = ((query.toList.splitOn ';').filter fun part => part.any fun c => !GoText.isSpace c).length := by
    rw [filter_map, length_map]
    simp only [Function.comp_def, nonblank]
  rw [← parts, splitScriptStatements]
  split
  next none => rw [none]; rfl
  next some =>
    have pos := length_pos_iff.mpr some
    rw [length_map]
    omega

/-- A text with two statements is cut. -/
theorem one_lt_length_of_statements {query : String}
    (two : 2 ≤ (SqlLex.statements query.toList).length) :
    1 < (splitScriptStatements query).length := by
  have parts := SqlLex.length_statements_le query.toList
  rw [length_splitScriptStatements]
  omega

/-! ## Children -/

variable {children : List (Option JobRecord)} {parent : JobRecord} {text : String}

namespace JobService

attribute [local irreducible] created withTarget cleanupExpiredRequestIDsLocked

/-- A job that is inserted without IDs is created. -/
theorem insert_fresh (s : JobService) (now : Time) (opts : JobInsertOptions)
    (request : opts.requestID = "") (job : opts.requestedJobID = "") :
    (s.insert now opts).2 =
      .ok (newJob (withTarget opts) (generatedJobID (s.counter + 1)) now, true) := by
  have fresh : (s.cleanupExpiredRequestIDsLocked now).retried? (withTarget opts).projectID
      (withTarget opts).requestID = none := by
    rw [withTarget_requestID, request, retried?, if_pos rfl]
  have blank : GoText.trimSpaceStr "" = "" := by decide
  rw [insert, fresh, withTarget_requestedJobID, job, resolveJobIDLocked, blank, if_pos rfl,
    counter_cleanup]

theorem queryText_withTarget (opts : JobInsertOptions) :
    (withTarget opts).queryText = opts.queryText := by
  obtain ⟨_, _, is⟩ := withTarget_cases opts
  rw [is]

theorem normalizeJobType_withTarget (opts : JobInsertOptions) :
    normalizeJobType (withTarget opts) = normalizeJobType opts := by
  obtain ⟨_, _, is⟩ := withTarget_cases opts
  rw [is]
  rfl

variable {opts : JobInsertOptions} {s : JobService}

theorem normalizeJobType_query (script : opts.isScript = false) (type : opts.jobType = "query") :
    normalizeJobType opts = .query := by
  rw [normalizeJobType, script, type]
  decide +kernel

/-- The record of a job that is created has the text and the type that it is given. -/
theorem record_of_created {now : Time} {j : JobRecord}
    (created : (s.insert now opts).2 = .ok (j, true)) :
    j.queryText = opts.queryText ∧ j.jobType = normalizeJobType opts := by
  have inserts := s.inserts now opts
  generalize s.insert now opts = result at inserts created
  cases inserts with
  | retried _ | refused _ => cases created
  | generated _ _ | supplied _ _ _ _ =>
    rw [Except.ok.injEq, Prod.mk.injEq] at created
    rw [← created.1]
    exact ⟨queryText_withTarget opts, normalizeJobType_withTarget opts⟩

/-- Every child is a query with the text of the whole script. -/
theorem insertChildren_spec (opts : JobInsertOptions) (parentJobID : String) (s : JobService)
    (parts : List (Time × String)) :
    (insertChildren opts parentJobID s parts).2.length = parts.length ∧
    ∀ c ∈ (insertChildren opts parentJobID s parts).2, ∃ j, c = some j ∧
      j.queryText = opts.queryText ∧ j.jobType = .query := by
  induction parts generalizing s with
  | nil => exact ⟨rfl, fun c mem => by cases mem⟩
  | cons part parts ih =>
    have child := s.insert_fresh part.1 (childOptions opts parentJobID) rfl rfl
    obtain ⟨length, each⟩ := ih (s.insert part.1 (childOptions opts parentJobID)).1
    rw [insertChildren]
    refine ⟨congrArg (· + 1) length, fun c mem => ?_⟩
    rcases mem_cons.mp mem with rfl | mem
    · rw [child]
      exact ⟨_, rfl, queryText_withTarget _, (normalizeJobType_withTarget _).trans
        (normalizeJobType_query rfl rfl)⟩
    · exact each c mem

/-- A script that is created has a child for each of its parts. -/
theorem children_of_created {s' : JobService} {clock : Nat → Time}
    (several : 1 < (splitScriptStatements opts.queryText).length)
    (inserted : s.insertJob clock opts = (s', .ok (parent, children, true))) :
    parent.jobType = .script ∧
      children.length = (splitScriptStatements opts.queryText).length ∧
      ∀ c ∈ children, ∃ j, c = some j ∧ j.queryText = opts.queryText ∧ j.jobType = .query := by
  rw [insertJob, if_pos several, insertScriptWithChildren] at inserted
  cases first : s.insert (clock 0) { opts with isScript := true } with
  | mk service result =>
    rw [first] at inserted
    cases result with
    | error err => cases inserted
    | ok pair =>
      obtain ⟨j, created⟩ := pair
      cases created with
      | false => simp at inserted
      | true =>
        simp only [Prod.mk.injEq, Except.ok.injEq] at inserted
        obtain ⟨-, rfl, rfl, -⟩ := inserted
        have record := record_of_created (by rw [first])
        obtain ⟨length, each⟩ := insertChildren_spec { opts with isScript := true } j.jobID
          service ((splitScriptStatements opts.queryText).mapIdx
            fun i part => (clock (i + 1), part))
        exact ⟨record.2, length.trans length_mapIdx, each⟩

/-- A job that is no script has no children. -/
theorem job_of_created {s' : JobService} {clock : Nat → Time}
    (single : ¬1 < (splitScriptStatements opts.queryText).length)
    (inserted : s.insertJob clock opts = (s', .ok (parent, children, true))) :
    parent.queryText = opts.queryText ∧ parent.jobType = normalizeJobType opts ∧ children = [] := by
  rw [insertJob, if_neg single] at inserted
  cases first : s.insert (clock 0) opts with
  | mk service result =>
    rw [first] at inserted
    cases result with
    | error err => cases inserted
    | ok pair =>
      obtain ⟨j, created⟩ := pair
      simp only [Prod.mk.injEq, Except.ok.injEq] at inserted
      obtain ⟨-, rfl, rfl, rfl⟩ := inserted
      have record := record_of_created (by rw [first])
      exact ⟨record.1, record.2, rfl⟩

end JobService

/-! ## Scripts -/

theorem JobRecord.executed_of_query {j : JobRecord} (same : j.queryText = text)
    (query : j.jobType = .query) : j.executed = SqlLex.statements text.toList := by
  rw [executed, if_pos query, same]

/-- A text that is not cut is executed by one job. -/
theorem once_of_single (same : parent.queryText = text) (query : parent.jobType = .query) :
    OncePerStatement text parent [] where
  once x := by
    rw [filterMap_nil, flatMap_singleton, JobRecord.executed_of_query same query]
  inOrder i j found := by cases found

/-- A text that is cut is executed once only if there is nothing to execute. -/
theorem once_iff_of_children (script : parent.jobType = .script) (several : 1 < children.length)
    (each : ∀ c ∈ children, ∃ j, c = some j ∧ j.queryText = text ∧ j.jobType = .query) :
    OncePerStatement text parent children ↔ SqlLex.statements text.toList = [] := by
  have nothing : parent.executed = [] := by
    rw [JobRecord.executed, if_neg]
    rw [script]
    decide
  constructor
  · intro h
    have place (i : Nat) (bound : i < children.length) :
        SqlLex.statements text.toList = (SqlLex.statements text.toList)[i]?.toList := by
      obtain ⟨j, is, same, query⟩ := each _ (getElem_mem bound)
      have found : children[i]? = some (some j) := by
        rw [getElem?_eq_getElem bound, is]
      rw [← h.inOrder i j found]
      exact (JobRecord.executed_of_query same query).symm
    have first := place 0 (by omega)
    have second := place 1 several
    generalize SqlLex.statements text.toList = statements at first second
    cases statements with
    | nil => rfl
    | cons x rest =>
      cases rest with
      | nil => cases second
      | cons y rest => cases first
  · intro none
    have idle : ∀ j, some j ∈ children → j.executed = [] := by
      intro j mem
      obtain ⟨j', is, same, query⟩ := each _ mem
      rw [Option.some.inj is, JobRecord.executed_of_query same query, none]
    refine ⟨fun x => ?_, fun i j found => ?_⟩
    · have all : (parent :: children.filterMap id).flatMap JobRecord.executed = [] := by
        rw [flatMap_eq_nil_iff]
        intro j mem
        rcases mem_cons.mp mem with rfl | mem
        · exact nothing
        · obtain ⟨c, mem, is⟩ := mem_filterMap.mp mem
          rw [id] at is
          exact idle j (is ▸ mem)
      rw [all]
      exact Nat.zero_le _
    · rw [none, idle j (mem_of_getElem? found)]
      rfl

/-- **Scripts.**  Of a text that is submitted, each statement is executed once exactly if the
text is not cut into several parts, or has no statements.  For a text with two statements or more
this is never the case. -/
theorem once_iff {s s' : JobService} {clock : Nat → Time} {opts : JobInsertOptions}
    (query : normalizeJobType opts = .query) {parent : JobRecord}
    {children : List (Option JobRecord)}
    (inserted : s.insertJob clock opts = (s', .ok (parent, children, true))) :
    (OncePerStatement opts.queryText parent children ↔
      (splitScriptStatements opts.queryText).length ≤ 1 ∨
        SqlLex.statements opts.queryText.toList = []) ∧
    (2 ≤ (SqlLex.statements opts.queryText.toList).length →
      ¬OncePerStatement opts.queryText parent children) := by
  have iff : OncePerStatement opts.queryText parent children ↔
      (splitScriptStatements opts.queryText).length ≤ 1 ∨
        SqlLex.statements opts.queryText.toList = [] := by
    by_cases several : 1 < (splitScriptStatements opts.queryText).length
    · obtain ⟨script, length, each⟩ := JobService.children_of_created several inserted
      rw [once_iff_of_children script (length ▸ several) each,
        or_iff_right (Nat.not_le.mpr several)]
    · obtain ⟨same, type, rfl⟩ := JobService.job_of_created several inserted
      have once := once_of_single same (type.trans query)
      exact ⟨fun _ => .inl (Nat.not_lt.mp several), fun _ => once⟩
  refine ⟨iff, fun two once => ?_⟩
  rcases iff.mp once with single | none
  · exact absurd (one_lt_length_of_statements two) (Nat.not_lt.mpr single)
  · rw [none] at two
    cases two

/-- A text that is one statement is executed once. -/
theorem once_iff_single :
    ∃ s' parent children, wiredService.insertJob (fun _ => 1) (selectOne "" "SELECT ')'") =
        (s', .ok (parent, children, true)) ∧
      OncePerStatement "SELECT ')'" parent children := by
  have query : normalizeJobType (selectOne "" "SELECT ')'") = .query := by decide +kernel
  have created : (wiredService.insertJob (fun _ => 1) (selectOne "" "SELECT ')'")).2.toOption.any
      fun result => result.2.2 := by decide +kernel
  cases inserted : wiredService.insertJob (fun _ => 1) (selectOne "" "SELECT ')'") with
  | mk s' result =>
    rw [inserted] at created
    cases result with
    | error err => cases created
    | ok triple =>
      obtain ⟨parent, children, new⟩ := triple
      have new : new = true := created
      subst new
      exact ⟨s', parent, children, rfl,
        (once_iff query inserted).1.mpr (.inl (by decide +kernel))⟩

/-- Two insertions in one script are executed by each of the two children, and a semicolon in a
literal makes a script of one statement. -/
theorem executed_twice :
    (∃ s' parent children, wiredService.insertJob (fun _ => 1)
        (selectOne "" "INSERT INTO ds.t VALUES (1); INSERT INTO ds.t VALUES (2)") =
          (s', .ok (parent, children, true)) ∧
      children.length = 2 ∧
      ¬OncePerStatement "INSERT INTO ds.t VALUES (1); INSERT INTO ds.t VALUES (2)" parent
        children) ∧
    (SqlLex.statements "INSERT INTO ds.t VALUES (';')".toList).length = 1 ∧
    (splitScriptStatements "INSERT INTO ds.t VALUES (';')").length = 2 := by
  refine ⟨?_, by decide +kernel, by decide +kernel⟩
  let opts := selectOne "" "INSERT INTO ds.t VALUES (1); INSERT INTO ds.t VALUES (2)"
  have parts : (splitScriptStatements opts.queryText).length = 2 := by decide +kernel
  have created : (wiredService.insertJob (fun _ => 1) opts).2.toOption.any
      fun result => result.2.2 := by decide +kernel
  cases inserted : wiredService.insertJob (fun _ => 1) opts with
  | mk s' result =>
    rw [inserted] at created
    cases result with
    | error err => cases created
    | ok triple =>
      obtain ⟨parent, children, new⟩ := triple
      have new : new = true := created
      subst new
      obtain ⟨script, length, each⟩ :=
        JobService.children_of_created (by rw [parts]; decide) inserted
      rw [parts] at length
      refine ⟨s', parent, children, rfl, length, fun once => ?_⟩
      have none := (once_iff_of_children script (by rw [length]; decide) each).mp once
      revert none
      decide +kernel

end LocaQL
