import LocaQL.Catalog.Invariants
import LocaQL.Sql.Server

/-!
# What `ALTER TABLE` does to tables

An `ALTER TABLE` statement is carried out by one of its executors.  Each of them reads the
table, resolves its clauses against the schema that it read, and commits the columns that are
left.  A property of records is an invariant of these statements if it survives the three
changes of columns, and a drop of columns that panics half way
(`all_executePersistentAlterTableStatement`).
-/

namespace LocaQL.Sql

open List

open TableService (All Seeds Purges stamp torn)

/-! ## The changes -/

def addColumns (t : TableRecord) (newFields : List TableField) : TableRecord :=
  { t with
    schema := t.schema ++ newFields
    rows := t.rows.map fun row => row ++ newFields.map fun _ => storedNullCell }

def dropColumns (t : TableRecord) (dropNames : List String) : TableRecord :=
  { t with
    schema := filterColumns t.schema (dropColumnIndexSet t.schema dropNames)
    rows := t.rows.map fun row => filterColumns row (dropColumnIndexSet t.schema dropNames) }

def renameColumns (t : TableRecord) (renames : List (String × String)) : TableRecord :=
  { t with schema := t.schema.map (renameField renames) }

section

variable (s : TableService) (now : Time) (path : TableReference) (v : Nat)

theorem addColumnsIfVersion_eq (newFields : List TableField) :
    s.addColumnsIfVersion now path v newFields =
      s.commitIfVersion now path v fun t => .ok (addColumns t newFields) := rfl

theorem renameColumnsIfVersion_eq (renames : List (String × String)) :
    s.renameColumnsIfVersion now path v renames =
      s.commitIfVersion now path v fun t => .ok (renameColumns t renames) := rfl

end

/-! ## What the clauses resolve to -/

variable {schema : List TableField} {clauses : List RenameColumnClause}
  {renames : GoMap String String}

/-- Only columns that are not there yet are added. -/
theorem resolveAlterTableNewFields_ok {clauses : List AddColumnClause} {fields : List TableField}
    (h : resolveAlterTableNewFields schema clauses = .ok fields) :
    fields = (clauses.map (·.field)).filter fun f => !hasColumn schema f.name := by
  induction clauses generalizing fields with
  | nil =>
    cases h
    rfl
  | cons clause rest ih =>
    rw [resolveAlterTableNewFields] at h
    simp only [map_cons]
    split at h
    next there =>
      rw [filter_cons_of_neg (by simpa using there)]
      split at h
      · exact ih h
      · cases h
    next missing =>
      rw [filter_cons_of_pos (by simpa using missing)]
      cases resolved : resolveAlterTableNewFields schema rest with
      | error err =>
        rw [resolved] at h
        cases h
      | ok others =>
        rw [resolved] at h
        cases h
        rw [ih resolved]

/-- Only names of the clauses are dropped. -/
theorem resolveAlterTableDropNames_ok {clauses : List DropColumnClause} {names : List String}
    (h : resolveAlterTableDropNames schema clauses = .ok names) : names ⊆ clauses.map (·.name) := by
  induction clauses generalizing names with
  | nil =>
    cases h
    exact nil_subset _
  | cons clause rest ih =>
    rw [resolveAlterTableDropNames] at h
    rw [map_cons]
    split at h
    · cases resolved : resolveAlterTableDropNames schema rest with
      | error err =>
        rw [resolved] at h
        cases h
      | ok others =>
        rw [resolved] at h
        cases h
        exact cons_subset_cons _ (ih resolved)
    · split at h
      · exact subset_cons_of_subset _ (ih h)
      · cases h

/-- The entries of a map of renames, each with the clause it stands for. -/
structure Resolved (schema : List TableField) (clauses : List RenameColumnClause)
    (renames : GoMap String String) : Prop where
  clause : ∀ old new, renames.get? old = some new →
    ∃ clause ∈ clauses, clause.oldName = old ∧ clause.newName = new
  fresh : ∀ old new, renames.get? old = some new → hasColumn schema new = false
  /-- Two clauses with new names that are the same but for case rename the same column. -/
  single : clauses.Pairwise (fun a b => ¬GoText.equalFold a.newName b.newName) →
    ∀ old new old' new', renames.get? old = some new → renames.get? old' = some new' →
      GoText.equalFold new new' → old = old'

theorem Resolved.nil (schema : List TableField) : Resolved schema [] ∅ where
  clause _ _ h := by simp at h
  fresh _ _ h := by simp at h
  single _ _ _ _ _ h := by simp at h

theorem Resolved.skip (h : Resolved schema clauses renames) (clause : RenameColumnClause) :
    Resolved schema (clauses ++ [clause]) renames where
  clause old new found := by
    obtain ⟨c, mem, names⟩ := h.clause old new found
    exact ⟨c, mem_append_left _ mem, names⟩
  fresh := h.fresh
  single distinct := h.single (pairwise_append.mp distinct).1

theorem equalFold_comm (s t : String) : GoText.equalFold s t = GoText.equalFold t s := by
  rw [GoText.equalFold, GoText.equalFold, Bool.beq_comm]

theorem Resolved.set (h : Resolved schema clauses renames) {clause : RenameColumnClause}
    (fresh : hasColumn schema clause.newName = false) :
    Resolved schema (clauses ++ [clause]) (renames.set clause.oldName clause.newName) where
  clause old new found := by
    rw [GoMap.get?_set] at found
    split at found
    next here =>
      cases found
      exact ⟨clause, by simp, here.symm, rfl⟩
    · obtain ⟨c, mem, names⟩ := h.clause old new found
      exact ⟨c, mem_append_left _ mem, names⟩
  fresh old new found := by
    rw [GoMap.get?_set] at found
    split at found
    · cases found
      exact fresh
    · exact h.fresh old new found
  single distinct old new old' new' found found' same := by
    obtain ⟨before, -, last⟩ := pairwise_append.mp distinct
    -- an entry from an earlier clause has another new name than the last clause
    have other {k v : String} (earlier : renames.get? k = some v) :
        ¬GoText.equalFold v clause.newName := by
      obtain ⟨c, mem, -, rfl⟩ := h.clause k v earlier
      exact last c mem clause (by simp)
    rw [GoMap.get?_set] at found found'
    split at found
    next here =>
      cases found
      split at found'
      next here' => rw [here, here']
      · rw [equalFold_comm] at same
        exact absurd same (other found')
    · split at found'
      · cases found'
        exact absurd same (other found)
      · exact h.single before old new old' new' found found' same

theorem resolveAlterTableRenames_ok {before : List RenameColumnClause}
    {result : GoMap String String} (start : Resolved schema before renames)
    (h : resolveAlterTableRenames schema clauses renames = .ok result) :
    Resolved schema (before ++ clauses) result := by
  induction clauses generalizing before renames with
  | nil =>
    cases h
    rwa [append_nil]
  | cons clause rest ih =>
    rw [append_cons]
    rw [resolveAlterTableRenames] at h
    split at h
    · cases h
    next fresh =>
      split at h
      · exact ih (start.set (by simpa using fresh)) h
      · split at h
        · exact ih (start.skip clause) h
        · cases h

/-! ## The executors -/

theorem all_commitColumns {P : TableReference → TableRecord → Prop} {β : Type}
    {tables : TableService} {resolved : Result (List β)}
    {commit : List β → TableService × Result Unit} (h : All P tables)
    (keeps : ∀ columns, resolved = .ok columns → All P (commit columns).1) :
    All P (commitColumns tables resolved commit).1 := by
  rw [commitColumns.eq_def]
  split
  · exact h
  · exact h
  · exact keeps _ rfl

section

variable [GoFloat] {P : TableReference → TableRecord → Prop} {s : Server} {now : Time}
  {projectID : String} {queryText : List Char}

theorem executeAlterTable_pass {α : Type} {parsed : Option (Result (AlterTable α))}
    {refusesViews : Bool}
    {change : TableService → TableReference → TableRecord → α → TableService × Result Unit}
    (h : (executeAlterTable now s projectID parsed refusesViews change).2 = none) :
    (executeAlterTable now s projectID parsed refusesViews change).1 = s := by
  rw [executeAlterTable.eq_def] at h ⊢
  split at h
  · rfl
  · cases h
  dsimp only at h
  split at h
  · cases h
  · split at h
    · split at h <;> cases h
    · split at h <;> cases h

/-- A statement is carried out by one of the executors, on the state it finds. -/
theorem executePersistentAlterTableStatement_cases {motive : Outcome → Prop}
    (add : motive (executePersistentAlterTableAddColumnsStatement now s projectID queryText))
    (drop : motive (executePersistentAlterTableDropColumnsStatement now s projectID queryText))
    (rename : motive (executePersistentAlterTableRenameColumnsStatement now s projectID queryText))
    (renameTo : motive (executePersistentAlterTableRenameToStatement now s projectID queryText))
    (options : motive (executePersistentAlterTableSetOptionsStatement now s projectID queryText)) :
    motive (executePersistentAlterTableStatement now s projectID queryText) := by
  have next {o : Outcome} {rest : Server → Outcome} (taken : motive o)
      (passes : o.2 = none → o.1 = s) (others : motive (rest s)) : motive (orElse o rest) := by
    rw [orElse]
    split
    · exact taken
    next pass =>
      rw [passes pass]
      exact others
  exact next add executeAlterTable_pass (next drop executeAlterTable_pass
    (next rename executeAlterTable_pass (next renameTo executeAlterTable_pass options)))

theorem all_executeAlterTable {α : Type} {parsed : Option (Result (AlterTable α))}
    {refusesViews : Bool}
    {change : TableService → TableReference → TableRecord → α → TableService × Result Unit}
    (h : All P s.tables) (seeds : Seeds P) (purges : Purges P)
    (keeps : ∀ stmt t, parsed = some (.ok stmt) →
      (s.tables.get now (localPath projectID stmt.target)).2 = some t →
      All P (change (s.tables.get now (localPath projectID stmt.target)).1
        (localPath projectID stmt.target) t stmt.action).1) :
    All P (executeAlterTable now s projectID parsed refusesViews change).1.tables := by
  rw [executeAlterTable.eq_def]
  split
  · exact h
  · exact h
  next stmt =>
    have there := h.get seeds purges now (localPath projectID stmt.target)
    dsimp only
    split
    · exact h
    split
    · split
      · exact there
      · exact there
    next t found =>
      split
      · exact there
      · exact keeps stmt t rfl found

/-- **The rule of `ALTER TABLE`.** -/
theorem all_executePersistentAlterTableStatement (h : All P s.tables) (seeds : Seeds P)
    (purges : Purges P)
    (add : ∀ stmt t fields, parsePersistentAlterTableAddColumns projectID queryText =
        some (.ok stmt) → (s.tables.get now (localPath projectID stmt.target)).2 = some t →
      resolveAlterTableNewFields t.schema stmt.action = .ok fields → P (localPath projectID stmt.target) t →
      P (localPath projectID stmt.target) (stamp now (addColumns t fields)))
    (drop : ∀ stmt t names, parsePersistentAlterTableDropColumns projectID queryText =
        some (.ok stmt) → (s.tables.get now (localPath projectID stmt.target)).2 = some t →
      resolveAlterTableDropNames t.schema stmt.action = .ok names → P (localPath projectID stmt.target) t →
      P (localPath projectID stmt.target) (torn names t) ∧
        P (localPath projectID stmt.target) (stamp now (dropColumns t names)))
    (rename : ∀ stmt t renames, parsePersistentAlterTableRenameColumns projectID queryText =
        some (.ok stmt) → (s.tables.get now (localPath projectID stmt.target)).2 = some t →
      resolveAlterTableRenames t.schema stmt.action ∅ = .ok renames → P (localPath projectID stmt.target) t →
      P (localPath projectID stmt.target) (stamp now (renameColumns t (renames.entries.map fun e => (e.1, e.2)))))
    (move : ∀ stmt t, parsePersistentAlterTableRenameTo projectID queryText = some (.ok stmt) →
      P (localPath projectID stmt.target) t →
      P ⟨projectID, stmt.target.datasetID, stmt.action⟩
        (stamp now { t with tableID := stmt.action })) :
    All P (executePersistentAlterTableStatement now s projectID queryText).1.tables := by
  have there (stmt : TableReference) : All P (s.tables.get now (localPath projectID stmt)).1 :=
    h.get seeds purges now _
  refine executePersistentAlterTableStatement_cases (motive := fun o => All P o.1.tables)
    ?_ ?_ ?_ ?_ ?_
  · refine all_executeAlterTable h seeds purges fun stmt t parsed found => ?_
    refine all_commitColumns (there _) fun fields resolved => ?_
    rw [addColumnsIfVersion_eq]
    refine h.commit_read seeds purges found fun t' holds changed => ?_
    cases changed
    exact add stmt t fields parsed found resolved holds
  · refine all_executeAlterTable h seeds purges fun stmt t parsed found => ?_
    refine all_commitColumns (there _) fun names resolved => ?_
    exact h.drop_read seeds purges found fun holds =>
      drop stmt t names parsed found resolved holds
  · refine all_executeAlterTable h seeds purges fun stmt t parsed found => ?_
    refine all_commitColumns (there _) fun columns resolved => ?_
    rw [renameColumnsIfVersion_eq]
    refine h.commit_read seeds purges found fun t' holds changed => ?_
    cases changed
    cases renames : resolveAlterTableRenames t.schema stmt.action ∅ with
    | error err =>
      rw [renames] at resolved
      cases resolved
    | ok m =>
      rw [renames] at resolved
      cases resolved
      exact rename stmt t m parsed found renames holds
  · refine all_executeAlterTable h seeds purges fun stmt t parsed found => ?_
    exact (there _).renameTableIfVersion seeds _ _ _ fun t holds => move stmt t parsed holds
  · exact all_executeAlterTable h seeds purges fun stmt t parsed found => there _

end

end LocaQL.Sql
