import LocaQL.Lib.Fallible
import LocaQL.Workspace.Planner
import Mathlib.Data.List.ReduceOption

/-!
# Applying a workspace

The tracked files of a workspace are a function of the paths (`tracked`), and a plan compares two
of them.  The actions of the plan are taken in an order, and each of them writes one path,
removes one path, or makes directories; a copy also uses up the temporary sibling of its path.

What stands at a path in the end is decided by the last action that touches it
(`last_touch`).  The target is like the source exactly if no temporary sibling of a file that is
written is a tracked file that has to stay (`converges_iff`).  Otherwise the plan is carried out
without an error, and the file is lost (`sibling_lost`).
-/

namespace LocaQL.Workspace

open FileTree Fallible List

/-! ## Tracked files -/

/-- The path is below a rule. -/
def Ruled (p : RelPath) : Prop := ∃ rule ∈ rules, locate rule ∈ p.prefixes ∧ locate rule ≠ p

/-- The path is the one of a tracked file, if there is a file. -/
def Trackable (p : RelPath) : Prop :=
  (p = locate manifest ∨ Ruled p) ∧ GoText.trimSpace p.render = p.render

instance (p : RelPath) : Decidable (Ruled p) := List.decidableBEx _ rules

instance (p : RelPath) : Decidable (Trackable p) := inferInstanceAs (Decidable (_ ∧ _))

/-- The content of a tracked file. -/
def tracked (t : Disk Bytes) (p : RelPath) : Option Bytes :=
  if Trackable p then t.files.get? p else none

variable {content : Bytes} {p q : RelPath} {actions : List ApplyAction}

theorem tracked_eq_some {t : Disk Bytes} :
    tracked t p = some content ↔ Trackable p ∧ t.files.get? p = some content := by
  rw [tracked]
  split
  next is => exact ⟨fun found => ⟨is, found⟩, fun h => h.2⟩
  next not => exact ⟨fun found => (by cases found), fun h => absurd h.1 not⟩

theorem render_inj (h : p.render = q.render) : p = q := by
  have same := congrArg clean h
  rw [clean_render, clean_render] at same
  exact congrArg Cleaned.path same

theorem locate_render (p : RelPath) : locate p.render = p := by
  rw [locate, clean_render]

/-- A character that a relative path starts with. -/
def Solid (c : Char) : Prop := GoText.isSpace c = false ∧ c ≠ '/' ∧ c ≠ '.'

instance (c : Char) : Decidable (Solid c) := inferInstanceAs (Decidable (_ ∧ _ ∧ _))

/-- The test of the first character. -/
def startsSolid (text : Text) : Bool := text.head?.all fun c => decide (Solid c)

theorem solid_of_startsSolid {text : Text} (h : startsSolid text = true) :
    ∀ c ∈ text.head?, Solid c := by
  intro c is
  rw [startsSolid, Option.mem_def.mp is] at h
  exact of_decide_eq_true h

theorem names_rule : ∀ rule ∈ rules, (locate rule).names = [rule] ∧ ∀ c ∈ rule.head?, Solid c := by
  have starts : ∀ rule ∈ rules, (locate rule).names = [rule] ∧ startsSolid rule = true := by
    decide
  exact fun rule mem => ⟨(starts rule mem).1, solid_of_startsSolid (starts rule mem).2⟩

theorem render_manifest : (locate manifest).render = manifest := by decide

theorem trimSpace_manifest : GoText.trimSpace manifest = manifest := by decide

theorem trackable_manifest : Trackable (locate manifest) :=
  ⟨.inl rfl, by rw [render_manifest, trimSpace_manifest]⟩

/-- A rule is a directory or not; there is no other error. -/
theorem walk_ok (t : Disk Bytes) {rule : Text} (mem : rule ∈ rules) :
    ∃ found, walk t rule = .ok found ∧
      ∀ x, x ∈ found ↔ ∃ p, (t.files.get? p).isSome ∧ locate rule ∈ p.prefixes ∧
        locate rule ≠ p ∧ x = p.render := by
  obtain ⟨names, -⟩ := names_rule rule mem
  -- below a rule that is no directory there is nothing
  have nothing {p : RelPath} (dir : ¬t.isDir (locate rule)) (file : (t.files.get? p).isSome)
      (above : locate rule ∈ p.prefixes) (ne : locate rule ≠ p) : False := by
    obtain ⟨content, found⟩ := Option.isSome_iff_exists.mp file
    exact dir (t.isDir_of_file found (RelPath.mem_prefixes.mp above) ne)
  rw [walk, Disk.stat]
  cases file : t.files.get? (locate rule) with
  | some content =>
    refine ⟨[], rfl, fun x => ⟨fun mem => absurd mem not_mem_nil, ?_⟩⟩
    rintro ⟨p, there, above, ne, -⟩
    have dir : ¬t.isDir (locate rule) := fun dir => by
      rw [Disk.file_none dir] at file
      cases file
    exact (nothing dir there above ne).elim
  | none =>
    by_cases dir : t.isDir (locate rule)
    · simp only [if_pos dir]
      refine ⟨_, rfl, fun x => ?_⟩
      rw [mem_map]
      constructor
      · rintro ⟨p, mem, rfl⟩
        obtain ⟨key, above⟩ := mem_filter.mp mem
        have there : (t.files.get? p).isSome := AList.lookup_isSome.mpr key
        refine ⟨p, there, of_decide_eq_true above, fun same => ?_, rfl⟩
        rw [← same, file] at there
        cases there
      · rintro ⟨p, there, above, -, rfl⟩
        refine ⟨p, mem_filter.mpr ⟨AList.lookup_isSome.mp there, decide_eq_true above⟩, rfl⟩
    · simp only [if_neg dir]
      have error : t.missing (locate rule) = .notExist := by
        rw [Disk.missing, if_neg]
        rw [Bool.not_eq_true, any_eq_false]
        intro a above
        have a_le : a.names <+: [rule] := names ▸ RelPath.mem_prefixes.mp above
        rcases prefix_cons_iff.mp a_le with top | ⟨rest, is, short⟩
        · have root : a = .root := RelPath.ext top
          rw [root, t.rooted.1]
          exact Bool.false_ne_true
        · have same : a = locate rule := RelPath.ext (by rw [is, prefix_nil.mp short, names])
          rw [same, file]
          exact Bool.false_ne_true
      rw [error]
      refine ⟨[], rfl, fun x => ⟨fun mem => absurd mem not_mem_nil, ?_⟩⟩
      rintro ⟨p, there, above, ne, -⟩
      exact (nothing dir there above ne).elim

theorem listTracked_ok (t : Disk Bytes) :
    ∃ listed, listTrackedWorkspacePaths t = .ok listed ∧
      ∀ rel, rel ∈ listed ↔ rel ≠ [] ∧ (rel = manifest ∨
        ∃ p, (t.files.get? p).isSome ∧ Ruled p ∧ rel = GoText.trimSpace p.render) := by
  obtain ⟨found, walked⟩ := mapM_ok (f := walk t) (l := rules) fun rule mem =>
    ⟨_, (walk_ok t mem).choose_spec.1⟩
  obtain ⟨onto, into⟩ := mem_of_mapM walked
  refine ⟨_, by rw [listTrackedWorkspacePaths, walked]; rfl, fun rel => ?_⟩
  rw [sortTexts, mem_insertionSort, mem_dedup, mem_filter, map_cons,
    mem_cons, trimSpace_manifest, mem_map, decide_eq_true_iff, and_comm]
  refine and_congr_right fun _ => or_congr_right ⟨?_, ?_⟩
  · rintro ⟨x, mem, rfl⟩
    obtain ⟨texts, there, inside⟩ := mem_flatten.mp mem
    obtain ⟨rule, ruled, is⟩ := into texts there
    obtain ⟨texts', is', spec⟩ := walk_ok t ruled
    cases is.symm.trans is'
    obtain ⟨p, file, above, ne, rfl⟩ := (spec x).mp inside
    exact ⟨p, file, ⟨rule, ruled, above, ne⟩, rfl⟩
  · rintro ⟨p, file, ⟨rule, ruled, above, ne⟩, rfl⟩
    obtain ⟨texts, there, is⟩ := onto rule ruled
    obtain ⟨texts', is', spec⟩ := walk_ok t ruled
    cases is.symm.trans is'
    exact ⟨p.render, mem_flatten.mpr ⟨texts, there, (spec _).mpr ⟨p, file, above, ne, rfl⟩⟩,
      rfl⟩

/-! ### Names with white space -/

/-- A path below a rule: a directory, and a name in it. -/
theorem Ruled.split (h : Ruled p) : ∃ (dir : RelPath) (last : Text),
    p.names = dir.names ++ [last] ∧ dir.names ≠ [] ∧ dir ≤ p ∧ dir ≠ p ∧
      p.render = dir.render ++ '/' :: last ∧
      (∀ c ∈ p.render.head?, Solid c) ∧
      ∀ name (proper : Proper name), Ruled (dir.push name proper) := by
  obtain ⟨rule, ruled, above, ne⟩ := h
  obtain ⟨names, solid⟩ := names_rule rule ruled
  have above := RelPath.mem_prefixes.mp above
  have le := RelPath.le_parent above ne
  obtain ⟨rest, first⟩ := le
  have nonempty : p.parent.names ≠ [] := by
    rw [← first, names]
    exact cons_ne_nil _ _
  have full : p.names ≠ [] := fun empty => nonempty (by rw [RelPath.parent]; simp [empty])
  have split : p.names = p.parent.names ++ [p.names.getLast full] :=
    (dropLast_append_getLast full).symm
  have text : p.render = p.parent.render ++ '/' :: p.names.getLast full := by
    rw [RelPath.render, RelPath.render, ← intercalate_concat nonempty, ← split]
  refine ⟨p.parent, p.names.getLast full, split, nonempty, p.parent_le, fun same => ?_, text,
    fun c head => ?_, fun name proper => ?_⟩
  · have length := congrArg (fun q => q.names.length) same
    have shorter : p.parent.names.length = p.names.length - 1 := length_dropLast
    have pos := length_pos_of_ne_nil full
    omega
  · refine solid c ?_
    obtain ⟨below, is⟩ := above
    rw [names] at is
    rw [RelPath.render, ← is] at head
    cases rule with
    | nil => exact absurd ruled (by decide)
    | cons d rule =>
      cases below with
      | nil => exact head
      | cons next below => exact head
  · refine ⟨rule, ruled, RelPath.mem_prefixes.mpr ⟨rest ++ [name], ?_⟩, fun same => ?_⟩
    · rw [← append_assoc, first]
      rfl
    · have length := congrArg (fun q => q.names.length) same
      rw [names] at length
      have longer : (p.parent.push name proper).names.length = p.parent.names.length + 1 :=
        length_append
      have pos := length_pos_of_ne_nil nonempty
      rw [longer] at length
      simp only [length_cons, length_nil] at length
      omega

/-- Trimming the path of a file reaches the last name only. -/
theorem trimSpace_render {dir : RelPath} {last : Text} {text : Text}
    (is : text = dir.render ++ '/' :: last) (solid : ∀ c ∈ text.head?, Solid c) :
    ∃ name, GoText.trimSpace text = dir.render ++ '/' :: name ∧ name ⊆ last := by
  obtain ⟨l, r, split, left, right, -⟩ := GoText.trimSpace_spec text
  -- nothing is trimmed on the left
  have none : l = [] := by
    cases l with
    | nil => rfl
    | cons c l =>
      have space := left c mem_cons_self
      rw [(solid c (by rw [split]; rfl)).1] at space
      cases space
  rw [none, nil_append] at split
  generalize GoText.trimSpace text = kept at split
  rw [is, ← singleton_append, ← append_assoc] at split
  rcases append_eq_append_iff.mp split with ⟨name, is, inside⟩ | ⟨cut, is, inside⟩
  · refine ⟨name, by rw [is, append_assoc]; rfl, ?_⟩
    rw [inside]
    exact subset_append_left _ _
  · -- otherwise the slash is white space
    cases cut using List.reverseRecOn with
    | nil =>
      rw [append_nil] at is
      exact ⟨[], is.symm, nil_subset _⟩
    | append_singleton cut c _ =>
      rw [← append_assoc] at is
      obtain ⟨-, same⟩ := append_inj' is rfl
      cases same
      have space := right '/' (by
        rw [inside]
        exact mem_append_left _ (mem_append_right _ (mem_singleton_self _)))
      exact absurd space (by decide)

/-! ### Scanning -/

section

variable (sha256 : Bytes → String)

/-- The entry of a tracked file. -/
def entryOf (p : RelPath) (content : Bytes) : FileEntry :=
  { path := p.render, size := content.length, sha256 := sha256 content }

variable {sha256} {t : Disk Bytes} {files : List FileEntry}

theorem fileEntry_some {rel : Text} {e : FileEntry} :
    fileEntry sha256 t rel = .ok (some e) ↔ ∃ content, t.files.get? (locate rel) = some content ∧
      e = { path := rel, size := content.length, sha256 := sha256 content } := by
  rw [fileEntry, Disk.stat]
  cases t.files.get? (locate rel) with
  | some content =>
    constructor
    · intro is
      cases is
      exact ⟨content, rfl, rfl⟩
    · rintro ⟨_, same, rfl⟩
      cases same
      rfl
  | none =>
    constructor
    · intro is
      by_cases dir : t.isDir (locate rel)
      · simp only [if_pos dir] at is
        cases is
      · simp only [if_neg dir] at is
        cases is
    · rintro ⟨_, same, -⟩
      cases same

theorem locate_in {dir : RelPath} {name : Text} (ne : dir.names ≠ []) (slash : '/' ∉ name) :
    locate (dir.render ++ '/' :: name) = (cleanStep { path := dir } name).path := by
  have split : (dir.render ++ '/' :: name).splitOn '/' = dir.names ++ [name] := by
    rw [RelPath.render, ← intercalate_concat ne]
    refine splitOn_intercalate '/' (fun other mem => ?_) (by simp)
    rcases mem_append.mp mem with old | new
    · exact (dir.proper other old).2.1
    · rw [mem_singleton.mp new]
      exact slash
  obtain ⟨ups, names⟩ := foldl_cleanStep dir.names dir.proper {}
  have start : dir.names.foldl cleanStep {} = { path := dir } := by
    generalize dir.names.foldl cleanStep {} = c at ups names
    obtain ⟨u, q⟩ := c
    cases ups
    have same : q = dir := RelPath.ext names
    rw [same]
  rw [locate, clean, split, foldl_append, start]
  rfl

/-- A path that is listed and is the one of a file is the one of a tracked file. -/
theorem trackable_of_listed {f : RelPath} (ruled : Ruled f) (file : (t.files.get? f).isSome)
    (found : t.files.get? (locate (GoText.trimSpace f.render)) = some content) :
    ∃ p, Trackable p ∧ p.render = GoText.trimSpace f.render ∧ t.files.get? p = some content := by
  obtain ⟨dir, last, names, nonempty, above, ne, text, solid, push⟩ := ruled.split
  obtain ⟨name, is, inside⟩ := trimSpace_render text solid
  obtain ⟨there, at_⟩ := Option.isSome_iff_exists.mp file
  have isDir := t.isDir_of_file at_ above ne
  have slash : '/' ∉ name := fun mem =>
    (f.proper last (by rw [names]; exact mem_append_right _ (mem_singleton_self _))).2.1
      (inside mem)
  rw [is, locate_in nonempty slash, cleanStep] at found
  -- a path that ends in a directory is not the one of a file
  split at found
  · split at found
    · rw [Disk.file_none isDir] at found
      cases found
    · rw [Disk.file_none (Disk.isDir_of_le isDir dir.parent_le)] at found
      cases found
  · split at found
    next proper =>
      have render : (dir.push name proper).render = GoText.trimSpace f.render := by
        rw [is, RelPath.render, RelPath.render, ← intercalate_concat nonempty]
        rfl
      refine ⟨dir.push name proper, ⟨.inr (push name proper), ?_⟩, render, found⟩
      rw [render]
      exact GoText.trimSpace_of_trimmed (GoText.trimmed_trimSpace _)
    · rw [Disk.file_none isDir] at found
      cases found

theorem render_ne_nil (h : Trackable p) : p.render ≠ [] := by
  rcases h.1 with is | ruled
  · rw [is, render_manifest]
    decide
  · obtain ⟨dir, last, -, -, -, -, text, -⟩ := ruled.split
    rw [text]
    simp

section

variable (h : scanWorkspaceFiles sha256 t = .ok files)

include h

theorem scan_parts :
    ∃ listed, listTrackedWorkspacePaths t = .ok listed ∧
      ∃ found, listed.mapM (fileEntry sha256 t) = .ok found ∧
        found.reduceOption.insertionSort (fun a b => a.path ≤ b.path) = files := by
  obtain ⟨listed, is, rest⟩ := bind_ok.mp h
  obtain ⟨found, entries, sorted⟩ := bind_ok.mp rest
  exact ⟨listed, is, found, entries, Except.ok.inj sorted⟩

/-- **Scanning.**  The entries of a workspace are those of its tracked files. -/
theorem mem_scan (e : FileEntry) :
    e ∈ files ↔ ∃ p content, tracked t p = some content ∧ e = entryOf sha256 p content := by
  obtain ⟨listed, is, spec⟩ := listTracked_ok t
  obtain ⟨_, listed', found, entries, sorted⟩ := scan_parts h
  cases is.symm.trans listed'
  cases sorted
  obtain ⟨onto, into⟩ := mem_of_mapM entries
  rw [mem_insertionSort, reduceOption_mem_iff]
  constructor
  · intro mem
    obtain ⟨rel, there, entry⟩ := into _ mem
    obtain ⟨content, file, rfl⟩ := fileEntry_some.mp entry
    rcases ((spec rel).mp there).2 with rfl | ⟨f, is, ruled, rfl⟩
    · refine ⟨locate manifest, content, tracked_eq_some.mpr ⟨trackable_manifest, file⟩, ?_⟩
      rw [entryOf, render_manifest]
    · obtain ⟨p, trackable, render, at_⟩ := trackable_of_listed ruled is file
      refine ⟨p, content, tracked_eq_some.mpr ⟨trackable, at_⟩, ?_⟩
      rw [entryOf, render]
  · rintro ⟨p, content, is, rfl⟩
    obtain ⟨trackable, file⟩ := tracked_eq_some.mp is
    have there : p.render ∈ listed := by
      refine (spec _).mpr ⟨render_ne_nil trackable, ?_⟩
      rcases trackable.1 with here | ruled
      · rw [here]
        exact .inl render_manifest
      · exact .inr ⟨p, Option.isSome_of_eq_some file, ruled, trackable.2.symm⟩
    obtain ⟨e, mem, entry⟩ := onto _ there
    have expected : fileEntry sha256 t p.render = .ok (some (entryOf sha256 p content)) :=
      fileEntry_some.mpr ⟨content, by rw [locate_render]; exact file, rfl⟩
    cases entry.symm.trans expected
    exact mem

theorem entryAt?_scan (p : RelPath) :
    entryAt? files p.render = (tracked t p).map (entryOf sha256 p) := by
  cases is : tracked t p with
  | none =>
    refine find?_eq_none.mpr fun e mem same => ?_
    obtain ⟨q, content, found, rfl⟩ := (mem_scan h e).mp mem
    rw [render_inj (beq_iff_eq.mp same), is] at found
    cases found
  | some content =>
    have mem := (mem_scan h _).mpr ⟨p, content, is, rfl⟩
    cases found : entryAt? files p.render with
    | none =>
      have absent := find?_eq_none.mp found _ mem
      exact absurd (beq_self_eq_true _) absent
    | some e =>
      obtain ⟨q, content', is', rfl⟩ := (mem_scan h e).mp (mem_of_find?_eq_some found)
      have path := find?_some found
      have same : q = p := render_inj (beq_iff_eq.mp path)
      subst same
      cases is.symm.trans is'
      rfl

end

/-- A workspace can be scanned if its manifest is there and its files have plain names. -/
theorem scan_ok (manifest_ : (t.files.get? (locate manifest)).isSome ∨ t.isDir (locate manifest))
    (plain : ∀ p, (t.files.get? p).isSome → Ruled p → GoText.trimSpace p.render = p.render) :
    ∃ files, scanWorkspaceFiles sha256 t = .ok files := by
  obtain ⟨listed, is, spec⟩ := listTracked_ok t
  have entries : ∀ rel ∈ listed, ∃ e, fileEntry sha256 t rel = .ok e := by
    intro rel mem
    have there : (t.files.get? (locate rel)).isSome ∨ t.isDir (locate rel) := by
      rcases ((spec rel).mp mem).2 with rfl | ⟨p, file, ruled, rfl⟩
      · exact manifest_
      · rw [plain p file ruled, locate_render]
        exact .inl file
    rw [fileEntry, Disk.stat]
    cases file : t.files.get? (locate rel) with
    | some content => exact ⟨_, rfl⟩
    | none =>
      rw [file] at there
      simp only [if_pos (there.resolve_left Bool.false_ne_true)]
      exact ⟨_, rfl⟩
  obtain ⟨found, all⟩ := mapM_ok entries
  rw [scanWorkspaceFiles, is]
  simp only [bind, Except.bind, all]
  exact ⟨_, rfl⟩

/-- A workspace that was scanned has its manifest. -/
theorem manifest_of_scan (h : scanWorkspaceFiles sha256 t = .ok files) :
    (t.files.get? (locate manifest)).isSome ∨ t.isDir (locate manifest) := by
  obtain ⟨listed, is, spec⟩ := listTracked_ok t
  have mem : manifest ∈ listed := (spec _).mpr ⟨by decide, .inl rfl⟩
  obtain ⟨_, listed', found, entries, -⟩ := scan_parts h
  cases is.symm.trans listed'
  obtain ⟨e, -, entry⟩ := (mem_of_mapM entries).1 _ mem
  rw [fileEntry, Disk.stat] at entry
  cases file : t.files.get? (locate manifest) with
  | some content => exact .inl rfl
  | none =>
    rw [file] at entry
    by_cases dir : t.isDir (locate manifest)
    · exact .inr dir
    · simp only [if_neg dir] at entry
      cases entry

end

/-! ## Plans -/

section

variable (source target : Disk Bytes)

/-- The file is only in the source. -/
def Copied (p : RelPath) : Prop := (tracked source p).isSome ∧ tracked target p = none

/-- The file is in both, with different contents. -/
def Updated (p : RelPath) : Prop := ∃ content content', tracked source p = some content ∧
  tracked target p = some content' ∧ content ≠ content'

/-- The file is only in the target. -/
def Missing (p : RelPath) : Prop := tracked source p = none ∧ (tracked target p).isSome

/-- The actions of a plan, in their order. -/
structure Planned (opts : ApplyOptions) (actions : List ApplyAction) : Prop where
  copy : ∀ x, ⟨.copy, x⟩ ∈ actions ↔ ∃ p, Copied source target p ∧ x = p.render
  update : ∀ x, ⟨.update, x⟩ ∈ actions ↔ ∃ p, Updated source target p ∧ x = p.render
  delete : ∀ x, ⟨.delete, x⟩ ∈ actions ↔
    opts.deleteMissing = true ∧ ∃ p, Missing source target p ∧ x = p.render
  sorted : actions.Pairwise ApplyAction.le

end

theorem text_inj {a b : ActionKind} (h : a.text = b.text) : a = b := by
  cases a <;> cases b <;> first | rfl | exact absurd h (by decide)

instance : Std.Total ApplyAction.le where
  total a b := by
    by_cases same : a.action = b.action
    · rw [ApplyAction.le, ApplyAction.le, if_pos same, if_pos same.symm]
      exact Std.Total.total a.path b.path
    · rw [ApplyAction.le, ApplyAction.le, if_neg same, if_neg (Ne.symm same)]
      exact lt_or_gt_of_ne fun is => same (text_inj is)

instance : IsTrans ApplyAction ApplyAction.le where
  trans a b c h1 h2 := by
    rw [ApplyAction.le] at h1 h2 ⊢
    split at h1
    next ab =>
      rw [ab]
      split at h2
      next bc =>
        rw [if_pos bc]
        exact le_trans h1 h2
      next bc =>
        rw [if_neg bc]
        exact h2
    next ab =>
      split at h2
      next bc =>
        rw [← bc, if_neg ab]
        exact h1
      · have lt := lt_trans h1 h2
        rw [if_neg fun ac => lt_irrefl _ (ac ▸ lt)]
        exact lt

section

variable {sha256 : Bytes → String} {source target : Disk Bytes} {opts : ApplyOptions}
  {sourceFiles targetFiles : List FileEntry}

theorem mem_onlyInSource (sourceScan : scanWorkspaceFiles sha256 source = .ok sourceFiles)
    (targetScan : scanWorkspaceFiles sha256 target = .ok targetFiles) (x : Text) :
    (∃ e ∈ (diffEntries sourceFiles targetFiles).onlyInSource, e.path = x) ↔
      ∃ p, Copied source target p ∧ x = p.render := by
  simp only [diffEntries, mem_insertionSort, mem_filter, mem_scan sourceScan]
  constructor
  · rintro ⟨e, ⟨⟨p, content, is, rfl⟩, absent⟩, rfl⟩
    rw [show (entryOf sha256 p content).path = p.render from rfl, entryAt?_scan targetScan,
      Option.isNone_map, Option.isNone_iff_eq_none] at absent
    exact ⟨p, ⟨Option.isSome_of_eq_some is, absent⟩, rfl⟩
  · rintro ⟨p, ⟨there, absent⟩, rfl⟩
    obtain ⟨content, is⟩ := Option.isSome_iff_exists.mp there
    refine ⟨_, ⟨⟨p, content, is, rfl⟩, ?_⟩, rfl⟩
    rw [show (entryOf sha256 p content).path = p.render from rfl, entryAt?_scan targetScan, absent]
    rfl

theorem mem_onlyInTarget (sourceScan : scanWorkspaceFiles sha256 source = .ok sourceFiles)
    (targetScan : scanWorkspaceFiles sha256 target = .ok targetFiles) (x : Text) :
    (∃ e ∈ (diffEntries sourceFiles targetFiles).onlyInTarget, e.path = x) ↔
      ∃ p, Missing source target p ∧ x = p.render :=
  (mem_onlyInSource targetScan sourceScan x).trans
    (exists_congr fun _ => and_congr_left fun _ => and_comm)

theorem mem_changed (collisionFree : Function.Injective sha256)
    (sourceScan : scanWorkspaceFiles sha256 source = .ok sourceFiles)
    (targetScan : scanWorkspaceFiles sha256 target = .ok targetFiles) (x : Text) :
    (∃ change ∈ (diffEntries sourceFiles targetFiles).changed, change.path = x) ↔
      ∃ p, Updated source target p ∧ x = p.render := by
  simp only [diffEntries, mem_insertionSort, mem_filterMap]
  constructor
  · rintro ⟨change, ⟨e, mem, is⟩, rfl⟩
    obtain ⟨p, content, here, rfl⟩ := (mem_scan sourceScan e).mp mem
    rw [show (entryOf sha256 p content).path = p.render from rfl, entryAt?_scan targetScan] at is
    cases there : tracked target p with
    | none =>
      rw [there] at is
      cases is
    | some content' =>
      rw [there] at is
      dsimp only [Option.map_some] at is
      split at is
      next differ =>
        cases is
        refine ⟨p, ⟨content, content', here, there, fun same => ?_⟩, rfl⟩
        rw [same] at differ
        exact differ.elim (fun ne => ne rfl) fun ne => ne rfl
      · cases is
  · rintro ⟨p, ⟨content, content', here, there, ne⟩, rfl⟩
    refine ⟨⟨p.render, entryOf sha256 p content, entryOf sha256 p content'⟩,
      ⟨entryOf sha256 p content, (mem_scan sourceScan _).mpr ⟨p, content, here, rfl⟩, ?_⟩, rfl⟩
    rw [show (entryOf sha256 p content).path = p.render from rfl, entryAt?_scan targetScan, there]
    exact if_pos (.inl fun same => ne (collisionFree same))

theorem mem_actionsOf (d : DiffResult) (x : Text) :
    (⟨.copy, x⟩ ∈ actionsOf d opts ↔ ∃ f ∈ d.onlyInSource, f.path = x) ∧
      (⟨.update, x⟩ ∈ actionsOf d opts ↔ ∃ f ∈ d.changed, f.path = x) ∧
      (⟨.delete, x⟩ ∈ actionsOf d opts ↔
        opts.deleteMissing = true ∧ ∃ f ∈ d.onlyInTarget, f.path = x) := by
  simp only [actionsOf, mem_insertionSort, mem_append, mem_map,
    ApplyAction.mk.injEq, reduceCtorEq, false_and, and_false, exists_false, false_or, true_and]
  cases opts.deleteMissing with
  | false => simp
  | true => simp

theorem diff_parts {d : DiffResult} (h : diff sha256 source target = .ok d) :
    ∃ sourceFiles, scanWorkspaceFiles sha256 source = .ok sourceFiles ∧
      ∃ targetFiles, scanWorkspaceFiles sha256 target = .ok targetFiles ∧
        diffEntries sourceFiles targetFiles = d := by
  obtain ⟨sourceFiles, sourceScan, rest⟩ := bind_ok.mp h
  obtain ⟨targetFiles, targetScan, is⟩ := bind_ok.mp rest
  exact ⟨sourceFiles, sourceScan, targetFiles, targetScan, Except.ok.inj is⟩

/-- **Planning.** -/
theorem planned (collisionFree : Function.Injective sha256)
    (h : buildApplyDryRunWithOptions sha256 source target opts = .ok actions) :
    Planned source target opts actions := by
  obtain ⟨d, is, sorted⟩ := bind_ok.mp h
  obtain ⟨sourceFiles, sourceScan, targetFiles, targetScan, rfl⟩ := diff_parts is
  cases sorted
  refine ⟨fun x => ?_, fun x => ?_, fun x => ?_, pairwise_insertionSort _ _⟩
  · exact (mem_actionsOf _ x).1.trans (mem_onlyInSource sourceScan targetScan x)
  · exact (mem_actionsOf _ x).2.1.trans (mem_changed collisionFree sourceScan targetScan x)
  · refine (mem_actionsOf _ x).2.2.trans (and_congr_right fun _ => ?_)
    exact mem_onlyInTarget sourceScan targetScan x

end

/-! ## Actions -/

theorem resolveWithin_render (h : Trackable p) : resolveWithin p.render = .ok p := by
  have solid : ∀ c ∈ p.render.head?, Solid c := by
    rcases h.1 with is | ruled
    · rw [is, render_manifest]
      exact solid_of_startsSolid (by decide)
    · obtain ⟨-, -, -, -, -, -, -, solid, -⟩ := ruled.split
      exact solid
  have ne := render_ne_nil h
  rw [resolveWithin]
  simp only [h.2, clean_render]
  cases text : p.render with
  | nil => exact absurd text ne
  | cons c rest =>
    obtain ⟨-, slash, dot⟩ := solid c (by rw [text]; rfl)
    rw [if_neg (by simpa using slash), if_neg (by simp), if_neg]
    simp [Ne.symm dot]

theorem names_ne_nil (h : Trackable p) : p.names ≠ [] := fun empty =>
  render_ne_nil h (by rw [RelPath.render, empty]; rfl)

theorem render_tmp (ne : p.names ≠ []) : (tmp p).render = p.render ++ ".tmp".toList := by
  obtain ⟨last, is⟩ : ∃ last, p.names.getLast? = some last :=
    ⟨_, getLast?_eq_some_getLast ne⟩
  have split : p.names = p.parent.names ++ [last] :=
    (dropLast_append_getLast? last is).symm
  have names : (tmp p).names = p.parent.names ++ [last ++ ".tmp".toList] := by
    show p.parent.names ++ [tmpName (p.names.getLast?.getD [])] = _
    rw [is]
    rfl
  rw [RelPath.render, RelPath.render, names, split]
  by_cases top : p.parent.names = []
  · simp [top, List.intercalate]
  · rw [intercalate_concat top, intercalate_concat top, append_assoc]
    rfl

theorem lt_append (a x : Text) (c : Char) : a < a ++ c :: x := by
  induction a with
  | nil => exact nil_lt_cons _ _
  | cons b a ih => exact cons_lt_cons_iff.mpr (.inr ⟨rfl, ih⟩)

theorem render_lt_tmp (ne : p.names ≠ []) : p.render < (tmp p).render := by
  rw [render_tmp ne]
  exact lt_append _ _ _

theorem tmp_ne (ne : p.names ≠ []) : tmp p ≠ p := by
  intro same
  have lt := render_lt_tmp ne
  rw [same] at lt
  exact lt_irrefl _ lt

theorem copyFile_ok {source t t' : Disk Bytes} (h : copyFile source t p p = .ok t') :
    (∀ q, t'.files.get? q =
      if q = p then source.files.get? p else if q = tmp p then none else t.files.get? q) ∧
      ∀ q, t.isDir q → t'.isDir q := by
  rw [copyFile] at h
  split at h
  · cases h
  split at h
  · cases h
  split at h
  · cases h
  split at h
  · cases h
  next _ bytes content _ made mkdir _ written create _ moved rename =>
    cases h
    obtain ⟨files, dirs, -⟩ := Disk.mkdirAll_ok mkdir
    obtain ⟨files', dirs', -⟩ := Disk.create_ok create
    have there : written.files.get? (tmp p) = some bytes := by
      rw [files', GoMap.get?_set_self]
    obtain ⟨files'', dirs''⟩ := Disk.rename_ok there rename
    refine ⟨fun q => ?_, fun q dir => ?_⟩
    · rw [files'', files', files, content, GoMap.get?_set]
      refine ite_congr rfl (fun _ => rfl) fun _ => ?_
      rw [GoMap.get?_delete]
      refine ite_congr rfl (fun _ => rfl) fun ne => ?_
      exact GoMap.get?_set_ne _ _ ne
    · rw [Disk.isDir, dirs'', dirs']
      exact dirs q dir

/-- What an action makes of what stands at a path. -/
def effect (source : Disk Bytes) (q : RelPath) (old : Option Bytes) (a : ApplyAction) :
    Option Bytes :=
  match a.action with
  | .mkdir => old
  | .copy | .update =>
    if q = locate a.path then source.files.get? q
    else if q = tmp (locate a.path) then none else old
  | .delete => if q = locate a.path then none else old

/-- The path of an action is the one of a tracked file. -/
def OnTracked (a : ApplyAction) : Prop :=
  a.action ≠ .mkdir → ∃ p, Trackable p ∧ a.path = p.render

variable {source t t' : Disk Bytes} {a : ApplyAction}

/-- **One action.** -/
theorem act_ok (on : OnTracked a) (h : act source t a = .ok t') :
    (∀ q, t'.files.get? q = effect source q (t.files.get? q) a) ∧
      ∀ q, t.isDir q → (a.action = .delete → q ≠ locate a.path) → t'.isDir q := by
  obtain ⟨kind, path⟩ := a
  rw [act] at h
  split at h
  · cases h
  next p resolved =>
    have here (ne : kind ≠ .mkdir) : locate path = p := by
      obtain ⟨p', trackable, is⟩ := on ne
      dsimp only at is
      rw [is, resolveWithin_render trackable] at resolved
      cases resolved
      rw [is, locate_render]
    cases kind with
    | mkdir =>
      dsimp only at h
      split at h
      · cases h
      next made mkdir =>
        cases h
        obtain ⟨files, dirs, -⟩ := Disk.mkdirAll_ok mkdir
        refine ⟨fun q => ?_, fun q dir _ => dirs q dir⟩
        rw [files]
        rfl
    | copy | update =>
      dsimp only at h
      split at h
      · cases h
      next done copy =>
        cases h
        obtain ⟨files, dirs⟩ := copyFile_ok copy
        refine ⟨fun q => ?_, fun q dir _ => dirs q dir⟩
        rw [files, ← here (by decide)]
        exact ite_congr rfl (fun same => by rw [same]) fun _ => rfl
    | delete =>
      have here := here (by decide)
      dsimp only at h
      split at h
      next absent =>
        cases h
        obtain ⟨none, -⟩ := Disk.remove_notExist absent
        refine ⟨fun q => ?_, fun q dir _ => dir⟩
        show t.files.get? q = if q = locate path then _ else _
        split
        next same => rw [same, here, none]
        · rfl
      · cases h
      next removed remove =>
        cases h
        obtain ⟨files, dirs⟩ := Disk.remove_ok remove
        refine ⟨fun q => ?_, fun q dir ne => dirs q (here ▸ ne rfl) dir⟩
        rw [files, ← here]
        rfl

/-- **All actions.** -/
theorem run_ok (on : ∀ a ∈ actions, OnTracked a) (h : actions.foldlM (act source) t = .ok t') :
    (∀ q, t'.files.get? q = actions.foldl (effect source q) (t.files.get? q)) ∧
      ∀ q, t.isDir q → (∀ a ∈ actions, a.action = .delete → q ≠ locate a.path) → t'.isDir q := by
  induction actions generalizing t with
  | nil =>
    cases h
    exact ⟨fun q => rfl, fun q dir _ => dir⟩
  | cons a actions ih =>
    rw [foldlM_cons] at h
    obtain ⟨mid, first, h⟩ := bind_ok.mp h
    obtain ⟨here, rest⟩ := forall_mem_cons.mp on
    obtain ⟨files, dirs⟩ := act_ok here first
    obtain ⟨files', dirs'⟩ := ih rest h
    refine ⟨fun q => ?_, fun q dir none => ?_⟩
    · rw [files', files]
      rfl
    · obtain ⟨one, others⟩ := forall_mem_cons.mp none
      exact dirs' q (dirs q dir one) others

/-- The action changes what stands at the path. -/
def Touches (q : RelPath) (a : ApplyAction) : Prop :=
  match a.action with
  | .mkdir => False
  | .copy | .update => q = locate a.path ∨ q = tmp (locate a.path)
  | .delete => q = locate a.path

theorem effect_of_not_touches (h : ¬Touches q a) (old : Option Bytes) :
    effect source q old a = old := by
  obtain ⟨kind, path⟩ := a
  cases kind with
  | mkdir => rfl
  | copy | update =>
    obtain ⟨here, sibling⟩ := not_or.mp h
    exact (if_neg here).trans (if_neg sibling)
  | delete => exact if_neg h

/-- The last action that touches a path decides what stands there. -/
theorem last_touch (sorted : actions.Pairwise ApplyAction.le) (q : RelPath) (old : Option Bytes) :
    ((∀ a ∈ actions, ¬Touches q a) ∧ actions.foldl (effect source q) old = old) ∨
      ∃ a ∈ actions, Touches q a ∧ (∀ b ∈ actions, Touches q b → b = a ∨ ApplyAction.le b a) ∧
        ∃ before, actions.foldl (effect source q) old = effect source q before a := by
  induction actions using List.reverseRecOn with
  | nil => exact .inl ⟨fun a mem => absurd mem not_mem_nil, rfl⟩
  | append_singleton actions last ih =>
    obtain ⟨front, -, order⟩ := pairwise_append.mp sorted
    rw [foldl_append]
    by_cases touch : Touches q last
    · refine .inr ⟨last, mem_append_right _ (mem_singleton_self _), touch, ?_, _, rfl⟩
      intro b mem _
      rcases mem_append.mp mem with before | is
      · exact .inr (order b before last (mem_singleton_self _))
      · exact .inl (mem_singleton.mp is)
    · have same (old : Option Bytes) : [last].foldl (effect source q) old = old :=
        effect_of_not_touches touch old
      rw [same]
      rcases ih front with ⟨none, is⟩ | ⟨a, mem, touches, latest, before, is⟩
      · refine .inl ⟨fun a mem => ?_, is⟩
        rcases mem_append.mp mem with before | here
        · exact none a before
        · rw [mem_singleton.mp here]
          exact touch
      · refine .inr ⟨a, mem_append_left _ mem, touches, fun b there touches' => ?_, before, is⟩
        rcases mem_append.mp there with before | here
        · exact latest b before touches'
        · rw [mem_singleton.mp here] at touches'
          exact absurd touches' touch

/-! ## What a plan leaves -/

section

variable {target left : Disk Bytes} {opts : ApplyOptions} {actions : List ApplyAction}

/-- The file is copied or updated by the action. -/
def Writes (source target : Disk Bytes) (a : ApplyAction) (p : RelPath) : Prop :=
  a = ⟨.copy, p.render⟩ ∧ Copied source target p ∨
    a = ⟨.update, p.render⟩ ∧ Updated source target p

/-- The file is copied or updated. -/
def Written (source target : Disk Bytes) (p : RelPath) : Prop :=
  Copied source target p ∨ Updated source target p

theorem Written.trackable (h : Written source target p) :
    ∃ content, tracked source p = some content ∧ Trackable p := by
  have there : ∃ content, tracked source p = some content := by
    rcases h with copied | ⟨content, -, is, -⟩
    · exact Option.isSome_iff_exists.mp copied.1
    · exact ⟨content, is⟩
  obtain ⟨content, is⟩ := there
  exact ⟨content, is, (tracked_eq_some.mp is).1⟩

theorem Writes.written (h : Writes source target a p) :
    Written source target p := h.imp And.right And.right

theorem Planned.writes (plan : Planned source target opts actions) (h : Written source target p) :
    ∃ a ∈ actions, Writes source target a p := by
  rcases h with copied | updated
  · exact ⟨_, (plan.copy _).mpr ⟨p, copied, rfl⟩, .inl ⟨rfl, copied⟩⟩
  · exact ⟨_, (plan.update _).mpr ⟨p, updated, rfl⟩, .inr ⟨rfl, updated⟩⟩

theorem Writes.touches (h : Writes source target a p) : Touches p a ∧ Touches (tmp p) a := by
  rcases h with ⟨rfl, -⟩ | ⟨rfl, -⟩
  · exact ⟨.inl (locate_render p).symm, .inr (by rw [locate_render])⟩
  · exact ⟨.inl (locate_render p).symm, .inr (by rw [locate_render])⟩

theorem Writes.effect (h : Writes source target a p) (old : Option Bytes) :
    effect source p old a = source.files.get? p ∧ effect source (tmp p) old a = none := by
  have ne := tmp_ne (names_ne_nil h.written.trackable.choose_spec.2)
  have here := locate_render p
  rcases h with ⟨rfl, -⟩ | ⟨rfl, -⟩
  · simp only [Workspace.effect, here, if_neg ne]
    exact ⟨if_pos trivial, if_pos trivial⟩
  · simp only [Workspace.effect, here, if_neg ne]
    exact ⟨if_pos trivial, if_pos trivial⟩

/-- What an action of a plan can do to a path. -/
theorem Planned.touch_cases (plan : Planned source target opts actions) (mem : a ∈ actions)
    (touch : Touches q a) :
    Writes source target a q ∨ (∃ p, Writes source target a p ∧ tmp p = q) ∨
      (opts.deleteMissing = true ∧ Missing source target q) ∧
        ∀ old, effect source q old a = none := by
  have written {p : RelPath} {Q : Prop} (is : a.path = p.render)
      (writes : Writes source target a p) (touch : q = locate a.path ∨ q = tmp (locate a.path)) :
      Writes source target a q ∨ (∃ p, Writes source target a p ∧ tmp p = q) ∨ Q := by
    rw [is, locate_render] at touch
    rcases touch with rfl | rfl
    · exact .inl writes
    · exact .inr (.inl ⟨p, writes, rfl⟩)
  obtain ⟨kind, path⟩ := a
  cases kind with
  | mkdir => exact touch.elim
  | copy =>
    obtain ⟨p, copied, is⟩ := (plan.copy path).mp mem
    exact written is (.inl ⟨by rw [is], copied⟩) touch
  | update =>
    obtain ⟨p, updated, is⟩ := (plan.update path).mp mem
    exact written is (.inr ⟨by rw [is], updated⟩) touch
  | delete =>
    obtain ⟨delete, p, missing, is⟩ := (plan.delete path).mp mem
    have here : q = p := by
      rw [Touches, is, locate_render] at touch
      exact touch
    rw [here]
    refine .inr (.inr ⟨⟨delete, missing⟩, fun old => ?_⟩)
    rw [effect, is, locate_render]
    exact if_pos rfl

theorem not_le_of_path_lt {kind : ActionKind} {x y : Text} (lt : x < y)
    (order : (⟨kind, y⟩ : ApplyAction) = ⟨kind, x⟩ ∨ ApplyAction.le ⟨kind, y⟩ ⟨kind, x⟩) : False := by
  rcases order with same | le
  · injection same with _ same
    exact lt.ne' same
  · rw [ApplyAction.le, if_pos rfl] at le
    exact absurd le (not_le.mpr lt)

/-- Copies are made before updates. -/
theorem not_update_before_copy {x y : Text}
    (order : (⟨.update, x⟩ : ApplyAction) = ⟨.copy, y⟩ ∨ ApplyAction.le ⟨.update, x⟩ ⟨.copy, y⟩) :
    False := by
  rcases order with same | le
  · cases same
  · rw [ApplyAction.le, if_neg (show ActionKind.update ≠ ActionKind.copy by decide)] at le
    exact absurd le (show ¬ActionKind.text .update < ActionKind.text .copy by decide)

/-- A file that is written before the one whose sibling it is: it is copied, the other updated. -/
theorem order_of_sibling {b : ApplyAction} (a_ : Writes source target a p)
    (b_ : Writes source target b (tmp p)) (order : b = a ∨ ApplyAction.le b a) :
    Copied source target (tmp p) ∧ Updated source target p := by
  have lt := render_lt_tmp (names_ne_nil a_.written.trackable.choose_spec.2)
  rcases a_ with ⟨rfl, -⟩ | ⟨rfl, updated⟩
  · rcases b_ with ⟨rfl, -⟩ | ⟨rfl, -⟩
    · exact (not_le_of_path_lt lt order).elim
    · exact (not_update_before_copy order).elim
  · rcases b_ with ⟨rfl, copied⟩ | ⟨rfl, -⟩
    · exact ⟨copied, updated⟩
    · exact (not_le_of_path_lt lt order).elim

/-- What is left of a path, for a plan that was carried out. -/
structure Carried (source target : Disk Bytes) (opts : ApplyOptions) (left : Disk Bytes) :
    Prop where
  written : ∀ q, Written source target q →
    (∀ p, Updated source target p → Copied source target q → tmp p ≠ q) →
    left.files.get? q = source.files.get? q
  lost : ∀ p, Written source target p →
    (Written source target (tmp p) → Copied source target (tmp p) ∧ Updated source target p) →
    left.files.get? (tmp p) = none
  deleted : ∀ q, opts.deleteMissing = true → Missing source target q → left.files.get? q = none
  kept : ∀ q, ¬Written source target q → (opts.deleteMissing = true → ¬Missing source target q) →
    (∀ p, Written source target p → tmp p ≠ q) → left.files.get? q = target.files.get? q
  dirs : ∀ q, target.isDir q → left.isDir q

theorem Planned.onTracked (plan : Planned source target opts actions) :
    ∀ a ∈ actions, OnTracked a := by
  intro a mem other
  obtain ⟨kind, path⟩ := a
  cases kind with
  | mkdir => exact absurd rfl other
  | copy =>
    obtain ⟨p, copied, is⟩ := (plan.copy path).mp mem
    exact ⟨p, (Written.trackable (.inl copied)).choose_spec.2, is⟩
  | update =>
    obtain ⟨p, updated, is⟩ := (plan.update path).mp mem
    exact ⟨p, (Written.trackable (.inr updated)).choose_spec.2, is⟩
  | delete =>
    obtain ⟨-, p, missing, is⟩ := (plan.delete path).mp mem
    obtain ⟨content, there⟩ := Option.isSome_iff_exists.mp missing.2
    exact ⟨p, (tracked_eq_some.mp there).1, is⟩

theorem not_missing_of_written (h : Written source target p) : ¬Missing source target p := by
  intro missing
  obtain ⟨content, is, -⟩ := h.trackable
  rw [missing.1] at is
  cases is

theorem not_updated_of_copied (h : Copied source target p) : ¬Updated source target p := by
  rintro ⟨-, content, -, is, -⟩
  rw [h.2] at is
  cases is

section

variable (plan : Planned source target opts actions)
  (h : actions.foldlM (act source) target = .ok left)

include h plan

/-- What stands at a path in the end: what was there, what the last action that touches the path
wrote, or nothing. -/
theorem Planned.left_cases (q : RelPath) :
    (left.files.get? q = target.files.get? q ∧ ∀ a ∈ actions, ¬Touches q a) ∨
      ∃ a, (∀ b ∈ actions, Touches q b → b = a ∨ ApplyAction.le b a) ∧
        (Writes source target a q ∧ left.files.get? q = source.files.get? q ∨
          (∃ p, Writes source target a p ∧ tmp p = q) ∧ left.files.get? q = none ∨
          (opts.deleteMissing = true ∧ Missing source target q) ∧ left.files.get? q = none) := by
  rw [(run_ok plan.onTracked h).1]
  rcases last_touch plan.sorted q (target.files.get? q) with
    ⟨none, is⟩ | ⟨a, mem, touch, latest, before, is⟩
  · exact .inl ⟨is, none⟩
  refine .inr ⟨a, latest, ?_⟩
  rw [is]
  rcases plan.touch_cases mem touch with here | ⟨p, sibling, rfl⟩ | ⟨missing, none⟩
  · exact .inl ⟨here, (here.effect before).1⟩
  · exact .inr (.inl ⟨⟨p, sibling, rfl⟩, (sibling.effect before).2⟩)
  · exact .inr (.inr ⟨missing, none before⟩)

/-- **Carrying out a plan.** -/
theorem carried : Carried source target opts left := by
  refine ⟨fun q written apart => ?_, fun p written order => ?_, fun q delete missing => ?_,
    fun q unwritten present alone => ?_, fun q dir => ?_⟩
  · obtain ⟨b, inside, writes⟩ := plan.writes written
    rcases plan.left_cases h q with
      ⟨-, none⟩ | ⟨a, latest, ⟨-, is⟩ | ⟨⟨p, sibling, rfl⟩, -⟩ | ⟨⟨-, missing⟩, -⟩⟩
    · exact absurd writes.touches.1 (none b inside)
    · exact is
    · obtain ⟨copied, updated⟩ :=
        order_of_sibling sibling writes (latest b inside writes.touches.1)
      exact absurd rfl (apart p updated copied)
    · exact absurd missing (not_missing_of_written written)
  · obtain ⟨b, inside, writes⟩ := plan.writes written
    rcases plan.left_cases h (tmp p) with ⟨-, none⟩ | ⟨a, latest, ⟨here, -⟩ | ⟨-, gone⟩ | ⟨-, gone⟩⟩
    · exact absurd writes.touches.2 (none b inside)
    · -- the sibling is copied before its file is updated
      obtain ⟨copied, updated⟩ := order here.written
      rcases here with ⟨rfl, -⟩ | ⟨-, wrong⟩
      · rcases writes with ⟨-, wrong⟩ | ⟨rfl, -⟩
        · exact absurd updated (not_updated_of_copied wrong)
        · have order := latest _ inside (Writes.touches (.inr ⟨rfl, updated⟩)).2
          exact (not_update_before_copy order).elim
      · exact absurd wrong (not_updated_of_copied copied)
    · exact gone
    · exact gone
  · have inside := (plan.delete q.render).mpr ⟨delete, q, missing, rfl⟩
    rcases plan.left_cases h q with ⟨-, none⟩ | ⟨a, -, ⟨here, -⟩ | ⟨-, gone⟩ | ⟨-, gone⟩⟩
    · exact absurd (locate_render q).symm (none _ inside)
    · exact absurd missing (not_missing_of_written here.written)
    · exact gone
    · exact gone
  · rcases plan.left_cases h q with
      ⟨is, -⟩ | ⟨a, -, ⟨here, -⟩ | ⟨⟨p, sibling, same⟩, -⟩ | ⟨⟨delete, missing⟩, -⟩⟩
    · exact is
    · exact absurd here.written unwritten
    · exact absurd same (alone p sibling.written)
    · exact absurd missing (present delete)
  · refine (run_ok plan.onTracked h).2 q dir fun a mem delete same => ?_
    obtain ⟨kind, path⟩ := a
    cases delete
    obtain ⟨-, p, missing, is⟩ := (plan.delete path).mp mem
    obtain ⟨content, there⟩ := Option.isSome_iff_exists.mp missing.2
    have file := (tracked_eq_some.mp there).2
    dsimp only at same
    rw [same, is, locate_render] at dir
    rw [Disk.file_none dir] at file
    cases file

end

end

/-! ## Convergence -/

section

variable {sha256 : Bytes → String} {target left : Disk Bytes} {opts : ApplyOptions}
  {actions : List ApplyAction}

theorem tracked_eq_iff : tracked source p = tracked target p ↔
    ¬Copied source target p ∧ ¬Missing source target p ∧ ¬Updated source target p := by
  rw [Copied, Missing, Updated]
  cases tracked source p with
  | none =>
    cases tracked target p with
    | none => simp
    | some content => simp
  | some content =>
    cases tracked target p with
    | none => simp
    | some content' => simp

/-- There is no entry of a kind if no path is of the kind. -/
theorem nil_iff {α : Type} {l : List α} {path : α → Text} {P : RelPath → Prop}
    (h : ∀ x, (∃ e ∈ l, path e = x) ↔ ∃ p, P p ∧ x = p.render) : l = [] ↔ ∀ p, ¬P p := by
  rw [eq_nil_iff_forall_not_mem]
  constructor
  · intro none p is
    obtain ⟨e, mem, -⟩ := (h p.render).mpr ⟨p, is, rfl⟩
    exact none e mem
  · intro none e mem
    obtain ⟨p, is, -⟩ := (h (path e)).mp ⟨e, mem, rfl⟩
    exact none p is

/-- Two workspaces that can be scanned do not differ if they track the same files. -/
theorem diff_empty (collisionFree : Function.Injective sha256)
    {sourceFiles leftFiles : List FileEntry}
    (sourceScan : scanWorkspaceFiles sha256 source = .ok sourceFiles)
    (leftScan : scanWorkspaceFiles sha256 left = .ok leftFiles) :
    diff sha256 source left = .ok ⟨[], [], []⟩ ↔ ∀ p, tracked source p = tracked left p := by
  have is : diff sha256 source left = .ok (diffEntries sourceFiles leftFiles) :=
    bind_ok.mpr ⟨_, sourceScan, bind_ok.mpr ⟨_, leftScan, rfl⟩⟩
  have empty (d : DiffResult) : d = ⟨[], [], []⟩ ↔
      d.onlyInSource = [] ∧ d.onlyInTarget = [] ∧ d.changed = [] := DiffResult.mk.injEq .. ▸ .rfl
  rw [is, Except.ok.injEq, empty, nil_iff (mem_onlyInSource sourceScan leftScan),
    nil_iff (mem_onlyInTarget sourceScan leftScan),
    nil_iff (mem_changed collisionFree sourceScan leftScan)]
  simp only [tracked_eq_iff, forall_and]

/-- What `apply` is for: with `deleteMissing` the workspaces do not differ any more; without it
the target has the files of the source, and its other files as they were. -/
def Converged (sha256 : Bytes → String) (source target : Disk Bytes) (opts : ApplyOptions)
    (left : Disk Bytes) : Prop :=
  if opts.deleteMissing = true then diff sha256 source left = .ok ⟨[], [], []⟩
  else (∀ p content, tracked source p = some content → tracked left p = some content) ∧
    ∀ p content, tracked source p = none → tracked target p = some content →
      tracked left p = some content

/-- The temporary sibling of a file that is written is not a tracked file that has to stay: one
of the source is written itself, and not before, and one of the target alone is deleted. -/
def SiblingsFree (source target : Disk Bytes) (opts : ApplyOptions) : Prop :=
  ∀ p, Written source target p →
    ((tracked source (tmp p)).isSome → Written source target (tmp p) ∧
      ¬(Copied source target (tmp p) ∧ Updated source target p)) ∧
    (opts.deleteMissing = false → ¬Missing source target (tmp p))

/-- The files below the rules have no white space around their paths. -/
def PlainNames (t : Disk Bytes) : Prop :=
  ∀ p, (t.files.get? p).isSome → Ruled p → GoText.trimSpace p.render = p.render

theorem written_of_ne (here : tracked source p = some content)
    (ne : tracked target p ≠ some content) : Written source target p := by
  cases there : tracked target p with
  | none => exact .inl ⟨Option.isSome_of_eq_some here, there⟩
  | some content' =>
    refine .inr ⟨content, content', here, there, fun same => ne ?_⟩
    rw [there, same]

theorem not_written_of_eq (same : tracked target p = tracked source p) :
    ¬Written source target p := by
  obtain ⟨not_copied, -, not_updated⟩ := tracked_eq_iff.mp same.symm
  exact fun written => written.elim not_copied not_updated

theorem tracked_of_files (h : t.files.get? p = t'.files.get? p) : tracked t p = tracked t' p := by
  rw [tracked, tracked, h]

section

variable (h : Carried source target opts left)

include h

/-- The files of the source are in the target in the end. -/
theorem Carried.sourceFile (free : SiblingsFree source target opts)
    (here : tracked source p = some content) : tracked left p = some content := by
  by_cases same : tracked target p = some content
  · have unwritten : ¬Written source target p := not_written_of_eq (same.trans here.symm)
    have kept := h.kept p unwritten (fun _ missing => by rw [missing.1] at here; cases here)
      fun q written is => by
        subst is
        exact unwritten ((free q written).1 (Option.isSome_of_eq_some here)).1
    rw [tracked_of_files kept, same]
  · have written := written_of_ne here same
    have now := h.written p written fun q updated copied is => by
      subst is
      exact ((free q (.inr updated)).1 (Option.isSome_of_eq_some here)).2 ⟨copied, updated⟩
    rw [tracked_of_files now, here]

/-- What is in neither workspace is not in the target in the end. -/
theorem Carried.neither (here : tracked source p = none) (there : tracked target p = none) :
    tracked left p = none := by
  have unwritten : ¬Written source target p := not_written_of_eq (there.trans here.symm)
  by_cases sibling : ∃ q, Written source target q ∧ tmp q = p
  · obtain ⟨q, written, rfl⟩ := sibling
    have lost := h.lost q written fun again => absurd again unwritten
    rw [tracked, lost]
    split <;> rfl
  · have present : ¬Missing source target p := fun missing => by
      have is := missing.2
      rw [there] at is
      cases is
    have kept := h.kept p unwritten (fun _ => present) fun q written is => sibling ⟨q, written, is⟩
    rw [tracked_of_files kept, there]

/-- No file has a path with white space around it that had not. -/
theorem Carried.plainNames (plain : PlainNames target) : PlainNames left := by
  intro p file ruled
  by_cases written : Written source target p
  · exact written.trackable.choose_spec.2.2
  by_cases sibling : ∃ q, Written source target q ∧ tmp q = p
  · obtain ⟨q, made, rfl⟩ := sibling
    rw [h.lost q made fun again => absurd again written] at file
    cases file
  · by_cases deleted : opts.deleteMissing = true ∧ Missing source target p
    · rw [h.deleted p deleted.1 deleted.2] at file
      cases file
    · rw [h.kept p written (fun on missing => deleted ⟨on, missing⟩)
        fun q made is => sibling ⟨q, made, is⟩] at file
      exact plain p file ruled

/-- The manifest stays. -/
theorem Carried.manifest_ (free : SiblingsFree source target opts)
    (keeps : ¬Missing source target (locate manifest))
    (was : (target.files.get? (locate manifest)).isSome ∨ target.isDir (locate manifest)) :
    (left.files.get? (locate manifest)).isSome ∨ left.isDir (locate manifest) := by
  rcases was with file | dir
  · left
    obtain ⟨content', there⟩ := Option.isSome_iff_exists.mp file
    have is := tracked_eq_some.mpr ⟨trackable_manifest, there⟩
    cases here : tracked source (locate manifest) with
    | none => exact absurd ⟨here, Option.isSome_of_eq_some is⟩ keeps
    | some content =>
      exact Option.isSome_of_eq_some (tracked_eq_some.mp (h.sourceFile free here)).2
  · exact .inr (h.dirs _ dir)

/-- The temporary sibling of a written file is lost in the cases that `SiblingsFree` rules out. -/
theorem Carried.siblingsFree
    (sources : ∀ p content, tracked source p = some content → tracked left p = some content)
    (others : opts.deleteMissing = false → ∀ p content, tracked source p = none →
      tracked target p = some content → tracked left p = some content) :
    SiblingsFree source target opts := by
  have gone : ∀ p, Written source target p →
      (Written source target (tmp p) → Copied source target (tmp p) ∧ Updated source target p) →
      tracked left (tmp p) = none := by
    intro p written order
    rw [tracked, h.lost p written order]
    split <;> rfl
  intro p written
  refine ⟨fun there => ?_, fun off missing => ?_⟩
  · obtain ⟨content, is⟩ := Option.isSome_iff_exists.mp there
    by_contra clash
    have lost := gone p written fun again => by
      by_contra order
      exact clash ⟨again, order⟩
    rw [sources _ _ is] at lost
    cases lost
  · obtain ⟨content, is⟩ := Option.isSome_iff_exists.mp missing.2
    have lost := gone p written fun again => absurd missing (not_missing_of_written again)
    rw [others off _ _ missing.1 is] at lost
    cases lost

end

/-- The actions of `apply` are those of the dry run, taken one after the other. -/
theorem apply_ok (h : apply sha256 source target opts = .ok (left, actions)) :
    buildApplyDryRunWithOptions sha256 source target opts = .ok actions ∧
      actions.foldlM (act source) target = .ok left := by
  rw [apply] at h
  split at h
  · cases h
  next planned plan =>
    split at h
    · cases h
    next result run =>
      cases h
      exact ⟨plan, run⟩

/-- **An `apply` that succeeds converges exactly if no temporary sibling of a written file is a
tracked file that has to stay.** -/
theorem converges_iff (collisionFree : Function.Injective sha256) (plain : PlainNames target)
    (keeps : opts.deleteMissing = true → ¬Missing source target (locate manifest))
    (applied : apply sha256 source target opts = .ok (left, actions)) :
    (Converged sha256 source target opts left ∧
      buildApplyDryRunWithOptions sha256 source target opts = .ok actions) ↔
    SiblingsFree source target opts := by
  obtain ⟨dryRun, run⟩ := apply_ok applied
  have h := carried (planned collisionFree dryRun) run
  obtain ⟨d, is, -⟩ := bind_ok.mp dryRun
  obtain ⟨sourceFiles, sourceScan, targetFiles, targetScan, -⟩ := diff_parts is
  rw [and_iff_left dryRun]
  by_cases delete : opts.deleteMissing = true
  · rw [Converged, if_pos delete]
    constructor
    · intro empty
      obtain ⟨-, -, leftFiles, leftScan, -⟩ := diff_parts empty
      have same := (diff_empty collisionFree sourceScan leftScan).mp empty
      exact h.siblingsFree (fun p content is => by rw [← same p, is])
        fun off => absurd delete (by rw [off]; exact Bool.false_ne_true)
    · intro free
      obtain ⟨leftFiles, leftScan⟩ := scan_ok (t := left)
        (h.manifest_ free (keeps delete) (manifest_of_scan targetScan)) (h.plainNames plain)
      refine (diff_empty collisionFree sourceScan leftScan).mpr fun p => ?_
      cases here : tracked source p with
      | some content => exact (h.sourceFile free here).symm
      | none =>
        cases there : tracked target p with
        | none => exact (h.neither here there).symm
        | some content =>
          have gone := h.deleted p delete ⟨here, Option.isSome_of_eq_some there⟩
          rw [tracked, gone]
          split <;> rfl
  · rw [Converged, if_neg delete]
    constructor
    · intro ⟨sources, others⟩
      exact h.siblingsFree sources fun _ => others
    · intro free
      refine ⟨fun p content is => h.sourceFile free is, fun p content here there => ?_⟩
      have unwritten : ¬Written source target p := fun written => by
        obtain ⟨content', is, -⟩ := written.trackable
        rw [here] at is
        cases is
      have kept := h.kept p unwritten (fun on => absurd on delete) fun q written is => by
        subst is
        exact (free q written).2 (Bool.eq_false_of_not_eq_true delete)
          ⟨here, Option.isSome_of_eq_some there⟩
      rw [tracked_of_files kept, there]

end

/-- A hash that keeps the bytes, for the workspaces below. -/
def spelled (bytes : Bytes) : String := String.ofList (bytes.map fun b => Char.ofNat b.toNat)

theorem spelled_injective : Function.Injective spelled := by
  intro a b h
  refine map_injective_iff.mpr (fun x y same => ?_) (String.ofList_injective h)
  have valid : ∀ n : UInt8, (Char.ofNat n.toNat).toNat = n.toNat := by
    intro n
    have is : n.toNat.isValidChar := .inl (n.toNat_lt.trans (by decide))
    rw [Char.ofNat, dif_pos is]
    rfl
  refine UInt8.toNat_inj.mp ?_
  rw [← valid x, ← valid y, same]

/-- The workspace of some files. -/
def workspace (files : List (Text × Bytes)) : Disk Bytes :=
  files.foldl
    (fun t file => (((t.mkdirAll (locate file.1).parent).bind fun made =>
      made.create (locate file.1) file.2).toOption).getD t)
    { closed := by
        intro p there
        rcases there with file | dir
        · rw [GoMap.get?_empty] at file
          cases file
        · cases dir
      apart := by
        intro p mem
        cases mem
      rooted := ⟨GoMap.get?_empty _, not_mem_nil⟩ }

/-- A workspace with the query `a`. -/
def withQuery : Disk Bytes :=
  workspace [(manifest, [1]), ("queries/a".toList, [2])]

/-- A workspace with the query `a.tmp`. -/
def withSibling : Disk Bytes :=
  workspace [(manifest, [1]), ("queries/a.tmp".toList, [3])]

/-- A workspace with both. -/
def withBoth : Disk Bytes :=
  workspace [(manifest, [1]), ("queries/a".toList, [2]), ("queries/a.tmp".toList, [3])]

theorem converges_iff_query :
    ∃ left actions, apply spelled withQuery withSibling ⟨true⟩ = .ok (left, actions) ∧
      SiblingsFree withQuery withSibling ⟨true⟩ := by
  have works : ((apply spelled withQuery withSibling ⟨true⟩).toOption).any
      (fun r => decide ((diff spelled withQuery r.1).toOption = some ⟨[], [], []⟩)) = true := by
    decide +kernel
  obtain ⟨⟨left, actions⟩, is, same⟩ := (Option.any_eq_true _ _).mp works
  have applied := ok_of_toOption is
  have names : ∀ p ∈ withSibling.files.keys, GoText.trimSpace p.render = p.render := by
    decide +kernel
  have plain : PlainNames withSibling := fun p file _ =>
    names p (AList.lookup_isSome.mp file)
  have keeps : ¬Missing withQuery withSibling (locate manifest) := by
    rintro ⟨none, -⟩
    have here : (tracked withQuery (locate manifest)).isSome = true := by decide +kernel
    rw [none] at here
    cases here
  refine ⟨left, actions, applied, ?_⟩
  exact (converges_iff spelled_injective plain (fun _ => keeps) applied).mp
    ⟨ok_of_toOption (of_decide_eq_true same), (apply_ok applied).1⟩

/-- The target has the query `a.tmp` of the source already, and loses it when the query `a` is
copied. -/
theorem sibling_lost :
    ∃ left actions, apply spelled withBoth withSibling ⟨true⟩ = .ok (left, actions) ∧
      tracked withSibling (locate "queries/a.tmp".toList) = some [3] ∧
      tracked withBoth (locate "queries/a.tmp".toList) = some [3] ∧
      tracked left (locate "queries/a.tmp".toList) = none ∧
      diff spelled withBoth left ≠ .ok ⟨[], [], []⟩ := by
  have works : ((apply spelled withBoth withSibling ⟨true⟩).toOption).any
      (fun r => decide (tracked r.1 (locate "queries/a.tmp".toList) = none ∧
        (diff spelled withBoth r.1).toOption ≠ some ⟨[], [], []⟩)) = true := by
    decide +kernel
  obtain ⟨⟨left, actions⟩, is, holds⟩ := (Option.any_eq_true _ _).mp works
  obtain ⟨gone, differs⟩ := of_decide_eq_true holds
  refine ⟨left, actions, ok_of_toOption is, by decide +kernel, by decide +kernel, gone, ?_⟩
  intro same
  exact differs (by rw [same]; rfl)

end LocaQL.Workspace
