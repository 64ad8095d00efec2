import LocaQL.Lib.FileTree
import LocaQL.Lib.GoText
import Mathlib.Data.Char
import Mathlib.Data.List.Dedup
import Mathlib.Data.List.Lex
import Mathlib.Data.List.Sort

/-!
# Workspaces

The planner of workspaces: the tracked files of a workspace, the differences between two of
them, and the actions that make a target like its source.  `apply` computes the actions first
and then takes them one after the other.  A file is copied to a temporary sibling, with the
suffix `.tmp`, that is renamed.

A workspace is the tree of files below its root.
-/

namespace LocaQL.Workspace

open FileTree

abbrev Bytes := List UInt8

abbrev Text := List Char

/-- `FileEntry`. -/
structure FileEntry where
  path : Text
  size : Nat
  sha256 : String
deriving Repr, DecidableEq

structure FileChange where
  path : Text
  source : FileEntry
  target : FileEntry
deriving Repr, DecidableEq

structure DiffResult where
  onlyInSource : List FileEntry
  onlyInTarget : List FileEntry
  changed : List FileChange
deriving Repr, DecidableEq

inductive ActionKind where
  | copy
  | delete
  | mkdir
  | update
deriving Repr, DecidableEq

/-- The `Action` of an `ApplyAction`. -/
def ActionKind.text : ActionKind → Text
  | .copy => "copy".toList
  | .delete => "delete".toList
  | .mkdir => "mkdir".toList
  | .update => "update".toList

structure ApplyAction where
  action : ActionKind
  path : Text
deriving Repr, DecidableEq

structure ApplyOptions where
  deleteMissing : Bool := false

/-! ## Tracked files -/

def manifest : Text := "manifest.yaml".toList

/-- The paths of `Rules` behind the manifest. -/
def rules : List Text :=
  ["datasets", "schemas", "queries", "profiles", "migrations", "views", "routines", "pipelines",
    "seed", "tests"].map String.toList

/-- The place of a relative path below the root. -/
def locate (rel : Text) : RelPath := (clean rel).path

/-- The files that `filepath.WalkDir` finds below a rule; nothing where there is no directory. -/
def walk (t : Disk Bytes) (rule : Text) : Except OsError (List Text) :=
  match t.stat (locate rule) with
  | .error .notExist => .ok []
  | .error err => .error err
  | .ok (.file _) => .ok []
  | .ok .dir =>
    .ok ((t.files.keys.filter fun p => decide (locate rule ∈ p.prefixes)).map RelPath.render)

/-- `sort.Strings`. -/
def sortTexts (texts : List Text) : List Text := texts.insertionSort (· ≤ ·)

def listTrackedWorkspacePaths (t : Disk Bytes) : Except OsError (List Text) := do
  let found ← rules.mapM (walk t)
  let paths := (manifest :: found.flatten).map GoText.trimSpace
  pure (sortTexts (paths.filter (· ≠ [])).dedup)

section

variable (sha256 : Bytes → String)

/-- The entry of one path; a directory has none. -/
def fileEntry (t : Disk Bytes) (rel : Text) : Except OsError (Option FileEntry) :=
  match t.stat (locate rel) with
  | .error err => .error err
  | .ok .dir => .ok none
  | .ok (.file content) =>
    .ok (some { path := rel, size := content.length, sha256 := sha256 content })

def scanWorkspaceFiles (t : Disk Bytes) : Except OsError (List FileEntry) := do
  let relPaths ← listTrackedWorkspacePaths t
  let files ← relPaths.mapM (fileEntry sha256 t)
  pure (files.reduceOption.insertionSort fun a b => a.path ≤ b.path)

/-! ## Differences -/

/-- The entry of a path in `sourceMap` or `targetMap`. -/
def entryAt? (files : List FileEntry) (path : Text) : Option FileEntry :=
  files.find? fun f => f.path == path

def diffEntries (source target : List FileEntry) : DiffResult where
  onlyInSource := (source.filter fun s => (entryAt? target s.path).isNone).insertionSort
    fun a b => a.path ≤ b.path
  onlyInTarget := (target.filter fun t => (entryAt? source t.path).isNone).insertionSort
    fun a b => a.path ≤ b.path
  changed := (source.filterMap fun s =>
      match entryAt? target s.path with
      | none => none
      | some t =>
        if s.sha256 ≠ t.sha256 ∨ s.size ≠ t.size then
          some { path := s.path, source := s, target := t }
        else none).insertionSort fun a b => a.path ≤ b.path

def diff (source target : Disk Bytes) : Except OsError DiffResult := do
  let sourceFiles ← scanWorkspaceFiles sha256 source
  let targetFiles ← scanWorkspaceFiles sha256 target
  pure (diffEntries sourceFiles targetFiles)

end

/-! ## Actions -/

/-- `filepath.Dir`. -/
def dirOf (path : Text) : Text :=
  let dir := (locate path).parent
  if dir = .root then ['.'] else dir.render

/-- The order of the actions. -/
def ApplyAction.le (a b : ApplyAction) : Prop :=
  if a.action = b.action then a.path ≤ b.path else a.action.text < b.action.text

instance : DecidableRel ApplyAction.le := fun a b =>
  inferInstanceAs (Decidable (if a.action = b.action then a.path ≤ b.path
    else a.action.text < b.action.text))

/-- The actions for a difference. -/
def actionsOf (d : DiffResult) (opts : ApplyOptions) : List ApplyAction :=
  let dirs := sortTexts ((d.onlyInSource.map fun f => dirOf f.path).filter
    fun dir => dir ≠ ['.'] ∧ dir ≠ []).dedup
  let actions : List ApplyAction :=
    dirs.map (⟨.mkdir, ·⟩) ++ d.onlyInSource.map (⟨.copy, ·.path⟩) ++
      d.changed.map (⟨.update, ·.path⟩) ++
      if opts.deleteMissing then d.onlyInTarget.map (⟨.delete, ·.path⟩) else []
  actions.insertionSort ApplyAction.le

def buildApplyDryRunWithOptions (sha256 : Bytes → String) (source target : Disk Bytes)
    (opts : ApplyOptions) : Except OsError (List ApplyAction) := do
  let d ← diff sha256 source target
  pure (actionsOf d opts)

/-! ## Taking the actions -/

/-- How `apply` fails: the plan or an action fails, and what it leaves of the target. -/
inductive ApplyError where
  | plan (err : OsError)
  | path (text : String) (left : Disk Bytes)
  | os (err : OsError) (left : Disk Bytes)

def resolveWithin (rel : Text) : Except String RelPath :=
  let trimmed := GoText.trimSpace rel
  let c := clean trimmed
  let invalid : Except String RelPath := .error ("invalid relative path: " ++ String.ofList rel)
  if trimmed.head? = some '/' then invalid
  else if c.ups ≠ 0 then invalid
  else if ['.', '.'].isPrefixOf c.path.render then invalid
  else .ok c.path

/-- The temporary sibling. -/
def tmpName (name : Text) : Text := name ++ ".tmp".toList

theorem proper_tmpName {name : Text} (slash : '/' ∉ name) : Proper (tmpName name) := by
  have long : 4 ≤ (tmpName name).length := by simp [tmpName]
  refine ⟨?_, ?_, ?_, ?_⟩
  · intro is
    rw [is] at long
    exact absurd long (by decide)
  · intro mem
    rcases List.mem_append.mp mem with old | new
    · exact slash old
    · exact absurd new (by decide)
  · intro is
    rw [is] at long
    exact absurd long (by decide)
  · intro is
    rw [is] at long
    exact absurd long (by decide)

/-- `dst + ".tmp"`. -/
def tmp (dst : RelPath) : RelPath :=
  dst.parent.push (tmpName (dst.names.getLast?.getD [])) (proper_tmpName (by
    cases is : dst.names.getLast? with
    | none => exact List.not_mem_nil
    | some name => exact (dst.proper name (List.mem_of_getLast? is)).2.1))

/-- `copyFile`: the copy is made next to its place, and moved there. -/
def copyFile (source target : Disk Bytes) (src dst : RelPath) :
    Except (OsError × Disk Bytes) (Disk Bytes) :=
  match source.files.get? src with
  | none => .error (if source.isDir src then .isDir else source.missing src, target)
  | some content =>
    match target.mkdirAll dst.parent with
    | .error err => .error (err, target)
    | .ok made =>
      match made.create (tmp dst) content with
      | .error err => .error (err, made)
      | .ok written =>
        match written.rename (tmp dst) dst with
        | .error err => .error (err, written.unlink (tmp dst))
        | .ok moved => .ok moved

/-- One action. -/
def act (source target : Disk Bytes) (a : ApplyAction) : Except ApplyError (Disk Bytes) :=
  match resolveWithin a.path with
  | .error text => .error (.path text target)
  | .ok path =>
    match a.action with
    | .mkdir =>
      match target.mkdirAll path with
      | .error err => .error (.os err target)
      | .ok made => .ok made
    | .copy | .update =>
      match copyFile source target path path with
      | .error (err, left) => .error (.os err left)
      | .ok copied => .ok copied
    | .delete =>
      match target.remove path with
      | .error .notExist => .ok target
      | .error err => .error (.os err target)
      | .ok removed => .ok removed

/-- `Apply`: the target that is left, and the actions that are reported. -/
def apply (sha256 : Bytes → String) (source target : Disk Bytes) (opts : ApplyOptions) :
    Except ApplyError (Disk Bytes × List ApplyAction) :=
  match buildApplyDryRunWithOptions sha256 source target opts with
  | .error err => .error (.plan err)
  | .ok actions =>
    match actions.foldlM (act source) target with
    | .error err => .error err
    | .ok left => .ok (left, actions)

end LocaQL.Workspace
