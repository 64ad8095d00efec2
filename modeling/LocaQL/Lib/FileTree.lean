import LocaQL.Lib.GoMap
import Mathlib.Data.List.Infix

/-!
# File trees

The files and directories below a root, as a map from paths to contents and a list of paths.
A path is a list of names, and a tree carries that the directories above a path are there and
that no path is both a file and a directory.

The operations are those of an operating system: they fail as it does, and what they leave is
said by one lemma for each (`mkdirAll_ok`, `create_ok`, `rename_ok`, `remove_ok`).
-/

namespace FileTree

open List

/-! ## Paths -/

/-- A name that stands for itself in a path. -/
def Proper (name : List Char) : Prop :=
  name ≠ [] ∧ '/' ∉ name ∧ name ≠ ['.'] ∧ name ≠ ['.', '.']

instance (name : List Char) : Decidable (Proper name) :=
  inferInstanceAs (Decidable (_ ∧ _ ∧ _ ∧ _))

@[ext] structure RelPath where
  names : List (List Char)
  proper : ∀ name ∈ names, Proper name

variable {a p : RelPath}

namespace RelPath

instance : DecidableEq RelPath := fun p q =>
  decidable_of_iff (p.names = q.names) RelPath.ext_iff.symm

/-- The directory that paths start from. -/
def root : RelPath := ⟨[], fun _ mem => absurd mem not_mem_nil⟩

/-- A path is above its extensions. -/
instance : LE RelPath := ⟨fun a p => a.names <+: p.names⟩

theorem le_def : a ≤ p ↔ a.names <+: p.names := Iff.rfl

theorem le_trans {b : RelPath} (h1 : a ≤ b) (h2 : b ≤ p) : a ≤ p := List.IsPrefix.trans h1 h2

def take (p : RelPath) (n : Nat) : RelPath :=
  ⟨p.names.take n, fun name mem => p.proper name (mem_of_mem_take mem)⟩

/-- The path and the paths above it. -/
def prefixes (p : RelPath) : List RelPath := (List.range (p.names.length + 1)).map p.take

theorem mem_prefixes : a ∈ p.prefixes ↔ a ≤ p := by
  rw [prefixes, mem_map, le_def]
  constructor
  · rintro ⟨n, -, rfl⟩
    exact take_prefix n p.names
  · intro above
    refine ⟨a.names.length, mem_range.mpr (Nat.lt_succ_of_le above.length_le), ?_⟩
    exact RelPath.ext (prefix_iff_eq_take.mp above).symm

def parent (p : RelPath) : RelPath := ⟨p.names.dropLast, fun name mem =>
  p.proper name (mem_of_mem_dropLast mem)⟩

theorem parent_le (p : RelPath) : p.parent ≤ p := dropLast_prefix p.names

/-- What is above a path is above its parent. -/
theorem le_parent (above : a ≤ p) (ne : a ≠ p) : a ≤ p.parent := by
  obtain ⟨rest, is⟩ := above
  cases rest using List.reverseRecOn with
  | nil => exact absurd (RelPath.ext ((append_nil _).symm.trans is)) ne
  | append_singleton rest last _ =>
    refine ⟨rest, ?_⟩
    show a.names ++ rest = p.names.dropLast
    rw [← is, ← append_assoc, dropLast_concat]

def push (p : RelPath) (name : List Char) (proper : Proper name) : RelPath :=
  ⟨p.names ++ [name], fun other mem => by
    rcases mem_append.mp mem with old | new
    · exact p.proper other old
    · rw [mem_singleton.mp new]
      exact proper⟩

/-- The path with slashes. -/
def render (p : RelPath) : List Char := ['/'].intercalate p.names

end RelPath

theorem intercalate_append {α : Type} {sep : List α} {xs ys : List (List α)} (hx : xs ≠ [])
    (hy : ys ≠ []) :
    sep.intercalate (xs ++ ys) = sep.intercalate xs ++ sep ++ sep.intercalate ys := by
  induction xs with
  | nil => exact absurd rfl hx
  | cons x xs ih =>
    by_cases last : xs = []
    · subst last
      rw [singleton_append, intercalate_cons_of_ne_nil hy]
      simp [List.intercalate]
    · have ne : xs ++ ys ≠ [] := append_ne_nil_of_left_ne_nil last ys
      rw [cons_append, intercalate_cons_of_ne_nil ne, intercalate_cons_of_ne_nil last, ih last]
      simp only [append_assoc]

theorem intercalate_concat {names : List (List Char)} (ne : names ≠ []) (last : List Char) :
    ['/'].intercalate (names ++ [last]) = ['/'].intercalate names ++ '/' :: last := by
  rw [intercalate_append ne (cons_ne_nil _ _)]
  simp [List.intercalate]

/-- A path that was cleaned: so many steps up, and then the path. -/
structure Cleaned where
  ups : Nat := 0
  path : RelPath := .root

/-- One segment of a text; an empty segment and a dot are skipped. -/
def cleanStep (c : Cleaned) (segment : List Char) : Cleaned :=
  if segment = ['.', '.'] then
    if c.path = .root then { c with ups := c.ups + 1 } else { c with path := c.path.parent }
  else if h : Proper segment then { c with path := c.path.push segment h }
  else c

/-- `filepath.Clean` of a text that does not start with a slash. -/
def clean (text : List Char) : Cleaned := (text.splitOn '/').foldl cleanStep {}

theorem foldl_cleanStep (names : List (List Char)) (proper : ∀ name ∈ names, Proper name)
    (c : Cleaned) :
    (names.foldl cleanStep c).ups = c.ups ∧
      (names.foldl cleanStep c).path.names = c.path.names ++ names := by
  induction names generalizing c with
  | nil => exact ⟨rfl, (append_nil _).symm⟩
  | cons name names ih =>
    obtain ⟨first, rest⟩ := forall_mem_cons.mp proper
    have step : cleanStep c name = { c with path := c.path.push name first } := by
      rw [cleanStep, if_neg first.2.2.2, dif_pos first]
    obtain ⟨ups, names'⟩ := ih rest { c with path := c.path.push name first }
    rw [foldl_cons, step]
    refine ⟨ups, names'.trans ?_⟩
    exact append_assoc _ [name] names

/-- A path is clean. -/
theorem clean_render (p : RelPath) : clean p.render = { path := p } := by
  have split (ne : p.names ≠ []) : p.render.splitOn '/' = p.names :=
    splitOn_intercalate '/' (fun name mem => (p.proper name mem).2.1) ne
  have ends : (clean p.render).ups = 0 ∧ (clean p.render).path.names = p.names := by
    by_cases empty : p.names = []
    · rw [clean, RelPath.render, empty]
      exact ⟨rfl, rfl⟩
    · rw [clean, split empty]
      exact foldl_cleanStep p.names p.proper {}
  obtain ⟨ups, names⟩ := ends
  generalize clean p.render = c at ups names
  obtain ⟨u, q⟩ := c
  cases ups
  have same : q = p := RelPath.ext names
  rw [same]

/-! ## Trees -/

/-- How an operation fails. -/
inductive OsError where
  | notExist
  | notDir
  | isDir
  | notEmpty
deriving Repr, DecidableEq

/-- A file or a directory is below the directories above it. -/
structure Disk (β : Type) where
  files : GoMap RelPath β := ∅
  dirs : List RelPath := []
  closed : ∀ p, (files.get? p).isSome ∨ p ∈ dirs →
    ∀ a, a ≤ p → a ≠ p → a ≠ .root → a ∈ dirs
  apart : ∀ p ∈ dirs, files.get? p = none
  rooted : files.get? .root = none ∧ .root ∉ dirs

namespace Disk

variable {β : Type} {t : Disk β}

def isDir (t : Disk β) (p : RelPath) : Prop := p = .root ∨ p ∈ t.dirs

instance (t : Disk β) (p : RelPath) : Decidable (t.isDir p) := inferInstanceAs (Decidable (_ ∨ _))

/-- The error for a path below one that is not a directory. -/
def missing (t : Disk β) (p : RelPath) : OsError :=
  if p.prefixes.any fun a => (t.files.get? a).isSome then .notDir else .notExist

/-- `os.Stat`, for what is there. -/
inductive Entry (β : Type) where
  | file (content : β)
  | dir

def stat (t : Disk β) (p : RelPath) : Except OsError (Entry β) :=
  match t.files.get? p with
  | some content => .ok (.file content)
  | none => if t.isDir p then .ok .dir else .error (t.missing p)

/-- The directories above a directory are there. -/
theorem isDir_of_le (dir : t.isDir p) (above : a ≤ p) : t.isDir a := by
  by_cases same : a = p
  · rw [same]
    exact dir
  · by_cases top : a = .root
    · exact .inl top
    · rcases dir with rfl | mem
      · exact absurd (RelPath.ext (prefix_nil.mp above)) same
      · exact .inr (t.closed p (.inr mem) a above same top)

/-- The directories above a file are there. -/
theorem isDir_of_file {content : β} (found : t.files.get? p = some content) (above : a ≤ p)
    (ne : a ≠ p) : t.isDir a := by
  by_cases top : a = .root
  · exact .inl top
  · exact .inr (t.closed p (.inl (Option.isSome_of_eq_some found)) a above ne top)

/-- A directory is not a file. -/
theorem file_none (dir : t.isDir p) : t.files.get? p = none := by
  rcases dir with rfl | mem
  · exact t.rooted.1
  · exact t.apart p mem

/-- `os.MkdirAll`. -/
def mkdirAll (t : Disk β) (p : RelPath) : Except OsError (Disk β) :=
  if free : ∀ a ∈ p.prefixes, t.files.get? a = none then
    .ok
      { files := t.files
        dirs := p.prefixes.filter (· ≠ .root) ++ t.dirs
        closed := by
          intro q there a above ne top
          have old (there : (t.files.get? q).isSome ∨ q ∈ t.dirs) :
              a ∈ p.prefixes.filter (· ≠ .root) ++ t.dirs :=
            mem_append_right _ (t.closed q there a above ne top)
          rcases there with file | dir
          · exact old (.inl file)
          rcases mem_append.mp dir with new | dir
          · have below := RelPath.mem_prefixes.mp (mem_filter.mp new).1
            refine mem_append_left _ (mem_filter.mpr ⟨?_, decide_eq_true top⟩)
            exact RelPath.mem_prefixes.mpr (RelPath.le_trans above below)
          · exact old (.inr dir)
        apart := by
          intro q dir
          rcases mem_append.mp dir with new | dir
          · exact free q (mem_filter.mp new).1
          · exact t.apart q dir
        rooted := by
          refine ⟨t.rooted.1, fun mem => ?_⟩
          rcases mem_append.mp mem with new | dir
          · exact of_decide_eq_true (mem_filter.mp new).2 rfl
          · exact t.rooted.2 dir }
  else .error .notDir

/-- A file is written: no directory is there, and the directory above it is. -/
def put (t : Disk β) (p : RelPath) (content : β) (file : ¬t.isDir p) (dir : t.isDir p.parent) :
    Disk β where
  files := t.files.set p content
  dirs := t.dirs
  closed := by
    intro q there a above ne top
    by_cases same : q = p
    · subst same
      rcases isDir_of_le dir (RelPath.le_parent above ne) with root | mem
      · exact absurd root top
      · exact mem
    · rw [GoMap.get?_set_ne _ _ same] at there
      exact t.closed q there a above ne top
  apart := by
    intro q mem
    have ne : q ≠ p := fun same => file (.inr (same ▸ mem))
    rw [GoMap.get?_set_ne _ _ ne]
    exact t.apart q mem
  rooted := by
    have ne : RelPath.root ≠ p := fun same => file (.inl same.symm)
    rw [GoMap.get?_set_ne _ _ ne]
    exact t.rooted

/-- A file is taken out. -/
def unlink (t : Disk β) (p : RelPath) : Disk β where
  files := t.files.delete p
  dirs := t.dirs
  closed := by
    intro q there
    refine t.closed q ?_
    rcases there with file | dir
    · rw [GoMap.get?_delete] at file
      split at file
      · cases file
      · exact .inl file
    · exact .inr dir
  apart := by
    intro q mem
    rw [GoMap.get?_delete]
    split
    · rfl
    · exact t.apart q mem
  rooted := by
    rw [GoMap.get?_delete]
    split
    · exact ⟨rfl, t.rooted.2⟩
    · exact t.rooted

/-- `os.Create`, and the contents are written. -/
def create (t : Disk β) (p : RelPath) (content : β) : Except OsError (Disk β) :=
  if file : t.isDir p then .error .isDir
  else if dir : t.isDir p.parent then .ok (t.put p content file dir)
  else .error (t.missing p.parent)

/-- `os.Rename` of a file. -/
def rename (t : Disk β) (src dst : RelPath) : Except OsError (Disk β) :=
  match t.files.get? src with
  | none => .error (t.missing src)
  | some content =>
    if file : t.isDir dst then .error .isDir
    else if dir : t.isDir dst.parent then .ok ((t.unlink src).put dst content file dir)
    else .error (t.missing dst.parent)

/-- Something is in the directory. -/
def occupied (t : Disk β) (p : RelPath) : Bool :=
  (t.files.keys ++ t.dirs).any fun q => decide (p ∈ q.prefixes ∧ q ≠ p)

/-- An empty directory is taken out. -/
def rmdir (t : Disk β) (p : RelPath) (empty : t.occupied p = false) : Disk β where
  files := t.files
  dirs := t.dirs.filter (· ≠ p)
  closed := by
    intro q there a above ne top
    have before : (t.files.get? q).isSome ∨ q ∈ t.dirs :=
      there.imp_right fun mem => (mem_filter.mp mem).1
    refine mem_filter.mpr ⟨t.closed q before a above ne top, decide_eq_true fun same => ?_⟩
    -- the directory would be above something
    subst same
    rw [occupied, any_eq_false] at empty
    refine empty q ?_ (decide_eq_true ⟨RelPath.mem_prefixes.mpr above, ne.symm⟩)
    rcases before with file | dir
    · exact mem_append_left _ (AList.lookup_isSome.mp file)
    · exact mem_append_right _ dir
  apart q mem := t.apart q (mem_filter.mp mem).1
  rooted := ⟨t.rooted.1, fun mem => t.rooted.2 (mem_filter.mp mem).1⟩

/-- `os.Remove`. -/
def remove (t : Disk β) (p : RelPath) : Except OsError (Disk β) :=
  if t.isDir p then
    if empty : t.occupied p = false then .ok (t.rmdir p empty) else .error .notEmpty
  else
    match t.files.get? p with
    | some _ => .ok (t.unlink p)
    | none => .error (t.missing p)

/-! ## What the operations leave -/

variable {t t' : Disk β} {p src dst : RelPath} {content : β}

theorem mkdirAll_ok (h : t.mkdirAll p = .ok t') :
    t'.files = t.files ∧ (∀ q, t.isDir q → t'.isDir q) ∧ t'.isDir p := by
  rw [mkdirAll] at h
  split at h
  · cases h
    refine ⟨rfl, fun q dir => dir.imp_right (mem_append_right _), ?_⟩
    by_cases top : p = .root
    · exact .inl top
    · refine .inr (mem_append_left _ (mem_filter.mpr ⟨?_, decide_eq_true top⟩))
      exact RelPath.mem_prefixes.mpr (prefix_refl _)
  · cases h

theorem create_ok (h : t.create p content = .ok t') :
    t'.files = t.files.set p content ∧ t'.dirs = t.dirs ∧ ¬t.isDir p := by
  rw [create] at h
  split at h
  · cases h
  next file =>
    split at h
    · cases h
      exact ⟨rfl, rfl, file⟩
    · cases h

theorem rename_ok (found : t.files.get? src = some content) (h : t.rename src dst = .ok t') :
    t'.files = (t.files.delete src).set dst content ∧ t'.dirs = t.dirs := by
  rw [rename, found] at h
  dsimp only at h
  split at h
  · cases h
  split at h
  · cases h
    exact ⟨rfl, rfl⟩
  · cases h

theorem remove_ok (h : t.remove p = .ok t') :
    (∀ q, t'.files.get? q = if q = p then none else t.files.get? q) ∧
      ∀ q, q ≠ p → t.isDir q → t'.isDir q := by
  rw [remove] at h
  split at h
  next dir =>
    split at h
    · cases h
      refine ⟨fun q => ?_, fun q ne isDir => isDir.imp_right fun mem => ?_⟩
      · show t.files.get? q = if q = p then none else t.files.get? q
        split
        next same =>
          rw [same]
          exact file_none dir
        · rfl
      · exact mem_filter.mpr ⟨mem, decide_eq_true ne⟩
    · cases h
  · split at h
    · cases h
      exact ⟨fun q => GoMap.get?_delete t.files p q, fun q _ isDir => isDir⟩
    · cases h

/-- A failure because the path is not there: nothing is there, not even a directory. -/
theorem remove_notExist (h : t.remove p = .error .notExist) :
    t.files.get? p = none ∧ ¬t.isDir p := by
  rw [remove] at h
  split at h
  · split at h
    · cases h
    · cases h
  next dir =>
    split at h
    · cases h
    next absent => exact ⟨absent, dir⟩

end Disk

end FileTree
