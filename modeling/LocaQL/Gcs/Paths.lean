import LocaQL.Lib.Fallible
import LocaQL.Lib.GoText
import LocaQL.Lib.Places

/-!
# The paths of objects

Buckets and objects are kept below the directory `LOCAQL_FAKE_GCS_ROOT`.  The HTTP API and the
jobs compute the path of an object separately: the first one from the names of the bucket and the
object, of which it trims both, and the second one from a URI, which it trims as a whole.

An object is found below the root unless the root is `..` or above and the names lead up from
there; objects with plain names are refused if the root is `.` or `/`; and the two paths differ if
white space around the bucket or before the object matters (`paths_sound_iff`).
-/

namespace LocaQL.Gcs

open GoText (isSpace trimLeft trimRight trimSpace)

open FileTree Fallible List

abbrev Text := List Char

def quote (text : Text) : String := GoText.quote (String.ofList text)

def trimPrefix (pre text : Text) : Text :=
  if pre.isPrefixOf text then text.drop pre.length else text

def fakeGCSRoot (env : Text) : Except String Text :=
  let root := trimSpace env
  if root = [] then
    .error ("LOCAQL_FAKE_GCS_ROOT is not set; the fake GCS JSON API has no local directory to " ++
      "store bucket/object data in")
  else .ok (cleanPath root).render

def fakeGCSObjectPath (root bucket object : Text) : Except String Text :=
  let joined := join [root, bucket, object]
  if within root joined then .ok joined
  else .error ("object " ++ quote object ++ " in bucket " ++ quote bucket ++
    " resolves outside LOCAQL_FAKE_GCS_ROOT")

def resolveFakeGCSPath (env uri : Text) : Except String Text :=
  let root := trimSpace env
  if root = [] then
    .error ("URI " ++ quote uri ++ " uses gs:// which is not supported by the local emulator; " ++
      "use a local file path, or set LOCAQL_FAKE_GCS_ROOT to map gs:// URIs to a local directory")
  else
    let rest := trimPrefix "gs://".toList uri
    let bucket := rest.takeWhile (· ≠ '/')
    let key := (rest.dropWhile (· ≠ '/')).tail
    if bucket = [] then .error ("URI " ++ quote uri ++ " is missing a bucket name")
    else
      let cleanRoot := (cleanPath root).render
      let joined := join [cleanRoot, bucket, key]
      if within cleanRoot joined then .ok joined
      else .error ("URI " ++ quote uri ++ " resolves outside LOCAQL_FAKE_GCS_ROOT")

/-- The path that load and extract jobs resolve. -/
def resolveLocalFilePath (env uri : Text) : Except String Text :=
  let path := trimSpace uri
  if "gs://".toList.isPrefixOf path then resolveFakeGCSPath env path
  else .ok (trimPrefix "file://".toList path)

/-- The path that `gcsObjectUpload` stores an object at. -/
def gcsObjectUpload (env bucket object : Text) : Except String Text := do
  let root ← fakeGCSRoot env
  let bucket := trimSpace bucket
  if bucket = [] then .error "bucket is required"
  else
    let object := trimSpace object
    if object = [] then .error "object name is required (via ?name= or multipart metadata)"
    else fakeGCSObjectPath root bucket object

/-! ## Sound paths -/

def uriOf (bucket object : Text) : Text := "gs://".toList ++ (bucket ++ '/' :: object)

/-- The root that is configured. -/
def rootOf (env : Text) : Place := cleanPath (trimSpace env)

/-- Names of which every segment stands for itself. -/
def Ordinary (bucket object : Text) : Prop := ∀ s ∈ (bucket ++ '/' :: object).splitOn '/', Proper s

/-- What the resolution of paths is for. -/
structure Sound (env bucket object : Text) : Prop where
  contained : ∀ path, (resolveFakeGCSPath env (uriOf bucket object) = .ok path ∨
      (fakeGCSRoot env >>= fun root => fakeGCSObjectPath root bucket object) = .ok path) →
    (rootOf env).Inside (cleanPath path)
  complete : Ordinary bucket object →
    (∃ path, resolveFakeGCSPath env (uriOf bucket object) = .ok path) ∧
      ∃ path, (fakeGCSRoot env >>= fun root => fakeGCSObjectPath root bucket object) = .ok path
  consistent : ∀ path, gcsObjectUpload env bucket object = .ok path →
    resolveLocalFilePath env (uriOf bucket object) = .ok path

/-- The inputs for which it works. -/
structure Tame (env bucket object : Text) : Prop where
  upward : (rootOf env).path = .root → (rootOf env).ups ≠ 0 →
    (clean (bucket ++ '/' :: object)).ups = 0
  bare : Ordinary bucket object → ¬(rootOf env).Bare
  spaces : (∃ path, gcsObjectUpload env bucket object = .ok path) →
    (rootOf env).descend (bucket ++ '/' :: trimRight object) =
      (rootOf env).descend (trimSpace bucket ++ '/' :: trimSpace object)

variable {env bucket object path : Text}

theorem fakeGCSObjectPath_ok {root : Place} : fakeGCSObjectPath root.render bucket object = .ok path ↔
    within root.render path = true ∧ path = (root.descend (bucket ++ '/' :: object)).render := by
  have joined : join [root.render, bucket, object] =
      (root.descend (bucket ++ '/' :: object)).render := by
    rw [← Place.join_render]
    simp [join, List.intercalate]
  rw [fakeGCSObjectPath, joined]
  split
  next inside =>
    rw [Except.ok.injEq]
    exact ⟨fun is => ⟨is ▸ inside, is.symm⟩, fun is => is.2.symm⟩
  next outside => exact iff_of_false (by simp) fun is => outside (is.2 ▸ is.1)

theorem resolveFakeGCSPath_ok (set : trimSpace env ≠ []) (plain : '/' ∉ bucket) :
    resolveFakeGCSPath env (uriOf bucket object) = .ok path ↔
      bucket ≠ [] ∧ fakeGCSObjectPath (rootOf env).render bucket object = .ok path := by
  have rest : trimPrefix "gs://".toList (uriOf bucket object) = bucket ++ '/' :: object := by
    rw [trimPrefix, uriOf, if_pos ( isPrefixOf_iff_prefix.mpr (prefix_append _ _)), drop_left]
  have all : ∀ c ∈ bucket, decide (c ≠ '/') = true := fun c mem =>
    decide_eq_true fun is => plain (is ▸ mem)
  have first : (bucket ++ '/' :: object).takeWhile (· ≠ '/') = bucket := by
    rw [takeWhile_append_of_pos all]
    simp
  have second : ((bucket ++ '/' :: object).dropWhile (· ≠ '/')).tail = object := by
    rw [dropWhile_append_of_pos all]
    simp
  rw [resolveFakeGCSPath, if_neg set]
  simp only [rest, first, second]
  by_cases empty : bucket = []
  · rw [if_pos empty]
    exact iff_of_false nofun fun is => is.1 empty
  · rw [if_neg empty, and_iff_right empty, fakeGCSObjectPath, rootOf]
    split
    · exact Iff.rfl
    · exact iff_of_false nofun nofun

/-- The URI is trimmed at the end of the object only. -/
theorem trimSpace_uriOf (bucket object : Text) :
    trimSpace (uriOf bucket object) = uriOf bucket (trimRight object) := by
  have start : trimLeft (uriOf bucket object) = uriOf bucket object := rfl
  have text (o : Text) : uriOf bucket o = ("gs://".toList ++ bucket ++ ['/']) ++ o := by
    simp [uriOf]
  rw [trimSpace, start, text, text, trimRight, reverse_append, dropWhile_append, trimRight]
  split
  next empty =>
    rw [List.isEmpty_iff.mp empty, reverse_append]
    simp [show isSpace '/' = false from rfl]
  · rw [reverse_append, reverse_reverse]

section

variable (set : trimSpace env ≠ [])
include set

theorem fakeGCSRoot_ok : fakeGCSRoot env = .ok (rootOf env).render := if_neg set

theorem objectPath_ok :
    (fakeGCSRoot env >>= fun root => fakeGCSObjectPath root bucket object) = .ok path ↔
      fakeGCSObjectPath (rootOf env).render bucket object = .ok path := by
  rw [fakeGCSRoot_ok set]
  rfl

variable (plain : '/' ∉ bucket)
include plain

theorem contained_iff :
    (∀ path, (resolveFakeGCSPath env (uriOf bucket object) = .ok path ∨
        (fakeGCSRoot env >>= fun root => fakeGCSObjectPath root bucket object) = .ok path) →
      (rootOf env).Inside (cleanPath path)) ↔
    ((rootOf env).path = .root → (rootOf env).ups ≠ 0 →
      (clean (bucket ++ '/' :: object)).ups = 0) := by
  simp only [objectPath_ok set, resolveFakeGCSPath_ok set plain, fakeGCSObjectPath_ok]
  have relative (ups : (rootOf env).ups ≠ 0) : (rootOf env).rooted = false :=
    Bool.eq_false_iff.mpr fun rooted => ups ((rootOf env).top rooted)
  have test := Place.within_iff (p := rootOf env)
    (q := (rootOf env).descend (bucket ++ '/' :: object)) rfl
  constructor
  · intro contained top ups
    have sum := Place.ups_descend (relative ups) top (bucket ++ '/' :: object)
    by_contra up
    have accepted := test.mpr (.inr ⟨fun bare => ups bare.1, .inr ⟨top, by omega⟩⟩)
    have inside := contained _ (.inr ⟨accepted, rfl⟩)
    rw [Place.cleanPath_render] at inside
    have same := inside.2.1
    omega
  · intro upward path ok
    obtain ⟨accepted, is⟩ := ok.elim And.right id
    rw [is, test] at accepted
    rw [is, Place.cleanPath_render]
    rcases accepted with same | ⟨there, inside | ⟨top, lt⟩⟩
    · rw [same]
      exact ⟨rfl, rfl, prefix_rfl⟩
    · exact ⟨rfl, inside⟩
    · have ups : (rootOf env).ups ≠ 0 := fun none => there ⟨none, top⟩
      have sum := Place.ups_descend (relative ups) top (bucket ++ '/' :: object)
      have none := upward top ups
      omega

theorem complete_iff :
    (Ordinary bucket object →
      (∃ path, resolveFakeGCSPath env (uriOf bucket object) = .ok path) ∧
        ∃ path, (fakeGCSRoot env >>= fun root => fakeGCSObjectPath root bucket object) =
          .ok path) ↔
    (Ordinary bucket object → ¬(rootOf env).Bare) := by
  refine imp_congr_right fun ordinary => ?_
  simp only [objectPath_ok set, resolveFakeGCSPath_ok set plain, fakeGCSObjectPath_ok]
  have test := Place.within_iff (p := rootOf env)
    (q := (rootOf env).descend (bucket ++ '/' :: object)) rfl
  obtain ⟨ups, names⟩ := foldl_cleanStep _ ordinary ⟨(rootOf env).ups, (rootOf env).path⟩
  have ups : ((rootOf env).descend (bucket ++ '/' :: object)).ups = (rootOf env).ups := by
    show (if (rootOf env).rooted then 0 else _) = _
    split
    next rooted => exact ((rootOf env).top rooted).symm
    · exact ups
  have apart : (rootOf env).descend (bucket ++ '/' :: object) ≠ rootOf env := by
    intro same
    have length := congrArg (fun q : Place => q.path.names) same
    exact splitOnP_ne_nil _ _ (append_right_eq_self.mp (names.symm.trans length))
  have nonempty : bucket ≠ [] := by
    intro empty
    refine (ordinary [] ?_).1 rfl
    rw [empty, splitOn_slash]
    exact mem_cons_self
  have accepted := test.trans ((or_iff_right apart).trans
    (and_iff_left (.inl ⟨ups, _, names.symm⟩)))
  rw [← accepted]
  constructor
  · rintro ⟨-, path, inside, is⟩
    exact is ▸ inside
  · exact fun inside => ⟨⟨_, nonempty, inside, rfl⟩, _, inside, rfl⟩

theorem consistent_iff :
    (∀ path, gcsObjectUpload env bucket object = .ok path →
      resolveLocalFilePath env (uriOf bucket object) = .ok path) ↔
    ((∃ path, gcsObjectUpload env bucket object = .ok path) →
      (rootOf env).descend (bucket ++ '/' :: trimRight object) =
        (rootOf env).descend (trimSpace bucket ++ '/' :: trimSpace object)) := by
  have stored {path : Text} (h : gcsObjectUpload env bucket object = .ok path) : bucket ≠ [] ∧
      fakeGCSObjectPath (rootOf env).render (trimSpace bucket) (trimSpace object) =
        .ok path := by
    obtain ⟨root, is, h⟩ := bind_ok.mp h
    cases (fakeGCSRoot_ok set).symm.trans is
    dsimp only at h
    split at h
    · cases h
    next named =>
      split at h
      · cases h
      · exact ⟨fun empty => named (by rw [empty]; rfl), h⟩
  have resolved (path : Text) : resolveLocalFilePath env (uriOf bucket object) = .ok path ↔
      bucket ≠ [] ∧ fakeGCSObjectPath (rootOf env).render bucket (trimRight object) =
        .ok path := by
    rw [resolveLocalFilePath, trimSpace_uriOf, ← resolveFakeGCSPath_ok set plain]
    rfl
  simp only [resolved, fakeGCSObjectPath_ok]
  simp only [fakeGCSObjectPath_ok] at stored
  constructor
  · rintro same ⟨path, ok⟩
    obtain ⟨-, -, is⟩ := same path ok
    exact Place.render_inj (is.symm.trans (stored ok).2.2)
  · intro same path ok
    obtain ⟨named, inside, is⟩ := stored ok
    exact ⟨named, inside, by rw [is, same ⟨path, ok⟩]⟩

/-- **Paths of objects.**  For a root that is configured and a bucket without a slash. -/
theorem paths_sound_iff : Sound env bucket object ↔ Tame env bucket object := by
  constructor
  · rintro ⟨contained, complete, consistent⟩
    exact ⟨(contained_iff set plain).mp contained, (complete_iff set plain).mp complete,
      (consistent_iff set plain).mp consistent⟩
  · rintro ⟨upward, bare, spaces⟩
    exact ⟨(contained_iff set plain).mpr upward, (complete_iff set plain).mpr bare,
      (consistent_iff set plain).mpr spaces⟩

end

theorem paths_sound_iff_data : Sound "/data".toList "b".toList "o.csv".toList :=
  (paths_sound_iff (by decide) (by decide)).mpr
    ⟨fun top => absurd top (by decide), fun _ => by decide, fun _ => by decide⟩

/-- With the root `..` the bucket `..` is beside it, with the root `.` an object with a plain name
is refused, and a bucket is trimmed by one side only. -/
theorem object_outside_root :
    (∃ path, resolveFakeGCSPath "..".toList (uriOf "..".toList "o".toList) = .ok path ∧
      ¬(rootOf "..".toList).Inside (cleanPath path)) ∧
    (∃ text, resolveFakeGCSPath ".".toList (uriOf "b".toList "o".toList) = .error text) ∧
    gcsObjectUpload "/data".toList " b".toList "o".toList = .ok "/data/b/o".toList ∧
      resolveLocalFilePath "/data".toList (uriOf " b".toList "o".toList) =
        .ok "/data/ b/o".toList := by
  refine ⟨⟨"../../o".toList, by rfl, fun inside => ?_⟩, ⟨_, by rfl⟩, by rfl, by rfl⟩
  exact absurd inside.2.1 (by decide)

end LocaQL.Gcs
