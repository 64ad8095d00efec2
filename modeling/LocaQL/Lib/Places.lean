import LocaQL.Lib.FileTree

/-!
# Clean paths

A path of an operating system as `filepath.Clean` and `filepath.Join` see it: it starts at the
root or in the working directory, goes some steps up, and then down.

To test whether a clean path is below another one, the texts are compared: one is the other one
with a slash and more (`within`).  The test is not about the places.  It is wrong for `.` and `/`,
below which it finds nothing, and for `..`, below which it finds `../..` (`within_iff`).
-/

namespace FileTree

open List

/-- The steps up from the root lead nowhere. -/
@[ext] structure Place where
  rooted : Bool
  ups : Nat
  path : RelPath
  top : rooted = true → ups = 0

namespace Place

instance : DecidableEq Place := fun p q =>
  decidable_of_iff (p.rooted = q.rooted ∧ p.ups = q.ups ∧ p.path = q.path) Place.ext_iff.symm

def ofCleaned (rooted : Bool) (c : Cleaned) : Place :=
  ⟨rooted, if rooted then 0 else c.ups, c.path, fun is => if_pos is⟩

/-- The place is `.` or `/`. -/
def Bare (p : Place) : Prop := p.ups = 0 ∧ p.path = .root

instance (p : Place) : Decidable p.Bare := inferInstanceAs (Decidable (_ ∧ _))

def steps (p : Place) : List (List Char) := List.replicate p.ups ['.', '.'] ++ p.path.names

/-- What stands between the slashes of the text of a place. -/
def segments (p : Place) : List (List Char) :=
  (if p.rooted then [[]] else []) ++
    if p.Bare then [if p.rooted then [] else ['.']] else p.steps

def render (p : Place) : List Char := ['/'].intercalate p.segments

/-- The place that a text leads to from a place. -/
def descend (p : Place) (rest : List Char) : Place :=
  ofCleaned p.rooted ((rest.splitOn '/').foldl cleanStep ⟨p.ups, p.path⟩)

/-- The place is below the other one, or the same. -/
def Inside (p q : Place) : Prop := q.rooted = p.rooted ∧ q.ups = p.ups ∧ p.path ≤ q.path

end Place

/-- `filepath.Clean`. -/
def cleanPath (text : List Char) : Place := .ofCleaned (text.head? == some '/') (clean text)

/-- `filepath.Join`, of elements of which the first is not empty. -/
def join (elems : List (List Char)) : List Char := (cleanPath (['/'].intercalate elems)).render

/-- The test for a path below another one. -/
def within (root joined : List Char) : Bool :=
  joined == root || (root ++ ['/']).isPrefixOf joined

/-! ## Texts and segments -/

theorem splitOn_slash (a b : List Char) :
    (a ++ '/' :: b).splitOn '/' = a.splitOn '/' ++ b.splitOn '/' :=
  splitOnP_append_cons a b rfl

theorem plain_splitOn (text : List Char) : ∀ s ∈ text.splitOn '/', '/' ∉ s := by
  induction text with
  | nil => simp
  | cons c text ih =>
    rw [List.splitOn, splitOnP_cons_eq_if_modifyHead]
    split
    · exact forall_mem_cons.mpr ⟨not_mem_nil, ih⟩
    next other =>
      obtain ⟨s, rest, is⟩ := exists_cons_of_ne_nil (splitOnP_ne_nil (· == '/') text)
      rw [List.splitOn, is] at ih
      obtain ⟨first, others⟩ := forall_mem_cons.mp ih
      rw [is]
      refine forall_mem_cons.mpr ⟨fun mem => ?_, others⟩
      exact (mem_cons.mp mem).elim (fun same => other (beq_iff_eq.mpr same.symm)) first

namespace Place

variable {p q : Place}

theorem mem_steps : ∀ s ∈ p.steps, s = ['.', '.'] ∨ Proper s := by
  intro s mem
  rcases mem_append.mp mem with up | down
  · exact .inl (eq_of_mem_replicate up)
  · exact .inr (p.path.proper s down)

theorem steps_ne_nil (h : ¬p.Bare) : p.steps ≠ [] := by
  intro empty
  obtain ⟨ups, names⟩ := append_eq_nil_iff.mp empty
  exact h ⟨by simpa using ups, RelPath.ext names⟩

theorem segments_rooted (rooted : p.rooted = true) :
    p.segments = [] :: if p.Bare then [[]] else p.steps := by
  simp [segments, rooted]

theorem segments_relative (rooted : p.rooted = false) :
    p.segments = if p.Bare then [['.']] else p.steps := by
  simp [segments, rooted]

theorem segments_plain : ∀ s ∈ p.segments, '/' ∉ s ∧ (s = [] → p.rooted = true) := by
  have steps : ∀ s ∈ p.steps, '/' ∉ s ∧ (s = [] → p.rooted = true) := by
    intro s mem
    rcases mem_steps s mem with rfl | proper
    · exact ⟨by decide, nofun⟩
    · exact ⟨proper.2.1, fun empty => absurd empty proper.1⟩
  cases rooted : p.rooted with
  | true =>
    rw [segments_rooted rooted]
    refine fun s mem => ⟨?_, fun _ => rfl⟩
    split at mem
    · simp_all
    · rcases mem_cons.mp mem with rfl | down
      · exact not_mem_nil
      · exact (steps s down).1
  | false =>
    rw [segments_relative rooted]
    split
    · exact forall_mem_singleton.mpr ⟨by decide, nofun⟩
    · rwa [rooted] at steps

theorem segments_ne_nil : p.segments ≠ [] := by
  rw [segments]
  split
  · exact cons_ne_nil _ _
  · split
    · exact cons_ne_nil _ _
    next there => exact steps_ne_nil there

theorem splitOn_render : p.render.splitOn '/' = p.segments :=
  splitOn_intercalate '/' (fun s mem => (segments_plain s mem).1) segments_ne_nil

theorem foldl_ups (n : Nat) (c : Cleaned) (top : c.path = .root) :
    (List.replicate n ['.', '.']).foldl cleanStep c = { c with ups := c.ups + n } := by
  induction n generalizing c with
  | zero => rfl
  | succ n ih =>
    rw [replicate_succ, foldl_cons, cleanStep, if_pos rfl, if_pos top]
    refine (ih { c with ups := c.ups + 1 } top).trans ?_
    rw [Nat.add_assoc, Nat.add_comm 1]

theorem foldl_segments : p.segments.foldl cleanStep {} = ⟨p.ups, p.path⟩ := by
  have steps : p.steps.foldl cleanStep {} = ⟨p.ups, p.path⟩ := by
    rw [steps, foldl_append, foldl_ups _ _ rfl, Nat.zero_add]
    obtain ⟨ups, names⟩ := foldl_cleanStep p.path.names p.path.proper { ups := p.ups }
    generalize p.path.names.foldl cleanStep { ups := p.ups } = c at ups names
    obtain ⟨u, path⟩ := c
    exact congrArg₂ Cleaned.mk ups (RelPath.ext names)
  have skipped : (if p.rooted then [[]] else []).foldl cleanStep {} = {} := by
    split <;> rfl
  rw [segments, foldl_append, skipped]
  split
  next bare =>
    rw [bare.1, bare.2]
    split <;> rfl
  · exact steps

/-- The text starts with a slash if the place is below the root. -/
theorem head_render : ∃ c text, p.render = c :: text ∧ (c == '/') = p.rooted := by
  cases is : p.segments with
  | nil => exact absurd is segments_ne_nil
  | cons s rest =>
    obtain ⟨plain, nonempty⟩ := segments_plain s (is ▸ mem_cons_self)
    cases s with
    | nil =>
      have rooted := nonempty rfl
      rw [segments_rooted rooted] at is
      have ne : rest ≠ [] := by
        rw [← (List.cons.inj is).2]
        split
        · exact cons_ne_nil _ _
        next there => exact steps_ne_nil there
      refine ⟨'/', ['/'].intercalate rest, ?_, rooted.symm⟩
      rw [render, segments_rooted rooted, is, intercalate_cons_of_ne_nil ne]
      rfl
    | cons c s =>
      have text : ∃ text, p.render = c :: s ++ text := by
        by_cases last : rest = []
        · exact ⟨[], by simp [render, is, last, List.intercalate]⟩
        · exact ⟨_, by rw [render, is, intercalate_cons_of_ne_nil last, append_assoc]⟩
      obtain ⟨text, there⟩ := text
      refine ⟨c, s ++ text, there, ?_⟩
      have relative : p.rooted = false := by
        by_contra rooted
        rw [segments_rooted (Bool.not_eq_false _ ▸ rooted)] at is
        cases is
      rw [relative]
      exact beq_eq_false_iff_ne.mpr fun same => plain (same ▸ mem_cons_self)

theorem ofCleaned_self : ofCleaned p.rooted ⟨p.ups, p.path⟩ = p := by
  refine Place.ext rfl ?_ rfl
  show (if p.rooted then 0 else p.ups) = p.ups
  split
  next rooted => exact (p.top rooted).symm
  · rfl

theorem cleanPath_render : cleanPath p.render = p := by
  obtain ⟨c, text, is, slash⟩ := p.head_render
  rw [cleanPath, clean, splitOn_render, foldl_segments, is, head?_cons,
    Option.some_beq_some, slash, ofCleaned_self]

theorem render_inj (h : p.render = q.render) : p = q := by
  rw [← cleanPath_render (p := p), h, cleanPath_render]

/-- Joining goes down from a clean path. -/
theorem join_render (rest : List Char) : join [p.render, rest] = (p.descend rest).render := by
  obtain ⟨c, text, is, slash⟩ := p.head_render
  have joined : ['/'].intercalate [p.render, rest] = p.render ++ '/' :: rest := by
    simp [List.intercalate]
  rw [join, joined, cleanPath, clean, splitOn_slash, splitOn_render, foldl_append,
    foldl_segments, is, cons_append, head?_cons, Option.some_beq_some, slash]
  rfl

/-- The steps up add to those of a place that goes nowhere else. -/
theorem ups_descend (rel : p.rooted = false) (top : p.path = .root) (rest : List Char) :
    (p.descend rest).ups = p.ups + (clean rest).ups := by
  have shift (names : List (List Char)) (c : Cleaned) :
      names.foldl cleanStep { c with ups := p.ups + c.ups } =
        { names.foldl cleanStep c with ups := p.ups + (names.foldl cleanStep c).ups } := by
    induction names generalizing c with
    | nil => rfl
    | cons name names ih =>
      have step : cleanStep { c with ups := p.ups + c.ups } name =
          { cleanStep c name with ups := p.ups + (cleanStep c name).ups } := by
        simp only [cleanStep]
        split_ifs <;> rfl
      rw [foldl_cons, step, ih, foldl_cons]
  rw [descend, ofCleaned, rel, top]
  exact congrArg Cleaned.ups (shift (rest.splitOn '/') {})

/-! ## The test -/

theorem within_render : within p.render q.render = true ↔
    q = p ∨ ∃ more, more ≠ [] ∧ q.segments = p.segments ++ more := by
  rw [within, Bool.or_eq_true, beq_iff_eq, isPrefixOf_iff_prefix]
  refine or_congr ⟨render_inj, congrArg render⟩ ⟨?_, ?_⟩
  · rintro ⟨rest, is⟩
    refine ⟨rest.splitOn '/', splitOnP_ne_nil _ _, ?_⟩
    rw [← splitOn_render, ← is, append_assoc, singleton_append, splitOn_slash, splitOn_render]
  · rintro ⟨more, ne, is⟩
    refine ⟨['/'].intercalate more, ?_⟩
    rw [render, render, is, intercalate_append segments_ne_nil ne]

theorem replicate_append {α : Type} {a : α} {xs ys : List α} {m n : Nat}
    (other : ∀ x ∈ xs.head?, x ≠ a) (h : List.replicate m a ++ xs = List.replicate n a ++ ys) :
    n ≤ m ∧ ys = List.replicate (m - n) a ++ xs := by
  induction n generalizing m with
  | zero => exact ⟨Nat.zero_le m, h.symm⟩
  | succ n ih =>
    cases m with
    | zero =>
      rw [replicate_zero, nil_append] at h
      exact absurd rfl (other a (by rw [h]; rfl))
    | succ m =>
      rw [replicate_succ, replicate_succ, cons_append, cons_append] at h
      obtain ⟨le, is⟩ := ih (List.cons.inj h).2
      exact ⟨Nat.succ_le_succ le, by rw [is, Nat.succ_sub_succ]⟩

/-- The steps of a place, continued. -/
theorem steps_append : (∃ more, q.steps = p.steps ++ more) ↔
    q.ups = p.ups ∧ p.path ≤ q.path ∨ p.path = .root ∧ p.ups < q.ups := by
  constructor
  · rintro ⟨more, is⟩
    rw [steps, steps, append_assoc] at is
    obtain ⟨le, down⟩ := replicate_append (fun x head =>
      (q.path.proper x (mem_of_head? head)).2.2.2) is
    cases Nat.lt_or_eq_of_le le with
    | inr same =>
      refine .inl ⟨same.symm, more, ?_⟩
      rw [down, same, Nat.sub_self]
      rfl
    | inl lt =>
      refine .inr ⟨RelPath.ext ?_, lt⟩
      rw [← Nat.succ_pred_eq_of_pos (Nat.sub_pos_of_lt lt), replicate_succ] at down
      cases names : p.path.names with
      | nil => rfl
      | cons name names' =>
        rw [names] at down
        have proper := p.path.proper name (names ▸ mem_cons_self)
        exact absurd (List.cons.inj down).1 proper.2.2.2
  · rintro (⟨ups, rest, is⟩ | ⟨top, lt⟩)
    · exact ⟨rest, by rw [steps, steps, ups, ← is, append_assoc]⟩
    · refine ⟨List.replicate (q.ups - p.ups) ['.', '.'] ++ q.path.names, ?_⟩
      rw [steps, steps, top, show RelPath.root.names = [] from rfl, append_nil,
        ← append_assoc, replicate_append_replicate, Nat.add_sub_cancel' lt.le]

theorem steps_inj (h : q.steps = p.steps) : q.ups = p.ups ∧ q.path = p.path := by
  have below := steps_append.mp ⟨[], h.trans (append_nil _).symm⟩
  have above := steps_append.mp ⟨[], h.symm.trans (append_nil _).symm⟩
  have ups : q.ups = p.ups := by
    rcases below with ⟨is, -⟩ | ⟨-, lt⟩
    · exact is
    · rcases above with ⟨is, -⟩ | ⟨-, gt⟩ <;> omega
  refine ⟨ups, RelPath.ext ?_⟩
  rw [steps, steps, ups] at h
  exact append_cancel_left h

/-- What the test says about the places. -/
theorem within_iff (same : q.rooted = p.rooted) : within p.render q.render = true ↔
    q = p ∨ ¬p.Bare ∧ (q.ups = p.ups ∧ p.path ≤ q.path ∨ p.path = .root ∧ p.ups < q.ups) := by
  have dot : ∀ r : Place, (if p.rooted then [] else ['.']) ∉ r.steps := by
    intro r mem
    rcases mem_steps _ mem with is | proper
    · split at is <;> cases is
    · split at proper
      · exact proper.1 rfl
      · exact proper.2.2.1 rfl
  rw [within_render, segments, segments, same]
  simp only [append_assoc, append_right_inj]
  by_cases bare : p.Bare
  · rw [if_pos bare]
    refine or_congr_right (iff_of_false ?_ fun other => other.1 bare)
    rintro ⟨more, ne, is⟩
    split at is
    · exact ne (List.cons.inj is).2.symm
    · exact dot q (by rw [is]; exact mem_cons_self)
  · rw [if_neg bare, and_iff_right bare, ← steps_append]
    by_cases bare' : q.Bare
    · rw [if_pos bare']
      refine or_congr_right (iff_of_false ?_ ?_)
      · rintro ⟨more, -, is⟩
        rcases append_eq_singleton_iff.mp is.symm with ⟨empty, -⟩ | ⟨is, -⟩
        · exact steps_ne_nil bare empty
        · exact dot p (by rw [is]; exact mem_cons_self)
      · rintro ⟨more, is⟩
        rw [steps, bare'.1, bare'.2] at is
        exact steps_ne_nil bare (append_eq_nil_iff.mp is.symm).1
    · rw [if_neg bare']
      constructor
      · exact Or.imp_right fun ⟨more, _, is⟩ => ⟨more, is⟩
      · rintro (is | ⟨more, is⟩)
        · exact .inl is
        · by_cases empty : more = []
          · rw [empty, append_nil] at is
            exact .inl (Place.ext same (steps_inj is).1 (steps_inj is).2)
          · exact .inr ⟨more, empty, is⟩

end Place

/-! ## Replacing a character -/

/-- The text with a character replaced by a text. -/
def replace (x : Char) (digits text : List Char) : List Char :=
  text.flatMap fun c => if c = x then digits else [c]

theorem replace_of_not_mem {x : Char} {digits text : List Char} (h : x ∉ text) :
    replace x digits text = text := by
  have each : ∀ c ∈ text, (if c = x then digits else [c]) = [c] := by
    intro c mem
    have other : c ≠ x := fun is => h (is ▸ mem)
    rw [if_neg other]
  rw [replace, flatMap_congr each, flatMap_singleton']

theorem length_replace (x : Char) (digits text : List Char) :
    (replace x digits text).length + text.count x = text.length + text.count x * digits.length := by
  induction text with
  | nil => simp [replace]
  | cons c text ih =>
    rw [replace] at ih ⊢
    rw [flatMap_cons, length_append, count_cons, length_cons]
    by_cases is : c = x
    · rw [if_pos is, if_pos (beq_iff_eq.mpr is), Nat.succ_mul]
      omega
    · rw [if_neg is, if_neg (by rwa [beq_iff_eq]), length_singleton, Nat.add_zero]
      omega

/-- Where the character occurs, what replaces it can be read off. -/
theorem replace_inj {x : Char} {digits digits' text : List Char} (mem : x ∈ text)
    (h : replace x digits text = replace x digits' text) : digits = digits' := by
  have lengths := length_replace x digits text
  rw [h, length_replace x digits' text, Nat.add_left_cancel_iff,
    Nat.mul_right_inj (count_pos_iff.mpr mem).ne'] at lengths
  obtain ⟨a, b, rfl, first⟩ := eq_append_cons_of_mem mem
  have parts (ds : List Char) : replace x ds (a ++ x :: b) = a ++ (ds ++ replace x ds b) := by
    rw [replace, flatMap_append, flatMap_cons, if_pos rfl]
    exact congrArg (· ++ _) (replace_of_not_mem first)
  rw [parts, parts] at h
  exact (append_inj (append_cancel_left h) lengths.symm).1

/-- Digits in place of a character that paths give no meaning to. -/
structure Replaces (x : Char) (digits : List Char) : Prop where
  slash : x ≠ '/'
  dot : x ≠ '.'
  some_ : digits ≠ []
  plain : '/' ∉ digits ∧ '.' ∉ digits

namespace Replaces

variable {x : Char} {digits : List Char} (h : Replaces x digits)
include h

theorem proper_or {s : List Char} (plain : '/' ∉ s) :
    ¬Proper s ∧ replace x digits s = s ∨ Proper s ∧ Proper (replace x digits s) := by
  have named {y : Char} {t : List Char} (mem : y ∈ t) (dot : y ≠ '.') (slash : '/' ∉ t) :
      Proper t := by
    refine ⟨ne_nil_of_mem mem, slash, fun is => ?_, fun is => ?_⟩
    · rw [is] at mem
      exact dot (mem_singleton.mp mem)
    · rw [is] at mem
      simp [dot] at mem
  by_cases mem : x ∈ s
  · obtain ⟨d, here⟩ := exists_mem_of_ne_nil digits h.some_
    have inside : d ∈ replace x digits s :=
      mem_flatMap.mpr ⟨x, mem, by rwa [if_pos rfl]⟩
    have slash : '/' ∉ replace x digits s := by
      intro there
      obtain ⟨c, old, new⟩ := mem_flatMap.mp there
      split at new
      · exact h.plain.1 new
      · exact plain (mem_singleton.mp new ▸ old)
    exact .inr ⟨named mem h.dot plain, named inside (fun is => h.plain.2 (is ▸ here)) slash⟩
  · rw [replace_of_not_mem mem]
    exact (em (Proper s)).symm.imp (⟨·, rfl⟩) fun proper => ⟨proper, proper⟩

/-- The path with the names changed. -/
def rename (p : RelPath) : RelPath := ⟨p.names.map (replace x digits), fun name mem => by
  obtain ⟨old, there, rfl⟩ := mem_map.mp mem
  have proper := p.proper old there
  exact (h.proper_or proper.2.1).elim (fun other => absurd proper other.1) And.right⟩

theorem foldl_rename {segs : List (List Char)} (plain : ∀ s ∈ segs, '/' ∉ s) (c : Cleaned) :
    (segs.map (replace x digits)).foldl cleanStep ⟨c.ups, h.rename c.path⟩ =
      ⟨(segs.foldl cleanStep c).ups, h.rename (segs.foldl cleanStep c).path⟩ := by
  have top (p : RelPath) : h.rename p = .root ↔ p = .root := by
    rw [RelPath.ext_iff, RelPath.ext_iff]
    exact map_eq_nil_iff
  induction segs generalizing c with
  | nil => rfl
  | cons s segs ih =>
    obtain ⟨first, rest⟩ := forall_mem_cons.mp plain
    have step : cleanStep ⟨c.ups, h.rename c.path⟩ (replace x digits s) =
        ⟨(cleanStep c s).ups, h.rename (cleanStep c s).path⟩ := by
      rcases h.proper_or first with ⟨special, same⟩ | ⟨proper, proper'⟩
      · rw [same, cleanStep, cleanStep]
        simp only [top, dif_neg special]
        split
        · split
          · rfl
          · refine congrArg (Cleaned.mk _) (RelPath.ext ?_)
            exact (map_dropLast ..).symm
        · rfl
      · rw [cleanStep, if_neg proper'.2.2.2, dif_pos proper', cleanStep, if_neg proper.2.2.2,
          dif_pos proper]
        refine congrArg (Cleaned.mk _) (RelPath.ext ?_)
        show _ = List.map _ (c.path.names ++ [s])
        rw [map_append]
        rfl
    rw [map_cons, foldl_cons, step, ih rest]
    rfl

theorem replace_intercalate (segs : List (List Char)) :
    replace x digits (['/'].intercalate segs) =
      ['/'].intercalate (segs.map (replace x digits)) := by
  induction segs with
  | nil => rfl
  | cons s segs ih =>
    by_cases last : segs = []
    · simp [last, List.intercalate]
    · rw [map_cons, intercalate_cons_of_ne_nil last,
        intercalate_cons_of_ne_nil (by simpa using last), ← ih]
      simp [replace, h.slash.symm]

/-- Replacing commutes with cleaning. -/
theorem cleanPath_replace (text : List Char) :
    cleanPath (replace x digits text) = ⟨(cleanPath text).rooted, (cleanPath text).ups,
      h.rename (cleanPath text).path, (cleanPath text).top⟩ := by
  have plain := plain_splitOn text
  have split : (replace x digits text).splitOn '/' = (text.splitOn '/').map (replace x digits) := by
    have whole : ['/'].intercalate (text.splitOn '/') = text := intercalate_splitOn '/'
    conv_lhs => rw [← whole, h.replace_intercalate]
    refine splitOn_intercalate '/' (forall_mem_map.mpr fun s mem => ?_) (by simp)
    rcases h.proper_or (plain s mem) with ⟨-, same⟩ | ⟨-, proper⟩
    · rw [same]
      exact plain s mem
    · exact proper.2.1
  have head : ((replace x digits text).head? == some '/') = (text.head? == some '/') := by
    cases text with
    | nil => rfl
    | cons c text =>
      rw [replace, flatMap_cons]
      by_cases is : c = x
      · obtain ⟨d, ds, digits_⟩ := exists_cons_of_ne_nil h.some_
        have other : d ≠ '/' := fun is => h.plain.1 (by rw [digits_, is]; exact mem_cons_self)
        simp [is, digits_, other, h.slash]
      · simp [is]
  have folded := h.foldl_rename plain {}
  rw [cleanPath, head, clean, split]
  exact congrArg (Place.ofCleaned _) folded

end Replaces

end FileTree
