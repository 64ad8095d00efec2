import LocaQL.Lib.GoText

/-!
# The lexical structure of SQL

Which characters of a text belong to comments, to string literals and to quoted names.  A comment
starts with `--` or `#` and ends with the line, or stands between `/*` and `*/`.  A literal stands
between single or double quotes, one or three of them on each side, and a backslash takes the
character behind it along.

A text is a list of statements, separated by the semicolons that belong to none of these
(`statements`).
-/

namespace SqlLex

open List

/-- What a character belongs to. -/
inductive Mark where
  | code
  | name
  | literal
  | comment
deriving Repr, DecidableEq

/-- Where in a text a character stands.  `long q n` is a literal between triple quotes of which
`n` have just been read. -/
inductive Mode where
  | code
  | line
  | block
  | name
  | short (q : Char)
  | long (q : Char) (n : Nat)
deriving Repr, DecidableEq

/-- The characters of a text, marked. -/
def mark : Mode → List Char → List (Char × Mark)
  | _, [] => []
  | .code, '-' :: '-' :: s => ('-', .comment) :: ('-', .comment) :: mark .line s
  | .code, '#' :: s => ('#', .comment) :: mark .line s
  | .code, '/' :: '*' :: s => ('/', .comment) :: ('*', .comment) :: mark .block s
  | .code, '\x60' :: s => ('\x60', .name) :: mark .name s
  | .code, '\'' :: '\'' :: '\'' :: s =>
    ('\'', .literal) :: ('\'', .literal) :: ('\'', .literal) :: mark (.long '\'' 0) s
  | .code, '"' :: '"' :: '"' :: s =>
    ('"', .literal) :: ('"', .literal) :: ('"', .literal) :: mark (.long '"' 0) s
  | .code, c :: s =>
    if c = '\'' ∨ c = '"' then (c, .literal) :: mark (.short c) s else (c, .code) :: mark .code s
  | .line, c :: s => (c, .comment) :: mark (if c = '\n' then .code else .line) s
  | .block, '*' :: '/' :: s => ('*', .comment) :: ('/', .comment) :: mark .code s
  | .block, c :: s => (c, .comment) :: mark .block s
  | .name, '\\' :: c :: s => ('\\', .name) :: (c, .name) :: mark .name s
  | .name, c :: s => (c, .name) :: mark (if c = '\x60' then .code else .name) s
  | .short q, '\\' :: c :: s => ('\\', .literal) :: (c, .literal) :: mark (.short q) s
  | .short q, c :: s => (c, .literal) :: mark (if c = q then .code else .short q) s
  | .long q _, '\\' :: c :: s => ('\\', .literal) :: (c, .literal) :: mark (.long q 0) s
  | .long q n, c :: s =>
    (c, .literal) ::
      mark (if c ≠ q then .long q 0 else if n = 2 then .code else .long q (n + 1)) s

/-- Marking a text leaves its characters as they are. -/
theorem map_fst_mark (m : Mode) (s : List Char) : (mark m s).map Prod.fst = s := by
  fun_induction mark m s with
  | _ => simp_all

/-! ## White space and comments -/

/-- Whether a marked character is white space or part of a comment. -/
def blank (c : Char × Mark) : Bool := GoText.isSpace c.1 || c.2 = .comment

/-- The white space and the comments that a text starts with. -/
def trivia (s : List Char) : List Char := ((mark .code s).takeWhile blank).map Prod.fst

/-- The text behind them. -/
def afterTrivia (s : List Char) : List Char := ((mark .code s).dropWhile blank).map Prod.fst

theorem trivia_append (s : List Char) : trivia s ++ afterTrivia s = s := by
  rw [trivia, afterTrivia, ← map_append, takeWhile_append_dropWhile, map_fst_mark]

/-- A character that is code wherever it stands between code. -/
def codeChar (c : Char) : Bool :=
  c ≠ '-' && c ≠ '#' && c ≠ '/' && c ≠ '\x60' && c ≠ '\'' && c ≠ '"'

theorem mark_codeChar {c : Char} (h : codeChar c = true) (s : List Char) :
    mark .code (c :: s) = (c, .code) :: mark .code s := by
  simp only [codeChar, Bool.and_eq_true, decide_eq_true_eq, ne_eq] at h
  obtain ⟨⟨⟨⟨⟨dash, hash⟩, slash⟩, tick⟩, single⟩, double⟩ := h
  rw [mark.eq_def]
  split
  all_goals simp_all

/-- Characters of a class with none of the others are code. -/
theorem codeChar_of {p : Char → Bool} {c : Char} (h : p c = true)
    (others : ∀ d ∈ ['-', '#', '/', '\x60', '\'', '"'], p d = false) : codeChar c = true := by
  have ne {d : Char} (mem : d ∈ ['-', '#', '/', '\x60', '\'', '"']) : c ≠ d := by
    rintro rfl
    rw [others c mem] at h
    cases h
  simp [codeChar, ne]

/-- White space is skipped up to the first character of code that is none. -/
theorem afterTrivia_white {w s : List Char} {c : Char} (white : ∀ a ∈ w, GoText.isSpace a = true)
    (first : codeChar c = true ∧ GoText.isSpace c = false) :
    trivia (w ++ c :: s) = w ∧ afterTrivia (w ++ c :: s) = c :: s := by
  induction w with
  | nil =>
    have stop : blank (c, .code) = false := by
      rw [blank, first.2]
      rfl
    rw [nil_append, trivia, afterTrivia, mark_codeChar first.1, takeWhile_cons, stop,
      dropWhile_cons, stop]
    exact ⟨rfl, congrArg (c :: ·) (map_fst_mark .code s)⟩
  | cons a w ih =>
    obtain ⟨here, there⟩ := forall_mem_cons.mp white
    have skip : blank (a, .code) = true := by
      rw [blank, here]
      rfl
    obtain ⟨left, right⟩ := ih there
    rw [cons_append, trivia, afterTrivia,
      mark_codeChar (codeChar_of here (all_iff_forall_prop.mp (by decide))), takeWhile_cons, skip,
      dropWhile_cons, skip]
    exact ⟨congrArg (a :: ·) left, right⟩

/-! ## Parentheses -/

/-- The text behind the parenthesis that closes the first one, of those that count. -/
def behindClosing (counts : Mark → Bool) : Nat → List (Char × Mark) → Option (List Char)
  | _, [] => none
  | depth, (c, m) :: s =>
    if counts m && c == '(' then behindClosing counts (depth + 1) s
    else if counts m && c == ')' then
      if depth = 1 then some (s.map Prod.fst) else behindClosing counts (depth - 1) s
    else behindClosing counts depth s

theorem behindClosing_split {counts : Mark → Bool} {depth : Nat} {l : List (Char × Mark)}
    {tail : List Char} (h : behindClosing counts depth l = some tail) :
    ∃ p, l.map Prod.fst = p ++ ')' :: tail := by
  induction l generalizing depth with
  | nil => cases h
  | cons a l ih =>
    have later {d : Nat} (h : behindClosing counts d l = some tail) :
        ∃ p, (a :: l).map Prod.fst = p ++ ')' :: tail := by
      obtain ⟨p, is⟩ := ih h
      exact ⟨a.1 :: p, congrArg (a.1 :: ·) is⟩
    rw [behindClosing] at h
    split at h
    · exact later h
    split at h
    next closes =>
      split at h
      · cases h
        simp only [Bool.and_eq_true, beq_iff_eq] at closes
        exact ⟨[], congrArg (· :: _) closes.2⟩
      · exact later h
    · exact later h

/-! ## Parts of a list -/

section Parts

universe u

variable {α : Type u}

/-- The number of parts with a good element that the separators cut a list into; `seen` says
whether there was one in the part that has been begun. -/
def busy (sep good : α → Bool) : Bool → List α → Nat
  | seen, [] => seen.toNat
  | seen, a :: l => if sep a then seen.toNat + busy sep good false l
      else busy sep good (seen || good a) l

theorem busy_map {β : Type u} (sep good : β → Bool) (f : α → β) (seen : Bool) (l : List α) :
    busy sep good seen (l.map f) = busy (sep ∘ f) (good ∘ f) seen l := by
  induction l generalizing seen with
  | nil => rfl
  | cons a l ih => simp only [map_cons, busy, ih, Function.comp]

theorem length_filter_splitOnP (sep good : α → Bool) (l : List α) :
    ((l.splitOnP sep).filter fun part => part.any good).length = busy sep good false l := by
  have general (seen : Bool) : ∃ part parts, l.splitOnP sep = part :: parts ∧
      (seen || part.any good).toNat + (parts.filter fun part => part.any good).length =
        busy sep good seen l := by
    induction l generalizing seen with
    | nil => exact ⟨[], [], rfl, by simp [busy]⟩
    | cons a l ih =>
      rw [splitOnP_cons_eq_if_modifyHead, busy]
      by_cases cut : sep a
      · obtain ⟨part, parts, is, count⟩ := ih false
        rw [if_pos cut, if_pos cut, is]
        refine ⟨[], part :: parts, rfl, ?_⟩
        rw [← count, filter_cons, any_nil, Bool.or_false, Bool.false_or]
        cases part.any good with
        | false => simp
        | true => simp [Nat.add_comm]
      · obtain ⟨part, parts, is, count⟩ := ih (seen || good a)
        rw [if_neg cut, if_neg cut, is]
        refine ⟨a :: part, parts, rfl, ?_⟩
        rw [← count, any_cons, Bool.or_assoc]
  obtain ⟨part, parts, is, count⟩ := general false
  rw [is, ← count, filter_cons, Bool.false_or]
  cases part.any good with
  | false => simp
  | true => simp [Nat.add_comm]

/-- More separators cut a list into more parts. -/
theorem busy_le {sep good sep' good' : α → Bool} (seps : ∀ a, sep a → sep' a)
    (goods : ∀ a, good a → good' a ∧ sep' a = false) (seen seen' : Bool) (l : List α) :
    busy sep good seen l ≤ busy sep' good' seen' l + (seen && !seen').toNat := by
  have gap : ∀ x y : Bool, x.toNat ≤ y.toNat + (x && !y).toNat := by decide
  have shrinks : ∀ x y g g' : Bool, (g → g') →
      ((x || g) && !(y || g')).toNat ≤ (x && !y).toNat := by decide
  induction l generalizing seen seen' with
  | nil => exact gap seen seen'
  | cons a l ih =>
    have here := gap seen seen'
    rw [busy, busy]
    by_cases cut' : sep' a
    · have bad : good a = false := by
        rw [Bool.eq_false_iff]
        intro is
        exact absurd cut' (by rw [(goods a is).2]; exact Bool.false_ne_true)
      rw [if_pos cut']
      by_cases cut : sep a
      · have rest : busy sep good false l ≤ busy sep' good' false l := ih false false
        rw [if_pos cut]
        omega
      · have rest := ih seen false
        rw [Bool.not_false, Bool.and_true] at rest
        rw [if_neg cut, bad, Bool.or_false]
        omega
    · have cut : ¬sep a := fun h => cut' (seps a h)
      have rest := ih (seen || good a) (seen' || good' a)
      have less := shrinks seen seen' (good a) (good' a) fun is => (goods a is).1
      rw [if_neg cut, if_neg cut']
      omega

end Parts

/-! ## Statements -/

/-- Whether a marked character is one that only a statement has. -/
def solid (c : Char × Mark) : Bool := !GoText.isSpace c.1 && c.1 ≠ ';' && c.2 ≠ .comment

/-- Whether a semicolon separates statements. -/
def separates (c : Char × Mark) : Bool := c.1 = ';' && c.2 = .code

/-- The statements of a text, without the white space around them. -/
def statements (s : List Char) : List (List Char) :=
  (((mark .code s).splitOnP separates).filter fun part => part.any solid).map fun part =>
    GoText.trimSpace (part.map Prod.fst)

/-- A text has at least as many parts between semicolons, wherever they stand, as statements. -/
theorem length_statements_le (s : List Char) :
    (statements s).length ≤
      ((s.splitOn ';').filter fun part => part.any fun c => !GoText.isSpace c).length := by
  rw [statements, length_map, length_filter_splitOnP, List.splitOn, length_filter_splitOnP]
  have text : s = (mark .code s).map Prod.fst := (map_fst_mark .code s).symm
  nth_rewrite 2 [text]
  rw [busy_map]
  refine Nat.le_trans (busy_le ?_ ?_ false false (mark .code s)) (Nat.le_of_eq (Nat.add_zero _))
  · intro c cut
    simp only [separates, Bool.and_eq_true, decide_eq_true_eq] at cut
    simp [cut.1]
  · intro c is
    simp only [solid, Bool.and_eq_true, Bool.not_eq_true', decide_eq_true_eq, ne_eq] at is
    simp [is.1.1, is.1.2]

end SqlLex
