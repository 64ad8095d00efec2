import LocaQL.Sql.Statements

/-!
# What the parsers look at

A parser removes leading comments, white space and one semicolon.  The dispatcher has
removed a semicolon before; `statementText_trimSemicolon` says that this is the same as
removing one more from what the parser looks at.
-/

namespace LocaQL.Sql

open GoText List

/-! ## Semicolons -/

/-- What `trimSemicolon` removes behind `m`: nothing, or a semicolon with white space
before it. -/
def Ending (m e : List Char) : Prop :=
  (e = [] ∧ m.getLast? ≠ some ';') ∨ ∃ sp, (∀ c ∈ sp, isSpace c) ∧ e = sp ++ [';']

theorem trimmed_trimSemicolon (s : List Char) : Trimmed (trimSemicolon s) := trimmed_trimSpace _

theorem trimmed_statementText (q : List Char) : Trimmed (statementText q) := trimmed_trimSpace _

variable {e m s : List Char}

theorem trimSemicolon_append (h : Trimmed m) (whole : Trimmed (m ++ e)) (ending : Ending m e) :
    trimSemicolon (m ++ e) = m := by
  rw [trimSemicolon, trimSpace_of_trimmed whole]
  rcases ending with ⟨rfl, last⟩ | ⟨sp, spaces, rfl⟩
  · rw [append_nil, trimSuffixChar, if_neg last, trimSpace_of_trimmed h]
  · have last : (m ++ (sp ++ [';'])).getLast? = some ';' := by simp
    rw [trimSuffixChar, if_pos last, ← append_assoc, dropLast_concat]
    simpa using trimSpace_append (l := []) nofun h spaces

/-- A trimmed text is what `trimSemicolon` leaves of it and an ending. -/
theorem exists_ending (h : Trimmed s) :
    ∃ e, s = trimSemicolon s ++ e ∧ Ending (trimSemicolon s) e := by
  rw [trimSemicolon, trimSpace_of_trimmed h, trimSuffixChar]
  split
  next last =>
    obtain ⟨l, r, eq, left, right, trimmed⟩ := trimSpace_spec s.dropLast
    have whole : s = s.dropLast ++ [';'] := (dropLast_append_getLast? _ last).symm
    cases l with
    | nil =>
      refine ⟨r ++ [';'], ?_, .inr ⟨r, right, rfl⟩⟩
      rw [← append_assoc, ← nil_append (trimSpace _ ++ r), ← eq, ← whole]
    | cons c l =>
      refine absurd (left c mem_cons_self) (h.1 c ?_)
      rw [whole, eq]
      rfl
  next last => exact ⟨[], by rw [trimSpace_of_trimmed h, append_nil],
    .inl ⟨rfl, by rwa [trimSpace_of_trimmed h]⟩⟩

theorem Ending.last {m' : List Char} (ending : Ending m e) (same : m'.getLast? = m.getLast?) :
    Ending m' e := by
  rcases ending with ⟨rfl, last⟩ | semi
  · exact .inl ⟨rfl, same ▸ last⟩
  · exact .inr semi

theorem Ending.trimmed (ending : Ending m e) (h : Trimmed m) (ne : m ≠ []) : Trimmed (m ++ e) := by
  refine ⟨fun c hc => h.1 c (by rwa [head?_append_of_ne_nil _ ne] at hc), ?_⟩
  rcases ending with ⟨rfl, -⟩ | ⟨sp, -, rfl⟩
  · rw [append_nil]
    exact h.2
  · intro c hc
    obtain rfl : ';' = c := by simpa using hc
    decide

/-- Trimming a text on the left keeps its ending. -/
theorem trimSpace_ending {rest : List Char} (ending : Ending rest e) (ne : rest ≠ [])
    (last : ∀ c ∈ rest.getLast?, ¬isSpace c) :
    trimSpace rest ≠ [] ∧ trimSpace (rest ++ e) = trimSpace rest ++ e ∧
      Ending (trimSpace rest) e := by
  obtain ⟨l, r, eq, left, right, trimmed⟩ := trimSpace_spec rest
  generalize trimSpace rest = m at *
  subst eq
  obtain rfl : r = [] := by
    by_contra hr
    obtain ⟨c, hc⟩ : ∃ c, r.getLast? = some c := ⟨_, getLast?_eq_getLast_of_ne_nil hr⟩
    refine last c ?_ (right c (mem_of_getLast? hc))
    rw [← append_assoc, getLast?_append_of_ne_nil _ hr]
    exact hc
  rw [append_nil] at ne last ending ⊢
  have hm : m ≠ [] := by
    rintro rfl
    rw [append_nil] at ne last
    obtain ⟨c, hc⟩ : ∃ c, l.getLast? = some c := ⟨_, getLast?_eq_getLast_of_ne_nil ne⟩
    exact last c hc (left c (mem_of_getLast? hc))
  have ending : Ending m e := ending.last (getLast?_append_of_ne_nil l hm).symm
  refine ⟨hm, ?_, ending⟩
  rw [append_assoc]
  simpa using trimSpace_append (r := []) left (ending.trimmed trimmed hm) nofun

/-! ## Comments -/

/-- Whether a comment that the parsers know starts here. -/
def startsComment (s : List Char) : Bool :=
  ['-', '-'].isPrefixOf s || ['/', '*'].isPrefixOf s

theorem skipComments_other (h : startsComment s = false) (n : Nat) : skipComments n s = s := by
  cases n with
  | zero => rfl
  | succ n =>
    rw [skipComments]
    · rintro t rfl
      cases h
    · rintro t rfl
      cases h

theorem skipComments_line (n : Nat) (t : List Char) :
    skipComments (n + 1) ('-' :: '-' :: t) =
      match cutAfter ['\n'] t with
      | none => []
      | some rest => skipComments n (trimSpace rest) := rfl

theorem skipComments_block (n : Nat) (t : List Char) :
    skipComments (n + 1) ('/' :: '*' :: t) =
      match cutAfter ['*', '/'] t with
      | none => '/' :: '*' :: t
      | some rest => skipComments n (trimSpace rest) := rfl

theorem skipComments_nil (n : Nat) : skipComments n [] = [] := skipComments_other rfl n

/-- A text starts with a line comment, with a block comment or with neither. -/
theorem comment_cases (s : List Char) :
    (∃ t, s = '-' :: '-' :: t) ∨ (∃ t, s = '/' :: '*' :: t) ∨ startsComment s = false := by
  cases line : ['-', '-'].isPrefixOf s with
  | true =>
    obtain ⟨t, rfl⟩ := isPrefixOf_iff_prefix.mp line
    exact .inl ⟨t, rfl⟩
  | false =>
    cases block : ['/', '*'].isPrefixOf s with
    | true =>
      obtain ⟨t, rfl⟩ := isPrefixOf_iff_prefix.mp block
      exact .inr (.inl ⟨t, rfl⟩)
    | false => exact .inr (.inr (by rw [startsComment, line, block]; rfl))

theorem length_trimSpace_le (s : List Char) : (trimSpace s).length ≤ s.length := by
  obtain ⟨l, r, eq, -⟩ := trimSpace_spec s
  have := congrArg List.length eq
  simp only [length_append] at this
  omega

theorem length_of_cutAfter {sub rest : List Char} (h : cutAfter sub s = some rest) :
    rest.length ≤ s.length := by
  obtain ⟨pre, rfl⟩ := cutAfter_some h
  simp only [length_append]
  omega

/-- The loop ends by itself: more rounds than characters change nothing. -/
theorem skipComments_fuel {n m : Nat} (hn : s.length ≤ n) (hm : s.length ≤ m) :
    skipComments n s = skipComments m s := by
  induction n generalizing s m with
  | zero =>
    obtain rfl := length_eq_zero_iff.mp (Nat.le_zero.mp hn)
    rw [skipComments_nil, skipComments_nil]
  | succ n ih =>
    have next {t rest sub : List Char} (cut : cutAfter sub t = some rest) :
        (trimSpace rest).length ≤ t.length :=
      (length_trimSpace_le rest).trans (length_of_cutAfter cut)
    rcases comment_cases s with ⟨t, rfl⟩ | ⟨t, rfl⟩ | no
    · cases m with
      | zero => cases hm
      | succ m =>
        rw [skipComments_line, skipComments_line]
        cases cut : cutAfter ['\n'] t with
        | none => rfl
        | some rest =>
          have := next cut
          simp only [length_cons] at hn hm
          exact ih (by omega) (by omega)
    · cases m with
      | zero => cases hm
      | succ m =>
        rw [skipComments_block, skipComments_block]
        cases cut : cutAfter ['*', '/'] t with
        | none => rfl
        | some rest =>
          have := next cut
          simp only [length_cons] at hn hm
          exact ih (by omega) (by omega)
    · rw [skipComments_other no, skipComments_other no]

theorem startsComment_append (h : startsComment m = false)
    (fresh : ∀ c ∈ e.head?, c ≠ '-' ∧ c ≠ '/' ∧ c ≠ '*') : startsComment (m ++ e) = false := by
  match m with
  | a :: b :: t => exact h
  | [a] =>
    cases e with
    | nil => exact h
    | cons c e =>
      obtain ⟨dash, -, star⟩ := fresh c rfl
      simp [startsComment, List.isPrefixOf, Ne.symm dash, Ne.symm star]
  | [] =>
    cases e with
    | nil => rfl
    | cons c e =>
      obtain ⟨dash, slash, -⟩ := fresh c rfl
      simp [startsComment, List.isPrefixOf, Ne.symm dash, Ne.symm slash]

theorem Ending.fresh (ending : Ending m e) : ∀ c ∈ e, c ≠ '-' ∧ c ≠ '/' ∧ c ≠ '*' := by
  rcases ending with ⟨rfl, -⟩ | ⟨sp, spaces, rfl⟩
  · nofun
  intro c hc
  rcases mem_append.mp hc with hc | hc
  · refine ⟨?_, ?_, ?_⟩ <;> rintro rfl <;> exact absurd (spaces _ hc) (by decide)
  · obtain rfl := mem_singleton.mp hc
    decide

/-- Nothing is left of an ending. -/
theorem Ending.gone (ending : Ending m e) (n : Nat) :
    trimSemicolon (skipComments n (trimSpace e)) = [] := by
  rcases ending with ⟨rfl, -⟩ | ⟨sp, spaces, rfl⟩
  · exact congrArg trimSemicolon (skipComments_nil n)
  have trimmed : Trimmed [';'] := by constructor <;> rintro c ⟨⟩ <;> decide
  have rest := trimSpace_append (r := []) spaces trimmed nofun
  rw [append_nil] at rest
  rw [rest, skipComments_other rfl]
  decide

theorem newline_not_mem {t : List Char} (h : cutAfter ['\n'] t = none) : '\n' ∉ t := by
  intro mem
  obtain ⟨a, b, rfl, before⟩ := eq_append_cons_of_mem mem
  rw [cutAfter_single before] at h
  cases h

/-- Comments and the semicolon are removed independently. -/
theorem trimSemicolon_skipComments {n : Nat} (h : Trimmed m) (whole : Trimmed (m ++ e))
    (ending : Ending m e) : trimSemicolon (skipComments n (m ++ e)) = skipComments n m := by
  induction n generalizing m with
  | zero => exact trimSemicolon_append h whole ending
  | succ n ih =>
    -- the round that follows, if something is left
    have next (pre : List Char) {rest : List Char} (eq : m = pre ++ rest) (ne : rest ≠ []) :
        trimSemicolon (skipComments n (trimSpace (rest ++ e))) =
          skipComments n (trimSpace rest) := by
      subst eq
      obtain ⟨hm, eq, ending⟩ := trimSpace_ending
        (ending.last (getLast?_append_of_ne_nil pre ne).symm) ne (h.of_append ne)
      have trimmed := trimmed_trimSpace rest
      rw [eq, ih trimmed (ending.trimmed trimmed hm) ending]
    rcases comment_cases m with ⟨t, rfl⟩ | ⟨t, rfl⟩ | no
    · rw [cons_append, cons_append, skipComments_line, skipComments_line]
      cases cut : cutAfter ['\n'] t with
      | some rest =>
        rw [cutAfter_append cut (cons_ne_nil _ _)]
        obtain ⟨pre, rfl⟩ := cutAfter_some cut
        refine next ('-' :: '-' :: (pre ++ ['\n'])) (by simp) ?_
        -- a trimmed text does not end with the newline
        rintro rfl
        exact h.2 '\n' (getLast?_concat (l := '-' :: '-' :: pre)) (by decide)
      | none =>
        have before := newline_not_mem cut
        rcases ending with ⟨rfl, -⟩ | ⟨sp, spaces, rfl⟩
        · rw [append_nil, cut]
          rfl
        · by_cases mem : '\n' ∈ sp
          · obtain ⟨a, b, rfl, not⟩ := eq_append_cons_of_mem mem
            have shape : t ++ (a ++ '\n' :: b ++ [';']) = (t ++ a) ++ '\n' :: (b ++ [';']) := by
              simp
            rw [shape, cutAfter_single (by simp [before, not])]
            dsimp only
            exact Ending.gone (m := []) (.inr ⟨b, fun c hc => spaces c (by simp [hc]), rfl⟩) n
          · rw [cutAfter_append_none cut (by simp [mem]) (cons_ne_nil _ _)]
            rfl
    · rw [cons_append, cons_append, skipComments_block, skipComments_block]
      cases cut : cutAfter ['*', '/'] t with
      | some rest =>
        rw [cutAfter_append cut (cons_ne_nil _ _)]
        obtain ⟨pre, rfl⟩ := cutAfter_some cut
        by_cases ne : rest = []
        · subst ne
          rw [nil_append]
          dsimp only
          rw [ending.gone n, show trimSpace [] = [] from rfl, skipComments_nil]
        · exact next ('/' :: '*' :: (pre ++ ['*', '/'])) (by simp) ne
      | none =>
        have fresh : ∀ c ∈ ['*', '/'], c ∉ e := by
          intro c hc mem
          obtain ⟨-, slash, star⟩ := ending.fresh c mem
          simp only [mem_cons, not_mem_nil, or_false] at hc
          exact hc.elim star slash
        rw [cutAfter_append_none cut fresh (cons_ne_nil _ _)]
        dsimp only
        rw [← cons_append, ← cons_append, trimSemicolon_append h whole ending]
    · have no' := startsComment_append no fun c hc =>
        ending.fresh c (mem_of_mem_head? hc)
      rw [skipComments_other no, skipComments_other no', trimSemicolon_append h whole ending]

theorem trimLeadingSQLComments_eq (h : Trimmed s) :
    trimLeadingSQLComments s = skipComments s.length s := by
  rw [trimLeadingSQLComments, trimSpace_of_trimmed h]

/-- The dispatcher's semicolon is one more for the parsers. -/
theorem statementText_trimSemicolon (q : List Char) :
    statementText (trimSemicolon q) = trimSemicolon (statementText q) := by
  have trimmed := trimmed_trimSpace q
  have same : trimSemicolon (trimSpace q) = trimSemicolon q := by
    rw [trimSemicolon, trimSpace_of_trimmed trimmed, trimSemicolon]
  obtain ⟨e, eq, ending⟩ := exists_ending trimmed
  rw [same] at eq ending
  have whole : Trimmed (trimSemicolon q ++ e) := eq ▸ trimmed
  have step := trimSemicolon_skipComments (n := q.length) (trimmed_trimSemicolon q) whole ending
  rw [statementText, statementText, trimLeadingSQLComments_eq (trimmed_trimSemicolon q),
    skipComments_fuel (m := q.length) le_rfl, ← step, ← eq]
  · rfl
  have := congrArg List.length eq
  have := length_trimSpace_le q
  simp only [length_append] at *
  omega

end LocaQL.Sql
