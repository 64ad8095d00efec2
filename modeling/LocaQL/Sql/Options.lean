import LocaQL.Sql.ImplicitColumns

/-!
# The options of a view or a table

An `OPTIONS(…)` clause ends with the parenthesis that closes its first one, and the parentheses
in literals, quoted names and comments do not count.  The source counts them all, and looks for
the clause behind white space only.

So it removes the clause exactly if both ways of counting end at the same place and no comment
stands around the word (`options_skipped_iff`); otherwise a text in a literal can become the query
of a view (`literal_becomes_query`).
-/

namespace LocaQL.Sql

open GoText SqlLex
open List hiding mem_pure

/-! ## The clause as SQL reads it -/

def asciiLower (c : Char) : Char := if isUpper c then lowerRune c else c

/-- What stands around the word of a leading `OPTIONS(…)` clause, and the text from its
parenthesis on. -/
def optionsClause (text : List Char) : Option (List Char × List Char) :=
  let word := afterTrivia text
  let list := afterTrivia (word.drop 7)
  if (word.take 7).map asciiLower = "options".toList ∧ list.head? = some '(' then
    some (trivia text ++ trivia (word.drop 7), list)
  else none

/-- A text that starts with an `OPTIONS(…)` clause, and the text behind the clause. -/
structure Clause (text around list tail : List Char) : Prop where
  opens : optionsClause (trimSpace text) = some (around, list)
  closes : behindClosing (· = .code) 0 (mark .code list) = some tail

/-- Only white space stands around the word, and the clause also ends at its end if all
parentheses count. -/
structure PlainClause (around list tail : List Char) : Prop where
  white : ∀ c ∈ around, isSpace c
  balanced : behindClosing (fun _ => true) 0 (mark .code list) = some tail

/-! ## Tails of a text -/

variable {text around list tail s w word : List Char}

/-- The characters that are not white space. -/
def ink (s : List Char) : Nat := s.countP fun c => !isSpace c

theorem ink_trimSpace (s : List Char) : ink (trimSpace s) = ink s := by
  obtain ⟨l, r, split, left, right, -⟩ := trimSpace_spec s
  have white {w : List Char} (h : ∀ c ∈ w, isSpace c) : w.countP (fun c => !isSpace c) = 0 :=
    countP_eq_zero.mpr fun c mem => by simp [h c mem]
  have parts := congrArg ink split
  rw [ink, ink, countP_append, countP_append, white left, white right] at parts
  rw [ink, ink, parts]
  omega

theorem ink_lt (before : List Char) {c : Char} (solid : isSpace c = false) (s : List Char) :
    ink s < ink (before ++ c :: s) := by
  simp only [ink, countP_append, countP_cons, solid, Bool.not_false, if_true]
  omega

theorem tail_unique {p p' t t' : List Char} (h : p ++ ')' :: t = p' ++ ')' :: t')
    (same : ink t = ink t') : t = t' := by
  have longer {a t t' : List Char} (is : ')' :: t = a ++ ')' :: t') (same : ink t = ink t') :
      t = t' := by
    cases a with
    | nil => exact (List.cons.inj is).2
    | cons b a =>
      have less := ink_lt a (c := ')') rfl t'
      rw [cons_append] at is
      rw [← (List.cons.inj is).2] at less
      omega
  rcases append_eq_append_iff.mp h with ⟨a, -, is⟩ | ⟨a, -, is⟩
  · exact longer is same
  · exact (longer is same.symm).symm

/-! ## What the source looks at -/

/-- All parentheses of a text. -/
theorem closeParen_eq (s : List Char) :
    closeParen 0 s = behindClosing (fun _ => true) 0 (mark .code s) := by
  have general (depth : Nat) (l : List (Char × Mark)) :
      closeParen depth (l.map Prod.fst) = behindClosing (fun _ => true) depth l := by
    induction l generalizing depth with
    | nil => rfl
    | cons a l ih => simp only [map_cons, closeParen, behindClosing, ih, Bool.true_and]
  rw [← general, map_fst_mark]

/-- The clause where the source finds it. -/
structure Plain (text word w s : List Char) : Prop where
  eq : text = word ++ (w ++ '(' :: s)
  word : word.map asciiLower = "options".toList
  white : ∀ c ∈ w, isSpace c

theorem Plain.length (h : Plain text word w s) : word.length = 7 := by
  simpa using congrArg List.length h.word

/-- SQL reads it there too. -/
theorem Plain.optionsClause (h : Plain text word w s) : optionsClause text = some (w, '(' :: s) := by
  obtain ⟨o, word', is, lower, -⟩ := map_eq_cons_iff.mp h.word
  have letter : isLetter o = true := by
    rw [asciiLower] at lower
    split at lower
    next upper => exact isLower_foldRune_of_isUpper upper
    · rw [lower]
      rfl
  have start := afterTrivia_white (w := []) (s := word' ++ (w ++ '(' :: s)) nofun
    (codeChar_of_isLetter letter)
  have next := afterTrivia_white (s := s) (c := '(') h.white (by decide)
  rw [nil_append, ← cons_append, ← is, ← h.eq] at start
  rw [Sql.optionsClause, start.1, start.2, h.eq, drop_left' h.length, take_left' h.length, next.1,
    next.2]
  exact if_pos ⟨h.word, rfl⟩

theorem optionsClause_split (h : optionsClause text = some (around, list)) :
    ∃ w word w' s, text = w ++ (word ++ (w' ++ list)) ∧ around = w ++ w' ∧
      word.map asciiLower = "options".toList ∧ list = '(' :: s := by
  rw [optionsClause] at h
  split at h
  next is =>
    cases h
    obtain ⟨s, list⟩ := head?_eq_some_iff.mp is.2
    refine ⟨_, _, _, s, ?_, rfl, is.1, list⟩
    rw [trivia_append, take_append_drop, trivia_append]
  · cases h

theorem strip_eq (text : List Char) :
    stripLeadingOptionsClause text =
      if ((trimSpace text).take 7).map asciiLower = "options".toList then
        if (trimSpace ((trimSpace text).drop 7)).head? = some '(' then
          ((closeParen 0 (trimSpace ((trimSpace text).drop 7))).map trimSpace).getD text
        else text
      else text := by
  rw [stripLeadingOptionsClause]
  dsimp only
  cases closeParen 0 (trimSpace ((trimSpace text).drop 7)) with
  | none => rfl
  | some tail => rfl

/-- What the source removes. -/
theorem Plain.strip (h : Plain (trimSpace text) word w s) :
    stripLeadingOptionsClause text = ((closeParen 0 ('(' :: s)).map trimSpace).getD text := by
  have trimmed := trimmed_trimSpace text
  rw [h.eq, ← append_assoc] at trimmed
  have rest := trimSpace_append (r := []) h.white
    ⟨by simp; decide, trimmed.of_append (cons_ne_nil '(' s)⟩ nofun
  rw [append_nil] at rest
  rw [strip_eq, h.eq, take_left' h.length, drop_left' h.length, rest, if_pos h.word, head?_cons,
    if_pos rfl]

theorem plain_of_strip (h : stripLeadingOptionsClause text ≠ text) :
    ∃ word w s, Plain (trimSpace text) word w s := by
  obtain ⟨l, r, split, left, -⟩ := trimSpace_spec ((trimSpace text).drop 7)
  rw [strip_eq] at h
  split at h
  next word =>
    split at h
    next head =>
      obtain ⟨s, is⟩ := head?_eq_some_iff.mp head
      refine ⟨_, l, s ++ r, ?_, word, left⟩
      rw [← cons_append, ← is, ← split, take_append_drop]
    · exact absurd rfl h
  · exact absurd rfl h

/-- The source removes the clause of SQL exactly if it is plain. -/
theorem Clause.strip_iff (h : Clause text around list tail) :
    stripLeadingOptionsClause text = trimSpace tail ↔ PlainClause around list tail := by
  obtain ⟨w, word, w', s, eq, rfl, letters, rfl⟩ := optionsClause_split h.opens
  obtain ⟨p, is⟩ := behindClosing_split h.closes
  rw [map_fst_mark] at is
  constructor
  · intro stripped
    have changed : stripLeadingOptionsClause text ≠ text := by
      intro same
      have less := ink_lt (w ++ (word ++ (w' ++ p))) (c := ')') rfl tail
      simp only [append_assoc] at less
      rw [← is, ← eq, ink_trimSpace, ← same, stripped, ink_trimSpace] at less
      omega
    obtain ⟨word', v, s', plain⟩ := plain_of_strip changed
    obtain ⟨rfl, rfl⟩ : w ++ w' = v ∧ s = s' := by
      simpa using h.opens.symm.trans plain.optionsClause
    refine ⟨plain.white, ?_⟩
    rw [plain.strip, closeParen_eq] at stripped changed
    cases found : behindClosing (fun _ => true) 0 (mark .code ('(' :: s)) with
    | none =>
      rw [found] at changed
      exact absurd rfl changed
    | some tail' =>
      rw [found] at stripped
      obtain ⟨p', is'⟩ := behindClosing_split found
      rw [map_fst_mark, is] at is'
      have same : ink (trimSpace tail') = ink (trimSpace tail) := congrArg ink stripped
      rw [ink_trimSpace, ink_trimSpace] at same
      rw [tail_unique is' same.symm]
  · intro plain
    cases w with
    | cons a w =>
      have first := (trimmed_trimSpace text).1 a
      rw [eq] at first
      exact absurd (plain.white a mem_cons_self) (first rfl)
    | nil =>
      have there : Plain (trimSpace text) word w' s := ⟨eq, letters, plain.white⟩
      rw [there.strip, closeParen_eq, plain.balanced]
      rfl

/-- A text that does not start with a clause is left as it is. -/
theorem strip_of_none (h : optionsClause (trimSpace text) = none) :
    stripLeadingOptionsClause text = text := by
  by_contra changed
  obtain ⟨word, w, s, plain⟩ := plain_of_strip changed
  cases h.symm.trans plain.optionsClause

/-! ## Statements with options -/

theorem trimSpace_white_append (white : ∀ c ∈ w, isSpace c) (s : List Char) :
    trimSpace (w ++ s) = trimSpace s := by
  rw [trimSpace, trimLeft, dropWhile_append_of_pos white]
  rfl

theorem mem_viewAsClause {x : List Char × List Char} :
    x ∈ viewAsClausePattern s ↔ ∃ u, Phrase ["AS"] u ∧ s = u ++ x.1 ∧ x.1 ≠ [] ∧ x.2 = [] := by
  simp only [viewAsClausePattern, Pattern.mem_bind, Pattern.mem_pure, mem_words, anything,
    Pattern.mem_many1, Pattern.eos, Pattern.mem_ahead]
  constructor
  · rintro ⟨⟨⟨⟩, _⟩, ⟨u, as_, rfl⟩, ⟨body, rest⟩, ⟨ne, -, rfl⟩, ⟨⟨⟩, _⟩, ⟨empty, rfl⟩, rfl⟩
    cases isEmpty_iff.mp empty
    exact ⟨u, as_, by simp, ne, rfl⟩
  · obtain ⟨body, rest⟩ := x
    rintro ⟨u, as_, rfl, ne, rfl⟩
    exact ⟨((), body), ⟨u, as_, rfl⟩, (body, []), ⟨ne, by simp, by simp⟩, ((), []), ⟨rfl, rfl⟩, rfl⟩

/-- The query of a view is the text behind `AS`. -/
theorem find_viewAsClause {body : List Char} (as_ : Phrase ["AS"] w) (ne : body ≠ []) :
    ∃ m, viewAsClausePattern.find (w ++ body) = some m ∧ trimSpace m.1 = trimSpace body := by
  cases found : viewAsClausePattern.find (w ++ body) with
  | none =>
    refine absurd (Pattern.matches_iff.mpr ⟨(body, []), ?_⟩) (Pattern.not_matches_of_find found)
    exact mem_viewAsClause.mpr ⟨w, as_, rfl, ne, rfl⟩
  | some m =>
    obtain ⟨u, as', is, -⟩ := mem_viewAsClause.mp (mem_of_mem_head? found)
    obtain ⟨a, v, _, rfl, word, -, white, rfl⟩ := as_
    obtain ⟨a', v', _, rfl, word', -, white', rfl⟩ := as'
    have same : a.length = a'.length := by
      simpa [Pattern.fold] using congrArg List.length (word.trans word'.symm)
    simp only [append_nil, append_assoc] at is
    have rest := (append_inj is same).2
    refine ⟨m, rfl, ?_⟩
    rw [← trimSpace_white_append (fun c mem => isSpace_of_isWhite (white' c mem)), ← rest,
      trimSpace_white_append fun c mem => isSpace_of_isWhite (white c mem)]

/-- **Options.**  A text without a clause is left as it is, and of one with a clause the clause is
removed exactly if it is plain.  Then the query of a view is the text behind `AS`, and setting
options is recognized if nothing stands behind them. -/
theorem options_skipped_iff (projectID : String) :
    (∀ {text}, optionsClause (trimSpace text) = none → stripLeadingOptionsClause text = text) ∧
    (∀ {text around list tail}, Clause text around list tail →
      (stripLeadingOptionsClause text = trimSpace tail ↔ PlainClause around list tail)) ∧
    (∀ {q m target around list tail w body}, dropViewTargetPattern.find (statementText q) = none →
      createViewTargetPattern.find (statementText q) = some m →
      parsePersistentTarget projectID m.1.target = .ok target →
      Clause (trimSpace m.2) around list tail → PlainClause around list tail →
      trimSpace tail = w ++ body → Phrase ["AS"] w → body ≠ [] →
      parsePersistentViewStatement projectID q = some (.ok
        { target := target
          materialized := m.1.materialized
          orReplace := m.1.orReplace
          ifNotExists := m.1.ifNotExists
          selectBody := trimSpace body })) ∧
    ∀ {rest around list tail}, setOptionsLeadPattern.Matches rest →
      Clause (trimSpace (dropBytes 3 rest)) around list tail → PlainClause around list tail →
      (setOptions rest = some () ↔ ∀ c ∈ tail, isSpace c) := by
  refine ⟨strip_of_none, Clause.strip_iff, ?_, ?_⟩
  · intro q m target around list tail w body drop create parsed clause plain is as_ ne
    obtain ⟨found, find, body⟩ := find_viewAsClause as_ ne
    rw [parsePersistentViewStatement]
    simp only [drop, create, parsed, clause.strip_iff.mpr plain, is, find, ← body]
    rfl
  · intro rest around list tail lead clause plain
    rw [setOptions, if_pos lead]
    simp only [clause.strip_iff.mpr plain]
    rw [trimSpace_of_trimmed (trimmed_trimSpace tail), ← trimSpace_eq_nil_iff]
    split
    next empty => exact iff_of_true rfl empty
    next more => exact iff_of_false (by simp) more

theorem options_skipped_iff_labels :
    stripLeadingOptionsClause "Options (labels=[(\"k\",\"v\")]) AS SELECT 1".toList =
      "AS SELECT 1".toList :=
  ((options_skipped_iff "p").2.1 (show Clause _ [' '] "(labels=[(\"k\",\"v\")]) AS SELECT 1".toList
    " AS SELECT 1".toList from ⟨by decide +kernel, by decide +kernel⟩)).mpr
    ⟨List.all_iff_forall_prop.mp (by decide), by decide +kernel⟩

/-- The description of a view becomes its query. -/
theorem literal_becomes_query :
    Clause "OPTIONS(description=\"a) AS SELECT 2 --\") AS SELECT 1".toList []
        "(description=\"a) AS SELECT 2 --\") AS SELECT 1".toList " AS SELECT 1".toList ∧
      (((parsePersistentViewStatement "p"
          "CREATE VIEW d.v OPTIONS(description=\"a) AS SELECT 2 --\") AS SELECT 1".toList).bind
        fun r => r.toOption).map (·.selectBody)) = some "SELECT 2 --\") AS SELECT 1".toList :=
  ⟨⟨by decide +kernel, by decide +kernel⟩, by decide +kernel⟩

end LocaQL.Sql
