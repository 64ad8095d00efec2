import LocaQL.Lib.SqlLex
import LocaQL.Sql.Classification
import LocaQL.Sql.EngineText

/-!
# The columns that an `INSERT` leaves out

The engine has two more columns than a table that is partitioned by ingestion time, so an `INSERT`
without a list of columns has to get one.  As SQL reads it, the list stands behind the target and
after white space and comments; a parenthesis may also open a query.  The source looks for the
statement at the start of the text, and takes every parenthesis behind the target for a list.

So the engine gets what it should exactly if comments and parentheses stand where the source does
not look at them (`engineInsert_iff`); a comment in front of the statement or a query in
parentheses leaves the list out, and a comment in front of a list adds a second one
(`columns_missed`).
-/

namespace LocaQL.Sql

open Pattern SqlLex
open List hiding mem_pure

/-! ## An `INSERT` as SQL reads it -/

/-- Keywords, with white space behind each of them. -/
def Phrase : List String → List Char → Prop
  | [], u => u = []
  | k :: ks, u => ∃ w v rest, u = w ++ (v ++ rest) ∧ fold w = fold k.toList ∧ v ≠ [] ∧
      (∀ c ∈ v, isWhite c) ∧ Phrase ks rest

/-- The keywords of an `INSERT`. -/
def InsertPhrase (u : List Char) : Prop := Phrase ["INSERT"] u ∨ Phrase ["INSERT", "INTO"] u

/-- Behind white space and comments the text consists of the keywords, the target and the rest. -/
structure InsertParts (text before target rest : List Char) : Prop where
  eq : afterTrivia text = before ++ (target ++ rest)
  before : InsertPhrase before
  target : IsTarget target
  rest : ∃ c ∈ rest.head?, isWhite c ∨ c = '('

/-- The text in a parenthesis is a query. -/
def QueryStart (s : List Char) : Prop :=
  s.head? = some '(' ∨ ∃ k ∈ ["SELECT", "WITH", "FROM"], (keyword k.toList).Matches s

/-- A list of columns stands behind the target. -/
def ExplicitColumns (rest : List Char) : Prop :=
  ∃ inner, afterTrivia rest = '(' :: inner ∧ ¬QueryStart (afterTrivia inner)

/-- The statement for the engine: the same text if it has a list of columns, and otherwise with
the columns of the schema behind the target. -/
def NamesColumns (text : List Char) (schema : List TableField) (out : List Char) : Prop :=
  ∃ before target rest, InsertParts text before target rest ∧
    (ExplicitColumns rest → out = text) ∧
    (¬ExplicitColumns rest →
      out = trivia text ++ (before ++ target) ++ columnList schema ++ rest)

/-- Where comments and parentheses stand: a list of columns follows the target after white space
only, or comments precede the statement; without a list none do, and no parenthesis follows the
target. -/
def PlainInsert (text : List Char) : Prop :=
  ∃ before target rest, InsertParts text before target rest ∧
    (ExplicitColumns rest → (∀ c ∈ trivia text, isWhite c) →
      (GoText.trimSpace rest).head? = some '(') ∧
    (¬ExplicitColumns rest →
      (∀ c ∈ trivia text, isWhite c) ∧ (GoText.trimSpace rest).head? ≠ some '(')

/-! ## The pattern of an `INSERT` -/

variable {ks : List String} {s u u' s' before rest target text : List Char} {c : Char}

theorem mem_words {x : Unit × List Char} : x ∈ words ks s ↔ ∃ u, Phrase ks u ∧ s = u ++ x.2 := by
  induction ks generalizing s with
  | nil =>
    simp only [words, mem_pure, Phrase]
    constructor
    · rintro rfl
      exact ⟨[], rfl, rfl⟩
    · rintro ⟨u, rfl, is⟩
      rw [is]
      rfl
  | cons k ks ih =>
    simp only [words, mem_bind, mem_word, spaces, mem_many1, ih, Phrase]
    constructor
    · rintro ⟨⟨w, s⟩, ⟨same, rfl⟩, ⟨v, t⟩, ⟨ne, white, rfl⟩, u, phrase, rfl⟩
      exact ⟨w ++ (v ++ u), ⟨w, v, u, rfl, same, ne, white, phrase⟩, by simp⟩
    · rintro ⟨u, ⟨w, v, rest, rfl, same, ne, white, phrase⟩, rfl⟩
      exact ⟨(w, v ++ (rest ++ x.2)), ⟨same, by simp⟩, (v, rest ++ x.2), ⟨ne, white, rfl⟩, rest,
        phrase, rfl⟩

theorem mem_optWords {x : Bool × List Char} :
    x ∈ optWords ks s ↔ (x.1 = true ∧ ∃ u, Phrase ks u ∧ s = u ++ x.2) ∨ x = (false, s) := by
  obtain ⟨b, t⟩ := x
  simp only [optWords, mem_bind, mem_pure, mem_opt, mem_words, Prod.mk.injEq]
  constructor
  · rintro ⟨⟨o, r⟩, ⟨⟨u, r⟩, phrase, is⟩ | is, rfl, rfl⟩
    · cases is
      exact .inl ⟨rfl, phrase⟩
    · cases is
      exact .inr ⟨rfl, rfl⟩
  · rintro (⟨rfl, phrase⟩ | ⟨rfl, rfl⟩)
    · exact ⟨(some (), t), .inl ⟨((), t), phrase, rfl⟩, rfl, rfl⟩
    · exact ⟨(none, t), .inr rfl, rfl, rfl⟩

theorem phrase_append {ks' : List String} (h : Phrase ks u) (h' : Phrase ks' u') :
    Phrase (ks ++ ks') (u ++ u') := by
  induction ks generalizing u with
  | nil =>
    cases h
    exact h'
  | cons k ks ih =>
    obtain ⟨w, v, rest, rfl, same, ne, white, phrase⟩ := h
    exact ⟨w, v, rest ++ u', by simp, same, ne, white, ih phrase⟩

theorem phrase_split (ks : List String) {ks' : List String} (h : Phrase (ks ++ ks') u) :
    ∃ v v', u = v ++ v' ∧ Phrase ks v ∧ Phrase ks' v' := by
  induction ks generalizing u with
  | nil => exact ⟨[], u, rfl, rfl, h⟩
  | cons k ks ih =>
    obtain ⟨w, v, rest, rfl, same, ne, white, phrase⟩ := h
    obtain ⟨t, t', rfl, front, back⟩ := ih phrase
    exact ⟨w ++ (v ++ t), t', by simp, ⟨w, v, t, rfl, same, ne, white, front⟩, back⟩

theorem mem_insertTargetPattern {x : Heading × List Char} :
    x ∈ insertTargetPattern s ↔ ∃ w before c, (∀ a ∈ w, isWhite a) ∧ InsertPhrase before ∧
      IsTarget x.1.target ∧ x.1 = { target := x.1.target } ∧ (isWhite c ∨ c = '(') ∧
        s = w ++ (before ++ (x.1.target ++ c :: x.2)) := by
  obtain ⟨heading, rest⟩ := x
  simp only [insertTargetPattern, dmlTargetPattern, closing, white, mem_bind, mem_pure, mem_many,
    mem_words, mem_optWords, mem_target, mem_or, mem_one, mem_ahead, Bool.false_and,
    Bool.false_eq_true, false_and, or_false, Bool.or_eq_true, beq_iff_eq, Prod.mk.injEq]
  constructor
  · rintro ⟨⟨w, s⟩, ⟨blanks, rfl⟩, ⟨_, t⟩, ⟨u, first, is⟩, ⟨b, t'⟩, second, ⟨target, r⟩,
      ⟨isTarget, is'⟩, _, ⟨⟨c, r'⟩, ⟨stop, is''⟩, rfl⟩, rfl, rfl⟩
    dsimp only at is is' is'' stop
    subst is'' is' is
    rcases second with ⟨-, u', phrase, is⟩ | is
    · dsimp only at is
      subst is
      exact ⟨w, u ++ u', c, blanks, .inr (phrase_append first phrase), isTarget, rfl, stop,
        by simp⟩
    · obtain ⟨-, rfl⟩ := Prod.mk.inj is
      exact ⟨w, u, c, blanks, .inl first, isTarget, rfl, stop, rfl⟩
  · rintro ⟨w, before, c, blanks, phrase, isTarget, is, stop, rfl⟩
    rcases phrase with first | both
    · exact ⟨(w, _), ⟨blanks, rfl⟩, ((), _), ⟨before, first, rfl⟩, (false, _), .inr rfl,
        (heading.target, c :: rest), ⟨isTarget, rfl⟩, ((), rest), ⟨(c, rest), ⟨stop, rfl⟩, rfl⟩,
        is, rfl⟩
    · obtain ⟨u, u', rfl, first, second⟩ := phrase_split ["INSERT"] both
      exact ⟨(w, _), ⟨blanks, rfl⟩, ((), _), ⟨u, first, append_assoc ..⟩, (true, _),
        .inl ⟨rfl, u', second, rfl⟩, (heading.target, c :: rest), ⟨isTarget, rfl⟩, ((), rest),
        ⟨(c, rest), ⟨stop, rfl⟩, rfl⟩, is, rfl⟩

/-! ## One reading -/

/-- A run of characters of a class ends at the first character that is not in it. -/
theorem run_unique (cls : Char → Prop) (h : ∀ c ∈ u, cls c) (h' : ∀ c ∈ u', cls c)
    (stop : ∀ c ∈ s.head?, ¬cls c) (stop' : ∀ c ∈ s'.head?, ¬cls c) (same : u ++ s = u' ++ s') :
    u = u' ∧ s = s' := by
  induction u generalizing u' with
  | nil =>
    cases u' with
    | nil => exact ⟨rfl, same⟩
    | cons c u' =>
      rw [nil_append] at same
      subst same
      exact absurd (h' c mem_cons_self) (stop c rfl)
  | cons c u ih =>
    cases u' with
    | nil =>
      rw [nil_append] at same
      subst same
      exact absurd (h c mem_cons_self) (stop' c rfl)
    | cons c' u' =>
      rw [cons_append, cons_append] at same
      obtain ⟨rfl, tails⟩ := List.cons.inj same
      obtain ⟨rfl, rfl⟩ := ih (fun d mem => h d (mem_cons_of_mem _ mem))
        (fun d mem => h' d (mem_cons_of_mem _ mem)) tails
      exact ⟨rfl, rfl⟩

theorem not_isTargetChar_of_isWhite (h : isWhite c) : ¬isTargetChar c = true := by
  have := not_isTargetChar_of_isSpace (isSpace_of_isWhite h)
  rw [this]
  exact Bool.false_ne_true

/-- The character behind a target is not one of a target. -/
theorem stop_target (h : isWhite c ∨ c = '(') : ¬isTargetChar c = true := by
  rcases h with white | rfl
  · exact not_isTargetChar_of_isWhite white
  · decide

theorem dot_mem_target (h : IsTarget u) : '.' ∈ u := by
  obtain ⟨a, b, c, rfl, -, ⟨v, rfl, -⟩, -⟩ := h
  simp

theorem head_target (h : IsTarget u) (s : List Char) : ∀ c ∈ (u ++ s).head?, ¬isWhite c = true := by
  intro c mem white
  cases u with
  | nil => exact absurd rfl h.ne_nil
  | cons a u =>
    cases Option.mem_some.mp mem
    exact not_isTargetChar_of_isWhite white (h.chars c mem_cons_self)

theorem head_of_phrase (h : Phrase ks u) (keywords : ∀ k ∈ ks, isKeyword k)
    (rest : ∀ c ∈ s.head?, ¬isWhite c = true) : ∀ c ∈ (u ++ s).head?, ¬isWhite c = true := by
  cases ks with
  | nil =>
    cases h
    exact rest
  | cons k ks =>
    obtain ⟨w, v, t, rfl, same, -⟩ := h
    obtain ⟨ne, letters⟩ := isKeyword_letters (keywords k mem_cons_self) same
    obtain ⟨a, w, rfl⟩ := exists_cons_of_ne_nil ne
    intro c mem white
    cases Option.mem_some.mp mem
    have letter := letters a mem_cons_self
    have space : isLetter a = false := GoText.isLower_foldRune_of_isSpace (isSpace_of_isWhite white)
    rw [space] at letter
    cases letter

/-- The words of a phrase are read in one way. -/
theorem phrase_unique (h : Phrase ks u) (h' : Phrase ks u') (keywords : ∀ k ∈ ks, isKeyword k)
    (rest : ∀ c ∈ s.head?, ¬isWhite c = true) (rest' : ∀ c ∈ s'.head?, ¬isWhite c = true)
    (same : u ++ s = u' ++ s') : u = u' ∧ s = s' := by
  induction ks generalizing u u' with
  | nil =>
    cases h
    cases h'
    exact ⟨rfl, same⟩
  | cons k ks ih =>
    obtain ⟨w, v, t, rfl, fold, -, white, phrase⟩ := h
    obtain ⟨w', v', t', rfl, fold', -, white', phrase'⟩ := h'
    have later := fun k mem => keywords k (mem_cons_of_mem _ mem)
    have length : w.length = w'.length := by
      have := congrArg List.length (fold.trans fold'.symm)
      rwa [Pattern.fold, Pattern.fold, length_map, length_map] at this
    simp only [append_assoc] at same
    obtain ⟨rfl, blanks⟩ := append_inj same length
    obtain ⟨rfl, tails⟩ := run_unique _ white white' (head_of_phrase phrase later rest)
      (head_of_phrase phrase' later rest') blanks
    obtain ⟨rfl, rfl⟩ := ih phrase phrase' later tails
    exact ⟨rfl, rfl⟩

/-- A target cannot be read as the keyword `INTO`. -/
theorem not_into (h : IsTarget u) (stop : ∃ c ∈ s.head?, isWhite c ∨ c = '(')
    (into : ∃ v, Phrase ["INTO"] v ∧ u ++ s = v ++ s') : False := by
  obtain ⟨v, ⟨w, blanks, rest, rfl, same, ne, white, rfl⟩, eq⟩ := into
  obtain ⟨-, letters⟩ := isKeyword_letters (k := "INTO") (by decide) same
  obtain ⟨b, blanks, rfl⟩ := exists_cons_of_ne_nil ne
  obtain ⟨c, mem, is⟩ := stop
  simp only [append_nil, append_assoc] at eq
  have chars : ∀ a ∈ w, isTargetChar a = true := fun a mem => by
    rw [isTargetChar, isPathChar, isNameChar, letters a mem]
    rfl
  obtain ⟨rfl, -⟩ := run_unique (fun c => isTargetChar c = true) h.chars chars
    (fun a first => by cases Option.mem_unique mem first; exact stop_target is)
    (fun a first => by
      cases Option.mem_some.mp first
      exact not_isTargetChar_of_isWhite (white b mem_cons_self)) eq
  have letter := letters '.' (dot_mem_target h)
  revert letter
  decide

/-- An `INSERT` is read in one way. -/
theorem InsertParts.unique {before' target' rest' : List Char}
    (h : InsertParts text before target rest) (h' : InsertParts text before' target' rest') :
    before = before' ∧ target = target' ∧ rest = rest' := by
  have same := h.eq.symm.trans h'.eq
  have targets {s s' : List Char} (eq : target ++ s = target' ++ s')
      (stop : ∃ c ∈ s.head?, isWhite c ∨ c = '(') (stop' : ∃ c ∈ s'.head?, isWhite c ∨ c = '(') :
      target = target' ∧ s = s' := by
    obtain ⟨c, mem, is⟩ := stop
    obtain ⟨c', mem', is'⟩ := stop'
    exact run_unique (fun c => isTargetChar c = true) h.target.chars h'.target.chars
      (fun a first => by cases Option.mem_unique mem first; exact stop_target is)
      (fun a first => by cases Option.mem_unique mem' first; exact stop_target is') eq
  have keywords : ∀ k ∈ ["INSERT", "INTO"], isKeyword k = true := by decide
  have first : ∀ k ∈ ["INSERT"], isKeyword k = true := by decide
  have head := head_target h.target rest
  have head' := head_target h'.target rest'
  rcases h.before with one | two
  · rcases h'.before with one' | two'
    · obtain ⟨rfl, eq⟩ := phrase_unique one one' first head head' same
      obtain ⟨rfl, rfl⟩ := targets eq h.rest h'.rest
      exact ⟨rfl, rfl, rfl⟩
    · obtain ⟨u, u', rfl, front, back⟩ := phrase_split ["INSERT"] two'
      rw [append_assoc] at same
      obtain ⟨-, eq⟩ := phrase_unique one front first head
        (head_of_phrase back (by decide) head') same
      exact (not_into h.target h.rest ⟨u', back, eq⟩).elim
  · rcases h'.before with one' | two'
    · obtain ⟨u, u', rfl, front, back⟩ := phrase_split ["INSERT"] two
      rw [append_assoc] at same
      obtain ⟨-, eq⟩ := phrase_unique front one' first (head_of_phrase back (by decide) head) head'
        same
      exact (not_into h'.target h'.rest ⟨u', back, eq.symm⟩).elim
    · obtain ⟨rfl, eq⟩ := phrase_unique two two' keywords head head' same
      obtain ⟨rfl, rfl⟩ := targets eq h.rest h'.rest
      exact ⟨rfl, rfl, rfl⟩

/-! ## What the source makes of it -/

theorem codeChar_of_isLetter (h : isLetter c = true) :
    codeChar c = true ∧ GoText.isSpace c = false := by
  refine ⟨codeChar_of h (List.all_iff_forall_prop.mp (by decide)), ?_⟩
  rw [Bool.eq_false_iff]
  intro space
  have none : isLetter c = false := GoText.isLower_foldRune_of_isSpace space
  rw [h] at none
  cases none

theorem InsertPhrase.head (h : InsertPhrase u) : ∃ a s, u = a :: s ∧ isLetter a = true := by
  obtain ⟨w, v, rest, rfl, same⟩ : ∃ w v rest, u = w ++ (v ++ rest) ∧
      fold w = fold "INSERT".toList := by
    rcases h with ⟨w, v, rest, is, same, -⟩ | ⟨w, v, rest, is, same, -⟩
    · exact ⟨w, v, rest, is, same⟩
    · exact ⟨w, v, rest, is, same⟩
  obtain ⟨ne, letters⟩ := isKeyword_letters (k := "INSERT") (by decide) same
  obtain ⟨a, w, rfl⟩ := exists_cons_of_ne_nil ne
  exact ⟨a, w ++ (v ++ rest), rfl, letters a mem_cons_self⟩

/-- What the pattern finds is the `INSERT`, with white space in front of it. -/
theorem parts_of_mem {x : Heading × List Char} (h : x ∈ insertTargetPattern text) :
    (∀ a ∈ trivia text, isWhite a = true) ∧ x.1 = { target := x.1.target } ∧
      ∃ before c, InsertParts text before x.1.target (c :: x.2) := by
  obtain ⟨w, before, c, blanks, phrase, isTarget, is, stop, rfl⟩ := mem_insertTargetPattern.mp h
  obtain ⟨a, s, rfl, letter⟩ := phrase.head
  obtain ⟨left, right⟩ := afterTrivia_white (w := w) (s := s ++ (x.1.target ++ c :: x.2))
    (fun b mem => isSpace_of_isWhite (blanks b mem)) (codeChar_of_isLetter letter)
  rw [cons_append, left]
  exact ⟨blanks, is, a :: s, c, ⟨right, phrase, isTarget, c, rfl, stop⟩⟩

section

variable (h : InsertParts text before target rest)

include h

theorem find_of_parts (white : ∀ a ∈ trivia text, isWhite a = true) :
    ∃ c s, rest = c :: s ∧ insertTargetPattern.find text = some ({ target := target }, s) := by
  obtain ⟨c, mem, stop⟩ := h.rest
  obtain ⟨s, rfl⟩ := head?_eq_some_iff.mp mem
  have there : ({ target := target }, s) ∈ insertTargetPattern text :=
    mem_insertTargetPattern.mpr ⟨trivia text, before, c, white, h.before, h.target, rfl, stop,
      by rw [← h.eq, trivia_append]⟩
  obtain ⟨⟨heading, s'⟩, found⟩ := Option.isSome_iff_exists.mp (matches_iff.mpr ⟨_, there⟩)
  obtain ⟨-, is, before', c', parts⟩ := parts_of_mem (mem_of_mem_head? found)
  obtain ⟨rfl, rfl, rest⟩ := h.unique parts
  obtain ⟨rfl, rfl⟩ := List.cons.inj rest
  refine ⟨c, s, rfl, ?_⟩
  rw [found, ← is]

theorem addImplicitInsertColumns_eq (schema : List TableField) :
    addImplicitInsertColumns text schema =
      if (trivia text).all isWhite = true ∧ (GoText.trimSpace rest).head? ≠ some '(' then
        trivia text ++ (before ++ target) ++ columnList schema ++ rest
      else text := by
  have split : text = (trivia text ++ (before ++ target)) ++ rest := by
    rw [append_assoc, append_assoc, ← h.eq, trivia_append]
  by_cases white : (trivia text).all isWhite = true
  · obtain ⟨c, s, rfl, found⟩ := find_of_parts h (all_eq_true.mp white)
    have boundary : text.length - (s.length + 1) = (trivia text ++ (before ++ target)).length := by
      have := congrArg List.length split
      rw [length_append, length_cons] at this
      omega
    have taken : text.take (trivia text ++ (before ++ target)).length =
        trivia text ++ (before ++ target) :=
      (congrArg (List.take _) split).trans take_left
    have dropped : text.drop (trivia text ++ (before ++ target)).length = c :: s :=
      (congrArg (List.drop _) split).trans drop_left
    simp only [addImplicitInsertColumns, found, if_neg h.target.ne_nil, boundary, taken, dropped]
    by_cases paren : (GoText.trimSpace (c :: s)).head? = some '('
    · rw [if_pos paren, if_neg fun both => both.2 paren]
    · rw [if_neg paren, if_pos ⟨white, paren⟩]
  · rw [if_neg fun both => white both.1, addImplicitInsertColumns]
    cases found : insertTargetPattern.find text with
    | none => rfl
    | some x =>
      have blank := (parts_of_mem (mem_of_mem_head? found)).1
      exact absurd (all_eq_true.mpr blank) white

theorem inserted_ne (schema : List TableField) :
    trivia text ++ (before ++ target) ++ columnList schema ++ rest ≠ text := by
  intro same
  have split : text = (trivia text ++ (before ++ target)) ++ rest := by
    rw [append_assoc, append_assoc, ← h.eq, trivia_append]
  have lengths := congrArg List.length same
  have short := congrArg List.length split
  have two : (columnList schema).length ≥ 2 := by
    rw [columnList, append_assoc, length_append]
    exact Nat.le_add_right _ _
  simp only [length_append] at lengths short
  omega

end

theorem namesColumns_iff (text : List Char) (schema : List TableField) :
    NamesColumns text schema (addImplicitInsertColumns text schema) ↔ PlainInsert text := by
  constructor
  · rintro ⟨before, target, rest, parts, same, named⟩
    have is := addImplicitInsertColumns_eq parts schema
    refine ⟨before, target, rest, parts, fun explicit white => ?_, fun implicit => ?_⟩
    · by_contra paren
      rw [if_pos ⟨all_eq_true.mpr white, paren⟩, same explicit] at is
      exact inserted_ne parts schema is.symm
    · by_contra clash
      rw [if_neg fun both => clash ⟨all_eq_true.mp both.1, both.2⟩, named implicit] at is
      exact inserted_ne parts schema is
  · rintro ⟨before, target, rest, parts, explicit, implicit⟩
    have is := addImplicitInsertColumns_eq parts schema
    refine ⟨before, target, rest, parts, fun listed => ?_, fun unlisted => ?_⟩
    · rw [is, if_neg fun both => both.2 (explicit listed (all_eq_true.mp both.1))]
    · obtain ⟨white, paren⟩ := implicit unlisted
      rw [is, if_pos ⟨all_eq_true.mpr white, paren⟩]

/-- **The engine gets the columns that an `INSERT` leaves out, and no others, exactly if comments
and parentheses stand where the source does not look at them.** -/
theorem engineInsert_iff (projectID : String) (queryText : List Char) (schema : List TableField) :
    NamesColumns (stripProjectPrefix (trimSemicolon queryText) projectID) schema
        (engineInsert projectID queryText schema) ↔
      PlainInsert (stripProjectPrefix (trimSemicolon queryText) projectID) :=
  namesColumns_iff _ schema

theorem parts_of_eq (rest : List Char)
    (eq : afterTrivia text = "INSERT INTO ".toList ++ ("ds.t".toList ++ rest))
    (stop : ∃ c ∈ rest.head?, isWhite c ∨ c = '(') :
    InsertParts text "INSERT INTO ".toList "ds.t".toList rest := by
  have segment (a : Char) (l : List Char) (chars : ∀ c ∈ a :: l, isPathChar c = true) :
      IsSegment (a :: l) :=
    ⟨none, none, a :: l, by simp, fun _ absent => absurd absent (by simp),
      fun _ absent => absurd absent (by simp), cons_ne_nil _ _, chars⟩
  refine ⟨eq, .inr ?_, ⟨"ds".toList, ".t".toList, [], rfl, ?_, ⟨"t".toList, rfl, ?_⟩, .inl rfl⟩, stop⟩
  · have white : ∀ c ∈ [' '], isWhite c = true := all_eq_true.mp rfl
    exact ⟨"INSERT".toList, [' '], "INTO ".toList, rfl, rfl, cons_ne_nil _ _, white,
      "INTO".toList, [' '], [], rfl, rfl, cons_ne_nil _ _, white, rfl⟩
  · exact segment 'd' ['s'] (all_eq_true.mp rfl)
  · exact segment 't' [] (all_eq_true.mp rfl)

/-- A table with one column. -/
def oneColumn : List TableField := [⟨"a", "INT64", "", []⟩]

/-- A comment in front of the statement. -/
def ledByComment : List Char := "-- load\nINSERT INTO ds.t VALUES (1)".toList

/-- A query in parentheses. -/
def fromQuery : List Char := "INSERT INTO ds.t (SELECT 1)".toList

/-- A comment in front of the list of columns. -/
def commentedList : List Char := "INSERT INTO ds.t /* one */ (a) VALUES (1)".toList

/-- The engine does not get the columns that the first two statements leave out, and gets a second
list for the third. -/
theorem columns_missed :
    (∀ q ∈ [ledByComment, fromQuery, commentedList],
      ((parsePersistentSQLStatement "p" q).bind fun r => r.toOption).map (·.statementType) =
        some .insert) ∧
    engineInsert "p" ledByComment oneColumn = ledByComment ∧
    engineInsert "p" fromQuery oneColumn = fromQuery ∧
    engineInsert "p" commentedList oneColumn =
      "INSERT INTO ds.t (\x60a\x60) /* one */ (a) VALUES (1)".toList ∧
    ∀ q ∈ [ledByComment, fromQuery, commentedList],
      ¬NamesColumns (stripProjectPrefix (trimSemicolon q) "p") oneColumn
        (engineInsert "p" q oneColumn) := by
  have stripped : ∀ q ∈ [ledByComment, fromQuery, commentedList],
      stripProjectPrefix (trimSemicolon q) "p" = q := by decide +kernel
  refine ⟨by decide +kernel, by decide +kernel, by decide +kernel, by decide +kernel, ?_⟩
  intro q mem named
  have plain := (namesColumns_iff _ _).mp named
  rw [stripped q mem] at plain
  obtain ⟨before, target, rest, parts, explicit, implicit⟩ := plain
  simp only [mem_cons, not_mem_nil, or_false] at mem
  rcases mem with rfl | rfl | rfl
  · obtain ⟨rfl, rfl, rfl⟩ := parts.unique (parts_of_eq " VALUES (1)".toList
      (by decide +kernel) ⟨' ', rfl, .inl rfl⟩)
    have none : ¬ExplicitColumns " VALUES (1)".toList := by
      rintro ⟨inner, is, -⟩
      have first : (afterTrivia " VALUES (1)".toList).head? ≠ some '(' := by decide +kernel
      rw [is] at first
      exact first rfl
    have dash : '-' ∈ trivia ledByComment := by decide +kernel
    cases (implicit none).1 '-' dash
  · obtain ⟨rfl, rfl, rfl⟩ := parts.unique (parts_of_eq " (SELECT 1)".toList
      (by decide +kernel) ⟨' ', rfl, .inl rfl⟩)
    have none : ¬ExplicitColumns " (SELECT 1)".toList := by
      rintro ⟨inner, is, query⟩
      have inside : afterTrivia " (SELECT 1)".toList = '(' :: "SELECT 1)".toList := by
        decide +kernel
      rw [inside] at is
      cases is
      exact query (.inr ⟨"SELECT", mem_cons_self, by decide +kernel⟩)
    have paren := (implicit none).2
    revert paren
    decide +kernel
  · obtain ⟨rfl, rfl, rfl⟩ := parts.unique (parts_of_eq " /* one */ (a) VALUES (1)".toList
      (by decide +kernel) ⟨' ', rfl, .inl rfl⟩)
    have listed : ExplicitColumns " /* one */ (a) VALUES (1)".toList := by
      refine ⟨"a) VALUES (1)".toList, by decide +kernel, ?_⟩
      rintro (paren | ⟨k, mem, starts⟩)
      · revert paren
        decide +kernel
      · revert starts
        revert k
        decide +kernel
    have white : (trivia commentedList).all isWhite = true := by decide +kernel
    have paren := explicit listed (all_eq_true.mp white)
    revert paren
    decide +kernel

end LocaQL.Sql
