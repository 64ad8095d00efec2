import LocaQL.Lib.GoText

/-!
# Patterns of Go's `regexp` package

A pattern is a parser that lists its matches at the start of a text, in the order in
which a backtracking matcher tries them.  Go reports the first of them, so the head of
the list is the match and its captures.

The patterns here are built with the flags `i` and `s`: a letter matches its case
variants, and a dot matches a newline.  `Matches` forgets the captures; the lemmas say
when a pattern built by each combinator matches.
-/

/-- What a pattern captures, and the text behind the match. -/
def Pattern (α : Type) : Type := List Char → List (α × List Char)

namespace Pattern

open List

variable {α β : Type} {s : List Char} {cls : Char → Bool} {x : List Char × List Char}
  {p : Pattern α}

instance : Monad Pattern where
  pure a := fun s => [(a, s)]
  bind p f := fun s => (p s).flatMap fun x => f x.1 x.2

protected theorem id_map (p : Pattern α) : id <$> p = p := by
  funext s
  exact flatMap_singleton' (p s)

protected theorem pure_bind (a : α) (f : α → Pattern β) : pure a >>= f = f a := by
  funext s
  exact flatMap_singleton _ (a, s)

protected theorem bind_assoc {γ : Type} (p : Pattern α) (f : α → Pattern β) (g : β → Pattern γ) :
    p >>= f >>= g = p >>= fun a => f a >>= g := by
  funext s
  exact flatMap_assoc

instance : LawfulMonad Pattern := LawfulMonad.mk' _ Pattern.id_map Pattern.pure_bind Pattern.bind_assoc

/-- Alternatives; the first one is preferred. -/
instance : OrElse (Pattern α) := ⟨fun p q s => p s ++ q () s⟩

/-- `p?`. -/
def opt (p : Pattern α) : Pattern (Option α) := fun s =>
  ((p s).map fun x => (some x.1, x.2)) ++ [(none, s)]

/-- One character of a class. -/
def one (cls : Char → Bool) : Pattern Char
  | [] => []
  | a :: s => if cls a then [(a, s)] else []

/-- `cls*`, longest first. -/
def many (cls : Char → Bool) : Pattern (List Char)
  | [] => [([], [])]
  | a :: s =>
    if cls a then ((many cls s).map fun x => (a :: x.1, x.2)) ++ [([], a :: s)]
    else [([], a :: s)]

/-- `cls+`. -/
def many1 (cls : Char → Bool) : Pattern (List Char) := do
  let a ← one cls
  let l ← many cls
  pure (a :: l)

/-- The letters of a word, in any case; captures the text. -/
def word : List Char → Pattern (List Char)
  | [] => pure []
  | k :: ks => do
      let a ← one fun c => GoText.foldRune c == GoText.foldRune k
      let l ← word ks
      pure (a :: l)

/-- An assertion about the text ahead. -/
def ahead (q : List Char → Bool) : Pattern Unit := fun s => if q s then [((), s)] else []

/-- `$` without the flag `m`. -/
def eos : Pattern Unit := ahead List.isEmpty

/-- The class of `\w`. -/
def isWord (c : Char) : Bool :=
  GoText.isLower c || GoText.isUpper c || ('0' ≤ c && c ≤ '9') || c == '_'

/-- `\b` between the character before and the text behind. -/
def boundary (before : Option Char) (s : List Char) : Bool :=
  before.any isWord != s.head?.any isWord

/-- A word and `\b` behind it. -/
def keyword (k : List Char) : Pattern Unit := do
  let l ← word k
  ahead (boundary l.getLast?)

/-- `FindStringSubmatch` of a pattern that starts with `^`. -/
def find (p : Pattern α) (s : List Char) : Option (α × List Char) := (p s).head?

/-- `FindStringSubmatch` of a pattern that may match anywhere. -/
def search (p : Pattern α) : List Char → Option α
  | [] => (p.find []).map (·.1)
  | a :: s =>
    match p.find (a :: s) with
    | some x => some x.1
    | none => search p s

/-- `ReplaceAllString` of a pattern that never matches the empty text and is given the character
before, by what it captures.  The first `skip` characters belong to a match. -/
def replaceAll (p : Option Char → Pattern (List Char)) :
    Nat → Option Char → List Char → List Char
  | _, _, [] => []
  | skip + 1, _, c :: s => replaceAll p skip (some c) s
  | 0, before, c :: s =>
    match (p before).find (c :: s) with
    | some (kept, rest) => kept ++ replaceAll p (s.length - rest.length) (some c) s
    | none => c :: replaceAll p 0 (some c) s

/-! ## What is matched -/

/-- `MatchString` of a pattern that starts with `^`. -/
def Matches (p : Pattern α) (s : List Char) : Prop := (p.find s).isSome

instance (p : Pattern α) (s : List Char) : Decidable (p.Matches s) :=
  inferInstanceAs (Decidable (_ = true))

theorem matches_iff : p.Matches s ↔ ∃ x, x ∈ p s := by
  rw [Matches, find, isSome_head?]
  exact ⟨exists_mem_of_ne_nil _, fun ⟨_, h⟩ => ne_nil_of_mem h⟩

theorem matches_of_find {x : α × List Char} (h : p.find s = some x) : p.Matches s := by
  rw [Matches, h]
  rfl

theorem not_matches_of_find (h : p.find s = none) : ¬p.Matches s := by
  rw [Matches, h]
  exact Bool.false_ne_true

@[simp] theorem mem_pure {a : α} {x : α × List Char} :
    x ∈ (pure a : Pattern α) s ↔ x = (a, s) := mem_singleton

@[simp] theorem mem_bind {f : α → Pattern β} {x : β × List Char} :
    x ∈ (p >>= f) s ↔ ∃ y ∈ p s, x ∈ f y.1 y.2 := mem_flatMap

theorem matches_bind {f : α → Pattern β} :
    (p >>= f).Matches s ↔ ∃ y ∈ p s, (f y.1).Matches y.2 := by
  simp only [matches_iff, mem_bind]
  constructor
  · rintro ⟨x, y, hy, hx⟩
    exact ⟨y, hy, x, hx⟩
  · rintro ⟨y, hy, x, hx⟩
    exact ⟨x, y, hy, hx⟩

@[simp] theorem matches_pure (a : α) (s : List Char) : (pure a : Pattern α).Matches s := rfl

theorem mem_or {q : Pattern α} {x : α × List Char} :
    x ∈ (p <|> q) s ↔ x ∈ p s ∨ x ∈ q s := mem_append

@[simp] theorem matches_or {q : Pattern α} : (p <|> q).Matches s ↔ p.Matches s ∨ q.Matches s := by
  simp only [matches_iff, mem_or, exists_or]

theorem mem_opt {x : Option α × List Char} :
    x ∈ opt p s ↔ (∃ y ∈ p s, x = (some y.1, y.2)) ∨ x = (none, s) := by
  simp only [opt, mem_append, mem_map, mem_singleton, eq_comm]

/-- Where what follows does not look at the capture, an optional part is an alternative. -/
theorem matches_opt_bind {q : Option α → Pattern β} {r : Pattern β}
    (same : ∀ o t, (q o).Matches t ↔ r.Matches t) :
    (opt p >>= q).Matches s ↔ (p >>= fun _ => r).Matches s ∨ r.Matches s := by
  simp only [matches_bind, mem_opt, same]
  constructor
  · rintro ⟨y, ⟨x, hx, rfl⟩ | rfl, h⟩
    · exact .inl ⟨x, hx, h⟩
    · exact .inr h
  · rintro (⟨x, hx, h⟩ | h)
    · exact ⟨_, .inl ⟨x, hx, rfl⟩, h⟩
    · exact ⟨_, .inr rfl, h⟩

/-! ## What is read -/

theorem mem_one {x : Char × List Char} : x ∈ one cls s ↔ cls x.1 ∧ s = x.1 :: x.2 := by
  cases s with
  | nil => simp [one]
  | cons a s =>
    obtain ⟨b, t⟩ := x
    by_cases h : cls a
    · simp only [one, if_pos h, mem_singleton, Prod.mk.injEq, List.cons.injEq]
      constructor
      · rintro ⟨rfl, rfl⟩
        exact ⟨h, rfl, rfl⟩
      · rintro ⟨-, rfl, rfl⟩
        exact ⟨rfl, rfl⟩
    · simp only [one, if_neg h, not_mem_nil, false_iff, List.cons.injEq]
      rintro ⟨hb, rfl, -⟩
      exact h hb

theorem mem_many : x ∈ many cls s ↔ (∀ a ∈ x.1, cls a) ∧ s = x.1 ++ x.2 := by
  induction s generalizing x with
  | nil =>
    obtain ⟨l, t⟩ := x
    simp only [many, mem_singleton, Prod.mk.injEq, nil_eq_append_iff]
    constructor
    · rintro ⟨rfl, rfl⟩
      exact ⟨fun a h => absurd h not_mem_nil, rfl, rfl⟩
    · exact fun h => h.2
  | cons a s ih =>
    obtain ⟨l, t⟩ := x
    by_cases h : cls a
    · simp only [many, if_pos h, mem_append, mem_map, mem_singleton, Prod.mk.injEq, ih]
      constructor
      · rintro (⟨⟨l, t⟩, ⟨hl, rfl⟩, rfl, rfl⟩ | ⟨rfl, rfl⟩)
        · exact ⟨forall_mem_cons.mpr ⟨h, hl⟩, rfl⟩
        · exact ⟨fun a h => absurd h not_mem_nil, rfl⟩
      · rintro ⟨hl, eq⟩
        cases l with
        | nil => exact .inr ⟨rfl, eq.symm⟩
        | cons b l =>
          obtain ⟨rfl, rfl⟩ := List.cons.inj eq
          exact .inl ⟨(l, t), ⟨(forall_mem_cons.mp hl).2, rfl⟩, rfl, rfl⟩
    · simp only [many, if_neg h, mem_singleton, Prod.mk.injEq]
      constructor
      · rintro ⟨rfl, rfl⟩
        exact ⟨fun a h => absurd h not_mem_nil, rfl⟩
      · rintro ⟨hl, eq⟩
        cases l with
        | nil => exact ⟨rfl, eq.symm⟩
        | cons b l =>
          obtain ⟨rfl, -⟩ := List.cons.inj eq
          exact absurd (hl a mem_cons_self) h

theorem mem_many1 : x ∈ many1 cls s ↔ x.1 ≠ [] ∧ (∀ a ∈ x.1, cls a) ∧ s = x.1 ++ x.2 := by
  obtain ⟨l, t⟩ := x
  simp only [many1, mem_bind, mem_pure, mem_one, mem_many, Prod.mk.injEq]
  constructor
  · rintro ⟨⟨a, s⟩, ⟨ha, rfl⟩, ⟨l, t⟩, ⟨hl, rfl⟩, rfl, rfl⟩
    exact ⟨cons_ne_nil _ _, forall_mem_cons.mpr ⟨ha, hl⟩, rfl⟩
  · rintro ⟨ne, hl, rfl⟩
    cases l with
    | nil => exact absurd rfl ne
    | cons a l =>
      obtain ⟨ha, hl⟩ := forall_mem_cons.mp hl
      exact ⟨(a, l ++ t), ⟨ha, rfl⟩, (l, t), ⟨hl, rfl⟩, rfl, rfl⟩

/-- A text up to case. -/
def fold (s : List Char) : List Char := s.map GoText.foldRune

theorem mem_word {k : List Char} : x ∈ word k s ↔ fold x.1 = fold k ∧ s = x.1 ++ x.2 := by
  induction k generalizing s x with
  | nil =>
    obtain ⟨l, t⟩ := x
    simp only [word, mem_pure, Prod.mk.injEq, fold, map_nil, map_eq_nil_iff]
    constructor
    · rintro ⟨rfl, rfl⟩
      exact ⟨rfl, rfl⟩
    · rintro ⟨rfl, rfl⟩
      exact ⟨rfl, rfl⟩
  | cons a k ih =>
    obtain ⟨l, t⟩ := x
    simp only [word, mem_bind, mem_pure, mem_one, ih, Prod.mk.injEq, beq_iff_eq]
    constructor
    · rintro ⟨⟨b, s⟩, ⟨hb, rfl⟩, ⟨l, t⟩, ⟨hl, rfl⟩, rfl, rfl⟩
      exact ⟨cons_eq_cons.mpr ⟨hb, hl⟩, rfl⟩
    · rintro ⟨eq, rfl⟩
      cases l with
      | nil => cases eq
      | cons b l =>
        obtain ⟨hb, hl⟩ := List.cons.inj eq
        exact ⟨(b, l ++ t), ⟨hb, rfl⟩, (l, t), ⟨hl, rfl⟩, rfl, rfl⟩

theorem matches_ahead {q : List Char → Bool} : (ahead q).Matches s ↔ q s := by
  rw [matches_iff, ahead]
  split <;> simp [*]

theorem mem_ahead {q : List Char → Bool} {x : Unit × List Char} :
    x ∈ ahead q s ↔ q s ∧ x.2 = s := by
  rw [ahead]
  split <;> simp [*, Prod.ext_iff]

theorem matches_keyword {k : List Char} :
    (keyword k).Matches s ↔ ∃ l t, s = l ++ t ∧ fold l = fold k ∧ boundary l.getLast? t := by
  simp only [keyword, matches_bind, mem_word, matches_ahead]
  constructor
  · rintro ⟨⟨l, t⟩, ⟨eq, rfl⟩, h⟩
    exact ⟨l, t, rfl, eq, h⟩
  · rintro ⟨l, t, rfl, eq, h⟩
    exact ⟨(l, t), ⟨eq, rfl⟩, h⟩

end Pattern
