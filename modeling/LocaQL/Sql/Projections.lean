import LocaQL.Sql.Patterns

/-!
# The projection of a query, as the server reads it

The server looks for the items of a projection in the text of a query: it takes what stands
between the first `SELECT` and the next `FROM` outside of parentheses and quotes, cuts it at the
commas outside of them, and counts the items that name a pseudocolumn.

A text of tokens is scanned token by token (`findAt_tokens`, `splitAt_listed`), so the items of a
query that is made of tokens are found again (`Query.Valid.projectionItems_eq`), and those that
name a pseudocolumn are counted (`Query.Valid.counts_eq`).
-/

namespace LocaQL.Sql

open GoText List

open Pattern

/-! ## Scanning -/

def isSQLIdentifierByte (c : Char) : Bool :=
  c == '_' || isLower c || isUpper c || isDigit c

def isQuote (c : Char) : Bool := c == '\'' || c == '"' || c == '\x60'

/-- The text behind a quotation whose first quote has been read; a doubled quote stays in it. -/
def skipQuoted (q : Char) : List Char → List Char
  | [] => []
  | [_] => []
  | c :: d :: s =>
    if c = q then if d = q then skipQuoted q s else d :: s else skipQuoted q (d :: s)

/-- The loop of `findTopLevelSQLKeyword`: the text from the keyword on.  A round reads at least
one character. -/
def findTop (keyword : String) : Nat → Nat → List Char → Option (List Char)
  | 0, _, _ => none
  | _ + 1, _, [] => none
  | n + 1, depth, c :: s =>
    if isQuote c then findTop keyword n depth (skipQuoted c s)
    else if c = '(' then findTop keyword n (depth + 1) s
    else if c = ')' then findTop keyword n (depth - 1) s
    else if depth = 0 ∧ isSQLIdentifierByte c then
      if equalFold (String.ofList ((c :: s).takeWhile isSQLIdentifierByte)) keyword then
        some (c :: s)
      else findTop keyword n depth ((c :: s).dropWhile isSQLIdentifierByte)
    else findTop keyword n depth s

def findTopLevelSQLKeyword (sqlText : List Char) (keyword : String) : Option (List Char) :=
  findTop keyword (sqlText.length + 1) 0 sqlText

/-- The loop of `splitTopLevelSQLList`; `item` is the item that has been begun. -/
def splitTop : Nat → Nat → List Char → List Char → List (List Char)
  | 0, _, item, _ => [item]
  | _ + 1, _, item, [] => [item]
  | n + 1, depth, item, c :: s =>
    if isQuote c then
      let rest := skipQuoted c s
      splitTop n depth (item ++ (c :: s).take (s.length + 1 - rest.length)) rest
    else if c = '(' then splitTop n (depth + 1) (item ++ [c]) s
    else if c = ')' then splitTop n (depth - 1) (item ++ [c]) s
    else if c = ',' ∧ depth = 0 then item :: splitTop n depth [] s
    else splitTop n depth (item ++ [c]) s

def splitTopLevelSQLList (value : List Char) : List (List Char) :=
  splitTop (value.length + 1) 0 [] value

/-! ## Direct projections -/

/-- The two pseudocolumns. -/
inductive Pseudo where
  | time
  | date
deriving Repr, DecidableEq

def Pseudo.name : Pseudo → String
  | .time => "_PARTITIONTIME"
  | .date => "_PARTITIONDATE"

/-- `directPartitionTimeProjection` and `directPartitionDateProjection`. -/
def directProjection (w : Pseudo) : Pattern Unit := do
  let _ ← opt (do
    let _ ← quoted columnName
    let _ ← char '.'
    pure ())
  let _ ← tick
  let _ ← word w.name.toList
  let _ ← tick
  eos

/-- The pseudocolumn that an item names. -/
def directOf (item : List Char) : Option Pseudo :=
  if (directProjection .time).Matches item then some .time
  else if (directProjection .date).Matches item then some .date
  else none

/-- `strings.Index`, in bytes. -/
def indexBytes (sub : List Char) : List Char → Option Nat
  | [] => if sub.isEmpty then some 0 else none
  | c :: s =>
    if sub.isPrefixOf (c :: s) then some 0 else (indexBytes sub s).map (· + c.utf8Size)

/-- The items of the first projection of a text, trimmed and in upper case. -/
def projectionItems (queryText : List Char) : List (List Char) :=
  match indexBytes "SELECT".toList (toUpper queryText) with
  | none => []
  | some selectAt =>
    let rest := dropBytes (selectAt + 6) queryText
    let behind := (findTopLevelSQLKeyword rest "FROM").getD []
    let projection := trimSpace (rest.take (rest.length - behind.length))
    let upper := toUpper projection
    let distinct := "DISTINCT".toList
    let list := trimSpace (if distinct.isPrefixOf upper then upper.drop distinct.length
      else upper)
    (splitTopLevelSQLList list).map trimSpace

/-- `directPseudocolumnProjectionCounts`, for one of the pseudocolumns. -/
def directPseudocolumnProjectionCounts (queryText : List Char) (w : Pseudo) : Nat :=
  (projectionItems queryText).countP fun item => directOf item = some w

/-! ## Tokens -/

/-- The parts of a text without comments.  A quotation has no quote of its own kind inside. -/
inductive Token where
  | word (w : List Char)
  | quotation (q : Char) (content : List Char)
  | opening
  | closing
  | comma
  | other (c : Char)
deriving Repr, DecidableEq

namespace Token

def text : Token → List Char
  | word w => w
  | quotation q content => q :: content ++ [q]
  | opening => ['(']
  | closing => [')']
  | comma => [',']
  | other c => [c]

/-- A character that the scanners have no use for. -/
def idle (c : Char) : Bool :=
  !isSQLIdentifierByte c && !isQuote c && c ≠ '(' && c ≠ ')' && c ≠ ','

def Valid : Token → Prop
  | word w => w ≠ [] ∧ ∀ c ∈ w, isSQLIdentifierByte c = true
  | quotation q content => isQuote q = true ∧ q ∉ content
  | other c => idle c = true
  | _ => True

/-- The next character does not belong to the token. -/
def Ends (rest : List Char) : Token → Prop
  | word _ => ∀ c ∈ rest.head?, isSQLIdentifierByte c = false
  | quotation q _ => ∀ c ∈ rest.head?, c ≠ q
  | _ => True

end Token

/-- The text of some tokens. -/
def render (ts : List Token) : List Char := ts.flatMap Token.text

/-- Tokens that are read one by one, in front of a text. -/
def Reads : List Token → List Char → Prop
  | [], _ => True
  | t :: ts, rest => t.Valid ∧ t.Ends (render ts ++ rest) ∧ Reads ts rest

/-- The depth of parentheses behind a token. -/
def depthAfter (depth : Nat) : Token → Nat
  | .opening => depth + 1
  | .closing => depth - 1
  | _ => depth

/-- No word outside of parentheses is the keyword. -/
def Misses (keyword : String) : Nat → List Token → Prop
  | _, [] => True
  | depth, t :: ts =>
    (∀ w, t = .word w → depth = 0 → equalFold (String.ofList w) keyword = false) ∧
      Misses keyword (depthAfter depth t) ts

/-! ## Quotations -/

/-- The characters of a text, each with whether it stands outside of quotations.  A doubled quote
ends its quotation and starts it again. -/
def outside : Option Char → List Char → List (Char × Bool)
  | _, [] => []
  | none, c :: s => (c, !isQuote c) :: outside (if isQuote c then some c else none) s
  | some q, c :: s => (c, false) :: outside (if c = q then none else some q) s

/-- `findTop` on the characters that count; `inside` says whether a word has been begun. -/
def wordAt (keyword : String) : Nat → Bool → List (Char × Bool) → Option (List Char)
  | _, _, [] => none
  | depth, _, (_, false) :: s => wordAt keyword depth false s
  | depth, inside, (c, true) :: s =>
    if c = '(' then wordAt keyword (depth + 1) false s
    else if c = ')' then wordAt keyword (depth - 1) false s
    else if depth = 0 ∧ isSQLIdentifierByte c then
      if !inside && equalFold (String.ofList
          ((c :: s.map Prod.fst).takeWhile isSQLIdentifierByte)) keyword then
        some (c :: s.map Prod.fst)
      else wordAt keyword depth true s
    else wordAt keyword depth false s

/-- `splitTop` on the characters that count. -/
def cutAt : Nat → List Char → List (Char × Bool) → List (List Char)
  | _, item, [] => [item]
  | depth, item, (c, false) :: s => cutAt depth (item ++ [c]) s
  | depth, item, (c, true) :: s =>
    if c = '(' then cutAt (depth + 1) (item ++ [c]) s
    else if c = ')' then cutAt (depth - 1) (item ++ [c]) s
    else if c = ',' ∧ depth = 0 then item :: cutAt depth [] s
    else cutAt depth (item ++ [c]) s

/-- `findTop` with enough rounds. -/
def findAt (keyword : String) (depth : Nat) (s : List Char) : Option (List Char) :=
  wordAt keyword depth false (outside none s)

/-- `splitTop` with enough rounds. -/
def splitAt (depth : Nat) (item s : List Char) : List (List Char) :=
  cutAt depth item (outside none s)

variable {rest s item w : List Char} {depth n : Nat} {keyword : String} {c q : Char} {t : Token}
  {ts : List Token} {items : List (List Token)} {inside : Bool} {l : List (Char × Bool)}

/-- A character that is no quote, parenthesis or comma. -/
def quiet (c : Char) : Bool := !isQuote c && c ≠ '(' && c ≠ ')' && c ≠ ','

theorem quiet_iff : quiet c = true ↔ isQuote c = false ∧ c ≠ '(' ∧ c ≠ ')' ∧ c ≠ ',' := by
  simp only [quiet, Bool.and_eq_true, Bool.not_eq_true', decide_eq_true_eq, ne_eq, and_assoc]

theorem quiet_of_identifier (h : isSQLIdentifierByte c = true) : quiet c = true := by
  have ne (d : Char) (other : isSQLIdentifierByte d = false) : c ≠ d := by
    rintro rfl
    rw [h] at other
    cases other
  refine quiet_iff.mpr ⟨?_, ne '(' rfl, ne ')' rfl, ne ',' rfl⟩
  simp [isQuote, ne '\'' rfl, ne '"' rfl, ne '\x60' rfl]

@[simp] theorem map_fst_outside (quote : Option Char) (s : List Char) :
    (outside quote s).map Prod.fst = s := by
  fun_induction outside quote s with
  | case1 => rfl
  | case2 c s ih | case3 q c s ih => rw [map_cons, ih]

theorem outside_none (h : isQuote c = false) (s : List Char) :
    outside none (c :: s) = (c, true) :: outside none s := by
  rw [outside, h]
  rfl

theorem outside_quote (h : isQuote q = true) (s : List Char) :
    outside none (q :: s) = (q, false) :: outside (some q) s := by
  rw [outside, h]
  rfl

/-- What is skipped stands in a quotation. -/
theorem outside_skipQuoted (h : isQuote q = true) (s : List Char) :
    ∃ w, s = w ++ skipQuoted q s ∧
      outside (some q) s = w.map (·, false) ++ outside none (skipQuoted q s) := by
  fun_induction skipQuoted q s with
  | case1 => exact ⟨[], rfl, rfl⟩
  | case2 c => exact ⟨[c], rfl, rfl⟩
  | case3 s ih =>
    obtain ⟨w, is, marks⟩ := ih
    refine ⟨q :: q :: w, by rw [cons_append, cons_append, ← is], ?_⟩
    rw [outside, if_pos rfl, outside_quote h, marks]
    rfl
  | case4 d s ne =>
    exact ⟨[q], rfl, by simp only [outside, if_true, map_singleton, singleton_append]⟩
  | case5 c d s ne ih =>
    obtain ⟨w, is, marks⟩ := ih
    refine ⟨c :: w, by rw [cons_append, ← is], ?_⟩
    rw [outside, if_neg ne, marks]
    rfl

theorem outside_quotation {content : List Char} (h : isQuote q = true) (fresh : q ∉ content)
    (rest : List Char) : outside none (q :: content ++ [q] ++ rest) =
      (q :: content ++ [q]).map (·, false) ++ outside none rest := by
  rw [cons_append, cons_append, outside_quote h]
  refine congrArg _ ?_
  induction content with
  | nil =>
    rw [nil_append, singleton_append, outside, if_pos rfl]
    rfl
  | cons a content ih =>
    obtain ⟨ne, fresh⟩ := not_or.mp (mem_cons.not.mp fresh)
    rw [cons_append, cons_append, outside, if_neg fun same => ne same.symm, ih fresh]
    rfl

theorem wordAt_quoted (w : List Char) (l : List (Char × Bool)) :
    wordAt keyword depth false (w.map (·, false) ++ l) = wordAt keyword depth false l := by
  induction w with
  | nil => rfl
  | cons c w ih => exact ih

theorem cutAt_quoted (w : List Char) (l : List (Char × Bool)) :
    cutAt depth item (w.map (·, false) ++ l) = cutAt depth (item ++ w) l := by
  induction w generalizing item with
  | nil => rw [append_nil]; rfl
  | cons c w ih =>
    rw [append_cons]
    exact ih

/-- The rest of a word is passed over. -/
theorem wordAt_word (s : List Char) : wordAt keyword 0 true (outside none s) =
    findAt keyword 0 (s.dropWhile isSQLIdentifierByte) := by
  induction s with
  | nil => rfl
  | cons c s ih =>
    cases identifier : isSQLIdentifierByte c with
    | false =>
      rw [dropWhile_cons, identifier, if_neg Bool.false_ne_true, findAt, outside]
      cases isQuote c with
      | true => rfl
      | false => simp [wordAt, identifier]
    | true =>
      obtain ⟨quote, opening, closing, -⟩ := quiet_iff.mp (quiet_of_identifier identifier)
      rw [dropWhile_cons, identifier, if_pos rfl, outside_none quote, wordAt]
      simpa [opening, closing, identifier] using ih

theorem findTop_eq (h : s.length < n) : findTop keyword n depth s = findAt keyword depth s := by
  induction n generalizing depth s with
  | zero => exact absurd h (Nat.not_lt_zero _)
  | succ n ih =>
    cases s with
    | nil => rfl
    | cons c s =>
      rw [length_cons] at h
      have here (d : Nat) : findTop keyword n d s = findAt keyword d s := ih (by omega)
      cases quote : isQuote c with
      | true =>
        obtain ⟨w, is, marks⟩ := outside_skipQuoted quote s
        have less := congrArg length is
        rw [length_append] at less
        rw [findTop, quote, if_pos rfl, findAt, outside_quote quote, marks, ih (by omega)]
        exact (wordAt_quoted (c :: w) _).symm
      | false =>
        rw [findTop, quote, if_neg Bool.false_ne_true, findAt, outside_none quote, wordAt,
          map_fst_outside, here, here, here]
        by_cases start : depth = 0 ∧ isSQLIdentifierByte c = true
        · have less := (dropWhile_suffix (l := s) isSQLIdentifierByte).length_le
          rw [dropWhile_cons, if_pos start.2, ih (by omega), start.1, ← wordAt_word]
          rfl
        · simp only [if_neg start]
          rfl

theorem splitTop_eq (h : s.length < n) : splitTop n depth item s = splitAt depth item s := by
  induction n generalizing depth item s with
  | zero => exact absurd h (Nat.not_lt_zero _)
  | succ n ih =>
    cases s with
    | nil => rfl
    | cons c s =>
      rw [length_cons] at h
      have here (d : Nat) (i : List Char) : splitTop n d i s = splitAt d i s := ih (by omega)
      cases quote : isQuote c with
      | true =>
        obtain ⟨w, is, marks⟩ := outside_skipQuoted quote s
        have less := congrArg length is
        rw [length_append] at less
        have taken : (c :: s).take (s.length + 1 - (skipQuoted c s).length) = c :: w := by
          rw [show s.length + 1 - (skipQuoted c s).length = (c :: w).length by
            rw [length_cons]; omega]
          nth_rewrite 1 [is]
          exact take_left
        rw [splitTop, quote, if_pos rfl, splitAt, outside_quote quote, marks]
        dsimp only
        rw [taken, ih (by omega)]
        exact (cutAt_quoted (c :: w) _).symm
      | false =>
        rw [splitTop, splitAt, outside_none quote, cutAt, here, here, here, here, quote]
        rfl

/-! ## Scanning tokens -/

theorem findAt_skip (h : quiet c = true) (inside : ¬(depth = 0 ∧ isSQLIdentifierByte c = true))
    (s : List Char) : findAt keyword depth (c :: s) = findAt keyword depth s := by
  obtain ⟨quote, opening, closing, -⟩ := quiet_iff.mp h
  rw [findAt, outside_none quote, wordAt, if_neg opening, if_neg closing, if_neg inside]
  rfl

theorem findAt_skips (inside : depth ≠ 0) (h : ∀ c ∈ w, quiet c = true) (s : List Char) :
    findAt keyword depth (w ++ s) = findAt keyword depth s := by
  induction w with
  | nil => rfl
  | cons c w ih =>
    obtain ⟨here, there⟩ := forall_mem_cons.mp h
    rw [cons_append, findAt_skip here (fun both => inside both.1), ih there]

theorem findAt_word (ne : w ≠ []) (chars : ∀ c ∈ w, isSQLIdentifierByte c = true)
    (ends : ∀ c ∈ rest.head?, isSQLIdentifierByte c = false) :
    findAt keyword 0 (w ++ rest) =
      if equalFold (String.ofList w) keyword then some (w ++ rest) else findAt keyword 0 rest := by
  obtain ⟨c, w, rfl⟩ := exists_cons_of_ne_nil ne
  have first := chars c mem_cons_self
  obtain ⟨quote, opening, closing, -⟩ := quiet_iff.mp (quiet_of_identifier first)
  have stops : rest.takeWhile isSQLIdentifierByte = [] ∧
      rest.dropWhile isSQLIdentifierByte = rest := by
    cases rest with
    | nil => exact ⟨rfl, rfl⟩
    | cons d rest => simp [ends d rfl]
  have taken : (c :: (w ++ rest)).takeWhile isSQLIdentifierByte = c :: w := by
    rw [← cons_append, takeWhile_append_of_pos chars, stops.1, append_nil]
  have dropped : (w ++ rest).dropWhile isSQLIdentifierByte = rest := by
    rw [dropWhile_append_of_pos fun d mem => chars d (mem_cons_of_mem c mem), stops.2]
  rw [cons_append, findAt, outside_none quote, wordAt, if_neg opening, if_neg closing,
    if_pos ⟨rfl, first⟩, map_fst_outside, taken, wordAt_word, dropped]
  rfl

/-- A token that is not the keyword is passed over. -/
theorem findAt_token (valid : t.Valid) (ends : t.Ends rest)
    (misses : ∀ w, t = .word w → depth = 0 → equalFold (String.ofList w) keyword = false) :
    findAt keyword depth (t.text ++ rest) = findAt keyword (depthAfter depth t) rest := by
  cases t with
  | word w =>
    obtain ⟨ne, chars⟩ := valid
    by_cases top : depth = 0
    · subst top
      rw [Token.text, findAt_word ne chars ends, misses w rfl rfl]
      rfl
    · exact findAt_skips top (fun c mem => quiet_of_identifier (chars c mem)) rest
  | quotation q content =>
    rw [Token.text, findAt, outside_quotation valid.1 valid.2]
    exact wordAt_quoted _ _
  | opening | closing => rfl
  | comma => exact if_neg fun both => absurd both.2 (by decide)
  | other c =>
    simp only [Token.Valid, Token.idle, Bool.and_eq_true, Bool.not_eq_true', decide_eq_true_eq]
      at valid
    refine findAt_skip (quiet_iff.mpr ⟨valid.1.1.1.2, valid.1.1.2, valid.1.2, valid.2⟩) ?_ rest
    rintro ⟨-, start⟩
    rw [valid.1.1.1.1] at start
    cases start

/-- Tokens among which the keyword is not are passed over. -/
theorem findAt_tokens (reads : Reads ts rest) (misses : Misses keyword depth ts) :
    findAt keyword depth (render ts ++ rest) = findAt keyword (ts.foldl depthAfter depth) rest := by
  induction ts generalizing depth with
  | nil => rfl
  | cons t ts ih =>
    obtain ⟨valid, ends, reads⟩ := reads
    rw [render, flatMap_cons, append_assoc]
    exact (findAt_token valid ends misses.1).trans (ih reads misses.2)

/-! ## Cutting tokens at commas -/

/-- What the cutting at commas asks of a token. -/
def Token.Quiet : Token → Prop
  | .word w => ∀ c ∈ w, quiet c = true
  | .quotation q content => isQuote q = true ∧ q ∉ content
  | .other c => quiet c = true
  | _ => True

/-- No comma stands outside of parentheses, and the parentheses are closed in the end. -/
def Sealed : Nat → List Token → Prop
  | depth, [] => depth = 0
  | depth, t :: ts => (t = .comma → depth ≠ 0) ∧ Sealed (depthAfter depth t) ts

theorem splitAt_keep (h : quiet c = true) (s : List Char) :
    splitAt depth item (c :: s) = splitAt depth (item ++ [c]) s := by
  obtain ⟨quote, opening, closing, comma⟩ := quiet_iff.mp h
  rw [splitAt, outside_none quote, cutAt, if_neg opening, if_neg closing,
    if_neg fun both => comma both.1]
  rfl

theorem splitAt_keeps (h : ∀ c ∈ w, quiet c = true) (s : List Char) :
    splitAt depth item (w ++ s) = splitAt depth (item ++ w) s := by
  induction w generalizing item with
  | nil => rw [append_nil, nil_append]
  | cons c w ih =>
    obtain ⟨here, there⟩ := forall_mem_cons.mp h
    rw [cons_append, splitAt_keep here, ih there, append_assoc]
    rfl

/-- A token that does not separate items becomes part of the item. -/
theorem splitAt_token (quiet : t.Quiet) (inside : t = .comma → depth ≠ 0) :
    splitAt depth item (t.text ++ rest) = splitAt (depthAfter depth t) (item ++ t.text) rest := by
  cases t with
  | word w => exact splitAt_keeps quiet rest
  | quotation q content =>
    rw [Token.text, splitAt, outside_quotation quiet.1 quiet.2]
    exact cutAt_quoted _ _
  | opening | closing => rfl
  | comma => exact if_neg fun both => inside rfl both.2
  | other c => exact splitAt_keep quiet rest

theorem splitAt_sealed (quiet : ∀ t ∈ ts, t.Quiet) (sealed : Sealed depth ts) :
    splitAt depth item (render ts ++ rest) = splitAt 0 (item ++ render ts) rest := by
  induction ts generalizing depth item with
  | nil =>
    cases sealed
    rw [render, flatMap_nil, nil_append, append_nil]
  | cons t ts ih =>
    obtain ⟨here, there⟩ := forall_mem_cons.mp quiet
    rw [render, flatMap_cons, append_assoc]
    refine (splitAt_token here sealed.1).trans ((ih there sealed.2).trans ?_)
    rw [append_assoc]
    rfl

/-- The text of some items, separated by commas. -/
def listed (items : List (List Token)) : List Char := [','].intercalate (items.map render)

theorem splitAt_listed (ne : items ≠ []) (quiet : ∀ ts ∈ items, ∀ t ∈ ts, t.Quiet)
    (sealed : ∀ ts ∈ items, Sealed 0 ts) : splitAt 0 [] (listed items) = items.map render := by
  induction items with
  | nil => exact absurd rfl ne
  | cons ts items ih =>
    obtain ⟨here, there⟩ := forall_mem_cons.mp quiet
    obtain ⟨closed, others⟩ := forall_mem_cons.mp sealed
    cases items with
    | nil =>
      have last : splitAt 0 [] (render ts ++ []) = splitAt 0 ([] ++ render ts) [] :=
        splitAt_sealed here closed
      rw [append_nil] at last
      rw [listed, map_singleton, intercalate_singleton, last]
      rfl
    | cons ts' items =>
      rw [listed, map_cons, map_cons, intercalate_cons_cons, ← map_cons, append_assoc,
        singleton_append, splitAt_sealed here closed, nil_append]
      exact congrArg (render ts :: ·) (ih (cons_ne_nil _ _) there others)

/-! ## Upper case -/

theorem upperRune_loud (h : quiet c = false) : upperRune c = c := by
  have special : c = '\'' ∨ c = '"' ∨ c = '\x60' ∨ c = '(' ∨ c = ')' ∨ c = ',' := by
    by_contra none
    simp only [not_or] at none
    have : quiet c = true := quiet_iff.mpr ⟨by simp [isQuote, none], none.2.2.2⟩
    rw [h] at this
    cases this
  rcases special with rfl | rfl | rfl | rfl | rfl | rfl <;> rfl

theorem quiet_upperRune (h : quiet c = true) : quiet (upperRune c) = true := by
  rw [upperRune]
  split
  next lower =>
    have letters : ∀ n < 26, quiet (Char.ofNat (65 + n)) = true := by decide
    obtain ⟨low, high⟩ := Bool.and_eq_true_iff.mp lower
    have low : 97 ≤ c.toNat := of_decide_eq_true low
    have high : c.toNat ≤ 122 := of_decide_eq_true high
    have is := letters (c.toNat - 97) (by omega)
    rwa [show 65 + (c.toNat - 97) = c.toNat - 32 by omega] at is
  · split
    · decide
    · split
      · decide
      · exact h

/-- Only a quote becomes a quote. -/
theorem upperRune_eq_quote {q : Char} (quote : isQuote q = true) (h : upperRune c = q) : c = q := by
  cases is : quiet c with
  | false => rwa [upperRune_loud is] at h
  | true =>
    have := (quiet_iff.mp (quiet_upperRune is)).1
    rw [h, quote] at this
    cases this

def Token.upper : Token → Token
  | .word w => .word (toUpper w)
  | .quotation q content => .quotation q (toUpper content)
  | .other c => .other (upperRune c)
  | t => t

theorem Token.text_upper (h : t.Valid) : t.upper.text = toUpper t.text := by
  cases t with
  | quotation q content =>
    have loud : upperRune q = q := by
      refine upperRune_loud (Bool.eq_false_iff.mpr fun is => ?_)
      have quote : isQuote q = true := h.1
      rw [(quiet_iff.mp is).1] at quote
      cases quote
    simp [Token.upper, Token.text, toUpper, loud]
  | _ => rfl

theorem Reads.valid (h : Reads ts rest) : ∀ t ∈ ts, t.Valid := by
  induction ts with
  | nil => exact fun t mem => absurd mem not_mem_nil
  | cons t ts ih => exact forall_mem_cons.mpr ⟨h.1, ih h.2.2⟩

theorem render_upper (h : ∀ t ∈ ts, t.Valid) :
    render (ts.map Token.upper) = toUpper (render ts) := by
  induction ts with
  | nil => rfl
  | cons t ts ih =>
    obtain ⟨here, there⟩ := forall_mem_cons.mp h
    simp only [render, map_cons, flatMap_cons, toUpper, map_append] at ih ⊢
    rw [ih there, Token.text_upper here]
    rfl

theorem Token.quiet_upper (h : t.Valid) : t.upper.Quiet := by
  cases t with
  | word w =>
    intro c mem
    obtain ⟨d, there, rfl⟩ := mem_map.mp mem
    exact quiet_upperRune (quiet_of_identifier (h.2 d there))
  | quotation q content =>
    refine ⟨h.1, fun mem => ?_⟩
    obtain ⟨d, there, is⟩ := mem_map.mp mem
    exact h.2 (upperRune_eq_quote h.1 is ▸ there)
  | other c =>
    simp only [Token.Valid, Token.idle, Bool.and_eq_true, Bool.not_eq_true', decide_eq_true_eq]
      at h
    exact quiet_upperRune (quiet_iff.mpr ⟨h.1.1.1.2, h.1.1.2, h.1.2, h.2⟩)
  | _ => trivial

theorem sealed_upper (h : Sealed depth ts) : Sealed depth (ts.map Token.upper) := by
  induction ts generalizing depth with
  | nil => exact h
  | cons t ts ih =>
    have same : depthAfter depth t.upper = depthAfter depth t := by cases t <;> rfl
    refine ⟨fun comma => h.1 ?_, ?_⟩
    · cases t <;> first | rfl | cases comma
    · rw [same]
      exact ih h.2

/-- What may follow a list of tokens that is read to its end. -/
theorem Reads.append (h : Reads ts [])
    (apart : ∀ c ∈ rest.head?, isSQLIdentifierByte c = false ∧ isQuote c = false) :
    Reads ts rest := by
  induction ts with
  | nil => trivial
  | cons t ts ih =>
    refine ⟨h.1, ?_, ih h.2.2⟩
    have ends := h.2.1
    rw [append_nil] at ends
    cases is : render ts with
    | cons c s =>
      rw [is] at ends
      cases t with
      | word w => exact ends
      | quotation q content => exact ends
      | _ => trivial
    | nil =>
      cases t with
      | word w => exact fun c mem => (apart c mem).1
      | quotation q content =>
        intro c mem same
        have quote := (apart c mem).2
        rw [same, h.1.1] at quote
        cases quote
      | _ => trivial

/-! ## The items of a query -/

/-- An item of a projection: a comma or a `FROM` only stands in parentheses, and those are
closed. -/
structure ItemTokens (ts : List Token) : Prop where
  reads : Reads ts []
  closed : Sealed 0 ts
  misses : Misses "FROM" 0 ts

/-- A query that starts with a projection.  There are no comments up to `FROM`. -/
structure Query where
  lead : List Char
  select : List Char
  /-- `DISTINCT`, and the white space behind it. -/
  distinct : Option (List Char × List Char)
  gap : List Char
  items : List (List Token)
  gap' : List Char
  from_ : List Char
  tail : List Char

namespace Query

/-- What stands between `SELECT` and the items. -/
def start (q : Query) : List Char :=
  match q.distinct with
  | none => q.gap
  | some (word, blanks) => q.gap ++ (word ++ blanks)

def behind (q : Query) : List Char := q.start ++ (listed q.items ++ (q.gap' ++ (q.from_ ++ q.tail)))

def text (q : Query) : List Char := q.lead ++ (q.select ++ q.behind)

/-- A word of ASCII letters that is the keyword in upper case. -/
def Spells (keyword : String) (w : List Char) : Prop :=
  toUpper w = keyword.toList ∧ ∀ c ∈ w, isSQLIdentifierByte c = true

structure Valid (q : Query) : Prop where
  lead : ∀ c ∈ q.lead, isWhite c = true
  select : Spells "SELECT" q.select
  distinct : ∀ d ∈ q.distinct, Spells "DISTINCT" d.1 ∧ (∀ c ∈ d.2, isWhite c = true) ∧
    ∀ c ∈ (d.2 ++ listed q.items).head?, isSQLIdentifierByte c = false
  gap : ∀ c ∈ q.gap, isWhite c = true
  gap' : q.gap' ≠ [] ∧ ∀ c ∈ q.gap', isWhite c = true
  from_ : Spells "FROM" q.from_
  tail : ∀ c ∈ q.tail.head?, isSQLIdentifierByte c = false
  nonempty : q.items ≠ [] ∧ listed q.items ≠ []
  items : ∀ ts ∈ q.items, ItemTokens ts
  trimmed : Trimmed (listed q.items)
  plain : q.distinct = none → ¬"DISTINCT".toList <+: toUpper (listed q.items)

end Query

theorem foldl_depthAfter (h : Sealed depth ts) : ts.foldl depthAfter depth = 0 := by
  induction ts generalizing depth with
  | nil => exact h
  | cons t ts ih => exact ih h.2

/-- The items are passed over. -/
theorem findAt_listed (h : ∀ ts ∈ items, ItemTokens ts)
    (apart : ∀ c ∈ rest.head?, isSQLIdentifierByte c = false ∧ isQuote c = false) :
    findAt "FROM" 0 (listed items ++ rest) = findAt "FROM" 0 rest := by
  have item (ts : List Token) (is : ItemTokens ts) (rest : List Char)
      (apart : ∀ c ∈ rest.head?, isSQLIdentifierByte c = false ∧ isQuote c = false) :
      findAt "FROM" 0 (render ts ++ rest) = findAt "FROM" 0 rest := by
    rw [findAt_tokens (is.reads.append apart) is.misses, foldl_depthAfter is.closed]
  induction items with
  | nil => rfl
  | cons ts items ih =>
    obtain ⟨here, there⟩ := forall_mem_cons.mp h
    cases items with
    | nil =>
      rw [listed, map_singleton, intercalate_singleton]
      exact item ts here rest apart
    | cons ts' items =>
      rw [listed, map_cons, map_cons, intercalate_cons_cons, ← map_cons,
        append_assoc, append_assoc, singleton_append]
      refine (item ts here _ fun c mem => ?_).trans ?_
      · cases Option.mem_some.mp mem
        decide
      · exact (findAt_token (t := .comma) trivial trivial (fun w is => by cases is)).trans
          (ih there)

theorem blank_of_isWhite (h : isWhite c = true) :
    isSQLIdentifierByte c = false ∧ isQuote c = false ∧ isSpace c = true ∧
      quiet c = true ∧ upperRune c = c ∧ c.utf8Size = 1 := by
  simp only [isWhite, Bool.or_eq_true, beq_iff_eq] at h
  rcases h with (((rfl | rfl) | rfl) | rfl) | rfl <;> decide

theorem findAt_white (h : ∀ c ∈ w, isWhite c = true) (rest : List Char) :
    findAt "FROM" 0 (w ++ rest) = findAt "FROM" 0 rest := by
  induction w with
  | nil => rfl
  | cons c w ih =>
    obtain ⟨here, there⟩ := forall_mem_cons.mp h
    obtain ⟨identifier, -, -, quiet, -⟩ := blank_of_isWhite here
    rw [cons_append, findAt_skip quiet fun both => ?_, ih there]
    rw [identifier] at both
    cases both.2

theorem Query.Spells.fold (h : Query.Spells keyword w)
    (letters : ∀ c ∈ keyword.toList, isUpper c = true ∧ c ≠ 'I' ∧ c ≠ 'K') :
    equalFold (String.ofList w) keyword = true := by
  rw [equalFold, String.toList_ofList, beq_iff_eq]
  exact (toUpper_eq_iff letters).mp h.1

theorem indexBytes_white {sub : List Char} {a : Char} (h : ∀ c ∈ w, isWhite c = true)
    (solid : isWhite a = false) : indexBytes (a :: sub) (w ++ (a :: sub ++ s)) = some w.length := by
  induction w with
  | nil =>
    have here : (a :: sub).isPrefixOf (a :: (sub ++ s)) = true :=
      isPrefixOf_iff_prefix.mpr ⟨s, rfl⟩
    rw [nil_append, cons_append, indexBytes, here, if_pos rfl]
    rfl
  | cons c w ih =>
    obtain ⟨here, there⟩ := forall_mem_cons.mp h
    have ne : (a :: sub).isPrefixOf (c :: (w ++ (a :: sub ++ s))) = false := by
      refine Bool.eq_false_iff.mpr fun starts => ?_
      obtain ⟨t, is⟩ := isPrefixOf_iff_prefix.mp starts
      obtain ⟨rfl, -⟩ := List.cons.inj is
      rw [here] at solid
      cases solid
    rw [cons_append, indexBytes, ne, if_neg Bool.false_ne_true, ih there,
      (blank_of_isWhite here).2.2.2.2.2]
    rfl

theorem dropBytes_ascii (h : ∀ c ∈ w, c.utf8Size = 1) (s : List Char) :
    dropBytes w.length (w ++ s) = s := by
  induction w with
  | nil =>
    rw [nil_append]
    cases s <;> rfl
  | cons c w ih =>
    obtain ⟨here, there⟩ := forall_mem_cons.mp h
    rw [cons_append, length_cons, dropBytes, here, Nat.add_sub_cancel, ih there]

theorem identifier_range (h : isSQLIdentifierByte c = true) :
    c.toNat < 128 ∧ isSpace c = false := by
  have range : 48 ≤ c.toNat ∧ c.toNat ≤ 122 := by
    have le (a b : Char) (low : 48 ≤ a.toNat) (high : b.toNat ≤ 122)
        (is : (decide (a ≤ c) && decide (c ≤ b)) = true) : 48 ≤ c.toNat ∧ c.toNat ≤ 122 := by
      obtain ⟨left, right⟩ := Bool.and_eq_true_iff.mp is
      have left : a.toNat ≤ c.toNat := of_decide_eq_true left
      have right : c.toNat ≤ b.toNat := of_decide_eq_true right
      omega
    simp only [isSQLIdentifierByte, Bool.or_eq_true, beq_iff_eq] at h
    rcases h with ((rfl | lower) | upper) | digit
    · decide
    · exact le 'a' 'z' (by decide) (by decide) lower
    · exact le 'A' 'Z' (by decide) (by decide) upper
    · exact le '0' '9' (by decide) (by decide) digit
  refine ⟨by omega, Bool.eq_false_iff.mpr fun space => ?_⟩
  have := toNat_of_isSpace space
  omega

theorem utf8Size_identifier (h : isSQLIdentifierByte c = true) : c.utf8Size = 1 := by
  have small := (identifier_range h).1
  rw [Char.utf8Size, if_pos]
  refine UInt32.le_iff_toNat_le.mpr ?_
  show c.toNat ≤ 127
  omega

theorem isSpace_upperRune (c : Char) : isSpace (upperRune c) = isSpace c := by
  rw [upperRune]
  split
  next lower =>
    have letters : ∀ n < 26, isSpace (Char.ofNat (65 + n)) = false ∧
        isSpace (Char.ofNat (97 + n)) = false := by decide
    obtain ⟨low, high⟩ := Bool.and_eq_true_iff.mp lower
    have low : 97 ≤ c.toNat := of_decide_eq_true low
    have high : c.toNat ≤ 122 := of_decide_eq_true high
    obtain ⟨up, down⟩ := letters (c.toNat - 97) (by omega)
    rw [show 65 + (c.toNat - 97) = c.toNat - 32 by omega] at up
    rw [show 97 + (c.toNat - 97) = c.toNat by omega, Char.ofNat_toNat] at down
    rw [up, down]
  · split
    next is =>
      subst is
      decide
    · split
      next is =>
        subst is
        decide
      · rfl

theorem trimmed_toUpper (h : Trimmed s) : Trimmed (toUpper s) := by
  obtain ⟨first, last⟩ := h
  constructor
  · intro c mem
    rw [toUpper, head?_map] at mem
    obtain ⟨d, there, rfl⟩ := Option.mem_map.mp mem
    rw [isSpace_upperRune]
    exact first d there
  · intro c mem
    rw [toUpper, getLast?_map] at mem
    obtain ⟨d, there, rfl⟩ := Option.mem_map.mp mem
    rw [isSpace_upperRune]
    exact last d there

theorem toUpper_white (h : ∀ c ∈ w, isWhite c = true) : toUpper w = w :=
  (map_congr_left fun c mem => (blank_of_isWhite (h c mem)).2.2.2.2.1).trans (map_id _)

theorem toUpper_listed (h : ∀ ts ∈ items, ItemTokens ts) :
    toUpper (listed items) = listed (items.map (List.map Token.upper)) := by
  induction items with
  | nil => rfl
  | cons ts items ih =>
    obtain ⟨here, there⟩ := forall_mem_cons.mp h
    have first : render (ts.map Token.upper) = toUpper (render ts) :=
      render_upper here.reads.valid
    cases items with
    | nil =>
      rw [listed, map_singleton, intercalate_singleton, listed, map_singleton,
        map_singleton, intercalate_singleton, first]
    | cons ts' items =>
      have rest := ih there
      simp only [listed, map_cons, intercalate_cons_cons, toUpper, map_append] at rest first ⊢
      rw [rest, first]
      rfl

/-- The items of a list in upper case. -/
theorem splitTopLevelSQLList_listed (ne : items ≠ []) (h : ∀ ts ∈ items, ItemTokens ts) :
    splitTopLevelSQLList (toUpper (listed items)) = items.map fun ts => toUpper (render ts) := by
  rw [toUpper_listed h]
  rw [splitTopLevelSQLList, splitTop_eq (Nat.lt_succ_self _)]
  refine (splitAt_listed (by simpa using ne) (fun ts mem => ?_) fun ts mem => ?_).trans ?_
  · obtain ⟨us, there, rfl⟩ := mem_map.mp mem
    exact forall_mem_map.mpr fun u mem => Token.quiet_upper ((h us there).reads.valid u mem)
  · obtain ⟨us, there, rfl⟩ := mem_map.mp mem
    exact sealed_upper (h us there).closed
  · rw [map_map]
    exact map_congr_left fun ts mem => render_upper (h ts mem).reads.valid

section

variable {q : Query}

section

variable (h : Query.Spells keyword w)

include h

theorem Query.Spells.length : w.length = keyword.toList.length := by
  rw [← h.1, toUpper, length_map]

theorem Query.Spells.ne_nil (ne : keyword.toList ≠ []) : w ≠ [] := by
  rintro rfl
  exact ne h.1.symm

theorem Query.Spells.head : ∀ c ∈ w.head?, isSpace c = false := by
  intro c mem
  have identifier := h.2 c (mem_of_mem_head? mem)
  exact (identifier_range identifier).2

end

/-- The server starts to read behind `SELECT`. -/
theorem Query.Valid.select_eq (h : q.Valid) :
    ∃ at_, indexBytes "SELECT".toList (toUpper q.text) = some at_ ∧
      dropBytes (at_ + 6) q.text = q.behind := by
  have bytes : ∀ c ∈ q.lead ++ q.select, c.utf8Size = 1 := by
    intro c mem
    rcases mem_append.mp mem with white | letter
    · exact (blank_of_isWhite (h.lead c white)).2.2.2.2.2
    · exact utf8Size_identifier (h.select.2 c letter)
  have six : q.select.length = 6 := h.select.length
  refine ⟨q.lead.length, ?_, ?_⟩
  · have upper : toUpper q.text =
        q.lead ++ ('S' :: "ELECT".toList ++ toUpper q.behind) := by
      rw [Query.text, toUpper, map_append, map_append]
      exact congrArg₂ (· ++ ·) (toUpper_white h.lead) (congrArg (· ++ _) h.select.1)
    rw [upper]
    exact indexBytes_white h.lead (by decide)
  · have cut := dropBytes_ascii bytes q.behind
    rwa [length_append, six, append_assoc] at cut

/-- It reads up to `FROM`. -/
theorem Query.Valid.from_eq (h : q.Valid) :
    findTopLevelSQLKeyword q.behind "FROM" = some (q.from_ ++ q.tail) := by
  have apart : ∀ c ∈ (q.gap' ++ (q.from_ ++ q.tail)).head?,
      isSQLIdentifierByte c = false ∧ isQuote c = false := by
    obtain ⟨ne, white⟩ := h.gap'
    obtain ⟨a, gap, is⟩ := exists_cons_of_ne_nil ne
    intro c mem
    rw [is, cons_append] at mem
    cases Option.mem_some.mp mem
    have blank := blank_of_isWhite (white a (by rw [is]; exact mem_cons_self))
    exact ⟨blank.1, blank.2.1⟩
  have items : findAt "FROM" 0 (listed q.items ++ (q.gap' ++ (q.from_ ++ q.tail))) =
      findAt "FROM" 0 (q.from_ ++ q.tail) := by
    rw [findAt_listed h.items apart, findAt_white h.gap'.2]
  have start : findAt "FROM" 0 q.behind =
      findAt "FROM" 0 (listed q.items ++ (q.gap' ++ (q.from_ ++ q.tail))) := by
    rw [Query.behind, Query.start]
    cases is : q.distinct with
    | none => exact findAt_white h.gap _
    | some d =>
      obtain ⟨word, blanks⟩ := d
      obtain ⟨spells, white, ends⟩ := h.distinct _ is
      have other : equalFold (String.ofList word) "FROM" = false := by
        refine Bool.eq_false_iff.mpr fun same => ?_
        have lengths := congrArg List.length (beq_iff_eq.mp same)
        rw [length_map, length_map, String.toList_ofList, spells.length] at lengths
        revert lengths
        decide
      have word_ : findAt "FROM" 0 (word ++ (blanks ++ (listed q.items ++
          (q.gap' ++ (q.from_ ++ q.tail))))) = findAt "FROM" 0 (blanks ++ (listed q.items ++
            (q.gap' ++ (q.from_ ++ q.tail)))) := by
        refine findAt_token (t := .word word) ⟨spells.ne_nil (by decide), spells.2⟩ ?_ ?_
        · intro c mem
          refine ends c ?_
          cases blanks with
          | cons b blanks => exact mem
          | nil =>
            cases listing : listed q.items with
            | nil => exact absurd listing h.nonempty.2
            | cons a l =>
              rw [listing] at mem
              exact mem
        · intro w same _
          cases same
          exact other
      simp only [append_assoc]
      rw [findAt_white h.gap, word_, findAt_white white]
  rw [findTopLevelSQLKeyword, findTop_eq (Nat.lt_succ_self _), start, items,
    findAt_word (h.from_.ne_nil (by decide)) h.from_.2 h.tail,
    if_pos (h.from_.fold (all_iff_forall_prop.mp (by decide)))]

/-- The list of items, in upper case, is what is left of the projection. -/
theorem Query.Valid.list_eq (h : q.Valid) :
    let upper := toUpper (trimSpace (q.start ++ (listed q.items ++ q.gap')))
    trimSpace (if "DISTINCT".toList.isPrefixOf upper then
      upper.drop "DISTINCT".toList.length else upper) = toUpper (listed q.items) := by
  have spaces {w : List Char} (white : ∀ c ∈ w, isWhite c = true) :
      ∀ c ∈ w, isSpace c = true := fun c mem => (blank_of_isWhite (white c mem)).2.2.1
  have upper := trimmed_toUpper h.trimmed
  rw [Query.start]
  cases is : q.distinct with
  | none =>
    have other : "DISTINCT".toList.isPrefixOf (toUpper (listed q.items)) = false := by
      refine Bool.eq_false_iff.mpr fun starts => ?_
      exact h.plain is ( isPrefixOf_iff_prefix.mp starts)
    simp only [trimSpace_append (spaces h.gap) h.trimmed (spaces h.gap'.2), other,
      Bool.false_eq_true, if_false, trimSpace_of_trimmed upper]
  | some d =>
    obtain ⟨word, blanks⟩ := d
    obtain ⟨spells, white, -⟩ := h.distinct _ is
    have whole : Trimmed (word ++ (blanks ++ listed q.items)) := by
      constructor
      · intro c mem
        obtain ⟨a, w, rfl⟩ := exists_cons_of_ne_nil (spells.ne_nil (by decide))
        rw [spells.head c mem]
        exact Bool.false_ne_true
      · intro c mem
        rw [getLast?_append_of_ne_nil _ (by simp [h.nonempty.2]),
          getLast?_append_of_ne_nil _ h.nonempty.2] at mem
        exact h.trimmed.2 c mem
    have trimmed : trimSpace (q.gap ++ (word ++ blanks) ++ (listed q.items ++ q.gap')) =
        word ++ (blanks ++ listed q.items) := by
      rw [← trimSpace_append (spaces h.gap) whole (spaces h.gap'.2)]
      simp only [append_assoc]
    have text : toUpper (word ++ (blanks ++ listed q.items)) =
        "DISTINCT".toList ++ (blanks ++ toUpper (listed q.items)) := by
      rw [toUpper, map_append, map_append]
      exact congrArg₂ (· ++ ·) spells.1 (congrArg (· ++ _) (toUpper_white white))
    have starts : "DISTINCT".toList.isPrefixOf
        ("DISTINCT".toList ++ (blanks ++ toUpper (listed q.items))) = true :=
      isPrefixOf_iff_prefix.mpr (prefix_append _ _)
    simp only [trimmed, text, starts, if_true, drop_left]
    have blank := trimSpace_append (r := []) (spaces white) upper
      fun c mem => absurd mem not_mem_nil
    rwa [append_nil] at blank

/-- **The items that the server finds are those of the query.** -/
theorem Query.Valid.projectionItems_eq (h : q.Valid) :
    projectionItems q.text = q.items.map fun ts => trimSpace (toUpper (render ts)) := by
  obtain ⟨at_, found, dropped⟩ := h.select_eq
  have taken : q.behind.take (q.behind.length - (q.from_ ++ q.tail).length) =
      q.start ++ (listed q.items ++ q.gap') := by
    have split : q.behind = (q.start ++ (listed q.items ++ q.gap')) ++ (q.from_ ++ q.tail) := by
      simp only [Query.behind, append_assoc]
    rw [split, length_append, Nat.add_sub_cancel, take_left]
  have list := h.list_eq
  rw [projectionItems, found]
  simp only [dropped, h.from_eq, Option.getD_some, taken] at list ⊢
  rw [list, splitTopLevelSQLList_listed h.nonempty.1 h.items, map_map]
  rfl

/-- The pseudocolumn that the tokens of an item name. -/
def itemDirect (ts : List Token) : Option Pseudo :=
  directOf (trimSpace (toUpper (render ts)))

theorem Query.Valid.counts_eq (h : q.Valid) (w : Pseudo) :
    directPseudocolumnProjectionCounts q.text w = (q.items.filterMap itemDirect).count w := by
  rw [directPseudocolumnProjectionCounts, h.projectionItems_eq, countP_map, List.count,
    countP_filterMap]
  refine countP_congr fun ts _ => ?_
  rw [Function.comp_apply, itemDirect]
  generalize directOf (trimSpace (toUpper (render ts))) = direct
  cases direct with
  | none => simp
  | some x => simp

end

end LocaQL.Sql
