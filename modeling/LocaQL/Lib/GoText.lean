import Mathlib.Algebra.Order.Ring.Int
import Mathlib.Data.Bool.AllAny
import Mathlib.Data.List.DropRight

/-!
# Text as Go handles it

Functions of Go's `strings` and `unicode` packages on lists of characters, with
versions on strings where a caller has a string.

Upper and lower case are given on the characters whose other case is ASCII: the
ASCII letters, `ı` and `ſ` upwards, `İ` and the Kelvin sign downwards.  Folding
identifies the ASCII letters with their case variants, the long s and the Kelvin
sign.  Every other character is left alone.
-/

namespace GoText

open List

/-- `unicode.IsSpace`. -/
def isSpace (c : Char) : Bool :=
  c ∈ ['\t', '\n', '\x0b', '\x0c', '\r', ' ', '\x85', '\xa0', '\u1680', '\u2028', '\u2029',
    '\u202f', '\u205f', '\u3000'] || ('\u2000' ≤ c && c ≤ '\u200a')

def trimLeft (s : List Char) : List Char := s.dropWhile isSpace

def trimRight (s : List Char) : List Char := (s.reverse.dropWhile isSpace).reverse

/-- `strings.TrimSpace`. -/
def trimSpace (s : List Char) : List Char := trimRight (trimLeft s)

/-- `strings.TrimSuffix` of one character. -/
def trimSuffixChar (s : List Char) (c : Char) : List Char :=
  if s.getLast? = some c then s.dropLast else s

/-- The text behind the first occurrence of `sub`, as `strings.Index` finds it. -/
def cutAfter (sub : List Char) : List Char → Option (List Char)
  | [] => if sub.isEmpty then some [] else none
  | a :: s => if sub.isPrefixOf (a :: s) then some ((a :: s).drop sub.length) else cutAfter sub s

/-- `strings.Trim` of one character. -/
def trimChar (s : List Char) (c : Char) : List Char :=
  ((s.dropWhile (· == c)).reverse.dropWhile (· == c)).reverse

/-- The text behind its first `n` bytes. -/
def dropBytes : Nat → List Char → List Char
  | 0, s => s
  | _ + 1, [] => []
  | n + 1, c :: s => dropBytes (n + 1 - c.utf8Size) s

def isLower (c : Char) : Bool := 'a' ≤ c && c ≤ 'z'

def isUpper (c : Char) : Bool := 'A' ≤ c && c ≤ 'Z'

/-- `unicode.ToUpper` where the result is ASCII. -/
def upperRune (c : Char) : Char :=
  if isLower c then Char.ofNat (c.toNat - 32)
  else if c = '\u0131' then 'I'
  else if c = '\u017f' then 'S'
  else c

/-- `unicode.ToLower` where the result is ASCII. -/
def lowerRune (c : Char) : Char :=
  if isUpper c then Char.ofNat (c.toNat + 32)
  else if c = '\u0130' then 'i'
  else if c = '\u212a' then 'k'
  else c

/-- A representative of the characters `c` folds to. -/
def foldRune (c : Char) : Char :=
  if isUpper c then Char.ofNat (c.toNat + 32)
  else if c = '\u017f' then 's'
  else if c = '\u212a' then 'k'
  else c

/-- `strings.ToUpper`. -/
def toUpper (s : List Char) : List Char := s.map upperRune

/-- `strings.ToLower`. -/
def toLower (s : List Char) : List Char := s.map lowerRune

/-! ## On strings -/

def trimSpaceStr (s : String) : String := String.ofList (trimSpace s.toList)

def toUpperStr (s : String) : String := String.ofList (toUpper s.toList)

/-- `strings.EqualFold`. -/
def equalFold (s t : String) : Bool := s.toList.map foldRune == t.toList.map foldRune

def hasPrefixStr (s pre : String) : Bool := pre.toList.isPrefixOf s.toList

/-- `strings.TrimPrefix`. -/
def trimPrefixStr (s pre : String) : String :=
  if hasPrefixStr s pre then String.ofList (s.toList.drop pre.toList.length) else s

/-- One character inside `%q`.  Characters beyond ASCII are taken to be printable. -/
def quoteRune (c : Char) : List Char :=
  let hex (n : Nat) : Char := if n < 10 then Char.ofNat (n + 48) else Char.ofNat (n + 87)
  if c == '"' then ['\\', '"']
  else if c == '\\' then ['\\', '\\']
  else if c == '\x07' then ['\\', 'a']
  else if c == '\x08' then ['\\', 'b']
  else if c == '\x0c' then ['\\', 'f']
  else if c == '\n' then ['\\', 'n']
  else if c == '\r' then ['\\', 'r']
  else if c == '\t' then ['\\', 't']
  else if c == '\x0b' then ['\\', 'v']
  else if c.toNat < 32 || c.toNat == 127 then
    ['\\', 'x', hex (c.toNat / 16), hex (c.toNat % 16)]
  else [c]

/-- The verb `%q`. -/
def quote (s : String) : String := String.ofList ('"' :: s.toList.flatMap quoteRune ++ ['"'])

/-- `strconv.ParseInt(s, 10, 64)`; `none` stands for its error. -/
def parseInt64 (s : List Char) : Option Int64 :=
  let isDigit (c : Char) : Bool := '0' ≤ c && c ≤ '9'
  let negative := s.head? == some '-'
  let ds := if negative || s.head? == some '+' then s.tail else s
  if ds.isEmpty || !ds.all isDigit then none
  else
    let n : Int := ds.foldl (fun n c => n * 10 + (c.toNat - 48)) 0
    let n := if negative then -n else n
    if -(2 ^ 63) ≤ n && n < 2 ^ 63 then some (Int64.ofInt n) else none

/-- Where a text is cut at the first occurrence of a separator. -/
theorem cut_unique {α : Type} {x : α} {as as' bs bs' : List α} (h : x ∉ as) (h' : x ∉ as')
    (eq : as ++ x :: bs = as' ++ x :: bs') : as = as' ∧ bs = bs' := by
  induction as generalizing as' with
  | nil =>
    cases as' with
    | nil => exact ⟨rfl, (List.cons.inj eq).2⟩
    | cons a as' => exact absurd ((List.cons.inj eq).1 ▸ mem_cons_self) h'
  | cons a as ih =>
    cases as' with
    | nil => exact absurd ((List.cons.inj eq).1 ▸ mem_cons_self) h
    | cons a' as' =>
      obtain ⟨rfl, tails⟩ := List.cons.inj eq
      obtain ⟨rfl, rest⟩ := ih (not_mem_of_not_mem_cons h)
        (not_mem_of_not_mem_cons h') tails
      exact ⟨rfl, rest⟩

/-! ## Characters -/

variable {c : Char} {n : Nat} {s sub : List Char}

theorem isLower_iff : isLower c ↔ 97 ≤ c.toNat ∧ c.toNat ≤ 122 := by
  rw [isLower, Bool.and_eq_true, decide_eq_true_eq, decide_eq_true_eq]
  exact Iff.rfl

theorem isUpper_iff : isUpper c ↔ 65 ≤ c.toNat ∧ c.toNat ≤ 90 := by
  rw [isUpper, Bool.and_eq_true, decide_eq_true_eq, decide_eq_true_eq]
  exact Iff.rfl

/-- A character that is no capital letter and no variant of one folds to itself. -/
theorem foldRune_eq_self (upper : isUpper c = false) (hs : c ≠ '\u017f') (hk : c ≠ 'K') :
    foldRune c = c := by
  rw [foldRune, upper, if_neg Bool.false_ne_true, if_neg hs, if_neg hk]

theorem toNat_ofNat_lt (h : n < 0xd800) : (Char.ofNat n).toNat = n := by
  rw [Char.ofNat, dif_pos (.inl h)]
  rfl

theorem isLower_foldRune_of_isUpper (h : isUpper c) : isLower (foldRune c) := by
  have bounds := isUpper_iff.mp h
  rw [foldRune, if_pos h, isLower_iff, toNat_ofNat_lt (by omega)]
  omega

theorem foldRune_of_isLower (h : isLower c) : foldRune c = c := by
  have bounds := isLower_iff.mp h
  refine foldRune_eq_self ?_ ?_ ?_
  · rw [Bool.eq_false_iff]
    intro upper
    have := isUpper_iff.mp upper
    omega
  · rintro rfl
    revert bounds; decide
  · rintro rfl
    revert bounds; decide

theorem toNat_of_isSpace (h : isSpace c) : c.toNat ≤ 32 ∨ 133 ≤ c.toNat := by
  rw [isSpace, Bool.or_eq_true, decide_eq_true_eq] at h
  rcases h with mem | range
  · simp only [mem_cons, not_mem_nil, or_false] at mem
    rcases mem with rfl | rfl | rfl | rfl | rfl | rfl | rfl | rfl | rfl | rfl | rfl | rfl | rfl | rfl
      <;> decide
  · rw [Bool.and_eq_true, decide_eq_true_eq, decide_eq_true_eq] at range
    have low : 8192 ≤ c.toNat := range.1
    omega

/-- A space is no letter and no variant of one. -/
theorem isLower_foldRune_of_isSpace (h : isSpace c) : isLower (foldRune c) = false := by
  have code := toNat_of_isSpace h
  have upper : isUpper c = false := by
    rw [Bool.eq_false_iff, Ne, isUpper_iff]
    omega
  have lower : isLower c = false := by
    rw [Bool.eq_false_iff, Ne, isLower_iff]
    omega
  rwa [foldRune_eq_self upper (by rintro rfl; exact absurd h (by decide))
    (by rintro rfl; exact absurd h (by decide))]

/-! ## Case -/

theorem isSpace_foldRune (c : Char) : isSpace (foldRune c) = isSpace c := by
  rw [foldRune]
  split_ifs with upper hs hk
  · have lower := isLower_foldRune_of_isUpper upper
    rw [foldRune, if_pos upper] at lower
    have space : isSpace (Char.ofNat (c.toNat + 32)) = false := by
      rw [Bool.eq_false_iff]
      intro space
      have := toNat_of_isSpace space
      have := isLower_iff.mp lower
      omega
    have space' : isSpace c = false := by
      rw [Bool.eq_false_iff]
      intro space
      have := toNat_of_isSpace space
      have := isUpper_iff.mp upper
      omega
    rw [space, space']
  · subst hs
    decide
  · subst hk
    decide
  · rfl

/-- Folding does not change where a text is trimmed. -/
theorem trimSpace_map_foldRune (s : List Char) :
    trimSpace (s.map foldRune) = (trimSpace s).map foldRune := by
  have same : isSpace ∘ foldRune = isSpace := funext isSpace_foldRune
  simp only [trimSpace, trimRight, trimLeft, dropWhile_map, same, ← map_reverse]

theorem ofNat_upper (h : isUpper c) :
    isLower (Char.ofNat (c.toNat + 32)) ∧ Char.ofNat ((Char.ofNat (c.toNat + 32)).toNat - 32) = c := by
  have bounds := isUpper_iff.mp h
  rw [isLower_iff, toNat_ofNat_lt (by omega), Nat.add_sub_cancel, Char.ofNat_toNat]
  exact ⟨by omega, rfl⟩

theorem ofNat_lower (h : isLower c) :
    isUpper (Char.ofNat (c.toNat - 32)) ∧ Char.ofNat ((Char.ofNat (c.toNat - 32)).toNat + 32) = c := by
  have bounds := isLower_iff.mp h
  rw [isUpper_iff, toNat_ofNat_lt (by omega), Nat.sub_add_cancel (by omega), Char.ofNat_toNat]
  exact ⟨by omega, rfl⟩

/-- A capital letter has the same variants upwards and by folding, but for `I` and `K`. -/
theorem upperRune_eq_iff {k : Char} (upper : isUpper k) (hi : k ≠ 'I') (hk : k ≠ 'K') :
    upperRune c = k ↔ foldRune c = foldRune k := by
  obtain ⟨lower, back⟩ := ofNat_upper upper
  have foldk : foldRune k = Char.ofNat (k.toNat + 32) := by rw [foldRune, if_pos upper]
  constructor
  · intro eq
    rw [upperRune] at eq
    split_ifs at eq with low dotless long
    · obtain ⟨up, fold⟩ := ofNat_lower low
      rw [← eq, foldRune_of_isLower low, foldRune, if_pos up, fold]
    · exact absurd eq.symm hi
    · rw [long, ← eq]
      decide
    · rw [eq]
  · intro eq
    rw [foldk, foldRune] at eq
    split_ifs at eq with up long kelvin
    · have same : c = k := by rw [← (ofNat_upper up).2, eq, back]
      have bounds := isUpper_iff.mp up
      have notLower : isLower c = false := by
        rw [Bool.eq_false_iff, Ne, isLower_iff]
        omega
      rw [upperRune, notLower, if_neg Bool.false_ne_true, if_neg, if_neg, same]
      · rintro rfl
        exact absurd up (by decide)
      · rintro rfl
        exact absurd up (by decide)
    · rw [← eq] at back
      rw [long, ← back]
      decide
    · rw [← eq] at back
      exact absurd back.symm hk
    · rw [← eq] at lower back
      rw [upperRune, if_pos lower, back]

/-- The texts that upper to a word are those that fold like it. -/
theorem toUpper_eq_iff {k : List Char} (hk : ∀ c ∈ k, isUpper c ∧ c ≠ 'I' ∧ c ≠ 'K') :
    toUpper s = k ↔ s.map foldRune = k.map foldRune := by
  induction s generalizing k with
  | nil => cases k <;> simp [toUpper]
  | cons a s ih =>
    cases k with
    | nil => simp [toUpper]
    | cons b k =>
      obtain ⟨⟨upper, hi, hk'⟩, rest⟩ := forall_mem_cons.mp hk
      have tail := ih rest
      rw [toUpper] at tail ⊢
      simp only [map_cons, List.cons.injEq, upperRune_eq_iff upper hi hk', tail]

theorem foldRune_eq_dotless (h : foldRune c = '\u0131') : c = '\u0131' := by
  rw [foldRune] at h
  split_ifs at h with up long kelvin
  · have lower := (ofNat_upper up).1
    rw [h] at lower
    exact absurd lower (by decide)
  · exact absurd h (by decide)
  · exact absurd h (by decide)
  · exact h

/-- The characters above `I` are those that fold like it, and the dotless one. -/
theorem upperRune_eq_I : upperRune c = 'I' ↔ foldRune c = 'i' ∨ foldRune c = '\u0131' := by
  constructor
  · intro up
    rw [upperRune] at up
    split_ifs at up with low dotless long
    · left
      rw [foldRune_of_isLower low]
      have back := (ofNat_lower low).2
      rw [up] at back
      rw [← back]
      decide
    · right
      rw [dotless]
      decide
    · exact absurd up (by decide)
    · left
      rw [up]
      decide
  · intro fold
    rcases fold with fold | fold
    · rw [foldRune] at fold
      split_ifs at fold with up long kelvin
      · have back := (ofNat_upper up).2
        rw [fold] at back
        rw [← back]
        decide
      · exact absurd fold (by decide)
      · exact absurd fold (by decide)
      · rw [fold]
        decide
    · rw [foldRune_eq_dotless fold]
      decide

/-- Texts that fold alike are the same word in capitals, but for the Kelvin sign. -/
theorem toUpper_eq_of_fold {t k : List Char} (hk : ∀ c ∈ k, isUpper c ∧ c ≠ 'K')
    (fold : s.map foldRune = t.map foldRune) (h : toUpper s = k) : toUpper t = k := by
  induction s generalizing t k with
  | nil =>
    cases t with
    | nil => exact h
    | cons b t => cases fold
  | cons a s ih =>
    cases t with
    | nil => cases fold
    | cons b t =>
      obtain ⟨fold, folds⟩ := List.cons.inj fold
      simp only [toUpper, map_cons] at h ih ⊢
      subst h
      obtain ⟨⟨upper, ne⟩, rest⟩ := forall_mem_cons.mp hk
      have head : upperRune b = upperRune a := by
        by_cases hi : upperRune a = 'I'
        · have up := upperRune_eq_I.mp hi
          rw [fold] at up
          rw [hi, upperRune_eq_I.mpr up]
        · rw [upperRune_eq_iff upper hi ne, ← fold]
          exact (upperRune_eq_iff upper hi ne).mp rfl
      rw [head, ih rest folds rfl]

/-! ## Trimming -/

/-- A text without white space at either end. -/
def Trimmed (s : List Char) : Prop :=
  (∀ c ∈ s.head?, ¬isSpace c) ∧ (∀ c ∈ s.getLast?, ¬isSpace c)

/-- The end of a trimmed text that has one is trimmed too. -/
theorem Trimmed.of_append {t : List Char} (h : Trimmed (s ++ t)) (ne : t ≠ []) :
    ∀ c ∈ t.getLast?, ¬isSpace c := fun c hc =>
  h.2 c (by rw [getLast?_append_of_ne_nil s ne]; exact hc)

theorem dropWhile_isSpace {l : List Char} (spaces : ∀ c ∈ l, isSpace c)
    (head : ∀ c ∈ s.head?, ¬isSpace c) : (l ++ s).dropWhile isSpace = s := by
  rw [dropWhile_append_of_pos spaces]
  cases s with
  | nil => rfl
  | cons c s => exact dropWhile_cons_of_neg (head c rfl)

theorem trimRight_append {r : List Char} (spaces : ∀ c ∈ r, isSpace c)
    (last : ∀ c ∈ s.getLast?, ¬isSpace c) : trimRight (s ++ r) = s := by
  rw [trimRight, reverse_append, dropWhile_isSpace (fun c h => spaces c (mem_reverse.mp h))
    (by rwa [head?_reverse]), reverse_reverse]

/-- Trimming removes the white space around a trimmed text. -/
theorem trimSpace_append {l r : List Char} (left : ∀ c ∈ l, isSpace c) (h : Trimmed s)
    (right : ∀ c ∈ r, isSpace c) : trimSpace (l ++ (s ++ r)) = s := by
  by_cases ne : s = []
  · subst ne
    rw [trimSpace, trimLeft, nil_append, dropWhile_eq_nil_iff.mpr]
    · rfl
    · exact fun c hc => (mem_append.mp hc).elim (left c) (right c)
  · rw [trimSpace, trimLeft, dropWhile_isSpace left, trimRight_append right h.2]
    rw [head?_append_of_ne_nil _ ne]
    exact h.1

theorem trimSpace_of_trimmed (h : Trimmed s) : trimSpace s = s := by
  simpa using trimSpace_append (l := []) (r := []) nofun h nofun

/-- A text is what trimming leaves of it, between white space. -/
theorem trimSpace_spec (s : List Char) : ∃ l r, s = l ++ (trimSpace s ++ r) ∧
    (∀ c ∈ l, isSpace c) ∧ (∀ c ∈ r, isSpace c) ∧ Trimmed (trimSpace s) := by
  have dropped : trimSpace s = (s.dropWhile isSpace).rdropWhile isSpace := rfl
  obtain ⟨r, hr⟩ := rdropWhile_prefix isSpace (s.dropWhile isSpace)
  refine ⟨s.takeWhile isSpace, r, ?_, fun c => mem_takeWhile_imp, ?_, ?_, ?_⟩
  · rw [dropped, hr, takeWhile_append_dropWhile]
  · have split := rdropWhile_append_rtakeWhile (p := isSpace) (l := s.dropWhile isSpace)
    rw [append_cancel_left (hr.trans split.symm)]
    exact fun c => mem_rtakeWhile_imp
  · intro c hc
    have head : (s.dropWhile isSpace).head? = some c := by
      rw [← hr, head?_append_of_ne_nil _ (by rintro eq; rw [dropped, eq] at hc; cases hc)]
      exact hc
    have not := head?_dropWhile_not isSpace s
    rw [head] at not
    simpa using not
  · intro c hc
    have ne : (s.dropWhile isSpace).rdropWhile isSpace ≠ [] := by
      intro eq
      rw [dropped, eq] at hc
      cases hc
    have last := rdropWhile_last_not isSpace (s.dropWhile isSpace) ne
    rw [dropped, getLast?_eq_getLast_of_ne_nil ne] at hc
    cases hc
    exact last

/-- Trimming leaves nothing exactly of white space. -/
theorem trimSpace_eq_nil_iff (s : List Char) : trimSpace s = [] ↔ ∀ c ∈ s, isSpace c := by
  constructor
  · intro empty
    obtain ⟨l, r, split, left, right, -⟩ := trimSpace_spec s
    intro c mem
    rw [split, empty, nil_append, mem_append] at mem
    exact mem.elim (left c) (right c)
  · intro spaces
    have dropped : s.dropWhile isSpace = [] := dropWhile_eq_nil_iff.mpr spaces
    show (s.dropWhile isSpace).rdropWhile isSpace = []
    rw [dropped]
    rfl

/-- Trimming leaves something of a text that is not all white space. -/
theorem trimSpaceStr_ne_of_mem {s : String} (mem : c ∈ s.toList) (solid : isSpace c = false) :
    trimSpaceStr s ≠ "" := by
  intro empty
  rw [trimSpaceStr, String.ofList_eq_empty_iff, trimSpace_eq_nil_iff] at empty
  have space := empty c mem
  rw [solid] at space
  cases space

theorem trimmed_trimSpace (s : List Char) : Trimmed (trimSpace s) :=
  (trimSpace_spec s).choose_spec.choose_spec.2.2.2

/-! ## Cutting -/

theorem cutAfter_cons {a : Char} :
    cutAfter sub (a :: s) =
      if sub.isPrefixOf (a :: s) then some ((a :: s).drop sub.length) else cutAfter sub s := rfl

theorem cutAfter_some {rest : List Char} (h : cutAfter sub s = some rest) :
    ∃ pre, s = pre ++ (sub ++ rest) := by
  induction s with
  | nil =>
    rw [cutAfter] at h
    split at h
    · obtain rfl := Option.some.inj h
      exact ⟨[], by simpa using ‹sub.isEmpty›⟩
    · cases h
  | cons a s ih =>
    rw [cutAfter_cons] at h
    split at h
    next pre =>
      obtain rfl := Option.some.inj h
      exact ⟨[], (prefix_iff_eq_append.mp ( isPrefixOf_iff_prefix.mp pre)).symm⟩
    · obtain ⟨pre, rfl⟩ := ih h
      exact ⟨a :: pre, rfl⟩

/-- The first occurrence stays where it is when the text goes on. -/
theorem cutAfter_append {rest : List Char} (h : cutAfter sub s = some rest) (ne : sub ≠ [])
    (e : List Char) : cutAfter sub (s ++ e) = some (rest ++ e) := by
  induction s with
  | nil => simp [cutAfter, ne] at h
  | cons a s ih =>
    rw [cutAfter_cons] at h
    rw [cons_append, cutAfter_cons]
    split at h
    next pre =>
      have pre := isPrefixOf_iff_prefix.mp pre
      have longer : sub <+: a :: (s ++ e) := pre.trans (prefix_append (a :: s) e)
      obtain rfl := Option.some.inj h
      rw [if_pos ( isPrefixOf_iff_prefix.mpr longer), ← cons_append,
        drop_append_of_le_length pre.length_le]
    next no =>
      obtain ⟨pre, rfl⟩ := cutAfter_some h
      rw [if_neg, ih h]
      intro longer
      have longer := isPrefixOf_iff_prefix.mp longer
      refine no ( isPrefixOf_iff_prefix.mpr ?_)
      refine prefix_of_prefix_length_le longer (prefix_append (a :: _) e) ?_
      simp only [length_cons, length_append]
      omega

/-- A text that goes on without a character of `sub` has no new occurrence. -/
theorem cutAfter_append_none {e : List Char} (h : cutAfter sub s = none) (fresh : ∀ c ∈ sub, c ∉ e)
    (ne : sub ≠ []) : cutAfter sub (s ++ e) = none := by
  -- an occurrence that `s` does not have would reach into `e`
  have inside {x : List Char} (pre : sub <+: x ++ e) : sub <+: x := by
    obtain ⟨r, eq⟩ := pre
    rcases append_eq_append_iff.mp eq with ⟨y, rfl, -⟩ | ⟨y, rfl, rfl⟩
    · exact prefix_append sub y
    · cases y with
      | nil => simp
      | cons c y => exact absurd (by simp) (fresh c (by simp))
  induction s with
  | nil =>
    rw [nil_append]
    cases cut : cutAfter sub e with
    | none => rfl
    | some rest =>
      obtain ⟨pre, rfl⟩ := cutAfter_some cut
      obtain ⟨c, sub, rfl⟩ := exists_cons_of_ne_nil ne
      exact absurd (by simp) (fresh c mem_cons_self)
  | cons a s ih =>
    rw [cutAfter_cons] at h
    split at h
    · cases h
    next no =>
      rw [cons_append, cutAfter_cons, if_neg, ih h]
      exact fun pre => no ( isPrefixOf_iff_prefix.mpr
        (inside (x := a :: s) ( isPrefixOf_iff_prefix.mp pre)))

theorem cutAfter_single (h : c ∉ s) (e : List Char) : cutAfter [c] (s ++ c :: e) = some e := by
  induction s with
  | nil => simp [cutAfter]
  | cons a s ih =>
    have ne : c ≠ a := fun eq => h (eq ▸ mem_cons_self)
    rw [cons_append, cutAfter_cons, if_neg (by simpa using ne), ih (not_mem_of_not_mem_cons h)]

/-! ## Decimal numbers -/

theorem not_mem_repr (h : c.isDigit = false) (n : Nat) : c ∉ (Nat.repr n).toList := by
  intro mem
  rw [Nat.repr_eq_ofList_toDigits, String.toList_ofList] at mem
  rw [Nat.isDigit_of_mem_toDigits (by omega) (by omega) mem] at h
  cases h

theorem repr_toList_inj {m : Nat} (h : (Nat.repr m).toList = (Nat.repr n).toList) : m = n := by
  rw [Nat.repr_eq_ofList_toDigits, Nat.repr_eq_ofList_toDigits, String.toList_ofList,
    String.toList_ofList] at h
  rw [← @Nat.ofDigitChars_ten_toDigits m, h, Nat.ofDigitChars_ten_toDigits]

/-- The digits of a number are read as the number. -/
theorem foldl_toDigits (n : Nat) :
    (Nat.toDigits 10 n).foldl (fun (m : Int) c => m * 10 + (c.toNat - 48)) 0 = n := by
  have go (ds : List Char) (digits : ∀ c ∈ ds, c.isDigit = true) (m : Nat) :
      ds.foldl (fun (m : Int) c => m * 10 + (c.toNat - 48)) m = Nat.ofDigitChars 10 ds m := by
    induction ds generalizing m with
    | nil => rfl
    | cons c ds ih =>
      obtain ⟨here, there⟩ := forall_mem_cons.mp digits
      have low : 48 ≤ c.toNat := (Char.isDigit_iff_toNat.mp here).1
      have next : (m : Int) * 10 + ((c.toNat : Int) - 48) =
          ((10 * m + (c.toNat - '0'.toNat) : Nat) : Int) := by
        show _ = ((10 * m + (c.toNat - 48) : Nat) : Int)
        omega
      rw [foldl_cons, next, ih there]
      rfl
  have all := go (Nat.toDigits 10 n)
    (fun c mem => Nat.isDigit_of_mem_toDigits (by omega) (by omega) mem) 0
  rw [Nat.ofDigitChars_ten_toDigits] at all
  exact all

theorem all_digits_repr (n : Nat) :
    (Nat.repr n).toList ≠ [] ∧
      ((Nat.repr n).toList.all fun c => decide ('0' ≤ c) && decide (c ≤ '9')) = true := by
  rw [Nat.repr_eq_ofList_toDigits, String.toList_ofList]
  refine ⟨Nat.toDigits_ne_nil, all_eq_true.mpr fun c mem => ?_⟩
  obtain ⟨low, high⟩ := Char.isDigit_iff_toNat.mp
    (Nat.isDigit_of_mem_toDigits (by omega) (by omega) mem)
  exact Bool.and_eq_true_iff.mpr ⟨decide_eq_true low, decide_eq_true high⟩

/-- A natural number is read back from its decimal text. -/
theorem parseInt64_repr (h : n < 2 ^ 63) :
    parseInt64 (Nat.repr n).toList = some (Int64.ofInt n) := by
  obtain ⟨ne, digits⟩ := all_digits_repr n
  have value := foldl_toDigits n
  rw [← String.toList_ofList (l := Nat.toDigits 10 n), ← Nat.repr_eq_ofList_toDigits] at value
  have signs (c : Char) (sign : c.isDigit = false) :
      ((Nat.repr n).toList.head? == some c) = false := by
    refine Bool.eq_false_iff.mpr fun is => not_mem_repr sign n ?_
    exact mem_of_head? (eq_of_beq is)
  have empty : (Nat.repr n).toList.isEmpty = false := by
    rwa [Bool.eq_false_iff, ne_eq, List.isEmpty_iff]
  simp only [parseInt64, signs '-' rfl, signs '+' rfl, Bool.or_self, Bool.false_eq_true, if_false,
    empty, digits, Bool.not_true, value]
  rw [if_pos]
  rw [Bool.and_eq_true, decide_eq_true_eq, decide_eq_true_eq]
  omega

end GoText
