import LocaQL.Lib.Fallible
import LocaQL.Sql.Wildcards

/-!
# The indices of the scanners

`Projections` scans what is left of a text.  The source keeps an index into the bytes of the text,
and an index or a slice that is out of range stops the server.  Here the scanners are read that
way: `none` is such a stop, or a loop that does not end.

The scanners stay in the text.  `directPseudocolumnProjectionCounts` does not: it looks for `SELECT`
in upper case and cuts the text as it was written, which may have fewer bytes (`counts_iff`).
-/

namespace LocaQL.Sql.Ranges

open GoText List Fallible

/-! ## The model -/

/-- `s[i]` -/
def byteAt (s : List UInt8) (i : Nat) : Option Char := s[i]?.map Char.ofUInt8

/-- `i < len(s) && s[i] == c` -/
def isAt (s : List UInt8) (i : Nat) (c : Char) : Option Bool :=
  if i < s.length then (byteAt s i).map (· == c) else some false

/-- `s[lo:hi]` -/
def slice (s : List UInt8) (lo hi : Nat) : Option (List UInt8) :=
  if lo ≤ hi ∧ hi ≤ s.length then some ((s.drop lo).take (hi - lo)) else none

/-- The loop over a quotation, from its content on.  It stops at the last quote, or one `past`
it. -/
def quoteEnd (s : List UInt8) (quote : Char) (past i : Nat) : Option Nat :=
  loop s.length (fun i () => do
    if (← byteAt s i) = quote then
      return if ← isAt s (i + 1) quote then .inl (i + 2, ()) else .inr (i + past)
    else return .inl (i + 1, ())) (fun i () => some i) (s.length + 1) i ()

def tokenEnd (s : List UInt8) (i : Nat) : Option Nat :=
  loop s.length (fun i () => do
    if isSQLIdentifierByte (← byteAt s i) then return .inl (i + 1, ()) else return .inr i)
    (fun i () => some i) (s.length + 1) i ()

def findTopLevelSQLKeyword (sqlText : List UInt8) (start : Nat) (keyword : String) :
    Option (Option Nat) :=
  loop sqlText.length (fun i (depth : Nat) => do
    let c ← byteAt sqlText i
    if isQuote c then return .inl (← quoteEnd sqlText c 1 (i + 1), depth)
    else if c = '(' then return .inl (i + 1, depth + 1)
    else if c = ')' then return .inl (i + 1, depth - 1)
    else if depth = 0 ∧ isSQLIdentifierByte c then
      let stop ← tokenEnd sqlText i
      let token ← slice sqlText i stop
      if equalFold (String.ofList (token.map Char.ofUInt8)) keyword then return .inr (some i)
      else return .inl (stop, depth)
    else return .inl (i + 1, depth)) (fun _ _ => some none) (sqlText.length + 1) start 0

/-- The state is the start of the item, the depth and the items before. -/
def splitTopLevelSQLList (value : List UInt8) : Option (List (List UInt8)) :=
  loop value.length (fun i ((start, depth, result) : Nat × Nat × List (List UInt8)) => do
    let c ← byteAt value i
    if isQuote c then return .inl ((← quoteEnd value c 0 (i + 1)) + 1, start, depth, result)
    else if c = '(' then return .inl (i + 1, start, depth + 1, result)
    else if c = ')' then return .inl (i + 1, start, depth - 1, result)
    else if c = ',' ∧ depth = 0 then
      return .inl (i + 1, i + 1, depth, result ++ [← slice value start i])
    else return .inl (i + 1, start, depth, result))
    (fun _ (start, _, result) => do return result ++ [← slice value start value.length])
    (value.length + 1) 0 (0, 0, [])

/-- The depth is negative behind a parenthesis that nothing opens. -/
def findMatchingParen (sqlText : List UInt8) (openIdx : Nat) : Option (Option Nat) :=
  loop sqlText.length (fun i (depth : Int) => do
    let c ← byteAt sqlText i
    if isQuote c then return .inl (← quoteEnd sqlText c 1 (i + 1), depth)
    else if c = '(' then return .inl (i + 1, depth + 1)
    else if c = ')' then return if depth - 1 = 0 then .inr (some i) else .inl (i + 1, depth - 1)
    else return .inl (i + 1, depth)) (fun _ _ => some none) (sqlText.length + 1) openIdx 0

/-- What the server has from the libraries of Go. -/
structure Texts where
  /-- `unicode.ToUpper` -/
  upper : Char → Char
  /-- A projection, trimmed and in upper case, without `DISTINCT`. -/
  list : List UInt8 → List UInt8
  /-- The pattern that an item matches when it is trimmed. -/
  direct : List UInt8 → Option Pseudo

def utf8 (s : List Char) : List UInt8 := s.flatMap String.utf8EncodeChar

def directPseudocolumnProjectionCounts (texts : Texts) (queryText : List Char) :
    Option (Pseudo → Nat) :=
  match indexBytes "SELECT".toList (queryText.map texts.upper) with
  | none => some fun _ => 0
  | some selectAt => do
    let projectionStart := selectAt + 6
    let fromAt ← findTopLevelSQLKeyword (utf8 queryText) projectionStart "FROM"
    let projection ← slice (utf8 queryText) projectionStart
      (fromAt.getD (utf8 queryText).length)
    let items ← splitTopLevelSQLList (texts.list projection)
    return fun w => items.countP fun item => texts.direct item = some w

def hideWildcardIngestionPseudocolumns (texts : Texts) (queryText : List Char)
    (schema : List TableField) (rows : List Row) : Option (List TableField × List Row) := do
  let kept := keptFields (← directPseudocolumnProjectionCounts texts queryText) schema.zipIdx
  if kept.length = schema.length then return (kept.map Prod.snd, rows)
  let keptRows ← rows.mapM fun row => kept.mapM fun k =>
    if k.1 < row.length then row[k.1]? else some storedNullCell
  return (kept.map Prod.snd, keptRows)

/-! ## The scanners stay in the text -/

variable {s : List UInt8} {i lo hi : Nat} {c : Char}

theorem gives_byteAt (h : i < s.length) : Gives (fun _ => True) (byteAt s i) := by
  rw [byteAt, getElem?_eq_getElem h]
  exact ⟨_, rfl, trivial⟩

theorem gives_isAt (s : List UInt8) (i : Nat) (c : Char) : Gives (fun _ => True) (isAt s i c) := by
  rw [isAt]
  split
  next inside =>
    obtain ⟨d, is, -⟩ := gives_byteAt inside
    exact ⟨_, Option.mem_map_of_mem _ is, trivial⟩
  · exact ⟨_, rfl, trivial⟩

theorem gives_slice (le : lo ≤ hi) (len : hi ≤ s.length) : Gives (fun _ => True) (slice s lo hi) := by
  rw [slice, if_pos ⟨le, len⟩]
  exact ⟨_, rfl, trivial⟩

theorem gives_quoteEnd (s : List UInt8) (quote : Char) (past i : Nat) :
    Gives (i ≤ ·) (quoteEnd s quote past i) := by
  refine Gives.loop (fun j _ => i ≤ j) (by omega) (Nat.le_refl i) (fun j _ le inside => ?_)
    fun j _ le _ => ⟨j, rfl, le⟩
  refine (gives_byteAt inside).bind fun c _ _ => ?_
  split
  · refine (gives_isAt s (j + 1) quote).bind fun d _ _ => ⟨_, rfl, ?_⟩
    cases d with
    | true => exact ⟨by omega, by omega⟩
    | false => exact Nat.le_add_right_of_le le
  · exact ⟨_, rfl, by omega, by omega⟩

/-- A token that begins with a byte of its own is not empty. -/
theorem gives_tokenEnd (h : c ∈ byteAt s i) (inside : i < s.length)
    (first : isSQLIdentifierByte c = true) :
    Gives (fun j => i < j ∧ j ≤ s.length) (tokenEnd s i) := by
  refine Gives.loop (fun j _ => i ≤ j ∧ j ≤ s.length) (by omega) ⟨Nat.le_refl i, by omega⟩
    (fun j _ le more => ?_) fun j _ le out => ⟨j, rfl, by omega⟩
  refine (gives_byteAt more).bind fun d there _ => ?_
  split
  · exact ⟨_, rfl, by omega, by omega⟩
  next last =>
    refine ⟨_, rfl, Nat.lt_of_le_of_ne le.1 ?_, le.2⟩
    rintro rfl
    cases Option.mem_unique h there
    exact last first

theorem gives_findTopLevelSQLKeyword (s : List UInt8) (start : Nat) (keyword : String) :
    Gives (fun found => ∀ k ∈ found, start ≤ k ∧ k ≤ s.length)
      (findTopLevelSQLKeyword s start keyword) := by
  refine Gives.loop (fun i _ => start ≤ i) (by omega) (Nat.le_refl start)
    (fun i depth le inside => ?_) fun i depth le _ => ⟨none, rfl, nofun⟩
  refine (gives_byteAt inside).bind fun c there _ => ?_
  split_ifs with quote opening closing word
  · exact (gives_quoteEnd s c 1 (i + 1)).bind fun j _ ahead => ⟨_, rfl, by omega, by omega⟩
  · exact ⟨_, rfl, by omega, by omega⟩
  · exact ⟨_, rfl, by omega, by omega⟩
  · refine (gives_tokenEnd there inside word.2).bind fun stop _ ahead => ?_
    refine (gives_slice (by omega) ahead.2).bind fun token _ _ => ?_
    split
    · refine ⟨_, rfl, fun k is => ?_⟩
      cases is
      exact ⟨le, by omega⟩
    · exact ⟨_, rfl, by omega, by omega⟩
  · exact ⟨_, rfl, by omega, by omega⟩

theorem gives_splitTopLevelSQLList (s : List UInt8) :
    Gives (fun _ => True) (splitTopLevelSQLList s) := by
  refine Gives.loop (fun i x => x.1 ≤ i ∧ x.1 ≤ s.length) (by omega) ⟨Nat.le_refl 0, Nat.zero_le _⟩
    (fun i ⟨start, depth, result⟩ le inside => ?_) fun i ⟨start, depth, result⟩ le _ =>
      (gives_slice le.2 (Nat.le_refl _)).bind fun last _ _ => ⟨_, rfl, trivial⟩
  obtain ⟨le, len⟩ := le
  have ahead : i < i + 1 ∧ start ≤ i + 1 := by omega
  refine (gives_byteAt inside).bind fun c _ _ => ?_
  split_ifs
  · exact (gives_quoteEnd s c 0 (i + 1)).bind fun j _ beyond =>
      ⟨_, rfl, Nat.lt_succ_of_lt beyond, Nat.le_trans ahead.2 (Nat.le_succ_of_le beyond), len⟩
  · exact ⟨_, rfl, ahead.1, ahead.2, len⟩
  · exact ⟨_, rfl, ahead.1, ahead.2, len⟩
  · exact (gives_slice le (Nat.le_of_lt inside)).bind fun item _ _ =>
      ⟨_, rfl, ahead.1, Nat.le_refl _, inside⟩
  · exact ⟨_, rfl, ahead.1, ahead.2, len⟩

theorem gives_findMatchingParen (s : List UInt8) (openIdx : Nat) :
    Gives (fun _ => True) (findMatchingParen s openIdx) := by
  refine Gives.loop (fun _ _ => True) (by omega) trivial (fun i depth _ inside => ?_)
    fun i depth _ _ => ⟨none, rfl, trivial⟩
  refine (gives_byteAt inside).bind fun c _ _ => ?_
  split_ifs
  · exact (gives_quoteEnd s c 1 (i + 1)).bind fun j _ ahead => ⟨_, rfl, ahead, trivial⟩
  · exact ⟨_, rfl, Nat.lt_succ_self i, trivial⟩
  · exact ⟨_, rfl, trivial⟩
  · exact ⟨_, rfl, Nat.lt_succ_self i, trivial⟩
  · exact ⟨_, rfl, Nat.lt_succ_self i, trivial⟩

/-! ## The cut behind `SELECT` -/

/-- In upper case, the text up to its first `SELECT` and with it has no more bytes than the text as
it was written. -/
def Fits (upper : Char → Char) (queryText : List Char) : Prop :=
  ∀ selectAt, indexBytes "SELECT".toList (queryText.map upper) = some selectAt →
    selectAt + 6 ≤ (utf8 queryText).length

variable {texts : Texts} {queryText : List Char}

theorem counts_iff :
    (directPseudocolumnProjectionCounts texts queryText).isSome ↔ Fits texts.upper queryText := by
  rw [directPseudocolumnProjectionCounts, Fits]
  cases indexBytes "SELECT".toList (queryText.map texts.upper) with
  | none => exact iff_of_true rfl nofun
  | some selectAt =>
    obtain ⟨fromAt, found, range⟩ :=
      gives_findTopLevelSQLKeyword (utf8 queryText) (selectAt + 6) "FROM"
    simp only [Option.mem_def.mp found, Option.bind_eq_bind, Option.bind_some,
      Option.some.injEq, forall_eq']
    constructor
    · intro some_
      obtain ⟨counts, is⟩ := Option.isSome_iff_exists.mp some_
      obtain ⟨projection, cut, -⟩ := Option.bind_eq_some_iff.mp is
      rw [slice] at cut
      split at cut
      next inside => exact inside.1.trans inside.2
      · cases cut
    · intro fits
      have inside : selectAt + 6 ≤ fromAt.getD (utf8 queryText).length ∧
          fromAt.getD (utf8 queryText).length ≤ (utf8 queryText).length := by
        cases fromAt with
        | none => exact ⟨fits, Nat.le_refl _⟩
        | some k => exact range k rfl
      exact ((gives_slice inside.1 inside.2).bind fun projection _ _ =>
        (gives_splitTopLevelSQLList _).bind fun items _ _ =>
          (⟨_, rfl, trivial⟩ : Gives (fun _ => True) _)).isSome

theorem isSome_hide (schema : List TableField) (rows : List Row) :
    (hideWildcardIngestionPseudocolumns texts queryText schema rows).isSome =
      (directPseudocolumnProjectionCounts texts queryText).isSome := by
  rw [hideWildcardIngestionPseudocolumns]
  cases directPseudocolumnProjectionCounts texts queryText with
  | none => rfl
  | some keep =>
    have cell (row : Row) (i : Nat) : (if i < row.length then row[i]? else some storedNullCell) =
        some (row.getD i storedNullCell) := by
      rw [getD_eq_getElem?_getD]
      split
      next inside => rw [getElem?_eq_getElem inside, Option.getD_some]
      next outside => rw [getElem?_eq_none (Nat.le_of_not_lt outside), Option.getD_none]
    simp only [cell, Option.bind_eq_bind, Option.bind_some]
    split
    · rfl
    · simp only [← Option.pure_def, mapM_pure]
      rfl

/-- **The scanners are always in range; the functions that cut the projection out of a query are
exactly if its first `SELECT` fits.** -/
theorem in_range_iff (texts : Texts) (queryText : List Char) (schema : List TableField)
    (rows : List Row) :
    (∀ sqlText start keyword, (findTopLevelSQLKeyword sqlText start keyword).isSome) ∧
      (∀ value, (splitTopLevelSQLList value).isSome) ∧
      (∀ sqlText openIdx, (findMatchingParen sqlText openIdx).isSome) ∧
      ((directPseudocolumnProjectionCounts texts queryText).isSome ↔ Fits texts.upper queryText) ∧
      ((hideWildcardIngestionPseudocolumns texts queryText schema rows).isSome ↔
        Fits texts.upper queryText) := by
  refine ⟨fun s start keyword => (gives_findTopLevelSQLKeyword s start keyword).isSome,
    fun s => (gives_splitTopLevelSQLList s).isSome,
    fun s openIdx => (gives_findMatchingParen s openIdx).isSome, counts_iff, ?_⟩
  rw [isSome_hide]
  exact counts_iff

/-- The letter `ɐ` has two bytes, and `Ɐ` has three. -/
theorem comment_moves_select : hideWildcardIngestionPseudocolumns
    ⟨fun c => if c = 'ɐ' then 'Ɐ' else upperRune c, id, fun _ => none⟩
      "--ɐɐɐ\nSELECT 1".toList [] [] = none := by
  decide +kernel

end LocaQL.Sql.Ranges
