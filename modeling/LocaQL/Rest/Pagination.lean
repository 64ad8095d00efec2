import LocaQL.Jobs.Listing
import LocaQL.Rest.Datasets

/-!
# Pages

Five requests answer with a page of a collection: `tabledata.list`, `jobs.getQueryResults`,
`tables.list`, `datasets.list` and `jobs.list`.  A page ends with a token for the next one, and a
client asks for the pages one after the other, each with the token of the one before.

The services of tables, datasets and jobs clamp the start of a page to the collection.  The other
two requests clamp only its end (`clampEnd`), so a start beyond the rows is a slice out of range.
And `startIndex` has the last word over the token, so a client that repeats it is given the same
page again.  Apart from these two, the pages of every request are the collection, each item once
and in order (`enumerates_iff`).

A slice is taken to have at most `2 ^ 48` elements, which is more than Go can allocate, so the
bounds of a page never overflow.
-/

namespace LocaQL.Rest

open List

open GoText (parseInt64)

/-! ## Tokens -/

/-- The six bits that a character of `base64.RawURLEncoding` stands for. -/
def sextet (c : Char) : Option Nat :=
  let n :=
    "ABCDEFGHIJKLMNOPQRSTUVWXYZabcdefghijklmnopqrstuvwxyz0123456789-_".toList.idxOf c
  if n < 64 then some n else none

/-- The bytes of the groups of four characters; the last group may be shorter. -/
def decodeGroups : List Char → Option (List UInt8)
  | [] => some []
  | [_] => none
  | [a, b] => do
      let a ← sextet a
      let b ← sextet b
      pure [.ofNat (a * 4 + b / 16)]
  | [a, b, c] => do
      let a ← sextet a
      let b ← sextet b
      let c ← sextet c
      pure [.ofNat (a * 4 + b / 16), .ofNat (b % 16 * 16 + c / 4)]
  | a :: b :: c :: d :: rest => do
      let a ← sextet a
      let b ← sextet b
      let c ← sextet c
      let d ← sextet d
      let rest ← decodeGroups rest
      pure (.ofNat (a * 4 + b / 16) :: .ofNat (b % 16 * 16 + c / 4) :: .ofNat (c % 4 * 64 + d) ::
        rest)

/-- `base64.RawURLEncoding.DecodeString`, which passes over line breaks. -/
def rawURLDecoding (s : List Char) : Option (List UInt8) :=
  decodeGroups (s.filter fun c => c ≠ '\n' && c ≠ '\r')

/-- `strconv.Atoi`, where a number below zero counts as an error. -/
def atoiNonneg (s : List Char) : Option Nat :=
  match parseInt64 s with
  | some n => if 0 ≤ n.toInt then some n.toInt.toNat else none
  | none => none

def decodePageToken (token : String) : Option Nat :=
  match atoiNonneg token.toList with
  | some n => some n
  | none =>
    match rawURLDecoding token.toList with
    | none => none
    | some decoded =>
      let text := decoded.map fun b => Char.ofNat b.toNat
      if "idx:".toList.isPrefixOf text then atoiNonneg (text.drop 4) else none

/-! ## Requests -/

/-- The parameters of a request that choose a page; a parameter that is empty is not given. -/
structure PageRequest where
  maxResults : String := ""
  pageToken : String := ""
  startIndex : String := ""

/-- A page, with the token of the next one. -/
structure Page (α : Type) where
  items : List α
  next : Option String
deriving Repr, DecidableEq

def pageSize (r : PageRequest) (defaultSize maxSize : Nat) : Nat :=
  let size :=
    match parseInt64 r.maxResults.toList with
    | some n => if 0 < n.toInt then n.toInt.toNat else defaultSize
    | none => defaultSize
  min size maxSize

def PageRequest.offset (r : PageRequest) : Nat :=
  if r.pageToken = "" then 0 else (decodePageToken r.pageToken).getD 0

/-- `parsePagination`: the start and the size of a page. -/
def parsePagination (r : PageRequest) (defaultSize maxSize : Nat) : Nat × Nat :=
  (r.offset, pageSize r defaultSize maxSize)

def clampEnd (start size total : Nat) : Nat := min (min start total + size) total

section

variable {α : Type}

/-- The rows of a page of `tabledata.list`, and its token. -/
def writeTableDataListResponse (r : PageRequest) (rows : List α) (defaultSize maxSize : Nat) :
    Result (Page α) :=
  let (start, size) := parsePagination r defaultSize maxSize
  let start := (atoiNonneg r.startIndex.toList).getD start
  let stop := clampEnd start size rows.length
  if stop < start then .error (.panic "runtime error: makeslice: cap out of range")
  else .ok ⟨(rows.take stop).drop start,
    if stop < rows.length then some (encodePageToken stop) else none⟩

/-- The rows of a page of `jobs.getQueryResults`, and its token. -/
def writeQueryResults (r : PageRequest) (values : List α) : Result (Page α) :=
  let (start, size) := parsePagination r 20 1000
  let stop := clampEnd start size values.length
  if stop < start then
    .error (.panic s!"runtime error: slice bounds out of range [{start}:{stop}]")
  else .ok ⟨(values.take stop).drop start,
    if stop < values.length then some (encodePageToken stop) else none⟩

end

def listTables [GoFloat] (s : TableService) (now : Time) (projectID datasetID : String)
    (r : PageRequest) : Page TableRecord :=
  let (start, size) := parsePagination r 2 1000
  let (_, items, next, _) := s.list now projectID datasetID start size
  ⟨items, next.map encodePageToken⟩

/-- `list` of the service of datasets. -/
def listedDatasets (s : Datasets.DatasetService) (projectID : String) (start size : Nat) :
    List Datasets.DatasetRecord × Option Nat :=
  let proj := s.project projectID
  let ids := proj.keys.insertionSort (· ≤ ·)
  let start := min start ids.length
  let stop := min (start + size) ids.length
  (((ids.drop start).take (stop - start)).filterMap fun id => proj.get? id,
    if stop < ids.length then some stop else none)

def listDatasets (s : Datasets.DatasetService) (projectID : String) (r : PageRequest) :
    Page Datasets.DatasetRecord :=
  let (start, size) := parsePagination r 2 1000
  let (items, next) := listedDatasets s projectID start size
  ⟨items, next.map encodePageToken⟩

/-- The token of a start that the service of jobs gives as a text. -/
def tokenOfText (next : String) : String :=
  match parseInt64 next.toList with
  | some n => encodePageToken n.toInt.toNat
  | none => next

/-- The jobs of a page of `jobs.list`, and its token. -/
def listJobs (s : JobService) (projectID : String) (filters : JobListFilters) (r : PageRequest) :
    Page JobRecord :=
  let (start, size) := parsePagination r 2 1000
  let (items, next, _) := s.list projectID filters start size
  ⟨items, if next = "" then none else some (tokenOfText next)⟩

/-! ## The round trip of a token -/

variable {n size defaultSize maxSize : Nat} {r : PageRequest} {token : String}

theorem sextet_digit (h : n < 64) : sextet (rawURLEncoding.digit n) = some n := by
  have all : ∀ n < 64, sextet (rawURLEncoding.digit n) = some n := by
    decide +kernel
  exact all n h

theorem ofNat_eq {a : UInt8} (h : n = a.toNat) : UInt8.ofNat n = a := by
  rw [h, UInt8.ofNat_toNat]

theorem decodeGroups_rawURLEncoding (bs : List UInt8) :
    decodeGroups (rawURLEncoding bs) = some bs := by
  fun_induction rawURLEncoding bs with
  | case1 => rfl
  | case2 a =>
    have := a.toNat_lt
    rw [decodeGroups, sextet_digit (by omega), sextet_digit (by omega)]
    show some [_] = some [a]
    rw [ofNat_eq (a := a) (by omega)]
  | case3 a b =>
    have := a.toNat_lt
    have := b.toNat_lt
    rw [decodeGroups, sextet_digit (by omega), sextet_digit (by omega), sextet_digit (by omega)]
    show some [_, _] = some [a, b]
    rw [ofNat_eq (a := a) (by omega), ofNat_eq (a := b) (by omega)]
  | case4 a b c rest ih =>
    have := a.toNat_lt
    have := b.toNat_lt
    have := c.toNat_lt
    rw [decodeGroups, sextet_digit (by omega), sextet_digit (by omega), sextet_digit (by omega),
      sextet_digit (by omega), ih]
    show some (_ :: _ :: _ :: rest) = some (a :: b :: c :: rest)
    rw [ofNat_eq (a := a) (by omega), ofNat_eq (a := b) (by omega), ofNat_eq (a := c) (by omega)]

theorem mem_rawURLEncoding {bs : List UInt8} {c : Char} (mem : c ∈ rawURLEncoding bs) :
    ∃ n < 64, c = rawURLEncoding.digit n := by
  fun_induction rawURLEncoding bs with
  | case1 => cases mem
  | case2 a =>
    have := a.toNat_lt
    simp only [mem_cons, not_mem_nil, or_false] at mem
    rcases mem with rfl | rfl
    all_goals exact ⟨_, by omega, rfl⟩
  | case3 a b =>
    have := a.toNat_lt
    have := b.toNat_lt
    simp only [mem_cons, not_mem_nil, or_false] at mem
    rcases mem with rfl | rfl | rfl
    all_goals exact ⟨_, by omega, rfl⟩
  | case4 a b c rest ih =>
    have := a.toNat_lt
    have := b.toNat_lt
    have := c.toNat_lt
    simp only [mem_cons] at mem
    rcases mem with rfl | rfl | rfl | rfl | mem
    · exact ⟨_, by omega, rfl⟩
    · exact ⟨_, by omega, rfl⟩
    · exact ⟨_, by omega, rfl⟩
    · exact ⟨_, by omega, rfl⟩
    · exact ih mem

theorem rawURLDecoding_rawURLEncoding (bs : List UInt8) :
    rawURLDecoding (rawURLEncoding bs) = some bs := by
  have solid : ∀ n < 64,
      (rawURLEncoding.digit n ≠ '\n' && rawURLEncoding.digit n ≠ '\r') = true := by
    decide +kernel
  have kept : (rawURLEncoding bs).filter (fun c => c ≠ '\n' && c ≠ '\r') = rawURLEncoding bs := by
    refine filter_eq_self.mpr fun c mem => ?_
    obtain ⟨n, lt, rfl⟩ := mem_rawURLEncoding mem
    exact solid n lt
  rw [rawURLDecoding, kept, decodeGroups_rawURLEncoding]

theorem toList_eq (bs : ByteArray) : bs.toList = bs.data.toList := by
  have loop (k i : Nat) (acc : List UInt8) (h : bs.size = i + k) :
      ByteArray.toList.loop bs i acc = acc.reverse ++ bs.data.toList.drop i := by
    induction k generalizing i acc with
    | zero =>
      rw [ByteArray.toList.loop, if_neg (by omega), drop_eq_nil_of_le, append_nil]
      exact Nat.le_of_eq h
    | succ k ih =>
      rw [ByteArray.toList.loop, if_pos (by omega), ih (i + 1) _ (by omega), reverse_cons,
        append_assoc]
      have lt : i < bs.data.toList.length := by
        have : bs.data.toList.length = bs.size := rfl
        omega
      have here : bs.get! i = bs.data.toList[i] := by
        rw [ByteArray.get!, getElem!_pos bs.data i lt]
        exact (Array.getElem_toList lt).symm
      rw [drop_eq_getElem_cons lt, here]
      rfl
  exact loop bs.size 0 [] (Nat.zero_add _).symm

/-- The bytes of an ASCII text are its characters. -/
theorem toUTF8_ascii {s : List Char} (ascii : ∀ c ∈ s, c.toNat < 128) :
    (String.ofList s).toUTF8.toList = s.map fun c => UInt8.ofNat c.toNat := by
  rw [toList_eq, String.toUTF8, String.toByteArray_ofList, List.utf8Encode, toList_data_toByteArray]
  induction s with
  | nil => rfl
  | cons c s ih =>
    obtain ⟨here, there⟩ := forall_mem_cons.mp ascii
    have one : String.utf8EncodeChar c = [UInt8.ofNat c.toNat] := by
      have le : c.val.toNat ≤ 127 := Nat.le_of_lt_succ here
      simp only [String.utf8EncodeChar, if_pos le]
      rfl
    rw [flatMap_cons, one, singleton_append, map_cons, ih there]

theorem chars_of_bytes {s : List Char} (ascii : ∀ c ∈ s, c.toNat < 128) :
    (s.map fun c => UInt8.ofNat c.toNat).map (fun b => Char.ofNat b.toNat) = s := by
  rw [map_map]
  refine (map_congr_left fun c mem => ?_).trans (map_id s)
  have back : (UInt8.ofNat c.toNat).toNat = c.toNat := by
    have := ascii c mem
    rw [UInt8.toNat_ofNat']
    omega
  rw [Function.comp_apply, back, Char.ofNat_toNat]
  rfl

theorem atoiNonneg_repr (h : n < 2 ^ 63) : atoiNonneg (Nat.repr n).toList = some n := by
  have value : (Int64.ofInt n).toInt = n := Int64.toInt_ofInt_of_le (by omega) (by omega)
  simp only [atoiNonneg, GoText.parseInt64_repr h, value]
  rw [if_pos (Int.natCast_nonneg n), Int.toNat_natCast]

/-- A token is read as the start that it was written for. -/
theorem decode_encode (h : n < 2 ^ 63) : decodePageToken (encodePageToken n) = some n := by
  have text : "idx:" ++ toString n = String.ofList ("idx:".toList ++ (Nat.repr n).toList) := by
    rw [String.ofList_append, String.ofList_toList, String.ofList_toList]
    rfl
  have ascii : ∀ c ∈ "idx:".toList ++ (Nat.repr n).toList, c.toNat < 128 := by
    intro c mem
    rcases mem_append.mp mem with label | digit
    · have all : "idx:".toList.all (fun c => decide (c.toNat < 128)) = true := rfl
      exact of_decide_eq_true (all_eq_true.mp all c label)
    · rw [Nat.repr_eq_ofList_toDigits, String.toList_ofList] at digit
      have := (Char.isDigit_iff_toNat.mp
        (Nat.isDigit_of_mem_toDigits (by omega) (by omega) digit)).2
      exact Nat.lt_of_le_of_lt this (by decide)
  rw [decodePageToken, encodePageToken, String.toList_ofList, text, toUTF8_ascii ascii]
  -- the token begins with a letter, so it is not a number itself
  have letter (bs : List Char) :
      atoiNonneg (rawURLEncoding (("idx:".toList ++ bs).map fun c => UInt8.ofNat c.toNat)) =
        none := by
    obtain ⟨s, is⟩ : ∃ s, rawURLEncoding (("idx:".toList ++ bs).map fun c =>
        UInt8.ofNat c.toNat) = 'a' :: s := ⟨_, rfl⟩
    rw [is]
    simp [atoiNonneg, parseInt64]
  have label : "idx:".toList.isPrefixOf ("idx:".toList ++ (Nat.repr n).toList) = true :=
    isPrefixOf_iff_prefix.mpr (prefix_append _ _)
  have rest : ("idx:".toList ++ (Nat.repr n).toList).drop 4 = (Nat.repr n).toList := rfl
  simp only [letter, rawURLDecoding_rawURLEncoding, chars_of_bytes ascii, label, if_true, rest,
    atoiNonneg_repr h]

/-! ## Pages -/

def Page.map {α β : Type} (f : α → β) (p : Page α) : Page β := ⟨p.items.map f, p.next⟩

/-- The page from the start on, if the start is clamped. -/
def pageFrom {α : Type} (items : List α) (start size : Nat) : Page α :=
  ⟨(items.drop start).take size,
    if start + size < items.length then some (encodePageToken (start + size)) else none⟩

theorem pageFrom_map {α β : Type} (f : α → β) (items : List α) (start size : Nat) :
    (pageFrom items start size).map f = pageFrom (items.map f) start size := by
  rw [pageFrom, pageFrom, Page.map, length_map, map_take, map_drop]

theorem clampEnd_of_le {start total : Nat} (h : start ≤ total) :
    clampEnd start size total = min (start + size) total := by
  rw [clampEnd, Nat.min_eq_left h]

theorem take_min_drop {α : Type} (items : List α) (start size : Nat) :
    (items.take (min (start + size) items.length)).drop start = (items.drop start).take size := by
  rw [← take_take, take_length, drop_take, Nat.add_sub_cancel_left]

/-- A slice that begins within the collection is the page. -/
theorem slice_eq {α : Type} {items : List α} {start : Nat} (h : start ≤ items.length) (size : Nat) :
    clampEnd start size items.length ≥ start ∧
      (⟨(items.take (clampEnd start size items.length)).drop start,
        if clampEnd start size items.length < items.length then
          some (encodePageToken (clampEnd start size items.length)) else none⟩ : Page α) =
        pageFrom items start size := by
  rw [clampEnd_of_le h, take_min_drop, pageFrom]
  refine ⟨Nat.le_min.mpr ⟨Nat.le_add_right _ _, h⟩, ?_⟩
  by_cases later : start + size < items.length
  · rw [Nat.min_eq_left (Nat.le_of_lt later), if_pos later]
  · rw [Nat.min_eq_right (Nat.le_of_not_lt later), if_neg (Nat.lt_irrefl _), if_neg later]

/-- A slice whose start is clamped is the page. -/
theorem clamped_eq {α : Type} (items : List α) (start size : Nat) :
    let start' := min start items.length
    let stop := min (start' + size) items.length
    (items.drop start').take (stop - start') = (items.drop start).take size ∧
      (stop < items.length ↔ start + size < items.length) ∧
        (stop < items.length → stop = start + size) := by
  dsimp only
  refine ⟨?_, by omega, by omega⟩
  by_cases inside : start ≤ items.length
  · rw [Nat.min_eq_left inside, take_eq_take_iff, length_drop]
    omega
  · rw [drop_eq_nil_of_le (by omega), drop_eq_nil_of_le (by omega), take_nil, take_nil]

/-- A page of what is found for keys that all have something. -/
theorem filterMap_page {κ α : Type} {f : κ → Option α} {ids : List κ}
    (found : ∀ id ∈ ids, (f id).isSome) (start size : Nat) :
    ((ids.drop start).take size).filterMap f = ((ids.filterMap f).drop start).take size ∧
      (ids.filterMap f).length = ids.length := by
  obtain ⟨xs, is⟩ : ∃ xs : List α, ids.map f = xs.map some := by
    induction ids with
    | nil => exact ⟨[], rfl⟩
    | cons id ids ih =>
      obtain ⟨here, there⟩ := forall_mem_cons.mp found
      obtain ⟨xs, rest⟩ := ih there
      obtain ⟨x, first⟩ := Option.isSome_iff_exists.mp here
      exact ⟨x :: xs, by rw [map_cons, map_cons, first, rest]⟩
  have all {ids : List κ} {xs : List α} (is : ids.map f = xs.map some) :
      ids.filterMap f = xs := by
    have := congrArg (List.filterMap id) is
    rwa [filterMap_map, filterMap_map, Function.id_comp, Function.id_comp, filterMap_some] at this
  refine ⟨?_, ?_⟩
  · rw [all is]
    refine all ?_
    rw [map_take, map_drop, is, map_take, map_drop]
  · have lengths := congrArg List.length is
    rw [length_map, length_map] at lengths
    rw [all is, lengths]

theorem tokenOfText_repr (h : n < 2 ^ 63) : tokenOfText (toString n) = encodePageToken n := by
  have value : (Int64.ofInt n).toInt = n := Int64.toInt_ofInt_of_le (by omega) (by omega)
  have read : parseInt64 (toString n).toList = some (Int64.ofInt n) := GoText.parseInt64_repr h
  simp only [tokenOfText, read, value, Int.toNat_natCast]

/-- A page whose next start is given as a text. -/
theorem paged_eq {α : Type} {items : List α} (small : items.length ≤ 2 ^ 48) (start size : Nat) :
    (⟨(page items start size).1, if (page items start size).2 = "" then none
      else some (tokenOfText (page items start size).2)⟩ : Page α) =
      pageFrom items start size := by
  obtain ⟨slice, more, next⟩ := clamped_eq items start size
  rw [page, pageFrom]
  dsimp only at slice more next ⊢
  rw [drop_take, slice]
  by_cases later : start + size < items.length
  · have text (n : Nat) : toString n ≠ "" := by
      intro empty
      exact (GoText.all_digits_repr n).1 (congrArg String.toList empty)
    rw [if_pos (more.mpr later), next (more.mpr later), if_neg (text _),
      tokenOfText_repr (by omega), if_pos later]
  · rw [if_neg fun is => later (more.mp is), if_pos rfl, if_neg later]

/-- A page of the values of a map, in the order of their keys. -/
theorem keyed_eq {α : Type} (m : GoMap String α) (start size : Nat) :
    let ids := m.keys.insertionSort (· ≤ ·)
    let start' := min start ids.length
    let stop := min (start' + size) ids.length
    (⟨((ids.drop start').take (stop - start')).filterMap fun id => m.get? id,
      (if stop < ids.length then some stop else none).map encodePageToken⟩ : Page α) =
      pageFrom (ids.filterMap fun id => m.get? id) start size := by
  dsimp only
  have found : ∀ id ∈ m.keys.insertionSort (· ≤ ·), (m.get? id).isSome := by
    intro id mem
    exact AList.lookup_isSome.mpr ((mem_insertionSort _).mp mem)
  generalize m.keys.insertionSort (· ≤ ·) = ids at found ⊢
  obtain ⟨slice, more, next⟩ := clamped_eq ids start size
  obtain ⟨page, length⟩ := filterMap_page found start size
  rw [slice, page, pageFrom, length]
  by_cases later : start + size < ids.length
  · rw [if_pos (more.mpr later), next (more.mpr later), if_pos later]
    rfl
  · rw [if_neg fun is => later (more.mp is), if_neg later]
    rfl

theorem pageSize_pos (r : PageRequest) (default : 0 < defaultSize) (most : 0 < maxSize) :
    0 < pageSize r defaultSize maxSize := by
  rw [pageSize]
  refine Nat.lt_min.mpr ⟨?_, most⟩
  split
  · split
    next pos => exact Int.lt_toNat.mpr pos
    · exact default
  · exact default

theorem writeTableDataListResponse_eq {α : Type} {rows : List α}
    (h : (atoiNonneg r.startIndex.toList).getD r.offset ≤ rows.length) :
    writeTableDataListResponse r rows defaultSize maxSize =
      .ok (pageFrom rows ((atoiNonneg r.startIndex.toList).getD r.offset)
        (pageSize r defaultSize maxSize)) := by
  obtain ⟨ge, page⟩ := slice_eq h (pageSize r defaultSize maxSize)
  rw [← page]
  exact if_neg (Nat.not_lt_of_ge ge)

theorem writeQueryResults_eq {α : Type} {rows : List α} (h : r.offset ≤ rows.length) :
    writeQueryResults r rows = .ok (pageFrom rows r.offset (pageSize r 20 1000)) := by
  obtain ⟨ge, page⟩ := slice_eq h (pageSize r 20 1000)
  rw [← page]
  exact if_neg (Nat.not_lt_of_ge ge)

theorem clampEnd_lt {start total : Nat} (h : total < start) : clampEnd start size total < start :=
  Nat.lt_of_le_of_lt (Nat.min_le_right _ _) h

theorem writeTableDataListResponse_beyond {α : Type} {rows : List α}
    (h : rows.length < (atoiNonneg r.startIndex.toList).getD r.offset) :
    ∃ text, writeTableDataListResponse r rows defaultSize maxSize = .error (.panic text) :=
  ⟨_, if_pos (clampEnd_lt h)⟩

theorem writeQueryResults_beyond {α : Type} {rows : List α} (h : rows.length < r.offset) :
    ∃ text, writeQueryResults r rows = .error (.panic text) :=
  ⟨_, if_pos (clampEnd_lt h)⟩

/-! ## Following the tokens -/

/-- The pages that a client is given from a token on, up to one without a token for the next. -/
inductive Enumerates {α : Type} (ask : String → Result (Page α)) : String → List α → Prop where
  | last {token : String} {items : List α} :
      ask token = .ok ⟨items, none⟩ → Enumerates ask token items
  | more {token next : String} {items rest : List α} :
      ask token = .ok ⟨items, some next⟩ → Enumerates ask next rest →
      Enumerates ask token (items ++ rest)

theorem offset_of_encode (h : n < 2 ^ 63) (r : PageRequest) :
    PageRequest.offset { r with pageToken := encodePageToken n } = n := by
  have some_ : encodePageToken n ≠ "" := by
    intro empty
    have := decode_encode h
    rw [empty] at this
    have none : decodePageToken "" = none := by decide +kernel
    rw [none] at this
    cases this
  simp only [PageRequest.offset, if_neg some_, decode_encode h, Option.getD_some]

/-- **The pages from a start on are the rest of the collection.**  By induction on what is left. -/
theorem enumerates_of_pages {α : Type} {items : List α} (small : items.length ≤ 2 ^ 48)
    (some_ : 0 < size) {ask : String → Result (Page α)}
    (pages : ∀ token, PageRequest.offset { r with pageToken := token } ≤ items.length →
      ask token = .ok (pageFrom items (PageRequest.offset { r with pageToken := token }) size))
    (here : ask token =
      .ok (pageFrom items (PageRequest.offset { r with pageToken := token }) size)) :
    Enumerates ask token (items.drop (PageRequest.offset { r with pageToken := token })) := by
  generalize is : items.length - PageRequest.offset { r with pageToken := token } = k
  induction k using Nat.strong_induction_on generalizing token with
  | _ k ih =>
    generalize PageRequest.offset { r with pageToken := token } = start at here is ⊢
    rw [pageFrom] at here
    by_cases later : start + size < items.length
    · rw [if_pos later] at here
      have next := offset_of_encode (n := start + size) (by omega) r
      have rest := ih (items.length - (start + size)) (by omega)
        (pages (encodePageToken (start + size)) (by omega)) (by rw [next])
      rw [next] at rest
      have both := Enumerates.more here rest
      rwa [← drop_drop, take_append_drop] at both
    · rw [if_neg later, take_of_length_le (by rw [length_drop]; omega)] at here
      exact .last here

theorem Enumerates.answered {α : Type} {ask : String → Result (Page α)} {items : List α}
    (h : Enumerates ask token items) : ∃ page, ask token = .ok page := by
  cases h with
  | last page | more page _ => exact ⟨_, page⟩

/-- A client whose every page comes with a token is never given the last one. -/
theorem not_enumerates_of_more {α : Type} {ask : String → Result (Page α)}
    (more : ∀ token, ∃ items next, ask token = .ok ⟨items, some next⟩) {all : List α} :
    ¬Enumerates ask token all := by
  intro pages
  induction pages with
  | @last token items page =>
    obtain ⟨_, _, is⟩ := more token
    rw [is] at page
    cases page
  | more _ _ ih => exact ih

section

variable {α β : Type} {rows : List α} (f : α → β)

theorem queryResults_iff (small : rows.length ≤ 2 ^ 48) (r : PageRequest) :
    Enumerates (fun token => (writeQueryResults { r with pageToken := token } rows).map
        (Page.map f)) r.pageToken ((rows.map f).drop r.offset) ↔ r.offset ≤ rows.length := by
  constructor
  · intro pages
    by_contra beyond
    obtain ⟨text, panics⟩ := writeQueryResults_beyond (Nat.lt_of_not_le beyond)
    obtain ⟨page, ok⟩ := pages.answered
    rw [panics] at ok
    cases ok
  · intro inside
    have here (r : PageRequest) (inside : r.offset ≤ (rows.map f).length) :
        (writeQueryResults r rows).map (Page.map f) =
          .ok (pageFrom (rows.map f) r.offset (pageSize r 20 1000)) := by
      rw [length_map] at inside
      rw [writeQueryResults_eq inside, ← pageFrom_map]
      rfl
    exact enumerates_of_pages (r := r) (by rwa [length_map])
      (pageSize_pos r (by decide) (by decide)) (fun token => here { r with pageToken := token })
      (here r (by rwa [length_map]))

theorem tableData_iff (small : rows.length ≤ 2 ^ 48) (default : 0 < defaultSize)
    (most : 0 < maxSize) (r : PageRequest) :
    let start := (atoiNonneg r.startIndex.toList).getD r.offset
    Enumerates (fun token => (writeTableDataListResponse { r with pageToken := token } rows
        defaultSize maxSize).map (Page.map f)) r.pageToken ((rows.map f).drop start) ↔
      start ≤ rows.length ∧ ((atoiNonneg r.startIndex.toList).isSome →
        rows.length ≤ start + pageSize r defaultSize maxSize) := by
  have here (r : PageRequest)
      (inside : (atoiNonneg r.startIndex.toList).getD r.offset ≤ rows.length) :
      (writeTableDataListResponse r rows defaultSize maxSize).map (Page.map f) =
        .ok (pageFrom (rows.map f) ((atoiNonneg r.startIndex.toList).getD r.offset)
          (pageSize r defaultSize maxSize)) := by
    rw [writeTableDataListResponse_eq inside, ← pageFrom_map]
    rfl
  constructor
  · intro pages
    have inside : (atoiNonneg r.startIndex.toList).getD r.offset ≤ rows.length := by
      by_contra beyond
      obtain ⟨text, panics⟩ : ∃ text,
          writeTableDataListResponse r rows defaultSize maxSize = .error (.panic text) :=
        writeTableDataListResponse_beyond (Nat.lt_of_not_le beyond)
      obtain ⟨page, ok⟩ := pages.answered
      rw [panics] at ok
      cases ok
    refine ⟨inside, fun given => ?_⟩
    by_contra more
    -- the start is the same whatever the token
    obtain ⟨n, index⟩ := Option.isSome_iff_exists.mp given
    rw [index, Option.getD_some] at inside more
    refine not_enumerates_of_more (fun token => ?_) pages
    have page := here { r with pageToken := token } (by rwa [index])
    have size : pageSize { r with pageToken := token } defaultSize maxSize =
        pageSize r defaultSize maxSize := rfl
    rw [index, Option.getD_some, size, pageFrom, length_map, if_pos (Nat.lt_of_not_le more)] at page
    exact ⟨_, _, page⟩
  · rintro ⟨inside, one⟩
    cases index : atoiNonneg r.startIndex.toList with
    | none =>
      rw [index, Option.getD_none] at inside
      have there (token : String)
          (inside : PageRequest.offset { r with pageToken := token } ≤ (rows.map f).length) :
          (writeTableDataListResponse { r with pageToken := token } rows defaultSize
              maxSize).map (Page.map f) =
            .ok (pageFrom (rows.map f) (PageRequest.offset { r with pageToken := token })
              (pageSize r defaultSize maxSize)) := by
        have page := here { r with pageToken := token } (by rwa [index, ← length_map f])
        rw [index] at page
        exact page
      exact enumerates_of_pages (r := r) (by rwa [length_map])
        (pageSize_pos r default most) there (there r.pageToken (by rwa [length_map]))
    | some n =>
      rw [index, Option.getD_some] at inside one
      have page := here r (by rwa [index])
      rw [index, Option.getD_some, pageFrom, length_map,
        if_neg (Nat.not_lt_of_le (one rfl)), take_of_length_le] at page
      · exact .last page
      · have := one rfl
        rw [length_drop, length_map]
        omega

end

/-! ## The five requests -/

/-- What a client can ask for pages of. -/
inductive Listing where
  /-- The rows of a table, or the results of a query as those of an anonymous table. -/
  | tableData (rows : List Row) (anonymous : Bool)
  | queryResults (rows : List Row)
  | tables (s : TableService) (now : Time) (projectID datasetID : String)
  | datasets (s : Datasets.DatasetService) (projectID : String)
  | jobs (s : JobService) (projectID : String) (filters : JobListFilters)

/-- An item of a page. -/
inductive Entry where
  | row (r : Row)
  | table (t : TableRecord)
  | dataset (d : Datasets.DatasetRecord)
  | job (j : JobRecord)

section

variable [GoFloat]

namespace Listing

/-- The tables of a dataset, when those that have expired are gone. -/
def currentTables (s : TableService) (now : Time) (projectID datasetID : String) : TableMap :=
  ((s.ensureDatasetLocked now projectID datasetID).purge now projectID datasetID).tables projectID
    datasetID

/-- The collection, in its order. -/
def items : Listing → List Entry
  | tableData rows _ => rows.map .row
  | queryResults rows => rows.map .row
  | tables s now projectID datasetID =>
    let current := currentTables s now projectID datasetID
    ((current.keys.insertionSort (· ≤ ·)).filterMap fun id => current.get? id).map .table
  | datasets s projectID =>
    let proj := s.project projectID
    ((proj.keys.insertionSort (· ≤ ·)).filterMap fun id => proj.get? id).map .dataset
  | jobs s projectID filters => (s.listed projectID filters).map .job

/-- The request for a page. -/
def ask : Listing → PageRequest → Result (Page Entry)
  | tableData rows anonymous, r =>
    (writeTableDataListResponse r rows (if anonymous then 20 else 2)
      (if anonymous then 1000 else 100000)).map (Page.map .row)
  | queryResults rows, r => (writeQueryResults r rows).map (Page.map .row)
  | tables s now projectID datasetID, r =>
    .ok ((listTables s now projectID datasetID r).map .table)
  | datasets s projectID, r => .ok ((listDatasets s projectID r).map .dataset)
  | jobs s projectID filters, r => .ok ((listJobs s projectID filters r).map .job)

/-- Where the client wants to start. -/
def start (l : Listing) (r : PageRequest) : Nat :=
  match l with
  | tableData _ _ => (atoiNonneg r.startIndex.toList).getD r.offset
  | _ => r.offset

/-- The rows are not passed over, and a `startIndex` comes with no more than one page. -/
def InRange (l : Listing) (r : PageRequest) : Prop :=
  match l with
  | tableData rows anonymous =>
    l.start r ≤ rows.length ∧
      ((atoiNonneg r.startIndex.toList).isSome →
        rows.length ≤ l.start r + pageSize r (if anonymous then 20 else 2)
          (if anonymous then 1000 else 100000))
  | queryResults rows => l.start r ≤ rows.length
  | _ => True

end Listing

theorem listTables_eq (s : TableService) (now : Time) (projectID datasetID : String)
    (r : PageRequest) :
    (listTables s now projectID datasetID r).map .table =
      pageFrom (Listing.tables s now projectID datasetID).items r.offset (pageSize r 2 1000) :=
  (congrArg (Page.map Entry.table) (keyed_eq _ r.offset (pageSize r 2 1000))).trans (pageFrom_map _ _ _ _)

theorem listDatasets_eq (s : Datasets.DatasetService) (projectID : String) (r : PageRequest) :
    (listDatasets s projectID r).map .dataset =
      pageFrom (Listing.datasets s projectID).items r.offset (pageSize r 2 1000) :=
  (congrArg (Page.map Entry.dataset) (keyed_eq _ r.offset (pageSize r 2 1000))).trans
    (pageFrom_map _ _ _ _)

theorem listJobs_eq {s : JobService} {projectID : String} {filters : JobListFilters}
    (small : (s.listed projectID filters).length ≤ 2 ^ 48) (r : PageRequest) :
    (listJobs s projectID filters r).map .job =
      pageFrom (Listing.jobs s projectID filters).items r.offset (pageSize r 2 1000) := by
  refine Eq.trans (congrArg (Page.map Entry.job) ?_) (pageFrom_map _ _ _ _)
  rw [← paged_eq small]
  simp only [listJobs, parsePagination, JobService.list_eq]

/-- **The pages are the collection from the start on, each item once and in order, exactly if the
start is in range.** -/
theorem enumerates_iff (l : Listing) (small : l.items.length ≤ 2 ^ 48) (r : PageRequest) :
    ((∀ n : Nat, n < 2 ^ 63 → decodePageToken (encodePageToken n) = some n) ∧
        Enumerates (fun token => l.ask { r with pageToken := token }) r.pageToken
          (l.items.drop (l.start r))) ↔
      l.InRange r := by
  refine (and_iff_right fun n => decode_encode).trans ?_
  cases l with
  | tableData rows anonymous =>
    refine tableData_iff Entry.row ?_ ?_ ?_ r
    · rwa [Listing.items, length_map] at small
    · cases anonymous <;> decide
    · cases anonymous <;> decide
  | queryResults rows =>
    refine queryResults_iff Entry.row ?_ r
    rwa [Listing.items, length_map] at small
  | tables s now projectID datasetID =>
    refine iff_of_true ?_ trivial
    have here (r : PageRequest) : (Listing.tables s now projectID datasetID).ask r = .ok _ :=
      congrArg Except.ok (listTables_eq s now projectID datasetID r)
    exact enumerates_of_pages (r := r) small (pageSize_pos r (by decide) (by decide))
      (fun token _ => here { r with pageToken := token }) (here r)
  | datasets s projectID =>
    refine iff_of_true ?_ trivial
    have here (r : PageRequest) : (Listing.datasets s projectID).ask r = .ok _ :=
      congrArg Except.ok (listDatasets_eq s projectID r)
    exact enumerates_of_pages (r := r) small (pageSize_pos r (by decide) (by decide))
      (fun token _ => here { r with pageToken := token }) (here r)
  | jobs s projectID filters =>
    refine iff_of_true ?_ trivial
    have few : (s.listed projectID filters).length ≤ 2 ^ 48 := by
      rwa [Listing.items, length_map] at small
    have here (r : PageRequest) : (Listing.jobs s projectID filters).ask r = .ok _ :=
      congrArg Except.ok (listJobs_eq few r)
    exact enumerates_of_pages (r := r) small (pageSize_pos r (by decide) (by decide))
      (fun token _ => here { r with pageToken := token }) (here r)

end

section

attribute [local instance] GoFloat.texts

/-- The three rows of a query are enumerated by pages of two. -/
theorem enumerates_two_by_two :
    Enumerates (fun token => (Listing.queryResults [["1"], ["2"], ["3"]]).ask
      { maxResults := "2", pageToken := token }) "" [.row ["1"], .row ["2"], .row ["3"]] :=
  ((enumerates_iff (.queryResults [["1"], ["2"], ["3"]]) (by decide)
    { maxResults := "2" }).mpr (Nat.zero_le _)).2

end

/-- A token or a `startIndex` beyond the rows is a slice out of range, and a `startIndex` that is
sent with a token gives the first page again. -/
theorem beyond_the_rows :
    writeQueryResults { pageToken := "2" } [["1"]] =
        .error (.panic "runtime error: slice bounds out of range [2:1]") ∧
      writeTableDataListResponse { startIndex := "2" } [["1"]] 2 100000 =
        .error (.panic "runtime error: makeslice: cap out of range") ∧
      writeTableDataListResponse { startIndex := "0" } [["1"], ["2"], ["3"]] 2 100000 =
        .ok ⟨[["1"], ["2"]], some "aWR4OjI"⟩ ∧
      writeTableDataListResponse { startIndex := "0", pageToken := "aWR4OjI" }
        [["1"], ["2"], ["3"]] 2 100000 = .ok ⟨[["1"], ["2"]], some "aWR4OjI"⟩ := by
  decide +kernel

end LocaQL.Rest
