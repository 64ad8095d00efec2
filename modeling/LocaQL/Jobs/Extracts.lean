import LocaQL.Gcs.Paths
import LocaQL.Lib.GoTime
import Mathlib.Tactic.Linarith

/-!
# The shards of an extract

An extract whose payload is over the threshold is written in several files.  The rows are cut
into consecutive ranges, and the `*` of the destination is replaced by the number of the shard.

The wildcard is looked for in the URI first, and is replaced later in the path that the URI
resolves to.  In between the path is cleaned, and a `..` may remove the segment with the `*`.
Then all shards have the same path, and each overwrites the one before (`sharded_iff`).
-/

namespace LocaQL.Extracts

open GoTime (pad)

open FileTree Fallible Gcs
open List hiding replace replace_of_not_mem

/-- `encodeExtractPayload` for a format and a schema.  The rows are encoded one by one, so a part
of rows that can be encoded can be encoded too. -/
structure Encoder (ρ : Type) where
  encode : List ρ → Except String (List UInt8)
  slices : ∀ {rows slice payload}, slice <:+: rows → encode rows = .ok payload →
    ∃ part, encode slice = .ok part

def resolveNumberedShardPath (env uri : Text) (shardIndex : Nat) : Except String Text := do
  let path ← resolveLocalFilePath env uri
  match path.count '*' with
  | 0 => .ok path
  | 1 => .ok (replace '*' (pad 12 shardIndex) path)
  | _ => .error ("destinationUri " ++ quote uri ++ " must contain at most one '*' wildcard")

/-- The bytes that are written, and the files with their contents. -/
def writeExtractShards (env : Text) (uris : List Text) (shards : List (Nat × List UInt8)) :
    Except String (Nat × List (Text × List UInt8)) := do
  let writes ← (shards.flatMap fun shard => uris.map (shard, ·)).mapM fun (shard, uri) => do
    let path ← resolveNumberedShardPath env uri shard.1
    pure (path, shard.2)
  pure ((writes.map fun w => w.2.length).sum, writes)

/-- `math.Ceil` of a quotient; the lengths of slices are too small for the floats to round. -/
def ceilDiv (a b : Nat) : Nat := (a + b - 1) / b

def shardCount (payload maxShardBytes rows : Nat) : Nat :=
  min (max (ceilDiv payload maxShardBytes) 1) rows

/-- The loop over the rows from `start` on, which takes a row at least each time. -/
def shardRows {ρ : Type} (rowsPerShard : Nat) : Nat → Nat → List ρ → List (Nat × List ρ)
  | 0, _, _ => []
  | fuel + 1, shardIndex, rows =>
    if rows.isEmpty then []
    else (shardIndex, rows.take rowsPerShard) ::
      shardRows rowsPerShard fuel (shardIndex + 1) (rows.drop rowsPerShard)

variable {ρ : Type}

def shardsOf (payload maxShardBytes : Nat) (rows : List ρ) : List (Nat × List ρ) :=
  let rowsPerShard := ceilDiv rows.length (shardCount payload maxShardBytes rows.length)
  shardRows rowsPerShard rows.length 0 rows

def writeExtractDestinations (env : Text) (encoder : Encoder ρ) (maxShardBytes : Nat)
    (uris : List Text) (rows : List ρ) : Except String (Nat × List (Text × List UInt8)) := do
  let fullPayload ← encoder.encode rows
  if maxShardBytes = 0 ∨ fullPayload.length ≤ maxShardBytes ∨ rows.length ≤ 1 then
    writeExtractShards env uris [(0, fullPayload)]
  else if uris.length ≠ 1 ∨ (uris.headD []).count '*' ≠ 1 then
    .error ("result is " ++ toString fullPayload.length ++ " bytes, over the " ++
      toString maxShardBytes ++ " byte LOCAQL_EXTRACT_SHARD_MAX_BYTES threshold, so it must be " ++
      "split across multiple shard files; provide exactly one destinationUri containing a " ++
      "single '*' wildcard instead of " ++ toString uris.length)
  else
    let shards ← (shardsOf fullPayload.length maxShardBytes rows).mapM
      fun (shardIndex, slice) => do pure (shardIndex, ← encoder.encode slice)
    writeExtractShards env uris shards

/-! ## The ranges -/

/-- What the loop makes of the rows. -/
structure Ranges (rowsPerShard shardIndex : Nat) (rows : List ρ) (shards : List (Nat × List ρ)) :
    Prop where
  cover : (shards.map (·.2)).flatten = rows
  nonempty : ∀ s ∈ shards, s.2 ≠ []
  numbers : shards.map (·.1) = List.range' shardIndex shards.length
  few : shards.length * rowsPerShard < rows.length + rowsPerShard
  all : rows.length ≤ shards.length * rowsPerShard

theorem shardRows_nil (rowsPerShard fuel shardIndex : Nat) :
    shardRows rowsPerShard fuel shardIndex ([] : List ρ) = [] := by
  cases fuel with
  | zero => rfl
  | succ fuel => rfl

theorem shardRows_ranges {rowsPerShard fuel : Nat} (some_ : 0 < rowsPerShard) (shardIndex : Nat)
    {rows : List ρ} (enough : rows.length ≤ fuel) :
    Ranges rowsPerShard shardIndex rows (shardRows rowsPerShard fuel shardIndex rows) := by
  induction fuel generalizing shardIndex rows with
  | zero =>
    cases eq_nil_of_length_eq_zero (Nat.le_zero.mp enough)
    exact ⟨rfl, nofun, rfl, by simpa [shardRows] using some_, by simp [shardRows]⟩
  | succ fuel ih =>
    by_cases empty : rows = []
    · rw [empty, shardRows_nil]
      exact ⟨rfl, nofun, rfl, by simpa using some_, by simp⟩
    · have length := length_pos_iff.mpr empty
      have shorter : (rows.drop rowsPerShard).length ≤ fuel := by
        rw [length_drop]
        omega
      have rest := ih (shardIndex + 1) shorter
      have last (h : rows.length ≤ rowsPerShard) :
          (shardRows rowsPerShard fuel (shardIndex + 1) (rows.drop rowsPerShard)).length = 0 := by
        rw [drop_eq_nil_of_le h, shardRows_nil]
        rfl
      rw [shardRows, if_neg (by simpa using empty)]
      generalize shardRows rowsPerShard fuel (shardIndex + 1) (rows.drop rowsPerShard) = shards
        at rest last
      obtain ⟨cover, nonempty, numbers, few, all⟩ := rest
      rw [length_drop] at few all
      refine ⟨?_, ?_, ?_, ?_, ?_⟩
      · rw [map_cons, flatten_cons, cover, take_append_drop]
      · refine forall_mem_cons.mpr ⟨?_, nonempty⟩
        rw [← length_pos_iff, length_take]
        exact Nat.lt_min.mpr ⟨some_, length⟩
      · rw [map_cons, numbers, length_cons, range'_succ]
      · rw [length_cons, Nat.succ_mul]
        by_cases short : rows.length ≤ rowsPerShard
        · rw [last short]
          omega
        · omega
      · rw [length_cons, Nat.succ_mul]
        omega

theorem le_ceilDiv_mul {a b : Nat} (h : 0 < b) : a ≤ ceilDiv a b * b := by
  rw [ceilDiv]
  have := Nat.lt_div_mul_add h (a := a + b - 1)
  omega

/-- There are several shards, and not more than were computed. -/
theorem shardsOf_ranges {payload maxShardBytes : Nat} {rows : List ρ}
    (threshold : 0 < maxShardBytes) (exceeded : maxShardBytes < payload) (several : 1 < rows.length) :
    Ranges (ceilDiv rows.length (shardCount payload maxShardBytes rows.length)) 0 rows
        (shardsOf payload maxShardBytes rows) ∧
      1 < (shardsOf payload maxShardBytes rows).length ∧
      (shardsOf payload maxShardBytes rows).length ≤
        shardCount payload maxShardBytes rows.length := by
  have two : 2 ≤ ceilDiv payload maxShardBytes :=
    (Nat.le_div_iff_mul_le threshold).mpr (by omega)
  have counts : 2 ≤ shardCount payload maxShardBytes rows.length := by
    rw [shardCount]
    omega
  rw [shardsOf]
  generalize shardCount payload maxShardBytes rows.length = count at counts ⊢
  have enough : rows.length ≤ ceilDiv rows.length count * count := le_ceilDiv_mul (by omega)
  have some_ : 0 < ceilDiv rows.length count := by
    by_contra none
    rw [Nat.eq_zero_of_not_pos none] at enough
    omega
  have part : ceilDiv rows.length count < rows.length := by
    refine (Nat.div_lt_iff_lt_mul (by omega)).mpr ?_
    have : rows.length + count ≤ rows.length * count := by nlinarith
    omega
  have ranges := shardRows_ranges some_ 0 (Nat.le_refl rows.length)
  refine ⟨ranges, ?_, ?_⟩
  · by_contra one
    have := Nat.mul_le_mul_right (ceilDiv rows.length count) (Nat.not_lt.mp one)
    have := ranges.all
    omega
  · by_contra more
    have := Nat.mul_le_mul_right (ceilDiv rows.length count) (Nat.not_le.mp more)
    have := ranges.few
    rw [Nat.succ_mul] at *
    rw [Nat.mul_comm] at enough
    omega

/-! ## The numbers -/

theorem pad_digits (i : Nat) : Replaces '*' (pad 12 i) := by
  have digits : ∀ c ∈ pad 12 i, c.isDigit = true := by
    intro c mem
    rw [pad, if_neg (by omega), nil_append] at mem
    rcases mem_append.mp mem with zero | digit
    · rw [eq_of_mem_replicate zero]
      rfl
    · exact Nat.isDigit_of_mem_toDigits (by omega) (by omega) digit
  refine ⟨by decide, by decide, ?_, fun mem => ?_, fun mem => ?_⟩
  · rw [pad]
    exact append_ne_nil_of_right_ne_nil _ Nat.toDigits_ne_nil
  · exact absurd (digits _ mem) (by decide)
  · exact absurd (digits _ mem) (by decide)

theorem pad_inj {i j : Nat} (h : pad 12 i = pad 12 j) : i = j := by
  have value (n : Nat) : Nat.ofDigitChars 10 (pad 12 n) 0 = n := by
    have zeros (k : Nat) (ds : List Char) :
        Nat.ofDigitChars 10 (List.replicate k '0' ++ ds) 0 = Nat.ofDigitChars 10 ds 0 := by
      induction k with
      | zero => rfl
      | succ k ih => exact ih
    rw [pad, if_neg (by omega), nil_append, zeros]
    exact Nat.ofDigitChars_ten_toDigits
  rw [← value i, h, value]

/-- The shards of a path have different places if the wildcard is left in it. -/
theorem place_inj {path : Text} {i j : Nat}
    (kept : ∃ name ∈ (cleanPath path).path.names, '*' ∈ name)
    (h : cleanPath (replace '*' (pad 12 i) path) = cleanPath (replace '*' (pad 12 j) path)) :
    i = j := by
  obtain ⟨name, mem, star⟩ := kept
  rw [(pad_digits i).cleanPath_replace, (pad_digits j).cleanPath_replace] at h
  have names : (cleanPath path).path.names.map (replace '*' (pad 12 i)) =
      (cleanPath path).path.names.map (replace '*' (pad 12 j)) :=
    congrArg (fun q : Place => q.path.names) h
  exact pad_inj (replace_inj star (map_inj_left.mp names name mem))

theorem place_same {path : Text} (i : Nat)
    (lost : ¬∃ name ∈ (cleanPath path).path.names, '*' ∈ name) :
    cleanPath (replace '*' (pad 12 i) path) = cleanPath path := by
  rw [(pad_digits i).cleanPath_replace]
  refine Place.ext rfl rfl (RelPath.ext ?_)
  exact (map_congr_left fun name mem =>
    replace_of_not_mem fun star => lost ⟨name, mem, star⟩).trans (map_id _)

/-! ## The files -/

/-- The files hold consecutive ranges of the rows, none of them empty and not more than were
computed, and every one is at another place. -/
def Sharded (env : Text) (encoder : Encoder ρ) (maxShardBytes : Nat) (uri : Text) (rows : List ρ)
    (count : Nat) : Prop :=
  ∃ (bytes : Nat) (writes : List (Text × List UInt8)) (slices : List (List ρ)),
    writeExtractDestinations env encoder maxShardBytes [uri] rows = .ok (bytes, writes) ∧
      slices.map encoder.encode = writes.map (fun w => .ok w.2) ∧ slices.flatten = rows ∧
      (∀ s ∈ slices, s ≠ []) ∧ slices.length ≤ count ∧
      (writes.map fun w => cleanPath w.1).Nodup

variable {env uri path : Text} {encoder : Encoder ρ} {maxShardBytes : Nat} {rows : List ρ}
  {payload : List UInt8}

theorem infix_of_mem {slices : List (List ρ)} {s : List ρ} (mem : s ∈ slices) :
    s <:+: slices.flatten := by
  obtain ⟨before, after, rfl⟩ := append_of_mem mem
  exact ⟨before.flatten, after.flatten, by simp⟩

theorem writeExtractShards_ok {shards : List (Nat × List UInt8)} {bytes : Nat}
    {writes : List (Text × List UInt8)} :
    writeExtractShards env [uri] shards = .ok (bytes, writes) ↔
      (shards.map fun s => do pure (← resolveNumberedShardPath env uri s.1, s.2)) =
        writes.map .ok ∧ (writes.map fun w => w.2.length).sum = bytes := by
  have single : (shards.flatMap fun shard => [uri].map (shard, ·)) = shards.map (·, uri) := by
    induction shards with
    | nil => rfl
    | cons s shards ih => rw [flatMap_cons, ih]; rfl
  rw [writeExtractShards, single, mapM_map, bind_ok]
  simp only [mapM_ok_iff]
  constructor
  · rintro ⟨_, are, is⟩
    cases is
    exact ⟨are, rfl⟩
  · rintro ⟨are, rfl⟩
    exact ⟨writes, are, rfl⟩

/-- The shards of an extract whose payload is over the threshold. -/
theorem destinations_eq (env : Text) (encoded : encoder.encode rows = .ok payload)
    (threshold : 0 < maxShardBytes) (exceeded : maxShardBytes < payload.length)
    (several : 1 < rows.length) (one : uri.count '*' = 1) :
    ∃ (n : Nat) (shards : List (Nat × List UInt8)) (slices : List (List ρ)),
      writeExtractDestinations env encoder maxShardBytes [uri] rows =
        writeExtractShards env [uri] shards ∧
      shards.map (·.1) = List.range n ∧ 1 < n ∧
      slices.map encoder.encode = shards.map (fun s => .ok s.2) ∧ slices.flatten = rows ∧
      (∀ s ∈ slices, s ≠ []) ∧
      slices.length ≤ shardCount payload.length maxShardBytes rows.length := by
  obtain ⟨ranges, many, few⟩ := shardsOf_ranges threshold exceeded several
  let part (slice : List ρ) : List UInt8 := (encoder.encode slice).toOption.getD []
  have parts : ∀ s ∈ shardsOf payload.length maxShardBytes rows,
      encoder.encode s.2 = .ok (part s.2) := by
    intro s mem
    have inside := infix_of_mem (mem_map_of_mem (f := Prod.snd) mem)
    rw [ranges.cover] at inside
    obtain ⟨bytes, is⟩ := encoder.slices inside encoded
    simp only [part, is]
    rfl
  refine ⟨_, (shardsOf payload.length maxShardBytes rows).map fun s => (s.1, part s.2), _, ?_, ?_,
    many, ?_, ranges.cover, forall_mem_map.mpr ranges.nonempty, ?_⟩
  · have above : ¬(maxShardBytes = 0 ∨ payload.length ≤ maxShardBytes ∨ rows.length ≤ 1) := by
      omega
    have single : ¬([uri].length ≠ 1 ∨ ([uri].headD []).count '*' ≠ 1) := by
      rw [headD_cons, one]
      simp
    rw [writeExtractDestinations, encoded]
    show (if _ then _ else if _ then _ else _ >>= _) = _
    rw [if_neg above, if_neg single, mapM_ok_iff.mpr]
    · rfl
    rw [map_map]
    refine map_congr_left fun s mem => ?_
    show (encoder.encode s.2 >>= fun bytes => pure (s.1, bytes)) = _
    rw [parts s mem]
    rfl
  · rw [map_map, range_eq_range']
    exact ranges.numbers
  · rw [map_map, map_map]
    exact map_congr_left parts
  · rw [length_map]
    exact few

theorem numbered_ok (found : resolveLocalFilePath env uri = .ok path) (i : Nat) :
    resolveNumberedShardPath env uri i = match path.count '*' with
      | 0 => .ok path
      | 1 => .ok (replace '*' (pad 12 i) path)
      | _ => .error ("destinationUri " ++ quote uri ++ " must contain at most one '*' wildcard") := by
  rw [resolveNumberedShardPath, found]
  rfl

/-- **Sharded extracts.**  The destination resolves to a path with one wildcard, which is left
when the path is cleaned. -/
theorem sharded_iff (encoded : encoder.encode rows = .ok payload) (threshold : 0 < maxShardBytes)
    (exceeded : maxShardBytes < payload.length) (several : 1 < rows.length)
    (one : uri.count '*' = 1) :
    Sharded env encoder maxShardBytes uri rows
        (shardCount payload.length maxShardBytes rows.length) ↔
      ∃ path, resolveLocalFilePath env uri = .ok path ∧ path.count '*' = 1 ∧
        ∃ name ∈ (cleanPath path).path.names, '*' ∈ name := by
  obtain ⟨n, shards, slices, is, numbers, many, parts, cover, nonempty, few⟩ :=
    destinations_eq env encoded threshold exceeded several one
  -- the places of the files, if every number has a path
  have placed (G : Nat → Text) (h : ∀ i, resolveNumberedShardPath env uri i = .ok (G i)) :
      Sharded env encoder maxShardBytes uri rows
          (shardCount payload.length maxShardBytes rows.length) ↔
        ((List.range n).map fun i => cleanPath (G i)).Nodup := by
    have written : (shards.map fun s => do pure (← resolveNumberedShardPath env uri s.1, s.2)) =
        (shards.map fun s => (G s.1, s.2)).map .ok := by
      rw [map_map]
      refine map_congr_left fun s _ => ?_
      rw [h]
      rfl
    have places : ((shards.map fun s => (G s.1, s.2)).map fun w => cleanPath w.1) =
        (List.range n).map fun i => cleanPath (G i) := by
      rw [← numbers, map_map, map_map]
      rfl
    constructor
    · rintro ⟨bytes, writes, -, ok, -, -, -, -, apart⟩
      rw [is, writeExtractShards_ok, written] at ok
      rw [← places, map_injective_iff.mpr (fun _ _ => Except.ok.inj) ok.1]
      exact apart
    · intro apart
      refine ⟨_, _, slices, is.trans (writeExtractShards_ok.mpr ⟨written, rfl⟩), ?_, cover,
        nonempty, few, places ▸ apart⟩
      rw [parts, map_map]
      rfl
  have same {p : Place} : ¬((List.range n).map fun _ => p).Nodup := by
    rw [map_const', nodup_replicate, length_range]
    omega
  have refused {e : String} (h : ∀ i, resolveNumberedShardPath env uri i = .error e) :
      ¬Sharded env encoder maxShardBytes uri rows
        (shardCount payload.length maxShardBytes rows.length) := by
    rintro ⟨bytes, writes, -, ok, -⟩
    rw [is, writeExtractShards_ok] at ok
    cases shards with
    | nil =>
      have := congrArg List.length numbers
      simp at this
      omega
    | cons s shards =>
      cases writes with
      | nil => cases ok.1
      | cons w writes =>
        obtain ⟨path, is, -⟩ := bind_ok.mp (List.cons.inj ok.1).1
        rw [h] at is
        cases is
  cases found : resolveLocalFilePath env uri with
  | error e =>
    refine iff_of_false (refused (e := e) fun i => ?_) ?_
    · rw [resolveNumberedShardPath, found]
      rfl
    · rintro ⟨path, is, -⟩
      cases is
  | ok path =>
    have numbered := numbered_ok found
    simp only [Except.ok.injEq, exists_eq_left']
    rcases count : path.count '*' with _ | _ | k
    · rw [count] at numbered
      rw [placed _ numbered]
      exact iff_of_false same fun h => absurd h.1 (by decide)
    · rw [count] at numbered
      rw [placed _ numbered, and_iff_right rfl]
      constructor
      · intro apart
        by_contra lost
        simp only [place_same _ lost] at apart
        exact same apart
      · exact fun kept => nodup_range.map fun i j => place_inj kept
    · rw [count] at numbered
      exact iff_of_false (refused numbered) fun h => by omega

/-- Rows of a byte each. -/
def bytes : Encoder UInt8 := ⟨.ok, fun _ _ => ⟨_, rfl⟩⟩

theorem sharded_iff_local :
    Sharded [] bytes 1 "out-*.csv".toList [1, 2] (shardCount 2 1 2) :=
  (sharded_iff (show bytes.encode [1, 2] = .ok [1, 2] from rfl) (by decide) (by decide) (by decide)
    (by decide)).mpr ⟨_, rfl, by decide, "out-*.csv".toList, by decide, by decide⟩

/-- Two shards and one file. -/
theorem shard_overwritten :
    writeExtractDestinations "/data".toList bytes 1 ["gs://b/*/../out.csv".toList] [1, 2] =
      .ok (2, [("/data/b/out.csv".toList, [1]), ("/data/b/out.csv".toList, [2])]) := by
  rfl

end LocaQL.Extracts
