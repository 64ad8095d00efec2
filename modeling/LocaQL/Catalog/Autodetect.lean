import LocaQL.Engine.InsertValues

/-!
# Detecting a schema

A load without a schema reads it off a sample of the data.  The type of a column is the least one
that all its values have, in the order of `widenScalarType`.

The columns of newline-delimited JSON come in the order in which their keys are found, and the
keys of a record are found in the order of an iteration over a Go map.  So the schema is that of
the text, in every run, just if no record brings two keys that are new (`deterministic_iff`).
-/

namespace LocaQL.Autodetect

open List

/-- The types that are detected. -/
inductive Kind where
  | int64
  | float64
  | bool
  | string
deriving Repr, DecidableEq

def Kind.name : Kind → String
  | .int64 => "INT64"
  | .float64 => "FLOAT64"
  | .bool => "BOOL"
  | .string => "STRING"

/-- `none` stands for no observation yet. -/
def widenScalarType : Option Kind → Option Kind → Option Kind
  | none, b => b
  | a, none => a
  | some a, some b =>
    if a = b then a
    else if (a = .int64 ∧ b = .float64) ∨ (a = .float64 ∧ b = .int64) then some .float64
    else some .string

def column (name : String) (observed : Option Kind) : TableField :=
  ⟨name, (observed.getD .string).name, "NULLABLE", []⟩

def autodetectSampleLimit : Nat := 500

/-! ## Newline-delimited JSON -/

inductive DetectError where
  | invalidRow
  | nested (key : String)
  | scan
  | noRows
deriving Repr, DecidableEq

/-- `none` for a nested value, which is an error. -/
def classifyJSONScalar : Json → Option (Option Kind)
  | .null => some none
  | .bool _ => some (some .bool)
  | .str _ => some (some .string)
  | .num literal =>
    some (some (if (Float64.ofLiteral literal).isIntegral then .int64 else .float64))
  | .arr _ | .obj _ => none

/-- The members of a record as they are written. -/
abbrev Record := List (String × Json)

/-- The keys of a record in the order of their first appearance. -/
def Record.keys (r : Record) : List String := (r.map (·.1)).reverse.dedup.reverse

/-- `json.Unmarshal` into a map; a `null` leaves the map empty. -/
def readRecord (line : List Char) : Option Record :=
  match Json.decode (String.ofList line) with
  | some (.obj members) => some members
  | some .null => some []
  | _ => none

structure Detected where
  order : List String := []
  types : GoMap String (Option Kind) := ∅

/-- The loop over a record, with its keys in the order of the iteration. -/
def visitKeys (r : Record) : List String → Detected → Except DetectError Detected
  | [], st => .ok st
  | key :: keys, st =>
    match classifyJSONScalar (Json.lookup r key) with
    | none => .error (.nested key)
    | some observed =>
      visitKeys r keys
        { order := if (st.types.get? key).isSome then st.order else st.order ++ [key]
          types := st.types.set key
            (widenScalarType ((st.types.get? key).getD none) observed) }

/-- The loop over the lines; `none` is a line that is too long for the scanner.  `iterate` gives
the order in which the keys of the n-th record are visited. -/
def detectLines (iterate : Nat → List String → List String) :
    Nat → Detected → List (Option (List Char)) → Except DetectError (Nat × Detected)
  | sampled, st, [] => .ok (sampled, st)
  | sampled, st, line :: lines =>
    if sampled = autodetectSampleLimit then .ok (sampled, st)
    else
      match line.map GoText.trimSpace with
      | none => .error .scan
      | some [] => detectLines iterate sampled st lines
      | some line =>
        match readRecord line with
        | none => .error .invalidRow
        | some r =>
          match visitKeys r (iterate sampled r.keys) st with
          | .error err => .error err
          | .ok st => detectLines iterate (sampled + 1) st lines

def schemaOf (st : Detected) : List TableField :=
  st.order.map fun key => column key ((st.types.get? key).getD none)

def detectSchemaFromNDJSON (iterate : Nat → List String → List String)
    (lines : List (Option (List Char))) : Except DetectError (List TableField) :=
  match detectLines iterate 0 {} lines with
  | .error err => .error err
  | .ok (sampled, st) => if sampled = 0 then .error .noRows else .ok (schemaOf st)

/-! ### The schema of the text -/

def flat (r : Record) : Bool := r.keys.all fun key => (classifyJSONScalar (Json.lookup r key)).isSome

/-- The records of the sample, unless the input is rejected. -/
def sampleFrom : Nat → List (Option (List Char)) → Option (List Record)
  | _, [] => some []
  | sampled, line :: lines =>
    if sampled = autodetectSampleLimit then some []
    else
      match line.map GoText.trimSpace with
      | none => none
      | some [] => sampleFrom sampled lines
      | some line =>
        match readRecord line with
        | none => none
        | some r => if flat r then (sampleFrom (sampled + 1) lines).map (r :: ·) else none

/-- The keys of a record that are new. -/
def fresh (seen keys : List String) : List String := keys.filter (· ∉ seen)

/-- The columns after the records, if the keys of each are visited as `iterate` says. -/
def namesFrom (iterate : Nat → List String → List String) :
    Nat → List String → List Record → List String
  | _, seen, [] => seen
  | n, seen, r :: rs => namesFrom iterate (n + 1) (seen ++ fresh seen (iterate n r.keys)) rs

/-- The order in which the keys are written. -/
def written (_ : Nat) (keys : List String) : List String := keys

def kindAfter (r : Record) (types : String → Option (Option Kind)) (key : String) :
    Option (Option Kind) :=
  if key ∈ r.keys then
    some (widenScalarType ((types key).getD none)
      ((classifyJSONScalar (Json.lookup r key)).getD none))
  else types key

/-- The types of the columns after the records. -/
def typesFrom (types : String → Option (Option Kind)) : List Record → String → Option (Option Kind)
  | [] => types
  | r :: rs => typesFrom (kindAfter r types) rs

/-- The schema with the columns in the order of their first appearance in the text. -/
def writtenSchema (lines : List (Option (List Char))) : Option (List TableField) :=
  match sampleFrom 0 lines with
  | none | some [] => none
  | some rs =>
    some ((namesFrom written 0 [] rs).map fun key =>
      column key ((typesFrom (fun _ => none) rs key).getD none))

/-- Every record brings at most one new key. -/
def OneByOne : List String → List Record → Prop
  | _, [] => True
  | seen, r :: rs => (fresh seen r.keys).length ≤ 1 ∧ OneByOne (seen ++ fresh seen r.keys) rs

/-! ### Every run -/

theorem nodup_keys (r : Record) : r.keys.Nodup := nodup_reverse.mpr (nodup_dedup _)

section

variable {iterate : Nat → List String → List String} {r : Record} {st : Detected}

/-- The columns are the keys that have a type. -/
def Tracked (st : Detected) : Prop := ∀ key, (st.types.get? key).isSome ↔ key ∈ st.order

theorem visitKeys_nested {key : String} {keys : List String} (mem : key ∈ keys)
    (nested : classifyJSONScalar (Json.lookup r key) = none) (st : Detected) :
    ∃ err, visitKeys r keys st = .error err := by
  induction keys generalizing st with
  | nil => cases mem
  | cons first keys ih =>
    rw [visitKeys]
    split
    · exact ⟨_, rfl⟩
    next observed some =>
      rcases mem_cons.mp mem with rfl | mem
      · rw [nested] at some
        cases some
      · exact ih mem _

/-- What a record adds, whatever the order of its keys. -/
theorem visitKeys_flat {keys : List String} (nodup : keys.Nodup)
    (flat : ∀ key ∈ keys, (classifyJSONScalar (Json.lookup r key)).isSome) (tracked : Tracked st) :
    ∃ st', visitKeys r keys st = .ok st' ∧ Tracked st' ∧
      st'.order = st.order ++ fresh st.order keys ∧
      ∀ key, st'.types.get? key = if key ∈ keys then
        some (widenScalarType ((st.types.get? key).getD none)
          ((classifyJSONScalar (Json.lookup r key)).getD none))
        else st.types.get? key := by
  induction keys generalizing st with
  | nil => exact ⟨st, rfl, tracked, (append_nil _).symm, fun _ => rfl⟩
  | cons first keys ih =>
    obtain ⟨new, nodup⟩ := nodup_cons.mp nodup
    obtain ⟨observed, is⟩ := Option.isSome_iff_exists.mp (flat first mem_cons_self)
    rw [visitKeys, is]
    dsimp only
    have step : Tracked
        { order := if (st.types.get? first).isSome then st.order else st.order ++ [first]
          types := st.types.set first
            (widenScalarType ((st.types.get? first).getD none) observed) } := by
      intro key
      dsimp only
      rw [GoMap.get?_set]
      by_cases here : key = first
      · subst here
        rw [if_pos rfl]
        split
        next known => simpa using (tracked key).mp known
        · simp
      · rw [if_neg here, tracked]
        split <;> simp [here]
    obtain ⟨st', ran, tracked', order, types⟩ :=
      ih nodup (fun key mem => flat key (mem_cons_of_mem _ mem)) step
    refine ⟨st', ran, tracked', ?_, fun key => ?_⟩
    · have known := tracked first
      rw [order]
      dsimp only
      split
      next here => simp [known.mp here, fresh]
      next absent =>
        have rest : keys.filter (· ∉ st.order ++ [first]) = keys.filter (· ∉ st.order) :=
          filter_congr fun key mem => by
            have : key ≠ first := fun is => new (is ▸ mem)
            simp [this]
        rw [fresh, rest, fresh, filter_cons_of_pos (by simpa using mt known.mpr absent),
          append_assoc]
        rfl
    · rw [types, GoMap.get?_set]
      by_cases here : key = first
      · subst here
        simp [new, is]
      · simp [here]

/-- A run that is not rejected ends with the columns and types of its sample. -/
theorem detectLines_sample (orders : ∀ n keys, (iterate n keys).Perm keys)
    (lines : List (Option (List Char))) (n : Nat) (tracked : Tracked st) :
    match sampleFrom n lines with
    | none => ∃ err, detectLines iterate n st lines = .error err
    | some rs => ∃ st', detectLines iterate n st lines = .ok (n + rs.length, st') ∧
        st'.order = namesFrom iterate n st.order rs ∧
        ∀ key, st'.types.get? key = typesFrom (st.types.get? ·) rs key := by
  induction lines generalizing n st with
  | nil => exact ⟨st, rfl, rfl, fun _ => rfl⟩
  | cons line lines ih =>
    rw [sampleFrom, detectLines]
    by_cases full : n = autodetectSampleLimit
    · rw [if_pos full, if_pos full]
      exact ⟨st, rfl, rfl, fun _ => rfl⟩
    · rw [if_neg full, if_neg full]
      cases line.map GoText.trimSpace with
      | none => exact ⟨_, rfl⟩
      | some line =>
        cases line with
        | nil => exact ih n tracked
        | cons c line =>
          dsimp only
          cases readRecord (c :: line) with
          | none => exact ⟨_, rfl⟩
          | some r =>
            dsimp only
            have perm := orders n r.keys
            by_cases isFlat : flat r
            · have all := all_eq_true.mp isFlat
              obtain ⟨st', ran, tracked', order, types⟩ := visitKeys_flat
                (perm.nodup_iff.mpr (nodup_keys r))
                (fun key mem => all key (perm.mem_iff.mp mem)) tracked
              have rest := ih (n + 1) tracked'
              have same : (st'.types.get? ·) = kindAfter r (st.types.get? ·) := by
                funext key
                rw [types, kindAfter]
                exact if_congr perm.mem_iff rfl rfl
              rw [if_pos isFlat, ran]
              cases sampled : sampleFrom (n + 1) lines with
              | none =>
                rw [sampled] at rest
                exact rest
              | some rs =>
                simp only [sampled] at rest
                obtain ⟨last, ran', order', types'⟩ := rest
                rw [order] at order'
                rw [same] at types'
                refine ⟨last, ?_, order', types'⟩
                simpa [Nat.add_assoc, Nat.add_comm 1] using ran'
            · obtain ⟨key, mem, nested⟩ : ∃ key ∈ r.keys,
                  classifyJSONScalar (Json.lookup r key) = none := by
                simpa [flat] using isFlat
              obtain ⟨err, failed⟩ := visitKeys_nested (perm.mem_iff.mpr mem) nested st
              rw [if_neg isFlat, failed]
              exact ⟨err, rfl⟩

end

theorem namesFrom_prefix (iterate : Nat → List String → List String) (n : Nat) (seen : List String)
    (rs : List Record) : seen <+: namesFrom iterate n seen rs := by
  induction rs generalizing n seen with
  | nil => exact prefix_rfl
  | cons r rs ih => exact (prefix_append _ _).trans (ih _ _)

theorem length_le_one_of_reverse {l : List String} (nodup : l.Nodup) (same : l.reverse = l) :
    l.length ≤ 1 := by
  by_contra many
  have ends : l[0]? = l[l.length - 1]? := by
    conv => lhs; rw [← same]
    rw [getElem?_reverse (by omega)]
    rfl
  rw [getElem?_eq_getElem (by omega), getElem?_eq_getElem (by omega), Option.some.injEq,
    nodup.getElem_inj_iff] at ends
  omega

/-- Only one order of the keys is possible just if there is at most one new key each time. -/
theorem namesFrom_eq_written_iff (n : Nat) (seen : List String) (rs : List Record) :
    (∀ iterate : Nat → List String → List String, (∀ n keys, (iterate n keys).Perm keys) →
      namesFrom iterate n seen rs = namesFrom written n seen rs) ↔ OneByOne seen rs := by
  constructor
  · intro always
    have same := always (fun _ keys => keys.reverse) fun _ _ => reverse_perm _
    clear always
    induction rs generalizing n seen with
    | nil => trivial
    | cons r rs ih =>
      have reverse : fresh seen r.keys.reverse = (fresh seen r.keys).reverse :=
        filter_reverse
      obtain ⟨rest, is⟩ := namesFrom_prefix (fun _ keys => keys.reverse) (n + 1)
        (seen ++ (fresh seen r.keys).reverse) rs
      obtain ⟨rest', is'⟩ := namesFrom_prefix written (n + 1)
        (seen ++ fresh seen r.keys) rs
      rw [namesFrom, namesFrom, written, reverse] at same
      have heads := append_inj_left (is.trans (same.trans is'.symm)) (by simp)
      have heads := append_cancel_left heads
      rw [heads] at same
      exact ⟨length_le_one_of_reverse ((nodup_keys r).filter _) heads, ih _ _ same⟩
  · intro single iterate orders
    induction rs generalizing n seen with
    | nil => rfl
    | cons r rs ih =>
      have perm : (fresh seen (iterate n r.keys)).Perm (fresh seen r.keys) :=
        (orders n r.keys).filter _
      have same : fresh seen (iterate n r.keys) = fresh seen r.keys := by
        obtain ⟨le, -⟩ := single
        cases new : fresh seen r.keys with
        | nil => exact perm_nil.mp (new ▸ perm)
        | cons key keys =>
          rw [new] at le perm
          obtain rfl := eq_nil_of_length_eq_zero (Nat.le_zero.mp (Nat.le_of_succ_le_succ le))
          exact perm_singleton.mp perm
      rw [namesFrom, namesFrom, same]
      exact ih _ _ single.2

/-- Detection gives the schema of the text in every run, whatever the order of the iterations, if
and only if the input is rejected or every record of the sample brings at most one new key. -/
theorem deterministic_iff (lines : List (Option (List Char))) :
    (∀ iterate : Nat → List String → List String, (∀ n keys, (iterate n keys).Perm keys) →
      (detectSchemaFromNDJSON iterate lines).toOption = writtenSchema lines) ↔
      ∀ rs, sampleFrom 0 lines = some rs → OneByOne [] rs := by
  have run {iterate : Nat → List String → List String}
      (orders : ∀ n keys, (iterate n keys).Perm keys) :=
    detectLines_sample orders lines 0 (show Tracked {} from fun _ => by simp)
  cases sampled : sampleFrom 0 lines with
  | none =>
    simp only [reduceCtorEq, false_implies, implies_true, iff_true]
    intro iterate orders
    have run := run orders
    rw [sampled] at run
    obtain ⟨err, failed⟩ := run
    rw [detectSchemaFromNDJSON, failed, writtenSchema, sampled]
    rfl
  | some rs =>
    simp only [Option.some.injEq, forall_eq']
    rw [← namesFrom_eq_written_iff 0]
    refine forall₂_congr fun iterate orders => ?_
    have run := run orders
    rw [sampled] at run
    obtain ⟨st', ran, order, types⟩ := run
    rw [detectSchemaFromNDJSON, ran, writtenSchema, sampled]
    cases rs with
    | nil => simp [Except.toOption, namesFrom]
    | cons r rs =>
      rw [← order]
      simp only [length_cons, Nat.zero_add, Nat.add_eq_zero_iff, Nat.one_ne_zero, and_false,
        if_false, Except.toOption, Option.some.injEq, schemaOf]
      refine ⟨fun same => ?_, fun same => ?_⟩
      · have names := congrArg (List.map (·.name)) same
        rw [map_map, map_map] at names
        exact (map_id _).symm.trans (names.trans (map_id _))
      · rw [same]
        exact map_congr_left fun key _ => by rw [types]; simp

/-- Two keys in one record. -/
theorem two_keys_undetermined :
    ¬∀ iterate : Nat → List String → List String, (∀ n keys, (iterate n keys).Perm keys) →
      (detectSchemaFromNDJSON iterate [some "\x7b\"b\":1,\"a\":2\x7d".toList]).toOption =
        writtenSchema [some "\x7b\"b\":1,\"a\":2\x7d".toList] := by
  intro always
  have same := always (fun _ keys => keys.reverse) fun _ _ => reverse_perm _
  exact absurd same (by decide +kernel)

end LocaQL.Autodetect
