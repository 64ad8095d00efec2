import LocaQL.Rest.Tables
import LocaQL.Catalog.Expiry

/-!
# The expiration a table inherits

A table without an expiration of its own gets the default of its dataset, a number of
milliseconds after its creation.  The number is turned into a `time.Duration`, nanoseconds in 64
bits, and the product wraps around for more than about 292 years: the table then expires at
another instant, often before it was created.  For all other defaults it lives until its instant
(`inherits_iff`).
-/

namespace LocaQL.Rest

open Fallible (bind_ok)
open TableService

section

variable [GoFloat] {s : TableService} {now : Time}

/-- The table expires `ms` milliseconds after `now` and no purge removes it before, in any state
that still has it with its expiration. -/
structure Inherits (s : TableService) (path : TableReference) (now : Time) (ms : Int) : Prop where
  expires : ∃ r, s.record? path = some r ∧ r.expirationTime = now + ms * 1000000 ∧
    now < r.expirationTime
  kept : ∀ r, s.record? path = some r → ∀ (s' : TableService) (r' : TableRecord),
    s'.record? path = some r' → r'.expirationTime = r.expirationTime →
    ∀ now' < now + ms * 1000000, ∀ p q,
      ((s'.purge now' p q).record? path).map (·.expirationTime) = some r.expirationTime

theorem record?_purge_of_fresh {path : TableReference} {r : TableRecord}
    (found : s.record? path = some r) (fresh : now < r.expirationTime) (p q : String) :
    ((s.purge now p q).record? path).map (·.expirationTime) = some r.expirationTime := by
  have alive : expired now r = false := by
    rw [expired, Bool.and_eq_false_iff]
    exact .inr (decide_eq_false (Int.not_le.mpr fresh))
  rw [record?_purge, found, Option.bind_some, purgeRecord, alive]
  split
  · rcases purgeExpiredPartitions_cases r now with same | ⟨config, column, -, -, dropped⟩
    · rw [same]
      rfl
    · rw [dropped]
      rfl
  · rfl

omit [GoFloat] in
/-- A duration in milliseconds is exact as long as it has at most 63 bits of nanoseconds. -/
theorem toInt_mul_million {ms : Int64} (positive : 0 < ms) :
    (ms * 1000000).toInt = ms.toInt * 1000000 ↔ ms.toInt ≤ 9223372036854 := by
  have pos : 0 < ms.toInt := Int64.lt_iff_toInt_lt.mp positive
  rw [Int64.toInt_mul, show (1000000 : Int64).toInt = 1000000 from rfl]
  constructor
  · intro exact
    have : (ms.toInt * 1000000).bmod (2 ^ 64) < (2 ^ 64 + 1) / 2 := Int.bmod_lt (by decide)
    omega
  · intro fits
    exact Int.bmod_eq_of_le (by omega) (by omega)

theorem inherits_of_exact {path : TableReference} {r : TableRecord} {ms : Int64}
    (found : s.record? path = some r) (inherited : r.expirationTime = now + (ms * 1000000).toInt)
    (positive : 0 < ms) : Inherits s path now ms.toInt ↔ ms.toInt ≤ 9223372036854 := by
  rw [← toInt_mul_million positive]
  constructor
  · rintro ⟨⟨r', found', expires, -⟩, -⟩
    rw [found] at found'
    cases found'
    exact Int.add_left_cancel (inherited.symm.trans expires)
  · intro exact
    rw [exact] at inherited
    have pos : 0 < ms.toInt := Int64.lt_iff_toInt_lt.mp positive
    refine ⟨⟨r, found, inherited, ?_⟩, fun r' found' s' r'' there same now' before p q => ?_⟩
    · rw [inherited]
      exact Int.lt_add_of_pos_right _ (by omega)
    · rw [found] at found'
      cases found'
      rw [← same]
      refine record?_purge_of_fresh there ?_ p q
      rwa [same, inherited]

theorem record?_insert_created {input : TableInsert} (created : (s.insert now input).2.isSome) :
    ∃ path, trimPath input.projectID input.datasetID input.tableID = some path ∧
      (s.insert now input).1.record? path = some (newRecord input path now) := by
  rw [TableService.insert.eq_def] at created ⊢
  cases trim : trimPath input.projectID input.datasetID input.tableID with
  | none =>
    rw [trim] at created
    cases created
  | some path =>
    refine ⟨path, rfl, ?_⟩
    rw [trim] at created
    dsimp only at created ⊢
    split at created
    · cases created
    · split at created
      · cases created
      · exact (record?_store ..).trans ((if_pos ⟨rfl, rfl⟩).trans (GoMap.get?_set_self ..))

variable {b : Sql.Backend} {around : Surroundings} {now : Time} {s : Sql.Server}
  {projectID datasetID : String} {raw : Body}

/-- What `tables.insert` creates without an expiration in the request. -/
theorem created_insertTable (own : Json.lookup? raw "expirationTime" = none)
    (present : (s.datasets.present projectID datasetID).2 = true)
    (positive : 0 < around.expirationMs projectID datasetID)
    (created : (insertTable b around now s projectID datasetID (some raw)).2 = .ok ()) :
    ∃ tableID path r, readTableID raw = .ok tableID ∧
      trimPath projectID datasetID tableID = some path ∧
      (insertTable b around now s projectID datasetID (some raw)).1.tables.record? path = some r ∧
      r.expirationTime = now + (around.expirationMs projectID datasetID * 1000000).toInt := by
  have expiration : readExpiration around now s.datasets projectID datasetID raw =
      .ok ((s.datasets.present projectID datasetID).1,
        now + (around.expirationMs projectID datasetID * 1000000).toInt) := by
    rw [readExpiration, optional, own]
    simp [present, positive, bind, Except.bind, pure, Except.pure]
  rw [insertTable.eq_def] at created ⊢
  cases read : readNewTable around raw with
  | error refusal => simp only [read] at created; cases created
  | ok table =>
    simp only [read] at created ⊢
    have named : readTableID raw = .ok table.tableID := by
      obtain ⟨tableID, is, h⟩ := bind_ok.mp read
      obtain ⟨friendlyName, -, h⟩ := bind_ok.mp h
      obtain ⟨description, -, h⟩ := bind_ok.mp h
      obtain ⟨labels, -, h⟩ := bind_ok.mp h
      obtain ⟨external, -, h⟩ := bind_ok.mp h
      obtain ⟨view, -, h⟩ := bind_ok.mp h
      cases h
      exact is
    generalize deriveSchema b now s.tables projectID table.view = derived at created ⊢
    obtain ⟨tables, derived⟩ := derived
    cases derived with
    | error refusal => cases created
    | ok derived =>
      dsimp only at created ⊢
      cases input? : readInsert projectID datasetID table.tableID (newSchema raw table derived)
          (table.external.map (·.1)) table.view raw with
      | error refusal => simp only [input?] at created; cases created
      | ok input =>
        simp only [input?, expiration] at created ⊢
        split at created
        next some =>
          obtain ⟨path, trim, there⟩ := record?_insert_created some
          exact ⟨_, path, _, named, (readInsert_ok input?).2.symm.trans trim, there, rfl⟩
        · cases created

/-- A table that `tables.insert` creates without an expiration of its own, in a dataset with a
default, expires when the default says so if and only if that is at most 9223372036854
milliseconds. -/
theorem inherits_iff (own : Json.lookup? raw "expirationTime" = none)
    (present : (s.datasets.present projectID datasetID).2 = true)
    (positive : 0 < around.expirationMs projectID datasetID)
    (created : (insertTable b around now s projectID datasetID (some raw)).2 = .ok ()) :
    ∃ tableID path, readTableID raw = .ok tableID ∧
      trimPath projectID datasetID tableID = some path ∧
      (Inherits (insertTable b around now s projectID datasetID (some raw)).1.tables path now
          (around.expirationMs projectID datasetID).toInt ↔
        (around.expirationMs projectID datasetID).toInt ≤ 9223372036854) := by
  obtain ⟨tableID, path, r, named, trim, found, expires⟩ :=
    created_insertTable own present positive created
  exact ⟨tableID, path, named, trim, inherits_of_exact found expires positive⟩

end

section

attribute [local instance] GoFloat.texts

/-- A server with the dataset `p.ds`, and the request for a table in it. -/
def withDataset : Sql.Server := { datasets := { projects := (∅ : GoMap _ _).set "p" ["ds"] } }

def visitsBody : Body := [("tableReference", .obj [("tableId", .str "visits")])]

def defaulting (ms : Int64) : Surroundings := ⟨fun _ => .error "", fun _ _ => ms⟩

def idleEngine : Sql.Backend :=
  ⟨fun s _ _ _ _ => (s, .ok ([], [], 0)), fun s _ _ _ _ _ => (s, fail ""),
    fun s _ _ _ _ _ => (s, [], [])⟩

theorem inherits_iff_day :
    ∃ tableID path, readTableID visitsBody = .ok tableID ∧ trimPath "p" "ds" tableID = some path ∧
      (Inherits (insertTable idleEngine (defaulting 86400000) 0 withDataset "p" "ds"
        (some visitsBody)).1.tables path 0 86400000 ↔ (86400000 : Int) ≤ 9223372036854) :=
  inherits_iff (by rfl) (by rfl) (by decide) rfl

/-- A default of 292 years and a half. -/
theorem default_expires_at_once :
    ∃ path, trimPath "p" "ds" "visits" = some path ∧
      ¬Inherits (insertTable idleEngine (defaulting 9223372036855) 0 withDataset "p" "ds"
        (some visitsBody)).1.tables path 0 9223372036855 := by
  have created : (insertTable idleEngine (defaulting 9223372036855) 0 withDataset "p" "ds"
      (some visitsBody)).2 = .ok () := rfl
  obtain ⟨tableID, path, r, named, trim, found, expires⟩ :=
    created_insertTable (by rfl) (by rfl) (by decide) created
  cases named
  refine ⟨path, trim, fun inherits => ?_⟩
  exact absurd ((inherits_of_exact found expires (by decide)).mp inherits) (by decide)

end

end LocaQL.Rest
