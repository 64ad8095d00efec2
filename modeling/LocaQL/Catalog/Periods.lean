import LocaQL.Catalog.Pseudocolumns
import Mathlib.Order.Bounds.Basic

/-!
# Partitions and the periods of the calendar

The partitions of a time-partitioned table are the hours, days, months or years of the calendar.
The identifier of a partition is read as the first instant of its period, tells the periods apart,
and sorts as they follow one another (`partitionIDs_faithful`).
-/

namespace LocaQL

open GoTime

/-- Two instants lie in the same hour, day, month or year. -/
def SamePeriod (type : PartitionType) (t u : Time) : Prop :=
  (civil t).year = (civil u).year ∧
    match type with
    | .year => True
    | .month => (civil t).month = (civil u).month
    | .day => (civil t).month = (civil u).month ∧ (civil t).day = (civil u).day
    | .hour => (civil t).month = (civil u).month ∧ (civil t).day = (civil u).day ∧
      (civil t).hour = (civil u).hour

variable {type : PartitionType} {t u : Time}

/-- What the identifier of a partition shows is what its instants have in common. -/
theorem samePeriod_iff : SamePeriod type t u ↔
    (partitionLayout type).map (Item.value (civil t)) =
      (partitionLayout type).map (Item.value (civil u)) := by
  cases type <;> simp [SamePeriod, partitionLayout, Item.value]

/-- The first instant of a partition is the least one of its period. -/
theorem isLeast_partitionStart (year : 0 ≤ (civil t).year ∧ (civil t).year < 10000) :
    IsLeast {u | SamePeriod type t u} (partitionStart t type).instant := by
  have plain := plain_partitionStart type year
  constructor
  · show SamePeriod type t _
    rw [samePeriod_iff, civil_instant plain.valid]
    cases type <;> rfl
  · intro u same
    have before := daysOfMonths_nonneg (civil u).year 1 ((civil u).month - 1)
    rw [← daysBeforeMonth_eq] at before
    have january : daysBeforeMonth (civil u).year 1 = 0 := rfl
    obtain ⟨month, day, hour, minute, second, nano⟩ := valid_civil u
    have seconds : nanosPerSecond = 1000000000 := rfl
    have le : (partitionStart t type).instant ≤ (civil u).instant := by
      obtain ⟨year, rest⟩ := same
      cases type <;>
        simp only [partitionStart, shown, partitionLayout, List.foldl, copy, Civil.instant,
          Civil.days, seconds, year, rest] at nano ⊢ <;>
        omega
    rwa [instant_civil] at le

theorem lt_of_values (less : (partitionLayout type).map (Item.value (civil t)) <
    (partitionLayout type).map (Item.value (civil u))) : t < u := by
  rw [← instant_civil t, ← instant_civil u]
  refine instant_lt (valid_civil t) (valid_civil u) ?_
  cases type <;>
    simp only [partitionLayout, List.map_cons, List.map_nil, Item.value, List.cons_lt_cons_iff,
      Int.ofNat_lt, Int.ofNat_inj, List.not_lt_nil, and_false, or_false] at less
  case hour => exact less
  case day => exact less.imp_right (And.imp_right (Or.imp_right (And.imp_right .inl)))
  case month => exact less.imp_right (And.imp_right .inl)
  case year => exact .inl less

/-- **Partition identifiers.**  The identifier of the partition of an instant is read as the start
of its period, two instants have the same identifier exactly if they lie in the same period, and
identifiers compare as the instants do. -/
theorem partitionIDs_faithful (type : PartitionType) {t u : Time}
    (year : 1 ≤ (civil t).year ∧ (civil t).year ≤ 9999)
    (year' : 1 ≤ (civil u).year ∧ (civil u).year ≤ 9999) :
    (∃ start, parseTimePartitionID (formatTimePartitionID t type) type = some start ∧
        IsLeast {u | SamePeriod type t u} start) ∧
      (formatTimePartitionID t type = formatTimePartitionID u type ↔ SamePeriod type t u) ∧
      (formatTimePartitionID t type < formatTimePartitionID u type ↔
        t < u ∧ ¬SamePeriod type t u) := by
  have plain (t : Time) (year : 1 ≤ (civil t).year ∧ (civil t).year ≤ 9999) :
      (partitionStart t type).Plain := plain_partitionStart type ⟨by omega, by omega⟩
  have dated : ∀ item ∈ partitionLayout type, item.dated = true := by
    cases type <;> decide
  have values (t : Time) : (partitionLayout type).map (Item.value (partitionStart t type)) =
      (partitionLayout type).map (Item.value (civil t)) := by
    cases type <;> rfl
  have texts := format_dated (plain t year) (plain u year') dated
  rw [← format_partitionStart, ← format_partitionStart, values, values, ← samePeriod_iff] at texts
  have equal : formatTimePartitionID t type = formatTimePartitionID u type ↔
      SamePeriod type t u := String.ofList_inj.trans texts.2
  refine ⟨⟨_, (parseTimePartitionID_format type ⟨by omega, by omega⟩).1,
    isLeast_partitionStart ⟨by omega, by omega⟩⟩, equal, ?_⟩
  rw [String.lt_iff, formatTimePartitionID, formatTimePartitionID, format, format,
    String.toList_ofList, String.toList_ofList, texts.1, samePeriod_iff]
  constructor
  · intro less
    exact ⟨lt_of_values less, ne_of_lt less⟩
  · rintro ⟨before, other⟩
    rcases lt_or_gt_of_ne other with less | greater
    · exact less
    · exact absurd (lt_of_values greater) (Int.not_lt.mpr (Int.le_of_lt before))

/-- The first two hours of the year 1. -/
theorem partitionIDs_faithful_hours :
    formatTimePartitionID 0 .hour < formatTimePartitionID 3600000000000 .hour := by
  have year : 1 ≤ (civil 0).year ∧ (civil 0).year ≤ 9999 := by decide
  have year' : 1 ≤ (civil 3600000000000).year ∧ (civil 3600000000000).year ≤ 9999 := by decide
  refine (partitionIDs_faithful .hour year year').2.2.mpr ⟨by decide, fun same => ?_⟩
  exact absurd same.2.2.2 (by decide)

end LocaQL
