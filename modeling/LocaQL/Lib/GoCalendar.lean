import LocaQL.Lib.GoTime
import Mathlib.Algebra.Order.BigOperators.Group.List
import Mathlib.Data.List.Induction

/-!
# The calendar and the texts of times

Calendar and clock determine an instant and are determined by it (`civil_instant`), and what an
instant shows is in the ranges of a calendar and a clock (`valid_civil`).  A text that is
formatted is read back: `readItems_format` does so for every layout whose items can be told
apart, and `parse_format` adds that the date exists.
-/

namespace GoTime

open List

/-! ## The calendar -/

def yearLength (year : Int) : Int := if isLeap year then 366 else 365

/-- The ranges of a calendar and a clock. -/
structure Civil.Valid (c : Civil) : Prop where
  month : 1 ≤ c.month ∧ c.month ≤ 12
  day : 1 ≤ c.day ∧ c.day ≤ daysIn c.year c.month
  hour : 0 ≤ c.hour ∧ c.hour < 24
  minute : 0 ≤ c.minute ∧ c.minute < 60
  second : 0 ≤ c.second ∧ c.second < 60
  nanosecond : 0 ≤ c.nanosecond ∧ c.nanosecond < nanosPerSecond

variable {year d : Int} {c : Civil} {n : Nat} {item : Item} {layout : Layout} {s : List Char}

theorem isLeap_iff : isLeap year = true ↔ year % 4 = 0 ∧ (year % 100 ≠ 0 ∨ year % 400 = 0) := by
  simp [isLeap]

theorem yearLength_cases (year : Int) :
    (yearLength year = 366 ∧ year % 4 = 0 ∧ (year % 100 ≠ 0 ∨ year % 400 = 0)) ∨
      (yearLength year = 365 ∧ ¬(year % 4 = 0 ∧ (year % 100 ≠ 0 ∨ year % 400 = 0))) := by
  rw [← isLeap_iff, yearLength]
  by_cases leap : isLeap year = true
  · rw [if_pos leap]
    exact .inl ⟨rfl, leap⟩
  · rw [if_neg leap]
    exact .inr ⟨rfl, leap⟩

theorem daysBeforeYear_cycles (a : Int) {b c e : Int} (hb : 0 ≤ b ∧ b ≤ 3) (hc : 0 ≤ c ∧ c ≤ 24)
    (he : 0 ≤ e ∧ e ≤ 3) : daysBeforeYear (400 * a + 100 * b + 4 * c + e + 1) =
      146097 * a + 36524 * b + 1461 * c + 365 * e := by
  simp only [daysBeforeYear]
  omega

/-- A day of a year is found in that year. -/
theorem yearOfDays_add (start : 0 ≤ d) (stop : d < yearLength year) :
    yearOfDays (daysBeforeYear year + d) = (year, d) := by
  -- the year by its cycles of 400, 100, 4 and 1 years
  obtain ⟨a, b, c, e, is, hb, hc, he⟩ : ∃ a b c e : Int, year = 400 * a + 100 * b + 4 * c + e + 1 ∧
      (0 ≤ b ∧ b ≤ 3) ∧ (0 ≤ c ∧ c ≤ 24) ∧ 0 ≤ e ∧ e ≤ 3 :=
    ⟨(year - 1) / 400, (year - 1) % 400 / 100, (year - 1) % 100 / 4, (year - 1) % 4,
      by omega, by omega, by omega, by omega⟩
  subst is
  obtain ⟨short, common, long⟩ :
      (e = 3 → c = 24 → b ≠ 3 → d < 365) ∧ (e ≠ 3 → d < 365) ∧ d < 366 := by
    rcases yearLength_cases (400 * a + 100 * b + 4 * c + e + 1) with ⟨is, leap⟩ | ⟨is, -⟩
    · omega
    · omega
  clear stop
  rw [daysBeforeYear_cycles a hb hc he]
  have n400 : (146097 * a + 36524 * b + 1461 * c + 365 * e + d) / 146097 = a := by omega
  have d400 : (146097 * a + 36524 * b + 1461 * c + 365 * e + d) % 146097 =
      36524 * b + 1461 * c + 365 * e + d := by omega
  have n100 : min ((36524 * b + 1461 * c + 365 * e + d) / 36524) 3 = b := by omega
  have n4 : (1461 * c + 365 * e + d) / 1461 = c := by omega
  have d4 : (1461 * c + 365 * e + d) % 1461 = 365 * e + d := by omega
  have n1 : min ((365 * e + d) / 365) 3 = e := by omega
  have rest : 36524 * b + 1461 * c + 365 * e + d - b * 36524 = 1461 * c + 365 * e + d := by omega
  simp only [yearOfDays, n400, d400, n100, rest, n4, d4, n1, Prod.mk.injEq]
  exact ⟨trivial, by omega⟩

/-- Every day is a day of its year. -/
theorem yearOfDays_valid (days : Int) :
    0 ≤ (yearOfDays days).2 ∧ (yearOfDays days).2 < yearLength (yearOfDays days).1 ∧
      daysBeforeYear (yearOfDays days).1 + (yearOfDays days).2 = days := by
  obtain ⟨a, r, is, hr⟩ : ∃ a r : Int, days = 146097 * a + r ∧ 0 ≤ r ∧ r < 146097 :=
    ⟨days / 146097, days % 146097, by omega, by omega⟩
  have n400 : days / 146097 = a := by omega
  have d400 : days % 146097 = r := by omega
  obtain ⟨b, hb⟩ : ∃ b : Int, min (r / 36524) 3 = b := ⟨_, rfl⟩
  obtain ⟨c, hc⟩ : ∃ c : Int, (r - b * 36524) / 1461 = c := ⟨_, rfl⟩
  obtain ⟨q, hq⟩ : ∃ q : Int, (r - b * 36524) % 1461 = q := ⟨_, rfl⟩
  obtain ⟨e, he⟩ : ∃ e : Int, min (q / 365) 3 = e := ⟨_, rfl⟩
  simp only [yearOfDays, n400, d400, hb, hc, hq, he]
  rw [daysBeforeYear_cycles a (by omega) (by omega) (by omega)]
  rcases yearLength_cases (400 * a + 100 * b + 4 * c + e + 1) with ⟨is, -⟩ | ⟨is, common⟩
  · rw [is]
    omega
  · rw [is]
    omega

section

variable (year : Int)

theorem daysIn_bounds (month : Nat) : 28 ≤ daysIn year month ∧ daysIn year month ≤ 31 := by
  rw [daysIn.eq_def]
  split
  · split <;> omega
  all_goals omega

/-- The days of the `count` months from `month` on. -/
def daysOfMonths (year : Int) (month count : Nat) : Int :=
  ((List.range count).map fun m => daysIn year (month + m)).sum

theorem daysOfMonths_succ (month count : Nat) :
    daysOfMonths year month (count + 1) =
      daysIn year month + daysOfMonths year (month + 1) count := by
  simp only [daysOfMonths, range_succ_eq_map, map_cons, map_map, sum_cons]
  congr 3
  funext m
  show daysIn year (month + (m + 1)) = _
  rw [show month + (m + 1) = month + 1 + m by omega]

theorem daysOfMonths_nonneg (month count : Nat) : 0 ≤ daysOfMonths year month count := by
  refine sum_nonneg fun d mem => ?_
  obtain ⟨m, -, rfl⟩ := mem_map.mp mem
  have := daysIn_bounds year (month + m)
  omega

theorem daysBeforeMonth_eq (month : Nat) :
    daysBeforeMonth year month = daysOfMonths year 1 (month - 1) := by
  simp only [daysBeforeMonth, daysOfMonths, Nat.add_comm 1]

theorem daysOfMonths_year : daysOfMonths year 1 12 = yearLength year := by
  simp only [daysOfMonths_succ, daysIn, yearLength]
  split <;> rfl

end

/-- A day of a month is found in that month. -/
theorem monthOfDay_add {month count fuel : Nat} (start : 0 ≤ d)
    (stop : d < daysIn year (month + count)) (enough : count ≤ fuel) :
    monthOfDay year month fuel (daysOfMonths year month count + d) = (month + count, d + 1) := by
  induction count generalizing month fuel with
  | zero =>
    have none : daysOfMonths year month 0 = 0 := rfl
    rw [none, Int.zero_add]
    cases fuel with
    | zero => rfl
    | succ fuel =>
      rw [Nat.add_zero] at stop
      rw [monthOfDay, if_pos stop]
      rfl
  | succ count ih =>
    obtain ⟨fuel, rfl⟩ : ∃ n, fuel = n + 1 := ⟨fuel - 1, by omega⟩
    have rest := daysOfMonths_nonneg year (month + 1) count
    rw [monthOfDay, daysOfMonths_succ, if_neg (by omega)]
    rw [show month + (count + 1) = month + 1 + count by omega] at stop ⊢
    rw [← ih stop (Nat.le_of_succ_le_succ enough)]
    congr 1
    omega

/-- Every day of the months is a day of one of them. -/
theorem monthOfDay_valid (month fuel : Nat) (start : 0 ≤ d)
    (stop : d < daysOfMonths year month (fuel + 1)) :
    (month ≤ (monthOfDay year month fuel d).1 ∧ (monthOfDay year month fuel d).1 ≤ month + fuel) ∧
      (1 ≤ (monthOfDay year month fuel d).2 ∧
        (monthOfDay year month fuel d).2 ≤ daysIn year (monthOfDay year month fuel d).1) ∧
      daysOfMonths year month ((monthOfDay year month fuel d).1 - month) +
        ((monthOfDay year month fuel d).2 - 1) = d := by
  have none (month : Nat) (d : Int) : daysOfMonths year month (month - month) + (d + 1 - 1) = d := by
    rw [Nat.sub_self]
    show 0 + (d + 1 - 1) = d
    omega
  induction fuel generalizing month d with
  | zero =>
    have one : daysOfMonths year month 1 = daysIn year month := by
      rw [daysOfMonths_succ]
      exact Int.add_zero _
    rw [one] at stop
    exact ⟨⟨Nat.le_refl _, Nat.le_refl _⟩, ⟨by rw [monthOfDay]; omega, stop⟩, none month d⟩
  | succ fuel ih =>
    rw [monthOfDay]
    split
    next here => exact ⟨⟨Nat.le_refl _, by omega⟩, ⟨by omega, here⟩, none month d⟩
    next later =>
      rw [daysOfMonths_succ] at stop
      obtain ⟨⟨low, high⟩, day, sum⟩ := ih (month + 1) (d := d - daysIn year month)
        (by omega) (by omega)
      refine ⟨⟨by omega, by omega⟩, day, ?_⟩
      generalize monthOfDay year (month + 1) fuel (d - daysIn year month) = found at *
      rw [show found.1 - month = found.1 - (month + 1) + 1 by omega, daysOfMonths_succ]
      omega

/-- A month ends before a later one begins. -/
theorem daysBeforeMonth_le {m m' : Nat} (low : 1 ≤ m) (later : m < m') :
    daysBeforeMonth year m + daysIn year m ≤ daysBeforeMonth year m' := by
  have succ {k : Nat} (low : 1 ≤ k) :
      daysBeforeMonth year (k + 1) = daysBeforeMonth year k + daysIn year k := by
    obtain ⟨k, rfl⟩ : ∃ j, k = j + 1 := ⟨k - 1, by omega⟩
    simp [daysBeforeMonth, range_succ]
  induction m', later using Nat.le_induction with
  | base => exact Int.le_of_eq (succ low).symm
  | succ k le ih =>
    have := daysIn_bounds year k
    rw [succ (by omega)]
    omega

theorem daysBeforeMonth_add_lt {month : Nat} (low : 1 ≤ month) (high : month ≤ 12)
    (stop : d < daysIn year month) : daysBeforeMonth year month + d < yearLength year := by
  have last : _ ≤ daysBeforeMonth year 13 := daysBeforeMonth_le low (Nat.lt_succ_of_le high)
  rw [daysBeforeMonth_eq year 13, daysOfMonths_year] at last
  omega

/-- The clock of an instant. -/
theorem clock_eq (days : Int) {h m s n : Int} (hour : 0 ≤ h ∧ h < 24) (minute : 0 ≤ m ∧ m < 60)
    (second : 0 ≤ s ∧ s < 60) (nanosecond : 0 ≤ n ∧ n < 1000000000) :
    let t := ((days * 24 + h) * 60 + m) * 60 * 1000000000 + s * 1000000000 + n
    t / 86400000000000 = days ∧ t % 86400000000000 / 3600000000000 = h ∧
      t % 86400000000000 / 60000000000 % 60 = m ∧ t % 86400000000000 / 1000000000 % 60 = s ∧
        t % 86400000000000 % 1000000000 = n := by
  intro t
  have days_ : t / 86400000000000 = days := by omega
  have rest : t % 86400000000000 =
      ((h * 60 + m) * 60 + s) * 1000000000 + n := by omega
  rw [rest]
  refine ⟨days_, ?_, ?_, ?_, ?_⟩
  · omega
  · have whole : (((h * 60 + m) * 60 + s) * 1000000000 + n) / 60000000000 = h * 60 + m := by omega
    rw [whole]
    omega
  · have whole : (((h * 60 + m) * 60 + s) * 1000000000 + n) / 1000000000 =
        (h * 60 + m) * 60 + s := by omega
    rw [whole]
    omega
  · omega

/-- An instant shows the calendar and the clock that determine it. -/
theorem civil_instant (h : c.Valid) : civil c.instant = c := by
  obtain ⟨days, hour, minute, second, nanosecond⟩ :=
    clock_eq c.days h.hour h.minute h.second h.nanosecond
  have date : yearOfDays c.days = (c.year, daysBeforeMonth c.year c.month + (c.day - 1)) := by
    rw [Civil.days, Int.add_assoc]
    refine yearOfDays_add ?_ (daysBeforeMonth_add_lt h.month.1 h.month.2 ?_)
    · have before := daysOfMonths_nonneg c.year 1 (c.month - 1)
      rw [← daysBeforeMonth_eq] at before
      have := h.day.1
      omega
    · have := h.day.2
      omega
  have month : monthOfDay c.year 1 11 (daysBeforeMonth c.year c.month + (c.day - 1)) =
      (c.month, c.day) := by
    have there : 1 + (c.month - 1) = c.month := Nat.add_sub_cancel' h.month.1
    have bound := h.day
    have few := h.month.2
    rw [daysBeforeMonth_eq, monthOfDay_add (by omega) (by rw [there]; omega) (by omega), there,
      Int.sub_add_cancel]
  have seconds : nanosPerSecond = 1000000000 := rfl
  have whole : secondsPerDay * 1000000000 = 86400000000000 := rfl
  have hours : (3600 * 1000000000 : Int) = 3600000000000 := rfl
  have minutes : (60 * 1000000000 : Int) = 60000000000 := rfl
  simp only [civil, Civil.instant, seconds, whole, hours, minutes, days, date, month, hour, minute,
    second, nanosecond]

theorem valid_civil (t : Int) : (civil t).Valid := by
  have date := yearOfDays_valid (t / (secondsPerDay * nanosPerSecond))
  have month := monthOfDay_valid 1 11 date.1
    (by rw [daysOfMonths_year]; exact date.2.1)
  have seconds : nanosPerSecond = 1000000000 := rfl
  have whole : secondsPerDay = 86400 := rfl
  refine ⟨month.1, month.2.1, ?_, ?_, ?_, ?_⟩
  · simp only [civil, seconds, whole]
    omega
  all_goals
    simp only [civil, seconds]
    omega

/-- Calendar and clock of an instant determine it. -/
theorem instant_civil (t : Int) : (civil t).instant = t := by
  have date := yearOfDays_valid (t / (secondsPerDay * nanosPerSecond))
  have month := (monthOfDay_valid 1 11 date.1 (by rw [daysOfMonths_year]; exact date.2.1)).2.2
  rw [← daysBeforeMonth_eq] at month
  have seconds : nanosPerSecond = 1000000000 := rfl
  have whole : secondsPerDay = 86400 := rfl
  simp only [Civil.instant, Civil.days, civil, seconds, whole] at date month ⊢
  omega

/-- The calendar goes with time, down to the hour. -/
theorem instant_lt {c' : Civil} (hc : c.Valid) (hc' : c'.Valid)
    (h : c.year < c'.year ∨ c.year = c'.year ∧ (c.month < c'.month ∨ c.month = c'.month ∧
      (c.day < c'.day ∨ c.day = c'.day ∧ c.hour < c'.hour))) : c.instant < c'.instant := by
  obtain ⟨⟨low, high⟩, day, hour, minute, second, nano⟩ := hc
  obtain ⟨⟨low', high'⟩, day', hour', minute', second', nano'⟩ := hc'
  have seconds : nanosPerSecond = 1000000000 := rfl
  have days : c.days < c'.days ∨ c.days = c'.days ∧ c.hour < c'.hour := by
    simp only [Civil.days]
    rcases h with year | ⟨year, month | ⟨month, rest⟩⟩
    · have inside : daysBeforeMonth c.year c.month + (c.day - 1) < yearLength c.year :=
        daysBeforeMonth_add_lt low high (by omega)
      have before := daysOfMonths_nonneg c'.year 1 (c'.month - 1)
      rw [← daysBeforeMonth_eq] at before
      have next : daysBeforeYear c.year + yearLength c.year ≤ daysBeforeYear c'.year := by
        have step := yearLength_cases c.year
        simp only [daysBeforeYear]
        omega
      omega
    · have : _ ≤ daysBeforeMonth c.year _ := daysBeforeMonth_le low month
      rw [← year]
      omega
    · rw [← year, ← month]
      omega
  simp only [Civil.instant, seconds] at nano nano' ⊢
  omega

/-! ## Digits -/

theorem isDigit_digitChar (h : n < 10) : isDigit n.digitChar = true := by
  revert n
  decide

theorem digit_digitChar (h : n < 10) : digit n.digitChar = n := by
  revert n
  decide

theorem number_append (ds : List Char) (c : Char) : number (ds ++ [c]) = number ds * 10 + digit c :=
  foldl_append ..

theorem number_toDigits (n : Nat) : number (Nat.toDigits 10 n) = n := by
  induction n using Nat.strongRecOn with
  | ind n ih =>
    rw [Nat.toDigits_eq_if (by decide)]
    split
    next small =>
      show 0 * 10 + digit n.digitChar = n
      rw [digit_digitChar small]
      omega
    next large =>
      rw [number_append, ih (n / 10) (by omega), digit_digitChar (by omega)]
      omega

theorem isDigit_toDigits : ∀ c ∈ Nat.toDigits 10 n, isDigit c = true := by
  induction n using Nat.strongRecOn with
  | ind n ih =>
    intro c mem
    rw [Nat.toDigits_eq_if (by decide)] at mem
    split at mem
    next small =>
      cases mem_singleton.mp mem
      exact isDigit_digitChar small
    next large =>
      rcases mem_append.mp mem with mem | mem
      · exact ih (n / 10) (by omega) c mem
      · cases mem_singleton.mp mem
        exact isDigit_digitChar (by omega)

theorem number_zeros (k : Nat) (ds : List Char) : number (List.replicate k '0' ++ ds) = number ds := by
  induction k with
  | zero => rfl
  | succ k ih => exact ih

/-- A number that fits into the width is written with as many digits. -/
theorem pad_spec (width : Nat) {n : Int} (low : 0 ≤ n) (fits : n < 10 ^ width) (some_ : 0 < width) :
    (pad width n).length = width ∧ (∀ c ∈ pad width n, isDigit c = true) ∧
      (number (pad width n) : Int) = n := by
  have positive : ¬n < 0 := by omega
  have length : (Nat.toDigits 10 n.natAbs).length ≤ width := by
    rw [Nat.length_toDigits_le_iff (by decide) some_]
    refine Int.ofNat_lt.mp ?_
    rwa [Int.natAbs_of_nonneg low, Int.natCast_pow]
  simp only [pad, if_neg positive, nil_append]
  refine ⟨?_, fun c mem => ?_, ?_⟩
  · rw [length_append, length_replicate]
    omega
  · rcases mem_append.mp mem with mem | mem
    · cases eq_of_mem_replicate mem
      decide
    · exact isDigit_toDigits c mem
  · rw [number_zeros, number_toDigits]
    exact Int.natAbs_of_nonneg low

theorem getnum_pad {n : Int} (low : 0 ≤ n) (high : n < 100) (fixed : Bool) (rest : List Char) :
    getnum fixed (pad 2 n ++ rest) = some (n.toNat, rest) := by
  obtain ⟨length, digits, value⟩ := pad_spec 2 low high (by decide)
  obtain ⟨a, b, is⟩ := length_eq_two.mp length
  rw [is] at digits value ⊢
  have first := digits a mem_cons_self
  have second := digits b (mem_cons_of_mem _ mem_cons_self)
  have eq : digit a * 10 + digit b = n.toNat := by
    have is : number [a, b] = (0 * 10 + digit a) * 10 + digit b := rfl
    omega
  show getnum fixed (a :: b :: rest) = _
  rw [getnum, first, second, eq]
  rfl

/-! ## Reading what is formatted -/

/-- The part of the calendar or the clock that an item shows. -/
def copy (c shown : Civil) : Item → Civil
  | .year => { shown with year := c.year }
  | .month => { shown with month := c.month }
  | .day => { shown with day := c.day }
  | .hour => { shown with hour := c.hour }
  | .minute => { shown with minute := c.minute }
  | .second => { shown with second := c.second }
  | _ => shown

/-- The item can be told from what follows it.  A fraction is read only where there is none. -/
def Apart (next : Option Item) : Item → Prop
  | .second => next = some .fraction
  | .fraction => next = some .zoneISO
  | .lit ch => ch ≠ ' '
  | .zoneName | .zoneColon | .zoneHour => False
  | _ => True

instance (next : Option Item) : (item : Item) → Decidable (Apart next item)
  | .second => inferInstanceAs (Decidable (next = some .fraction))
  | .fraction => inferInstanceAs (Decidable (next = some .zoneISO))
  | .lit ch => inferInstanceAs (Decidable (ch ≠ ' '))
  | .zoneName | .zoneColon | .zoneHour => .isFalse id
  | .year | .month | .day | .hour | .minute | .zoneISO => .isTrue trivial

/-- Every item of the layout can be told from the next. -/
def Readable : Layout → Prop
  | [] => True
  | item :: items => Apart items.head? item ∧ Readable items

def decideReadable : (layout : Layout) → Decidable (Readable layout)
  | [] => .isTrue trivial
  | item :: items =>
    @instDecidableAnd (Apart items.head? item) _ _ (decideReadable items)

instance (layout : Layout) : Decidable (Readable layout) := decideReadable layout

/-- A year of four digits, and no fraction of a second. -/
structure Civil.Plain (c : Civil) : Prop where
  valid : c.Valid
  year : 0 ≤ c.year ∧ c.year < 10000
  whole : c.nanosecond = 0

section

variable (plain : c.Plain)

include plain

theorem readItem_format (p : Reading) {items : Layout} (apart : Apart items.head? item) :
    readItem p items.head? item (formatItem c item ++ items.flatMap (formatItem c)) =
      some ({ p with civil := copy c p.civil item }, items.flatMap (formatItem c)) := by
  obtain ⟨s, rest⟩ : ∃ s, items.flatMap (formatItem c) = s := ⟨_, rfl⟩
  rw [rest]
  obtain ⟨⟨month, day, hour, minute, second, -⟩, year, whole⟩ := plain
  have few := daysIn_bounds c.year c.month
  cases item with
  | year =>
    obtain ⟨length, digits, value⟩ := pad_spec 4 year.1 year.2 (by decide)
    have taken : (pad 4 c.year ++ s).take 4 = pad 4 c.year := take_left' length
    have dropped : (pad 4 c.year ++ s).drop 4 = s := drop_left' length
    have long : ¬(pad 4 c.year ++ s).length < 4 := by
      rw [length_append, length]
      omega
    have all : (pad 4 c.year).all isDigit = true := all_eq_true.mpr digits
    simp only [formatItem, readItem, taken, dropped, all, value, long, decide_false, Bool.not_true,
      Bool.or_self, Bool.false_eq_true, if_false, copy]
  | month =>
    have is := getnum_pad (n := c.month) (by omega) (by omega) true s
    have range : ¬((c.month == 0 || decide (12 < c.month)) = true) := by
      simp
      omega
    rw [Int.toNat_natCast] at is
    simp only [formatItem, readItem, is, bind, Option.bind, if_neg range, copy]
  | day =>
    have is := getnum_pad (n := c.day) (by omega) (by omega) true s
    simp only [formatItem, readItem, is, bind, Option.bind, copy,
      Int.toNat_of_nonneg (show 0 ≤ c.day by omega)]
  | hour =>
    have is := getnum_pad (n := c.hour) hour.1 (by omega) false s
    have range : ¬24 ≤ c.hour.toNat := by omega
    simp only [formatItem, readItem, is, bind, Option.bind, if_neg range, copy,
      Int.toNat_of_nonneg hour.1]
  | minute =>
    have is := getnum_pad (n := c.minute) minute.1 (by omega) true s
    have range : ¬60 ≤ c.minute.toNat := by omega
    simp only [formatItem, readItem, is, bind, Option.bind, if_neg range, copy,
      Int.toNat_of_nonneg minute.1]
  | second =>
    have is := getnum_pad (n := c.second) second.1 (by omega) true s
    have range : ¬60 ≤ c.second.toNat := by omega
    have next : (items.head? == some .fraction) = true := beq_iff_eq.mpr apart
    simp only [formatItem, readItem, is, bind, Option.bind, if_neg range, next, if_true, copy,
      Int.toNat_of_nonneg second.1]
  | fraction =>
    obtain ⟨items, rfl⟩ : ∃ l, items = .zoneISO :: l := head?_eq_some_iff.mp apart
    have zero : fractionText 0 = [] := by decide
    rw [formatItem, whole, zero, ← rest]
    show readItem p _ .fraction ('Z' :: items.flatMap (formatItem c)) =
      some (p, 'Z' :: items.flatMap (formatItem c))
    cases items.flatMap (formatItem c) with
    | nil => rfl
    | cons d l => rfl
  | zoneName | zoneColon | zoneHour => cases apart
  | zoneISO => rfl
  | lit ch =>
    have solid : ch ≠ ' ' := apart
    show readItem p items.head? (.lit ch) (ch :: s) = some (p, s)
    unfold readItem
    split
    all_goals simp_all

/-- What a layout shows of a calendar and a clock. -/
def shown (c : Civil) (layout : Layout) : Civil :=
  layout.foldl (copy c) ⟨0, 1, 1, 0, 0, 0, 0⟩

theorem readItems_format (readable : Readable layout) (p : Reading) :
    readItems p layout (layout.flatMap (formatItem c)) =
      some { p with civil := layout.foldl (copy c) p.civil } := by
  induction layout generalizing p with
  | nil => rfl
  | cons item items ih =>
    rw [flatMap_cons, readItems, readItem_format plain p readable.1]
    exact ih readable.2 _

/-- A text that is formatted is read back, as far as the layout shows it. -/
theorem parse_format (readable : Readable layout) (valid : (shown c layout).Valid) :
    parse layout (layout.flatMap (formatItem c)) = some (shown c layout).instant := by
  have date : ¬((decide ((shown c layout).day < 1) ||
      decide (daysIn (shown c layout).year (shown c layout).month < (shown c layout).day)) = true) := by
    have := valid.day
    simp
    omega
  rw [parse, readItems_format plain readable]
  show (if _ then none else _) = _
  rw [shown] at date ⊢
  rw [if_neg date]
  simp

/-- A formatted text without zones other than `Z` has digits, the literals of the layout, and
that letter. -/
theorem mem_formatItem {next : Option Item} (apart : Apart next item) {ch : Char}
    (mem : ch ∈ formatItem c item) : isDigit ch = true ∨ item = .lit ch ∨ ch = 'Z' := by
  obtain ⟨⟨month, day, hour, minute, second, -⟩, year, whole⟩ := plain
  have few := daysIn_bounds c.year c.month
  cases item with
  | year => exact .inl ((pad_spec 4 year.1 year.2 (by decide)).2.1 ch mem)
  | month | day | hour | minute | second =>
    exact .inl ((pad_spec 2 (by omega) (by omega) (by decide)).2.1 ch mem)
  | fraction =>
    have zero : fractionText 0 = [] := by decide
    rw [formatItem, whole, zero] at mem
    cases mem
  | zoneName | zoneColon | zoneHour => cases apart
  | zoneISO => exact .inr (.inr (mem_singleton.mp mem))
  | lit other => exact .inr (.inl (congrArg Item.lit (mem_singleton.mp mem).symm))

theorem mem_format (readable : Readable layout) {ch : Char}
    (mem : ch ∈ layout.flatMap (formatItem c)) :
    isDigit ch = true ∨ Item.lit ch ∈ layout ∨ ch = 'Z' := by
  induction layout with
  | nil => cases mem
  | cons item items ih =>
    rcases mem_append.mp (flatMap_cons ▸ mem) with here | there
    · rcases mem_formatItem plain readable.1 here with is | rfl | is
      · exact .inl is
      · exact .inr (.inl mem_cons_self)
      · exact .inr (.inr is)
    · exact (ih readable.2 there).imp_right (.imp_left (mem_cons_of_mem _))

end

/-! ## What is read -/

/-- The items of a date and its hour. -/
def Item.dated : Item → Bool
  | .year | .month | .day | .hour => true
  | _ => false

/-- The ranges of what is read by such items; the day is looked at in the end. -/
structure Reading.Dated (p : Reading) : Prop where
  year : 0 ≤ p.civil.year ∧ p.civil.year < 10000
  month : 1 ≤ p.civil.month ∧ p.civil.month ≤ 12
  hour : 0 ≤ p.civil.hour ∧ p.civil.hour < 24
  minute : p.civil.minute = 0
  second : p.civil.second = 0
  nanosecond : p.civil.nanosecond = 0
  offset : p.offset = 0

theorem digit_lt {c : Char} (h : isDigit c = true) : digit c < 10 := by
  obtain ⟨-, high⟩ := Bool.and_eq_true_iff.mp h
  have le : c.toNat ≤ '9'.toNat := of_decide_eq_true high
  have nine : '9'.toNat = 57 := rfl
  have zero : '0'.toNat = 48 := rfl
  rw [digit]
  omega

theorem number_lt {ds : List Char} (h : ∀ c ∈ ds, isDigit c = true) :
    number ds < 10 ^ ds.length := by
  induction ds using List.reverseRecOn with
  | nil => exact Nat.one_pos
  | append_singleton ds c ih =>
    have last := digit_lt (h c (mem_append_right _ mem_cons_self))
    have front := ih fun d mem => h d (mem_append_left _ mem)
    rw [number_append, length_append, length_singleton, Nat.pow_succ]
    omega

theorem readItem_dated {p p' : Reading} {next : Option Item} {s' : List Char}
    (dated : item.dated = true) (h : p.Dated) (read : readItem p next item s = some (p', s')) :
    p'.Dated := by
  cases item with
  | year =>
    simp only [readItem] at read
    split at read
    · cases read
    next ok =>
      cases read
      simp only [Bool.or_eq_true, decide_eq_true_eq, Bool.not_eq_true', not_or,
        Bool.not_eq_false] at ok
      have small := number_lt (all_eq_true.mp ok.2)
      rw [length_take_of_le (by omega)] at small
      exact ⟨⟨Int.natCast_nonneg _, Int.ofNat_lt.mpr small⟩, h.month, h.hour, h.minute, h.second,
        h.nanosecond, h.offset⟩
  | month =>
    obtain ⟨⟨n, rest⟩, -, read⟩ := Option.bind_eq_some_iff.mp read
    dsimp only at read
    split at read
    · cases read
    next ok =>
      cases read
      simp only [Bool.or_eq_true, beq_iff_eq, decide_eq_true_eq, not_or] at ok
      exact ⟨h.year, ⟨Nat.pos_of_ne_zero ok.1, Nat.not_lt.mp ok.2⟩, h.hour, h.minute, h.second,
        h.nanosecond, h.offset⟩
  | day =>
    obtain ⟨⟨n, rest⟩, -, read⟩ := Option.bind_eq_some_iff.mp read
    cases read
    exact ⟨h.year, h.month, h.hour, h.minute, h.second, h.nanosecond, h.offset⟩
  | hour =>
    obtain ⟨⟨n, rest⟩, -, read⟩ := Option.bind_eq_some_iff.mp read
    dsimp only at read
    split at read
    · cases read
    next ok =>
      cases read
      exact ⟨h.year, h.month, ⟨Int.natCast_nonneg _, Int.ofNat_lt.mpr (Nat.not_le.mp ok)⟩,
        h.minute, h.second, h.nanosecond, h.offset⟩
  | _ => cases dated

theorem readItems_dated {p p' : Reading} (dated : ∀ item ∈ layout, item.dated = true) (h : p.Dated)
    (read : readItems p layout s = some p') : p'.Dated := by
  induction layout generalizing p s with
  | nil =>
    rw [readItems] at read
    split at read
    · cases read
      exact h
    · cases read
  | cons item items ih =>
    rw [readItems] at read
    split at read
    next next_ =>
      exact ih (fun other mem => dated other (mem_cons_of_mem _ mem))
        (readItem_dated (dated item mem_cons_self) h next_) read
    · cases read

/-- A date that is read exists, in a year of four digits. -/
theorem plain_of_parse {t : Int} (dated : ∀ item ∈ layout, item.dated = true)
    (h : parse layout s = some t) : ∃ c : Civil, c.Plain ∧ t = c.instant := by
  have start : Reading.Dated {} := by
    constructor <;> decide
  rw [parse] at h
  split at h
  · cases h
  next p read =>
    obtain ⟨year, month, hour, minute, second, nanosecond, offset⟩ :=
      readItems_dated dated start read
    split at h
    · cases h
    next ok =>
      cases h
      simp only [Bool.or_eq_true, decide_eq_true_eq, not_or, not_lt] at ok
      have valid : p.civil.Valid := by
        refine ⟨month, ⟨by omega, ok.2⟩, hour, by omega, by omega, ?_⟩
        rw [nanosecond]
        decide
      rw [offset, Int.zero_mul, Int.sub_zero]
      exact ⟨p.civil, ⟨valid, year, nanosecond⟩, rfl⟩

/-! ## The order of texts -/

theorem number_cons (c : Char) (ds : List Char) :
    number (c :: ds) = digit c * 10 ^ ds.length + number ds := by
  induction ds using List.reverseRecOn with
  | nil => simp [number]
  | append_singleton ds d ih =>
    rw [← cons_append, number_append, number_append, ih, length_append,
      length_singleton, Nat.pow_succ, Nat.add_mul, Nat.mul_assoc]
    omega

/-- Digits compare as the numbers they write, if there are as many of them. -/
theorem lt_iff_number_lt {ds es : List Char} (length : ds.length = es.length)
    (digits : ∀ c ∈ ds, isDigit c = true) (digits' : ∀ c ∈ es, isDigit c = true) :
    ds < es ↔ number ds < number es := by
  induction ds generalizing es with
  | nil =>
    obtain rfl : es = [] := eq_nil_of_length_eq_zero length.symm
    simp
  | cons a ds ih =>
    obtain ⟨b, es, rfl⟩ := exists_cons_of_length_eq_add_one length.symm
    rw [forall_mem_cons] at digits digits'
    have length : ds.length = es.length := Nat.succ.inj length
    have value (c : Char) (h : isDigit c = true) : c.toNat = digit c + 48 := by
      have low : '0'.toNat ≤ c.toNat := of_decide_eq_true (Bool.and_eq_true_iff.mp h).1
      exact (Nat.sub_add_cancel low).symm
    have first : a < b ↔ digit a < digit b := by
      show a.toNat < b.toNat ↔ _
      rw [value a digits.1, value b digits'.1, Nat.add_lt_add_iff_right]
    have equal : a = b ↔ digit a = digit b := by
      rw [← Char.toNat_inj, value a digits.1, value b digits'.1, Nat.add_right_cancel_iff]
    have small := number_lt digits.2
    have small' := number_lt digits'.2
    rw [← length] at small'
    rw [cons_lt_cons_iff, first, equal, ih length digits.2 digits'.2, number_cons, number_cons,
      ← length]
    rcases Nat.lt_trichotomy (digit a) (digit b) with lt | eq | gt
    · have := Nat.mul_le_mul_right (10 ^ ds.length) (Nat.succ_le_of_lt lt)
      rw [Nat.succ_mul] at this
      omega
    · rw [eq]
      omega
    · have := Nat.mul_le_mul_right (10 ^ ds.length) (Nat.succ_le_of_lt gt)
      rw [Nat.succ_mul] at this
      omega

theorem append_lt_iff {ds es xs ys : List Char} (length : ds.length = es.length) :
    ds ++ xs < es ++ ys ↔ ds < es ∨ ds = es ∧ xs < ys := by
  induction ds generalizing es with
  | nil =>
    obtain rfl : es = [] := eq_nil_of_length_eq_zero length.symm
    simp
  | cons a ds ih =>
    obtain ⟨b, es, rfl⟩ := exists_cons_of_length_eq_add_one length.symm
    simp only [cons_append, cons_lt_cons_iff, ih (Nat.succ.inj length), List.cons.injEq]
    tauto

/-- The number that an item of a date or an hour shows. -/
def Item.value (c : Civil) : Item → Int
  | .year => c.year
  | .month => c.month
  | .day => c.day
  | .hour => c.hour
  | _ => 0

theorem formatItem_dated {c' : Civil} (plain : c.Plain) (plain' : c'.Plain)
    (dated : item.dated = true) :
    (formatItem c item).length = (formatItem c' item).length ∧
      (formatItem c item < formatItem c' item ↔ item.value c < item.value c') ∧
      (formatItem c item = formatItem c' item ↔ item.value c = item.value c') := by
  have padded (width : Nat) {n n' : Int} (bounds : 0 ≤ n ∧ n < 10 ^ width)
      (bounds' : 0 ≤ n' ∧ n' < 10 ^ width) (some_ : 0 < width) :
      (pad width n).length = (pad width n').length ∧ (pad width n < pad width n' ↔ n < n') ∧
        (pad width n = pad width n' ↔ n = n') := by
    obtain ⟨length, digits, value⟩ := pad_spec width bounds.1 bounds.2 some_
    obtain ⟨length', digits', value'⟩ := pad_spec width bounds'.1 bounds'.2 some_
    have same := length.trans length'.symm
    refine ⟨same, (lt_iff_number_lt same digits digits').trans ?_, fun h => ?_, congrArg _⟩
    · rw [← Int.ofNat_lt, value, value']
    · rw [← value, ← value', h]
  obtain ⟨⟨month, day, hour, -, -, -⟩, year, -⟩ := plain
  obtain ⟨⟨month', day', hour', -, -, -⟩, year', -⟩ := plain'
  have days := daysIn_bounds c.year c.month
  have days' := daysIn_bounds c'.year c'.month
  cases item with
  | year => exact padded 4 year year' (by decide)
  | month | day | hour =>
    exact padded 2 ⟨by omega, by omega⟩ ⟨by omega, by omega⟩ (by decide)
  | _ => cases dated

/-- Texts of dates compare as what they show does, item by item. -/
theorem format_dated {c' : Civil} (plain : c.Plain) (plain' : c'.Plain)
    (dated : ∀ item ∈ layout, item.dated = true) :
    (layout.flatMap (formatItem c) < layout.flatMap (formatItem c') ↔
        layout.map (Item.value c) < layout.map (Item.value c')) ∧
      (layout.flatMap (formatItem c) = layout.flatMap (formatItem c') ↔
        layout.map (Item.value c) = layout.map (Item.value c')) := by
  induction layout with
  | nil => simp
  | cons item layout ih =>
    obtain ⟨here, there⟩ := forall_mem_cons.mp dated
    obtain ⟨length, less, equal⟩ := formatItem_dated plain plain' here
    obtain ⟨less', equal'⟩ := ih there
    rw [flatMap_cons, flatMap_cons, map_cons, map_cons, append_lt_iff length,
      cons_lt_cons_iff, List.cons.injEq, less, less', ← equal, ← equal']
    exact ⟨Iff.rfl, fun h => append_inj h length, fun ⟨first, rest⟩ => first ▸ rest ▸ rfl⟩

end GoTime
