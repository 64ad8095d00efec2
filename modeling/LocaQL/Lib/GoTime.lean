import Mathlib.Algebra.Order.Ring.Int
import Mathlib.Data.List.Basic

/-!
# Time as Go parses and formats it

An instant is a number of nanoseconds since 0001-01-01T00:00:00Z.  Calendar
arithmetic is proleptic Gregorian.  `parse` follows `time.Parse` on the layouts
built from the items below, with UTC as the local zone; `format` is `Time.Format`
for the numeric items.
-/

namespace GoTime

def nanosPerSecond : Int := 1000000000

def secondsPerDay : Int := 86400

/-! ## Calendar -/

def isLeap (year : Int) : Bool := year % 4 == 0 && (year % 100 != 0 || year % 400 == 0)

def daysIn (year : Int) (month : Nat) : Int :=
  match month with
  | 2 => if isLeap year then 29 else 28
  | 4 | 6 | 9 | 11 => 30
  | _ => 31

/-- Days from 0001-01-01 to the first day of the year. -/
def daysBeforeYear (year : Int) : Int :=
  let y := year - 1
  365 * y + y / 4 - y / 100 + y / 400

/-- Days from the first of January to the first of the month. -/
def daysBeforeMonth (year : Int) (month : Nat) : Int :=
  ((List.range (month - 1)).map fun m => daysIn year (m + 1)).sum

/-- A reading of calendar and clock in UTC. -/
structure Civil where
  year : Int
  month : Nat
  day : Int
  hour : Int
  minute : Int
  second : Int
  nanosecond : Int
deriving Repr, DecidableEq

def Civil.days (c : Civil) : Int :=
  daysBeforeYear c.year + daysBeforeMonth c.year c.month + (c.day - 1)

/-- `time.Date` in UTC. -/
def Civil.instant (c : Civil) : Int :=
  ((c.days * 24 + c.hour) * 60 + c.minute) * 60 * nanosPerSecond + c.second * nanosPerSecond
    + c.nanosecond

/-- The year of a day number and the day within it, by cycles of 400, 100, 4 and 1 years. -/
def yearOfDays (days : Int) : Int × Int :=
  let n400 := days / 146097
  let d400 := days % 146097
  let n100 := min (d400 / 36524) 3
  let d100 := d400 - n100 * 36524
  let n4 := d100 / 1461
  let d4 := d100 % 1461
  let n1 := min (d4 / 365) 3
  (400 * n400 + 100 * n100 + 4 * n4 + n1 + 1, d4 - n1 * 365)

/-- The month and day of month, counting months on from `month`. -/
def monthOfDay (year : Int) (month : Nat) : Nat → Int → Nat × Int
  | 0, day => (month, day + 1)
  | fuel + 1, day =>
    if day < daysIn year month then (month, day + 1)
    else monthOfDay year (month + 1) fuel (day - daysIn year month)

/-- Calendar and clock of an instant. -/
def civil (t : Int) : Civil :=
  let days := t / (secondsPerDay * nanosPerSecond)
  let rest := t % (secondsPerDay * nanosPerSecond)
  let (year, dayOfYear) := yearOfDays days
  let (month, day) := monthOfDay year 1 11 dayOfYear
  { year := year
    month := month
    day := day
    hour := rest / (3600 * nanosPerSecond)
    minute := rest / (60 * nanosPerSecond) % 60
    second := rest / nanosPerSecond % 60
    nanosecond := rest % nanosPerSecond }

/-! ## Layouts -/

/-- The parts of a layout.  `fraction` is `.999999999`, `zoneName` is `MST`, `zoneColon`
is `-07:00`, `zoneHour` is `-07`, and `zoneISO` is `Z07:00`. -/
inductive Item where
  | year
  | month
  | day
  | hour
  | minute
  | second
  | fraction
  | zoneName
  | zoneColon
  | zoneHour
  | zoneISO
  | lit (c : Char)
deriving Repr, DecidableEq

abbrev Layout := List Item

def isDigit (c : Char) : Bool := '0' ≤ c && c ≤ '9'

def digit (c : Char) : Nat := c.toNat - '0'.toNat

def number (ds : List Char) : Nat := ds.foldl (fun n c => n * 10 + digit c) 0

/-! ## Formatting -/

/-- `appendInt`: a number with at least `width` digits, after a sign if it is negative. -/
def pad (width : Nat) (n : Int) : List Char :=
  let ds := (Nat.toDigits 10 n.natAbs)
  (if n < 0 then ['-'] else []) ++ List.replicate (width - ds.length) '0' ++ ds

/-- The fraction with its trailing zeros removed, and nothing for zero. -/
def fractionText (nanosecond : Int) : List Char :=
  let ds := ((pad 9 nanosecond).reverse.dropWhile (· == '0')).reverse
  if ds.isEmpty then [] else '.' :: ds

def formatItem (c : Civil) : Item → List Char
  | .year => pad 4 c.year
  | .month => pad 2 c.month
  | .day => pad 2 c.day
  | .hour => pad 2 c.hour
  | .minute => pad 2 c.minute
  | .second => pad 2 c.second
  | .fraction => fractionText c.nanosecond
  | .zoneName => ['U', 'T', 'C']
  | .zoneColon => ['+', '0', '0', ':', '0', '0']
  | .zoneHour => ['+', '0', '0']
  | .zoneISO => ['Z']
  | .lit ch => [ch]

/-- `Time.UTC().Format`. -/
def format (layout : Layout) (t : Int) : String :=
  String.ofList (layout.flatMap (formatItem (civil t)))

/-! ## Parsing -/

/-- What has been read so far.  `offset` is the zone's distance to UTC in seconds. -/
structure Reading where
  civil : Civil := ⟨0, 1, 1, 0, 0, 0, 0⟩
  offset : Int := 0

/-- `getnum`: two digits, or one where the layout allows it. -/
def getnum (fixed : Bool) : List Char → Option (Nat × List Char)
  | a :: b :: s =>
    if !isDigit a then none
    else if isDigit b then some (digit a * 10 + digit b, s)
    else if fixed then none
    else some (digit a, b :: s)
  | [a] => if isDigit a && !fixed then some (digit a, []) else none
  | [] => none

def isPoint (c : Char) : Bool := c == '.' || c == ','

/-- `parseNanoseconds` on the digits after the point; digits past the ninth are ignored. -/
def nanoseconds (ds : List Char) : Nat :=
  let ds := ds.take 9
  number ds * 10 ^ (9 - ds.length)

/-- A fraction of a second, if there is one. -/
def readFraction (s : List Char) : Option (Nat × List Char) :=
  match s with
  | p :: d :: rest =>
    if isPoint p && isDigit d then
      some (nanoseconds ((d :: rest).takeWhile isDigit), (d :: rest).dropWhile isDigit)
    else none
  | _ => none

/-- The offset that a sign, two digits of hours and two of minutes denote. -/
def zoneOffset (sign h1 h2 m1 m2 : Char) : Option Int :=
  if isDigit h1 && isDigit h2 && isDigit m1 && isDigit m2 then
    let hours := digit h1 * 10 + digit h2
    let minutes := digit m1 * 10 + digit m2
    if 24 < hours || 60 < minutes then none
    else
      let seconds : Int := (hours * 60 + minutes) * 60
      if sign == '+' then some seconds else if sign == '-' then some (-seconds) else none
  else none

/-- `parseSignedOffset`: how many characters a signed number of hours takes, zero for none. -/
def signedOffsetLength : List Char → Nat
  | sign :: s =>
    if sign == '+' || sign == '-' then
      let ds := s.takeWhile isDigit
      if ds.isEmpty || 23 < number ds then 0 else 1 + ds.length
    else 0
  | [] => 0

/-- `parseTimeZone`: the length of a zone abbreviation. -/
def zoneNameLength (s : List Char) : Option Nat :=
  if s.length < 3 then none
  else if s.take 4 == ['C', 'h', 'S', 'T'] || s.take 4 == ['M', 'e', 'S', 'T'] then some 4
  else if s.take 3 == ['G', 'M', 'T'] then some (3 + signedOffsetLength (s.drop 3))
  else if s.head? == some '+' || s.head? == some '-' then
    let n := signedOffsetLength s
    if n == 0 then none else some n
  else
    match ((s.take 6).takeWhile fun c => 'A' ≤ c && c ≤ 'Z').length with
    | 3 => some 3
    | 4 => if s[3]? == some 'T' || s.take 4 == ['W', 'I', 'T', 'A'] then some 4 else none
    | 5 => if s[4]? == some 'T' then some 5 else none
    | _ => none

/-- One item of a layout.  After the seconds a fraction is read even where the layout
has none; `next` is the item that follows. -/
def readItem (p : Reading) (next : Option Item) (item : Item) (s : List Char) :
    Option (Reading × List Char) :=
  match item with
  | .year =>
    if s.length < 4 || !(s.take 4).all isDigit then none
    else some ({ p with civil := { p.civil with year := number (s.take 4) } }, s.drop 4)
  | .month => do
      let (n, s) ← getnum true s
      if n == 0 || 12 < n then none
      else some ({ p with civil := { p.civil with month := n } }, s)
  | .day => do
      let (n, s) ← getnum true s
      some ({ p with civil := { p.civil with day := n } }, s)
  | .hour => do
      let (n, s) ← getnum false s
      if 24 ≤ n then none else some ({ p with civil := { p.civil with hour := n } }, s)
  | .minute => do
      let (n, s) ← getnum true s
      if 60 ≤ n then none else some ({ p with civil := { p.civil with minute := n } }, s)
  | .second => do
      let (n, s) ← getnum true s
      if 60 ≤ n then none
      else
        let p := { p with civil := { p.civil with second := n } }
        if next == some .fraction then some (p, s)
        else
          match readFraction s with
          | some (ns, s) => some ({ p with civil := { p.civil with nanosecond := ns } }, s)
          | none => some (p, s)
  | .fraction =>
    match readFraction s with
    | some (ns, s) => some ({ p with civil := { p.civil with nanosecond := ns } }, s)
    | none => some (p, s)
  | .zoneName =>
    if s.take 3 == ['U', 'T', 'C'] then some (p, s.drop 3)
    else (zoneNameLength s).map fun n => (p, s.drop n)
  | .zoneColon =>
    match s with
    | sign :: h1 :: h2 :: ':' :: m1 :: m2 :: s =>
      (zoneOffset sign h1 h2 m1 m2).map fun o => ({ p with offset := o }, s)
    | _ => none
  | .zoneHour =>
    match s with
    | sign :: h1 :: h2 :: s =>
      (zoneOffset sign h1 h2 '0' '0').map fun o => ({ p with offset := o }, s)
    | _ => none
  | .zoneISO =>
    match s with
    | 'Z' :: s => some (p, s)
    | sign :: h1 :: h2 :: ':' :: m1 :: m2 :: s =>
      (zoneOffset sign h1 h2 m1 m2).map fun o => ({ p with offset := o }, s)
    | _ => none
  | .lit ' ' =>
    -- a blank of the layout takes any number of blanks, and none at the end
    match s with
    | [] => some (p, [])
    | c :: _ => if c == ' ' then some (p, s.dropWhile (· == ' ')) else none
  | .lit ch =>
    match s with
    | c :: s => if c == ch then some (p, s) else none
    | [] => none

def readItems (p : Reading) : Layout → List Char → Option Reading
  | [], s => if s.isEmpty then some p else none
  | item :: items, s =>
    match readItem p items.head? item s with
    | some (p, s) => readItems p items s
    | none => none

/-- `time.Parse`; `none` stands for its error. -/
def parse (layout : Layout) (s : List Char) : Option Int :=
  match readItems {} layout s with
  | none => none
  | some p =>
    if p.civil.day < 1 || daysIn p.civil.year p.civil.month < p.civil.day then none
    else some (p.civil.instant - p.offset * nanosPerSecond)

end GoTime
