import GeoLint.Decimal.Basic

/-!
# Dates and times

A `Moment` is a date, a time of day, or both, the latter with or without a distance from
universal time.  `Moment.read?` reads one at the start of a text, as in `1979-05-27`, `07:32:00.5`
and `1979-05-27T07:32:00-08:00`; `Moment.shown` is the form that messages use.
-/

namespace GeoLint

/-- A day of the calendar. -/
structure Date where
  /-- The year. -/
  year : Nat
  /-- The month, from 1. -/
  month : Nat
  /-- The day of the month, from 1. -/
  day : Nat
deriving DecidableEq, Repr

/-- A time of day. -/
structure Clock where
  /-- The hour. -/
  hour : Nat
  /-- The minute. -/
  minute : Nat
  /-- The second. -/
  second : Nat
  /-- The millionths of a second. -/
  micro : Nat
deriving DecidableEq, Repr

/-- A date, a time of day, or both. -/
inductive Moment where
  /-- A date. -/
  | date (d : Date)
  /-- A time of day. -/
  | clock (t : Clock)
  /-- A date and a time of day, with the minutes ahead of universal time if they are given. -/
  | stamp (d : Date) (t : Clock) (offset : Option Int)
deriving DecidableEq, Repr

namespace Date

/-- The year has a 29th of February. -/
def isLeap (year : Nat) : Bool :=
  year % 4 == 0 && (year % 100 != 0 || year % 400 == 0)

/-- The number of days of a month. -/
def daysIn (year month : Nat) : Nat :=
  if month = 2 then if isLeap year then 29 else 28
  else if [4, 6, 9, 11].contains month then 30
  else 31

/-- The calendar has this day. -/
def exists? (d : Date) : Bool :=
  1 ≤ d.year && d.day ≤ daysIn d.year d.month

end Date

namespace Moment

/-! ### Reading -/

/-- A number of exactly `width` digits between two bounds, and the text behind it. -/
def number? (width least greatest : Nat) (cs : List Char) : Option (Nat × List Char) :=
  let ds := cs.take width
  let n := Decimal.ofDigits ds
  if ds.length = width && ds.all Decimal.isDigit && least ≤ n && n ≤ greatest then
    some (n, cs.drop width)
  else none

/-- The text behind a character. -/
def after? (c : Char) : List Char → Option (List Char)
  | d :: cs => if d = c then some cs else none
  | [] => none

/-- A fraction of a second in millionths, and the text behind it.  Further digits are dropped. -/
def fraction : List Char → Nat × List Char
  | '.' :: cs =>
    let ds := cs.takeWhile Decimal.isDigit
    if ds.isEmpty then (0, '.' :: cs)
    else
      let kept := ds.take 6
      (Decimal.ofDigits kept * Decimal.tenTo (6 - kept.length), cs.drop ds.length)
  | cs => (0, cs)

/-- A time of day and the text behind it. -/
def clock? (cs : List Char) : Option (Clock × List Char) := do
  let (hour, cs) ← number? 2 0 23 cs
  let (minute, cs) ← number? 2 0 59 (← after? ':' cs)
  let (second, cs) ← number? 2 0 59 (← after? ':' cs)
  let (micro, cs) := fraction cs
  return (⟨hour, minute, second, micro⟩, cs)

/-- A date and the text behind it.  The day may lie beyond the end of its month. -/
def date? (cs : List Char) : Option (Date × List Char) := do
  let (year, cs) ← number? 4 0 9999 cs
  let (month, cs) ← number? 2 1 12 (← after? '-' cs)
  let (day, cs) ← number? 2 1 31 (← after? '-' cs)
  return (⟨year, month, day⟩, cs)

/-- Hours and minutes, in minutes, and the text behind them. -/
def span? (cs : List Char) : Option (Nat × List Char) := do
  let (hours, cs) ← number? 2 0 23 cs
  let (minutes, cs) ← number? 2 0 59 (← after? ':' cs)
  return (60 * hours + minutes, cs)

/-- The distance from universal time, if one is written here, and the text behind it. -/
def offset (cs : List Char) : Option Int × List Char :=
  match cs with
  | [] => (none, cs)
  | c :: rest =>
    if c = 'Z' || c = 'z' then (some 0, rest)
    else
      match c, span? rest with
      | '+', some (n, rest) => (some n, rest)
      | '-', some (n, rest) => (some (-n), rest)
      | _, _ => (none, cs)

/-- What stands behind a date: a mark and a time of day with its distance from universal time. -/
def timeBehind? : List Char → Option (Clock × Option Int × List Char)
  | mark :: cs =>
    if mark = 'T' || mark = 't' || mark = ' ' then
      (clock? cs).map fun (t, cs) => (t, offset cs)
    else none
  | [] => none

/-- The moment at the start of a text and the text behind it. -/
def read? (cs : List Char) : Option (Moment × List Char) :=
  match date? cs with
  | some (d, cs) =>
    match timeBehind? cs with
    | some (t, o, cs) => some (.stamp d t o, cs)
    | none => some (.date d, cs)
  | none => (clock? cs).map fun (t, cs) => (.clock t, cs)

/-- The calendar has the day of the moment. -/
def exists? : Moment → Bool
  | .date d | .stamp d _ _ => d.exists?
  | .clock _ => true

/-! ### Showing -/

/-- Numbers in brackets behind a name. -/
def call (name : String) (parts : List String) : String :=
  s!"datetime.{name}(" ++ ", ".intercalate parts ++ ")"

/-- The parts of a date. -/
def dateParts (d : Date) : List String :=
  [toString d.year, toString d.month, toString d.day]

/-- The parts of a time of day.  Seconds are left out if nothing but zeros would follow. -/
def clockParts (t : Clock) : List String :=
  [toString t.hour, toString t.minute] ++
    if t.micro ≠ 0 then [toString t.second, toString t.micro]
    else if t.second ≠ 0 then [toString t.second]
    else []

/-- A distance from universal time: whole days, rounded down, and the seconds beyond them. -/
def offsetText (minutes : Int) : String :=
  if minutes = 0 then "datetime.timezone.utc"
  else
    let days := minutes.fdiv 1440
    let seconds := 60 * minutes.fmod 1440
    let parts := (if days = 0 then [] else [s!"days={days}"]) ++
      (if seconds = 0 then [] else [s!"seconds={seconds}"])
    call "timezone" [call "timedelta" parts]

/-- The moment as a message shows it. -/
def shown : Moment → String
  | .date d => call "date" (dateParts d)
  | .clock t => call "time" (clockParts t)
  | .stamp d t o =>
    let zone := match o with
      | some minutes => ["tzinfo=" ++ offsetText minutes]
      | none => []
    call "datetime" (dateParts d ++ clockParts t ++ zone)

end Moment

end GeoLint
