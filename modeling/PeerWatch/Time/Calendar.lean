/-!
# Dates and times of day

Seconds since the start of 1970 as dates of the Gregorian calendar, extended in both directions.
Only instants in the years from -262143 to 262142 have a date.
-/

namespace PeerWatch.Time

/-- A day of the calendar. -/
structure Date where
  year : Int
  month : Nat
  day : Nat
  deriving DecidableEq, Repr

/-- The days from the start of 1970 to a date. A year is counted from March, so that the day that
leap years add is its last. -/
def Date.toDays (d : Date) : Int :=
  let y := if d.month ≤ 2 then d.year - 1 else d.year
  let era := y.fdiv 400
  let yearOfEra := y - era * 400
  let monthFromMarch := (d.month + 9) % 12
  let dayOfYear : Int := (153 * monthFromMarch + 2) / 5 + d.day - 1
  let dayOfEra := yearOfEra * 365 + yearOfEra / 4 - yearOfEra / 100 + dayOfYear
  era * 146097 + dayOfEra - 719468

/-- The date that lies a number of days after the start of 1970. -/
def Date.ofDays (days : Int) : Date :=
  let z := days + 719468
  let era := z.fdiv 146097
  let dayOfEra := (z - era * 146097).toNat
  let yearOfEra := (dayOfEra - dayOfEra / 1460 + dayOfEra / 36524 - dayOfEra / 146096) / 365
  let dayOfYear := dayOfEra - (365 * yearOfEra + yearOfEra / 4 - yearOfEra / 100)
  let monthFromMarch := (5 * dayOfYear + 2) / 153
  let day := dayOfYear - (153 * monthFromMarch + 2) / 5 + 1
  let month := if monthFromMarch < 10 then monthFromMarch + 3 else monthFromMarch - 9
  let year := (yearOfEra : Int) + era * 400 + (if month ≤ 2 then 1 else 0)
  ⟨year, month, day⟩

def secondsPerDay : Int := 86400

def firstSecond : Int := (Date.mk (-262143) 1 1).toDays * secondsPerDay

def lastSecond : Int := ((Date.mk 262142 12 31).toDays + 1) * secondsPerDay - 1

def hasDate (second : Int) : Bool := firstSecond ≤ second && second ≤ lastSecond

/-! ## Text -/

/-- A number padded with zeros to at least `width` digits. -/
def padded (width n : Nat) : List Char :=
  let digits := Nat.toDigits 10 n
  List.replicate (width - digits.length) '0' ++ digits

/-- A year: four digits at least, with a sign outside the years 0 to 9999. -/
def yearText (year : Int) : List Char :=
  if year < 0 then '-' :: padded 4 year.natAbs
  else if year > 9999 then '+' :: padded 4 year.natAbs
  else padded 4 year.natAbs

/-- The time of day of a second, as `HH:MM:SS`. -/
def clockText (second : Int) : List Char :=
  let s := (second.fmod secondsPerDay).toNat
  padded 2 (s / 3600) ++ ':' :: padded 2 (s / 60 % 60) ++ ':' :: padded 2 (s % 60)

/-- A second as `YYYY-MM-DD HH:MM:SS` in a zone that lies `offset` seconds east, if it has a date.
-/
def stamp? (second offset : Int) : Option String :=
  if hasDate second then
    let local_ := second + offset
    let date := Date.ofDays (local_.fdiv secondsPerDay)
    some (String.ofList (yearText date.year ++ '-' :: padded 2 date.month ++ '-' ::
      padded 2 date.day ++ ' ' :: clockText local_))
  else none

/-- A moment in microseconds since the start of 1970, as `YYYY-MM-DDTHH:MM:SS.FFFFFFZ`. -/
def preciseStamp (micros : Nat) : String :=
  let second : Int := (micros / 1000000 : Nat)
  let date := Date.ofDays (second.fdiv secondsPerDay)
  String.ofList (yearText date.year ++ '-' :: padded 2 date.month ++ '-' :: padded 2 date.day
    ++ 'T' :: clockText second ++ '.' :: padded 6 (micros % 1000000) ++ ['Z'])

/-- The days of the week from Thursday on, the day on which 1970 began. -/
def weekdays : List String := ["Thu", "Fri", "Sat", "Sun", "Mon", "Tue", "Wed"]

def months : List String :=
  ["Jan", "Feb", "Mar", "Apr", "May", "Jun", "Jul", "Aug", "Sep", "Oct", "Nov", "Dec"]

def headerDate (second : Int) : String :=
  let days := second.fdiv secondsPerDay
  let date := Date.ofDays days
  weekdays.getD (days.fmod 7).toNat "" ++ ", " ++ String.ofList (padded 2 date.day) ++ " "
    ++ months.getD (date.month - 1) "" ++ " " ++ String.ofList (yearText date.year) ++ " "
    ++ String.ofList (clockText second) ++ " GMT"

end PeerWatch.Time
