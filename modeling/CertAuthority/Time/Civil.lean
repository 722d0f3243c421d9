/-!
# Civil time

Times are seconds since the start of 1970, without leap seconds. Certificates show them as year,
month, day, hour, minute and second of the Gregorian calendar.
-/

namespace CertAuthority

/-- A second of the calendar. -/
structure Civil where
  year : Nat
  month : Nat
  /-- The day of the month, from one. -/
  day : Nat
  hour : Nat
  minute : Nat
  second : Nat
deriving DecidableEq, Repr

namespace Civil

/-- Whether a year has a leap day. -/
def isLeap (year : Nat) : Bool :=
  year % 4 = 0 && (year % 100 != 0 || year % 400 = 0)

/-- How many days a month has. -/
def monthDays (year month : Nat) : Nat :=
  if month = 2 then if isLeap year then 29 else 28
  else if month = 4 || month = 6 || month = 9 || month = 11 then 30
  else 31

/-- How many days of a year come before a month. -/
def daysBeforeMonth (year month : Nat) : Nat :=
  (List.range (month - 1)).foldl (fun days m => days + monthDays year (m + 1)) 0

/-- How many days from the start of the calendar come before a year. -/
def daysBeforeYear (year : Nat) : Nat :=
  365 * (year - 1) + (year - 1) / 4 - (year - 1) / 100 + (year - 1) / 400

/-- How many days come before the first of January 1970. The number is not unfolded by itself, as it
would be counted down one by one. -/
@[irreducible] def epochDays : Nat :=
  daysBeforeYear 1970

/-- Whether all parts are in their ranges and the year is not before 1970. -/
def isValid (c : Civil) : Bool :=
  1970 ≤ c.year && 1 ≤ c.month && c.month ≤ 12 && 1 ≤ c.day && c.day ≤ monthDays c.year c.month &&
    c.hour ≤ 23 && c.minute ≤ 59 && c.second ≤ 59

/-- The seconds from the start of 1970 to a calendar time. -/
def toSeconds (c : Civil) : Nat :=
  (((daysBeforeYear c.year + daysBeforeMonth c.year c.month + (c.day - 1) - epochDays) * 24 + c.hour) *
    60 + c.minute) * 60 + c.second

/-- The month and day of a day of a year; days are counted from zero, months from the given one. -/
def monthAndDay (year : Nat) : Nat → Nat → Nat → Nat × Nat
  | 0, month, day => (month, day + 1)
  | n + 1, month, day =>
    if day < monthDays year month then (month, day + 1)
    else monthAndDay year n (month + 1) (day - monthDays year month)

/-- The year in which a day is. Days are counted from the first of January of the year one. The
estimate from the mean length of years is too small by at most one. -/
def yearOf (days : Nat) : Nat :=
  let estimate := days * 400 / 146097 + 1
  if days < daysBeforeYear estimate then estimate - 1
  else if daysBeforeYear (estimate + 1) ≤ days then estimate + 1
  else estimate

/-- The year, the month and the day of the month of a day. Days are counted from the first of January
of the year one. -/
def dateOf (days : Nat) : Nat × Nat × Nat :=
  (yearOf days, monthAndDay (yearOf days) 11 1 (days - daysBeforeYear (yearOf days)))

/-- The time of day of a second, on a date. -/
def onDate (date : Nat × Nat × Nat) (seconds : Nat) : Civil :=
  { year := date.1, month := date.2.1, day := date.2.2, hour := seconds / 3600 % 24,
    minute := seconds / 60 % 60, second := seconds % 60 }

/-- The calendar time of a second. -/
def ofSeconds (seconds : Nat) : Civil :=
  onDate (dateOf (seconds / 86400 + epochDays)) seconds

/-- The number that the octets of two decimal digits write. -/
def twoDigits? (a b : UInt8) : Option Nat :=
  if 48 ≤ a && a ≤ 57 && 48 ≤ b && b ≤ 57 then some ((a.toNat - 48) * 10 + (b.toNat - 48)) else none

end Civil

end CertAuthority
