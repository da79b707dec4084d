import CurrencyPad.Decimal.Basic

/-!
# Times of events

Events are dated in Coordinated Universal Time with microseconds, in the
extended format of calendar dates, so that the order of the texts is the order
in time.
-/

namespace CurrencyPad.Time

def padded (width number : Nat) : Text :=
  let digits := Decimal.digits number
  List.replicate (width - digits.length) '0' ++ digits

/-- The year, month and day of a number of days since the first of March of the
year 0. Years are counted from March, so that a leap day is the last day of a
year. -/
def calendarDate (days : Nat) : Nat × Nat × Nat :=
  let era := days / 146097
  let dayOfEra := days % 146097
  let yearOfEra :=
    (dayOfEra - dayOfEra / 1460 + dayOfEra / 36524 - dayOfEra / 146096) / 365
  let dayOfYear := dayOfEra - (365 * yearOfEra + yearOfEra / 4 - yearOfEra / 100)
  let monthFromMarch := (5 * dayOfYear + 2) / 153
  let day := dayOfYear - (153 * monthFromMarch + 2) / 5 + 1
  let month :=
    if monthFromMarch < 10 then monthFromMarch + 3 else monthFromMarch - 9
  let year := 400 * era + yearOfEra + (if month ≤ 2 then 1 else 0)
  (year, month, day)

/-- The days from the first of March of the year 0 to the first of January
1970. -/
def daysToEpoch : Nat := 719468

/-- The text of a time that is given in microseconds since the first of January
1970. -/
def text (microseconds : Nat) : Text :=
  let seconds := microseconds / 1000000
  let (year, month, day) := calendarDate (seconds / 86400 + daysToEpoch)
  let second := seconds % 86400
  padded 4 year ++ '-' :: padded 2 month ++ '-' :: padded 2 day ++
    'T' :: padded 2 (second / 3600) ++ ':' :: padded 2 (second / 60 % 60) ++
    ':' :: padded 2 (second % 60) ++
    '.' :: padded 6 (microseconds % 1000000) ++ ['Z']

end CurrencyPad.Time
