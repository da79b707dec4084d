import CurrencyPad.Decimal.Reading
import CurrencyPad.Text.Basic

/-!
# Dates and times in YAML

A date is written `2024-01-31`. A time may follow it, with a fraction of a
second and an offset from Coordinated Universal Time; then month and day may be
written with one digit.
-/

namespace CurrencyPad.Yaml

structure Date where
  year : Nat
  month : Nat
  day : Nat
deriving DecidableEq, Repr

structure Moment where
  date : Date
  hour : Nat
  minute : Nat
  second : Nat
  microsecond : Nat
  /-- The seconds by which the clock is ahead of Coordinated Universal Time, if
  that is told. -/
  offset : Option Int
deriving DecidableEq, Repr

inductive Timestamp where
  | date (date : Date)
  | moment (moment : Moment)
deriving DecidableEq, Repr

inductive TimestampFault where
  | year (year : Nat)
  | month
  | day
  | hour
  | minute
  | second
  /-- The offset, given in seconds, is a day or more. -/
  | offset (seconds : Int)
deriving DecidableEq, Repr

def daySeconds : Int := 86400

def numberText (value : Int) : Text :=
  Text.withSign (value < 0) (Decimal.digits value.natAbs)

/-- A span of seconds as messages show it: whole days, rounded down, and the
seconds left. -/
def spanText (seconds : Int) : Text :=
  let days := seconds.fdiv daySeconds
  let left := seconds.fmod daySeconds
  let dayText := if days = 0 then [] else ["days=".toList ++ numberText days]
  let leftText := if left = 0 then [] else ["seconds=".toList ++ numberText left]
  let parts := if days = 0 ∧ left = 0 then [['0']] else dayText ++ leftText
  "datetime.timedelta(".toList ++ Text.join ", ".toList parts ++ [')']

def offsetText (seconds : Int) : Text :=
  if seconds = 0 then "datetime.timezone.utc".toList
  else "datetime.timezone(".toList ++ spanText seconds ++ [')']

namespace TimestampFault

def message : TimestampFault → String
  | .year number => "year " ++ toString number ++ " is out of range"
  | .month => "month must be in 1..12"
  | .day => "day is out of range for month"
  | .hour => "hour must be in 0..23"
  | .minute => "minute must be in 0..59"
  | .second => "second must be in 0..59"
  | .offset seconds =>
    "offset must be a timedelta strictly between " ++
      "-timedelta(hours=24) and timedelta(hours=24), not " ++
      String.ofList (spanText seconds) ++ "."

end TimestampFault

namespace Date

def isLeapYear (year : Nat) : Bool :=
  year % 4 = 0 && (year % 100 != 0 || year % 400 = 0)

def monthLength (year month : Nat) : Nat :=
  if month = 2 then (if isLeapYear year then 29 else 28)
  else if month = 4 ∨ month = 6 ∨ month = 9 ∨ month = 11 then 30
  else 31

def check (date : Date) : Except TimestampFault Date :=
  if date.year = 0 then .error (.year date.year)
  else if date.month = 0 ∨ 12 < date.month then .error .month
  else if date.day = 0 ∨ monthLength date.year date.month < date.day then
    .error .day
  else .ok date

/-- The number of days before a date, counted from the first of March of the
year 0. -/
def dayNumber (date : Date) : Int :=
  let year := if date.month ≤ 2 then date.year - 1 else date.year
  let month := if date.month ≤ 2 then date.month + 9 else date.month - 3
  365 * year + year / 4 - year / 100 + year / 400 + (153 * month + 2) / 5 +
    date.day - 1

def numbers (date : Date) : List Nat :=
  [date.year, date.month, date.day]

end Date

def listed (numbers : List Nat) : Text :=
  Text.join ", ".toList (numbers.map Decimal.digits)

namespace Moment

def check (moment : Moment) : Except TimestampFault Moment := do
  match moment.offset with
  | some seconds =>
    if daySeconds ≤ seconds.natAbs then throw (.offset seconds)
  | none => pure ()
  discard moment.date.check
  if 23 < moment.hour then throw .hour
  if 59 < moment.minute then throw .minute
  if 59 < moment.second then throw .second
  return moment

/-- The microseconds before a moment, counted from the first of March of the
year 0 by its own clock, or by Coordinated Universal Time where the offset is
told. -/
def instant (moment : Moment) : Int :=
  let clock := moment.hour * 3600 + moment.minute * 60 + moment.second
  let seconds := moment.date.dayNumber * daySeconds + clock - moment.offset.getD 0
  seconds * 1000000 + moment.microsecond

/-- A moment as messages show it. Seconds are left out where they are zero. -/
def shown (moment : Moment) : Text :=
  let fractions := if moment.microsecond = 0 then [] else [moment.microsecond]
  let seconds :=
    if moment.second = 0 ∧ fractions.isEmpty then []
    else moment.second :: fractions
  let zone :=
    match moment.offset with
    | none => []
    | some offset => ", tzinfo=".toList ++ offsetText offset
  "datetime.datetime(".toList ++
    listed (moment.date.numbers ++ [moment.hour, moment.minute] ++ seconds) ++
      zone ++ [')']

end Moment

namespace Timestamp

def check : Timestamp → Except TimestampFault Timestamp
  | .date day => day.check.map .date
  | .moment time => time.check.map .moment

def shown : Timestamp → Text
  | .date day => "datetime.date(".toList ++ listed day.numbers ++ [')']
  | .moment time => time.shown

/-- The value of one or two digits at the start of a text, and the rest. -/
def shortNumber? (text : Text) : Option (Nat × Text) :=
  let digits := (text.takeWhile Text.isAsciiDigit).take 2
  if digits.isEmpty then none
  else some (Decimal.digitsValue digits, text.drop digits.length)

/-- The value of exactly so many digits at the start of a text, and the rest. -/
def fixedNumber? (count : Nat) (text : Text) : Option (Nat × Text) :=
  let digits := text.take count
  if digits.length = count ∧ digits.all Text.isAsciiDigit then
    some (Decimal.digitsValue digits, text.drop count)
  else none

/-- What follows a character at the start of a text. -/
def after? (c : Char) (text : Text) : Option Text :=
  match text with
  | first :: rest => if first = c then some rest else none
  | [] => none

/-- A blank or a tab. -/
def isGap (c : Char) : Bool :=
  c == ' ' || c == '\t'

/-- The offset at the end of a text in seconds, or nothing; the outer option
fails. -/
def offset? (text : Text) : Option (Option Int) :=
  match text.dropWhile isGap with
  | [] => if text.isEmpty then some none else none
  | ['Z'] => some (some 0)
  | sign :: rest => do
    if sign != '+' && sign != '-' then none
    let (hours, rest) ← shortNumber? rest
    let minutes ←
      match rest with
      | [] => some 0
      | rest => do
        let (minutes, rest) ← fixedNumber? 2 (← after? ':' rest)
        if rest.isEmpty then some minutes else none
    let seconds : Int := hours * 3600 + minutes * 60
    return some (if sign = '-' then -seconds else seconds)

/-- The microseconds of the fraction of a second at the start of a text, and the
rest. -/
def fraction (text : Text) : Nat × Text :=
  match text with
  | '.' :: rest =>
    let digits := (rest.takeWhile Text.isAsciiDigit).take 6
    (Decimal.digitsValue (digits ++ List.replicate (6 - digits.length) '0'),
      rest.dropWhile Text.isAsciiDigit)
  | _ => (0, text)

/-- What stands between a date and its time is passed over: a letter, or
blanks. -/
def timePart? (text : Text) : Option Text :=
  match text with
  | [] => none
  | c :: rest =>
    if c = 'T' ∨ c = 't' then some rest
    else if isGap c then some (rest.dropWhile isGap)
    else none

def moment? (date : Date) (text : Text) : Option Moment := do
  let (hour, rest) ← shortNumber? (← timePart? text)
  let (minute, rest) ← fixedNumber? 2 (← after? ':' rest)
  let (second, rest) ← fixedNumber? 2 (← after? ':' rest)
  let (microsecond, rest) := fraction rest
  let offset ← offset? rest
  return { date, hour, minute, second, microsecond, offset }

/-- The date at the start of a text, whether it is written out in full, and the
rest. -/
def date? (text : Text) : Option (Date × Bool × Text) := do
  let (year, rest) ← fixedNumber? 4 text
  let monthText ← after? '-' rest
  let (month, rest) ← shortNumber? monthText
  let dayText ← after? '-' rest
  let (day, rest) ← shortNumber? dayText
  let isFull :=
    (fixedNumber? 2 monthText).isSome && (fixedNumber? 2 dayText).isSome
  return (⟨year, month, day⟩, isFull, rest)

/-- The timestamp that a text spells, even if there is no such time. -/
def read? (text : Text) : Option Timestamp := do
  let (day, _, rest) ← date? text
  if rest.isEmpty then return .date day else return .moment (← moment? day rest)

/-- Whether a plain scalar is a timestamp: a date alone must be written out in
full. -/
def isPlain (text : Text) : Bool :=
  match date? text with
  | none => false
  | some (day, isFull, rest) =>
    if rest.isEmpty then isFull else (moment? day rest).isSome

end Timestamp

end CurrencyPad.Yaml
