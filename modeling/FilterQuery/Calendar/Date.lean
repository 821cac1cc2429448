import FilterQuery.Text

/-!
# Dates and times of day

Dates follow the Gregorian calendar, extended to the years before its adoption, with four digit
years from 0000 on.  A date and time adds a time of day, in which the sixtieth second of any
minute may be a leap second.
-/

namespace FilterQuery

/-- Whether a year has a twenty-ninth of February. -/
def isLeapYear (year : Nat) : Bool :=
  year % 4 == 0 && (year % 100 != 0 || year % 400 == 0)

/-- The number of days in a month, zero when there is no such month. -/
def daysInMonth (year month : Nat) : Nat :=
  match month with
  | 2 => if isLeapYear year then 29 else 28
  | 4 | 6 | 9 | 11 => 30
  | 1 | 3 | 5 | 7 | 8 | 10 | 12 => 31
  | _ => 0

/-- A day of the calendar. -/
structure Date where
  year : Nat
  month : Nat
  day : Nat
  year_le : year ≤ 9999
  day_pos : 1 ≤ day
  day_le : day ≤ daysInMonth year month
  deriving DecidableEq

namespace Date

/-- The day with a given year, month and day of the month, if there is one. -/
def ofParts? (year month day : Nat) : Option Date :=
  if valid : year ≤ 9999 ∧ 1 ≤ day ∧ day ≤ daysInMonth year month then
    some ⟨year, month, day, valid.1, valid.2.1, valid.2.2⟩
  else none

/-- Read a date of the form `2024-01-31`. -/
def ofChars? : List Char → Option Date
  | [y₁, y₂, y₃, y₄, '-', m₁, m₂, '-', d₁, d₂] => do
      ofParts? (← readDigits? [y₁, y₂, y₃, y₄]) (← readDigits? [m₁, m₂]) (← readDigits? [d₁, d₂])
  | _ => none

/-- The text of a date. -/
def toChars (date : Date) : List Char :=
  paddedDigits 4 date.year ++ '-' :: paddedDigits 2 date.month ++ '-' :: paddedDigits 2 date.day

end Date

/-- A day together with a time of day. -/
structure DateTime where
  date : Date
  hour : Nat
  minute : Nat
  second : Nat
  hour_le : hour ≤ 23
  minute_le : minute ≤ 59
  second_le : second ≤ 60
  deriving DecidableEq

namespace DateTime

/-- A day with a given time of day, if there is such a time. -/
def ofParts? (date : Date) (hour minute second : Nat) : Option DateTime :=
  if valid : hour ≤ 23 ∧ minute ≤ 59 ∧ second ≤ 60 then
    some ⟨date, hour, minute, second, valid.1, valid.2.1, valid.2.2⟩
  else none

/-- Read the time of day that follows a date, of the form `09:30` or `09:30:15`. -/
def readTime? (date : Date) : List Char → Option DateTime
  | [h₁, h₂, ':', m₁, m₂] => do
      ofParts? date (← readDigits? [h₁, h₂]) (← readDigits? [m₁, m₂]) 0
  | [h₁, h₂, ':', m₁, m₂, ':', s₁, s₂] => do
      ofParts? date (← readDigits? [h₁, h₂]) (← readDigits? [m₁, m₂]) (← readDigits? [s₁, s₂])
  | _ => none

/-- Read a date and time of the form `2024-01-31 09:30` or `2024-01-31 09:30:15`. -/
def ofChars? (text : List Char) : Option DateTime :=
  match text.drop 10 with
  | ' ' :: time => (Date.ofChars? (text.take 10)).bind (readTime? · time)
  | _ => none

/-- The text of a date and time, seconds included. -/
def toChars (moment : DateTime) : List Char :=
  moment.date.toChars ++ ' ' :: paddedDigits 2 moment.hour ++ ':' ::
    paddedDigits 2 moment.minute ++ ':' :: paddedDigits 2 moment.second

end DateTime

end FilterQuery
