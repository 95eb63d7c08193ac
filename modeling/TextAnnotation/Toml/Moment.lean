/-!
Dates and times of day, as TOML has them.
-/

namespace TextAnnotation.Toml

/-- A day of the Gregorian calendar. -/
structure Date where
  year : Nat
  month : Nat
  day : Nat
deriving DecidableEq, Repr

structure TimeOfDay where
  hour : Nat
  minute : Nat
  second : Nat
  nanosecond : Nat := 0
deriving DecidableEq, Repr

/-- The distance of a local time from universal time. -/
inductive TimeOffset where
  | universal
  | minutes (value : Int)
deriving DecidableEq, Repr

/-- A date, a time of day, or both; with both there may be an offset. -/
inductive Moment where
  | date (date : Date)
  | time (time : TimeOfDay)
  | dateTime (date : Date) (time : TimeOfDay) (offset? : Option TimeOffset)
deriving DecidableEq, Repr

def isLeapYear (year : Nat) : Bool := year % 4 == 0 && (year % 100 != 0 || year % 400 == 0)

/-- The number of days of a month. -/
def daysIn (year month : Nat) : Nat :=
  if month = 2 then if isLeapYear year then 29 else 28
  else if [4, 6, 9, 11].contains month then 30
  else 31

/-- A number with zeros before it, up to `width` digits. -/
def padded (width n : Nat) : String :=
  let digits := Nat.toDigits 10 n
  String.ofList (List.replicate (width - digits.length) '0' ++ digits)

def Date.render (date : Date) : String :=
  padded 4 date.year ++ "-" ++ padded 2 date.month ++ "-" ++ padded 2 date.day

/-- A time of day, with the fraction of its second unless that is zero. -/
def TimeOfDay.render (time : TimeOfDay) : String :=
  padded 2 time.hour ++ ":" ++ padded 2 time.minute ++ ":" ++ padded 2 time.second ++
    if time.nanosecond = 0 then ""
    else
      let digits := (padded 9 time.nanosecond).toList.reverse.dropWhile (· == '0')
      "." ++ String.ofList digits.reverse

def TimeOffset.render : TimeOffset → String
  | .universal => "Z"
  | .minutes value =>
    (if value < 0 then "-" else "+") ++ padded 2 (value.natAbs / 60) ++ ":" ++ padded 2 (value.natAbs % 60)

def Moment.render : Moment → String
  | .date day => day.render
  | .time hour => hour.render
  | .dateTime day hour offset? =>
    day.render ++ "T" ++ hour.render ++ (offset?.map TimeOffset.render).getD ""

end TextAnnotation.Toml
