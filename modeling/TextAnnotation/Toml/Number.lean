import TextAnnotation.Toml.Reader
import TextAnnotation.Toml.Value

/-!
Numbers, dates and times of TOML documents.
-/

namespace TextAnnotation.Toml

open Reader

def isDigit (c : Char) : Bool := '0' ≤ c && c ≤ '9'

/-- The number that digits spell to a base. -/
def ofDigits (base : Nat) (digits : List Char) : Nat :=
  digits.foldl (fun n c =>
    base * n +
      if isDigit c then c.toNat - '0'.toNat
      else if 'a' ≤ c then c.toNat - 'a'.toNat + 10
      else c.toNat - 'A'.toNat + 10) 0

/-- The digits after the first of a number and what follows them. An underscore may stand between two
digits. -/
def moreDigits (property : Char → Bool) : List Char → Option (List Char × List Char)
  | '_' :: c :: cs =>
    if property c then (moreDigits property cs).map fun (digits, rest) => (c :: digits, rest) else none
  | ['_'] => none
  | c :: cs =>
    if property c then (moreDigits property cs).map fun (digits, rest) => (c :: digits, rest)
    else some ([], c :: cs)
  | [] => some ([], [])

/-- Digits, at least one. -/
def digits (property : Char → Bool) : Reader (List Char) := do
  let first ← one property
  return first :: (← moreDigits property)

/-- Decimal digits that do not begin with a zero, unless that is all. -/
def wholeDigits : Reader (List Char) := do
  if ← accept "0" then return ['0'] else digits isDigit

/-- A sign, and whether it is a minus. -/
def sign : Reader Bool := do
  if ← accept "-" then return true
  else
    let _ ← accept "+"
    return false

/-- An integer in the range of 64 bits. -/
def integer (negative : Bool) (magnitude : Nat) : Reader Value :=
  if magnitude < Nat.pow 2 63 + (if negative then 1 else 0) then
    return .integer (if negative then -magnitude else magnitude)
  else failure

def isHexDigit (c : Char) : Bool := isDigit c || ('a' ≤ c && c ≤ 'f') || ('A' ≤ c && c ≤ 'F')

/-- A power of ten, after its mark. -/
def exponent : Reader Int := do
  let negative ← sign
  let value := ofDigits 10 (← digits isDigit)
  return if negative then -value else value

/-- The digits after a point, if there is one. -/
def fraction? : Reader (Option (List Char)) := do
  if ← accept "." then some <$> digits isDigit else return none

/-- The power of ten after its mark, if there is one. -/
def exponent? : Reader (Option Int) := do
  if ← acceptOne (fun c => c == 'e' || c == 'E') then some <$> exponent else return none

/-- The number of some digits: an integer unless it has a fraction or an exponent. No fraction is too large for
the range of floats. -/
def numberOf (negative : Bool) (whole : List Char) : Option (List Char) → Option Int → Reader Value
  | none, none => integer negative (ofDigits 10 whole)
  | fraction?, exponent? =>
    let fraction := fraction?.getD []
    let value := Decimal.Binary64.ofDecimal negative (ofDigits 10 (whole ++ fraction))
      (exponent?.getD 0 - fraction.length)
    if value = .infinite false then failure else return .float value

/-- A decimal number. -/
def decimal (negative : Bool) : Reader Value := do
  numberOf negative (← wholeDigits) (← fraction?) (← exponent?)

def number : Reader Value := do
  if ← accept "0x" then integer false (ofDigits 16 (← digits isHexDigit))
  else if ← accept "0o" then integer false (ofDigits 8 (← digits fun c => '0' ≤ c && c ≤ '7'))
  else if ← accept "0b" then integer false (ofDigits 2 (← digits fun c => c == '0' || c == '1'))
  else
    let negative ← sign
    if ← accept "inf" then return .float (.infinite negative)
    else if ← accept "nan" then return .float .notANumber
    else decimal negative

/-- A number of exactly so many digits. -/
def fixedDigits (count : Nat) : Reader Nat := do
  return ofDigits 10 (← (List.range count).mapM fun _ => one isDigit)

/-- A number of two digits between bounds. -/
def twoDigits (least most : Nat) : Reader Nat := do
  let n ← fixedDigits 2
  if least ≤ n ∧ n ≤ most then return n else failure

def date : Reader Date := do
  let year ← fixedDigits 4
  expect "-"
  let month ← twoDigits 1 12
  expect "-"
  let day ← twoDigits 1 (daysIn year month)
  return { year, month, day }

/-- A fraction of a second in nanoseconds; what is finer is cut off. -/
def nanoseconds : Reader Nat := do
  let first ← one isDigit
  let cs := (first :: (← takeWhile isDigit)).take 9
  return ofDigits 10 cs * Nat.pow 10 (9 - cs.length)

/-- A time of day. The second may be a leap second. -/
def timeOfDay : Reader TimeOfDay := do
  let hour ← twoDigits 0 23
  expect ":"
  let minute ← twoDigits 0 59
  expect ":"
  let second ← twoDigits 0 60
  let nanosecond ← if ← accept "." then nanoseconds else pure 0
  return { hour, minute, second, nanosecond }

def timeOffset? : Reader (Option TimeOffset) := do
  if ← acceptOne (fun c => c == 'Z' || c == 'z') then return some .universal
  else if ((← peek?).any fun c => c == '+' || c == '-') then
    let negative ← sign
    let hour ← twoDigits 0 23
    expect ":"
    let minute ← twoDigits 0 59
    let minutes : Int := hour * 60 + minute
    return some (.minutes (if negative then -minutes else minutes))
  else return none

/-- A date, with a time of day after it if one follows. -/
def dated : Reader Moment := do
  let date ← date
  timed date <|> pure (.date date)
where
  /-- The time of day on a date. -/
  timed (date : Date) : Reader Moment := do
    let _ ← one fun c => c == 'T' || c == 't' || c == ' '
    let time ← timeOfDay
    return .dateTime date time (← timeOffset?)

def moment : Reader Moment := dated <|> (.time <$> timeOfDay)

/-- Whatever begins with a digit or a sign. -/
def numeric : Reader Value := (.moment <$> moment) <|> number

end TextAnnotation.Toml
