import Interposition.Text.Scanner

/-!
# Interposition.Document.Toml.Moment — dates and times of TOML

A moment is a date, a time of day, or both with or without an offset. It is read as the text that
it is usually written as: `T` before the time, up to nine digits of a second and none that are
zero at their end.
-/

namespace Interposition.Toml

/-- A number of two digits in a range, as a text. -/
def scanTwoDigits (low high : Nat) : Scanner String := do
  let digits ← Scanner.take 2
  let n ← Text.numeral? 10 digits
  if low ≤ n ∧ n ≤ high then return String.ofList digits else failure

def isLeapYear (year : Nat) : Bool :=
  year % 4 = 0 && (year % 100 ≠ 0 || year % 400 = 0)

def daysIn (year month : Nat) : Nat :=
  if month = 2 then if isLeapYear year then 29 else 28
  else if month ∈ [4, 6, 9, 11] then 30
  else 31

def scanDate : Scanner String := do
  let year ← Scanner.take 4
  Scanner.expect "-"
  let month ← scanTwoDigits 1 12
  Scanner.expect "-"
  let days := daysIn (← Text.numeral? 10 year) (← Text.numeral? 10 month.toList)
  return String.ofList year ++ "-" ++ month ++ "-" ++ (← scanTwoDigits 1 days)

/-- The part of a second after its point, without zeros at its end. -/
def scanFraction : Scanner String := do
  unless ← Scanner.accept "." do return ""
  let digits ← Scanner.takeWhile Char.isDigit
  if digits.isEmpty then failure
  match ((digits.take 9).reverse.dropWhile (· = '0')).reverse with
  | [] => return ""
  | digits => return "." ++ String.ofList digits

/-- A time of day. A minute may have a leap second. -/
def scanTime : Scanner String := do
  let hour ← scanTwoDigits 0 23
  Scanner.expect ":"
  let minute ← scanTwoDigits 0 59
  Scanner.expect ":"
  let second ← scanTwoDigits 0 60
  return hour ++ ":" ++ minute ++ ":" ++ second ++ (← scanFraction)

/-- An offset, if there is one. One of nothing at all is positive. -/
def scanOffset : Scanner String := do
  if ← Scanner.acceptOneOf ["Z", "z"] then return "Z"
  let negative ← Scanner.looksAt "-"
  unless ← Scanner.acceptOneOf ["-", "+"] do return ""
  let hours ← scanTwoDigits 0 23
  Scanner.expect ":"
  let size := hours ++ ":" ++ (← scanTwoDigits 0 59)
  return (if negative && size ≠ "00:00" then "-" else "+") ++ size

/-- A time after a date, with what divides them, and an offset. -/
def scanTimeAfterDate : Scanner String := do
  unless ← Scanner.acceptOneOf ["T", "t", " "] do failure
  return "T" ++ (← scanTime) ++ (← scanOffset)

def scanMoment : Scanner String :=
  (do return (← scanDate) ++ (← scanTimeAfterDate <|> return "")) <|> scanTime

end Interposition.Toml
