import CollectionSchema.Json.Basic
import CollectionSchema.Toml.Scan

/-!
# Date-times

A date, a time of day, or both, with or without an offset. As a JSON value a date-time is an
object with one member of a reserved name.
-/

namespace CollectionSchema.Toml

structure Date where
  year : Nat
  month : Nat
  day : Nat
deriving DecidableEq, Repr

structure Time where
  hour : Nat
  minute : Nat
  second : Nat
  nanosecond : Nat
deriving DecidableEq, Repr

/-- The distance from universal time. -/
inductive Offset where
  | zulu
  | minutes (count : Int)
deriving DecidableEq, Repr

structure DateTime where
  date : Option Date
  time : Option Time
  offset : Option Offset
deriving DecidableEq, Repr

/-! ## Text -/

/-- A natural in at least `width` digits. -/
def paddedText (width n : Nat) : List Char :=
  List.replicate (width - (natText n).length) '0' ++ natText n

/-- Digits without the zeros at their end. -/
def withoutFinalZeros (digits : List Char) : List Char :=
  (digits.reverse.dropWhile (· == '0')).reverse

def Date.text (d : Date) : List Char :=
  paddedText 4 d.year ++ '-' :: paddedText 2 d.month ++ '-' :: paddedText 2 d.day

/-- Hours, minutes and seconds; a fraction only if it is not zero. -/
def Time.text (t : Time) : List Char :=
  paddedText 2 t.hour ++ ':' :: paddedText 2 t.minute ++ ':' :: paddedText 2 t.second ++
    if t.nanosecond = 0 then [] else '.' :: withoutFinalZeros (paddedText 9 t.nanosecond)

def Offset.text : Offset → List Char
  | zulu => ['Z']
  | minutes count =>
    (if count < 0 then '-' else '+') ::
      paddedText 2 (count.natAbs / 60) ++ ':' :: paddedText 2 (count.natAbs % 60)

namespace DateTime

/-- The text of a date-time, with a `T` between date and time. -/
def text (d : DateTime) : List Char :=
  (d.date.map Date.text).getD [] ++
    (if d.date.isSome ∧ d.time.isSome then ['T'] else []) ++
    (d.time.map Time.text).getD [] ++ (d.offset.map Offset.text).getD []

/-- The name of the member that holds the text of a date-time in a JSON value. -/
def marker : String := "$__toml_private_datetime"

/-- A date-time as a JSON value. -/
def toJson (d : DateTime) : Json := .object [(marker, .string (String.ofList d.text))]

end DateTime

/-! ## Scans -/

def isLeapYear (year : Nat) : Bool :=
  year % 4 == 0 && (year % 100 != 0 || year % 400 == 0)

/-- The number of days of a month; none for a month that does not exist. -/
def daysOfMonth (year month : Nat) : Nat :=
  match month with
  | 2 => if isLeapYear year then 29 else 28
  | 4 | 6 | 9 | 11 => 30
  | 1 | 3 | 5 | 7 | 8 | 10 | 12 => 31
  | _ => 0

open Scan

/-- A day that exists. -/
def Date.scan : Scan Date := do
  let year ← fixedDigits 4
  char '-'
  let month ← fixedDigits 2
  char '-'
  let day ← fixedDigits 2
  guard (1 ≤ day ∧ day ≤ daysOfMonth year month)
  return ⟨year, month, day⟩

/-- The nanoseconds of a fraction of a second; digits after the ninth are dropped. -/
def nanoseconds (fraction : List Char) : Nat :=
  let digits := fraction.take 9
  Text.digitsValue 10 digits * Nat.pow 10 (9 - digits.length)

/-- A time of day. A minute may have a leap second. -/
def Time.scan : Scan Time := do
  let hour ← fixedDigits 2
  char ':'
  let minute ← fixedDigits 2
  char ':'
  let second ← fixedDigits 2
  let fraction ← optional (char '.' *> run1 Char.isDigit)
  guard (hour ≤ 23 ∧ minute ≤ 59 ∧ second ≤ 60)
  return ⟨hour, minute, second, nanoseconds (fraction.getD [])⟩

/-- An offset of less than a day. -/
def Offset.scan : Scan Offset := do
  let sign ← charIf fun c => ['Z', 'z', '+', '-'].contains c
  if sign == 'Z' || sign == 'z' then return .zulu
  else
    let hour ← fixedDigits 2
    char ':'
    let minute ← fixedDigits 2
    let count := hour * 60 + minute
    guard (hour ≤ 23 ∧ minute ≤ 59)
    return .minutes (if sign == '-' then -count else count)

namespace DateTime

/-- What stands between a date and a time. -/
def isSeparator (c : Char) : Bool := c == 'T' || c == 't' || c == ' '

/-- A time after a date, perhaps with an offset. -/
def scanTime : Scan (Time × Option Offset) := do
  discard (charIf isSeparator)
  return (← Time.scan, ← optional Offset.scan)

/-- A date-time. Only a date with a time has an offset. -/
def scan : Scan DateTime :=
  (do
    let date ← Date.scan
    match ← optional scanTime with
    | none => return ⟨some date, none, none⟩
    | some (time, offset) => return ⟨some date, some time, offset⟩) <|>
  (do return ⟨none, some (← Time.scan), none⟩)

/-- The date-time that a text stands for. -/
def ofText? (text : String) : Option DateTime := Scan.whole? scan text.toList

end DateTime

end CollectionSchema.Toml
