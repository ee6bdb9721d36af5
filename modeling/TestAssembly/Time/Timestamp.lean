import TestAssembly.Text.Blank
import TestAssembly.Text.Digits
import TestAssembly.Time.Instant
import TestAssembly.Word

/-!
# Timestamps

The text of an instant in the format of RFC 3339. Writing always gives universal time, with the
fewest of 0, 3, 6 or 9 fraction digits that are exact. Reading is lenient: blanks may stand before
each number and around the separators, the year may be signed and then have any number of digits,
a blank or a small letter may stand between date and time, and digits of the fraction beyond the
ninth are dropped. The date must exist and the offset from universal time must be given.
-/

namespace TestAssembly.Time

open Text

/-! ### Reading -/

/-- Skip one expected character. -/
private def skipChar? (c : Char) : List Char → Option (List Char)
  | x :: rest => if x = c then some rest else none
  | [] => none

/-- A number of at most `limit` digits after blanks. -/
private def numberAfterBlanks? (limit : Nat) (cs : List Char) : Option (Nat × List Char) :=
  takeNumber? limit (skipBlanks cs)

/-- A separator between two numbers, with blanks on either side. -/
private def separator? (c : Char) (cs : List Char) : Option (List Char) :=
  skipChar? c (skipBlanks cs)

/-- A year: four digits at most, or any number of digits after a sign. -/
private def year? (cs : List Char) : Option (Int × List Char) :=
  match skipBlanks cs with
  | '-' :: rest => (takeWholeNumber? rest).map fun (n, rest) => (-(n : Int), rest)
  | '+' :: rest => (takeWholeNumber? rest).map fun (n, rest) => ((n : Int), rest)
  | cs => (takeNumber? 4 cs).map fun (n, rest) => ((n : Int), rest)

/-- A date as year, month and day. -/
private def date? (cs : List Char) : Option (Date × List Char) := do
  let (year, cs) ← year? cs
  let cs ← separator? '-' cs
  let (month, cs) ← numberAfterBlanks? 2 cs
  let cs ← separator? '-' cs
  let (day, cs) ← numberAfterBlanks? 2 cs
  let date : Date := ⟨year, month, day⟩
  if date.exists? then some (date, cs) else none

/-- The character between date and time. -/
private def dateEnd? : List Char → Option (List Char)
  | 'T' :: rest | 't' :: rest | ' ' :: rest => some rest
  | _ => none

/-- The nanoseconds that the digits after a point stand for, if there is a point. -/
private def fraction? : List Char → Option (Nat × List Char)
  | '.' :: rest =>
    (takeDigits? 9 rest).map fun (run, rest) =>
      (ofDigits 10 run * powerOfTen (9 - run.length), rest.dropWhile (isDigitOf 10))
  | cs => some (0, cs)

/-- The time of day in seconds, and the nanoseconds; the second 60 prolongs the one before it. -/
private def timeOfDay? (cs : List Char) :
    Option (Nat × { nanos : Nat // nanos < 2 * nanosPerSecond } × List Char) := do
  let (hour, cs) ← numberAfterBlanks? 2 cs
  let cs ← separator? ':' cs
  let (minute, cs) ← numberAfterBlanks? 2 cs
  let cs ← separator? ':' cs
  let (second, cs) ← numberAfterBlanks? 2 cs
  let (nanos, cs) ← fraction? cs
  if hour ≤ 23 ∧ minute ≤ 59 ∧ second ≤ 60 then
    let prolonged := if second = 60 then nanos + nanosPerSecond else nanos
    if h : prolonged < 2 * nanosPerSecond then
      some (hour * 3600 + minute * 60 + min second 59, ⟨prolonged, h⟩, cs)
    else none
  else none

/-- Hours and minutes of an offset, with any colons and blanks between them. -/
private def hoursAndMinutes? : List Char → Option (Nat × List Char)
  | h₁ :: h₂ :: rest =>
    match rest.dropWhile (fun c => c = ':' || isBlank c) with
    | m₁ :: m₂ :: rest =>
      if [h₁, h₂, m₁, m₂].all (isDigitOf 10) ∧ ofDigits 10 [m₁, m₂] ≤ 59 then
        some (ofDigits 10 [h₁, h₂] * 3600 + ofDigits 10 [m₁, m₂] * 60, rest)
      else none
    | _ => none
  | _ => none

/-- An offset from universal time, in seconds: `Z`, `UTC`, or a sign with hours and minutes. -/
private def offset? (cs : List Char) : Option (Int × List Char) :=
  if (cs.take 3).map Char.toLower = ['u', 't', 'c'] then some (0, cs.drop 3)
  else match cs with
    | 'Z' :: rest | 'z' :: rest => some (0, rest)
    | '+' :: rest => (hoursAndMinutes? rest).map fun (n, rest) => ((n : Int), rest)
    | '-' :: rest | '−' :: rest => (hoursAndMinutes? rest).map fun (n, rest) => (-(n : Int), rest)
    | _ => none

/-- **Instant of a timestamp.** -/
def Instant.ofText? (s : String) : Option Instant := do
  let (date, cs) ← date? s.toList
  let cs ← dateEnd? cs
  let (second, nanos, cs) ← timeOfDay? cs
  let (offset, cs) ← offset? (skipBlanks cs)
  let seconds := date.dayNumber * secondsPerDay + second - offset
  let year := (Date.ofDayNumber (seconds / secondsPerDay)).year
  if (skipBlanks cs).isEmpty ∧ offset.natAbs < secondsPerDay
      ∧ firstYear ≤ year ∧ year ≤ lastYear then
    some ⟨seconds, nanos.1, nanos.2⟩
  else none

/-! ### Writing -/

/-- A year of four digits; outside of 0 to 9999 with its sign. -/
private def yearText (year : Int) : List Char :=
  if 0 ≤ year ∧ year ≤ 9999 then padded 4 year.toNat
  else (if year < 0 then '-' else '+') :: padded 4 year.natAbs

/-- The fraction of a second in the fewest thousandfold steps that are exact. -/
private def fractionText (nanos : Nat) : List Char :=
  if nanos = 0 then []
  else if nanos % 1000000 = 0 then '.' :: padded 3 (nanos / 1000000)
  else if nanos % 1000 = 0 then '.' :: padded 6 (nanos / 1000)
  else '.' :: padded 9 nanos

/-- **Timestamp of an instant**, in universal time. -/
def Instant.text (t : Instant) : String :=
  let date := Date.ofDayNumber (t.seconds / secondsPerDay)
  let second := t.secondOfDay.toNat
  let leap := if t.inLeapSecond then 1 else 0
  String.ofList <|
    yearText date.year ++ '-' :: padded 2 date.month ++ '-' :: padded 2 date.day
      ++ 'T' :: padded 2 (second / 3600) ++ ':' :: padded 2 (second / 60 % 60)
      ++ ':' :: padded 2 (second % 60 + leap)
      ++ fractionText (t.nanos % nanosPerSecond) ++ ['Z']

end TestAssembly.Time
