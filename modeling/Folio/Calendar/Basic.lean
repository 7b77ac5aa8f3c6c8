/-
Moments and their written form. A moment is a count of milliseconds since the
start of 1970, at most `Calendar.range` either way, and `Calendar.written` is
its full form.
-/

namespace Folio.Calendar

/-- The milliseconds in a day. -/
def dayLength : Int := 86400000

/-- The last moment, and the negated first. -/
def range : Int := 8640000000000000

/-- The days from the start of 1970 to a date of the Gregorian calendar, counted
in cycles of 400 years that start in March. -/
def dayNumber (year month day : Int) : Int :=
  let y := if month ≤ 2 then year - 1 else year
  let yearOfCycle := y % 400
  let dayOfYear := (153 * ((month + 9) % 12) + 2) / 5 + day - 1
  y / 400 * 146097 + (yearOfCycle * 365 + yearOfCycle / 4 - yearOfCycle / 100 + dayOfYear) - 719468

/-- The year, month and day of a day number. -/
def date (dayNumber : Int) : Int × Int × Int :=
  let z := dayNumber + 719468
  let dayOfCycle := z % 146097
  let yearOfCycle := (dayOfCycle - dayOfCycle / 1460 + dayOfCycle / 36524 - dayOfCycle / 146096) / 365
  let dayOfYear := dayOfCycle - (365 * yearOfCycle + yearOfCycle / 4 - yearOfCycle / 100)
  let monthIndex := (5 * dayOfYear + 2) / 153
  let month := if monthIndex < 10 then monthIndex + 3 else monthIndex - 9
  let year := z / 146097 * 400 + yearOfCycle + if month ≤ 2 then 1 else 0
  (year, month, dayOfYear - (153 * monthIndex + 2) / 5 + 1)

/-- The moment within range, if it is. -/
def inRange? (moment : Int) : Option Int :=
  if moment.natAbs ≤ range.natAbs then some moment else none

/-! ### Writing -/

/-- A number with zeros before it up to `places` digits. -/
def padded (places : Nat) (n : Nat) : String :=
  let ds := toString n
  String.ofList (List.replicate (places - ds.length) '0') ++ ds

/-- A year as it is written: four digits from 0 to 9999, else a sign and six. -/
def writtenYear (year : Int) : String :=
  if 0 ≤ year ∧ year ≤ 9999 then padded 4 year.toNat
  else (if year < 0 then "-" else "+") ++ padded 6 year.natAbs

/-- The full written form of a moment. -/
def written (moment : Int) : String :=
  let (year, month, day) := date (moment / dayLength)
  let time := (moment % dayLength).toNat
  writtenYear year ++ "-" ++ padded 2 month.toNat ++ "-" ++ padded 2 day.toNat ++
    "T" ++ padded 2 (time / 3600000) ++ ":" ++ padded 2 (time / 60000 % 60) ++
    ":" ++ padded 2 (time / 1000 % 60) ++ "." ++ padded 3 (time % 1000) ++ "Z"

end Folio.Calendar
