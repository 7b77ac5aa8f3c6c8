/-
Reading moments. The full form is a date, alone or with a time after a `T`; a
year in it has four digits, or six after a sign. A text that leaves the full
form before its time is read freely from there on: its numbers are a date in
one of the usual orders, `:` makes the parts of a time, and words name a month,
a half of the day or a zone. A time without a zone is universal.
-/
import Folio.Calendar.Basic
import Folio.Calendar.Token
import Folio.Value

namespace Folio.Calendar

/-- What is known of the offset from universal time. -/
structure Offset where
  negative : Bool
  hours : Option Nat
  minutes : Option Nat
deriving DecidableEq, Repr

namespace Offset

/-- Nothing is known. -/
def unknown : Offset := ⟨false, none, none⟩

/-- A whole number of hours ahead. -/
def ofHours (hours : Int) : Offset := ⟨hours < 0, some hours.natAbs, some 0⟩

/-- Whether a number can be the minutes, which are all that is missing. -/
def awaits (o : Offset) (n : Nat) : Bool := o.hours.isSome && o.minutes.isNone && n < 60

/-- Whether this is known to be universal time. -/
def isUniversal (o : Offset) : Bool := o.hours = some 0 && o.minutes = some 0

/-- The offset in milliseconds, where what is unknown counts as zero. -/
def milliseconds (o : Offset) : Int :=
  let size : Int := (60 * o.hours.getD 0 + o.minutes.getD 0 : Nat) * 60000
  if o.negative then -size else size

end Offset

/-- What is read so far. -/
structure Draft where
  /-- The numbers of the date in order, at most three. -/
  days : List Int
  month : Option Nat
  /-- The hours, minutes, seconds and milliseconds, as far as they are known. -/
  time : List Nat
  /-- The hours before the half of the day. -/
  half : Option Nat
  offset : Offset
  /-- Whether a number has been read. -/
  started : Bool
deriving Repr

namespace Draft

/-- Nothing but the start of a date. -/
def ofDays (days : List Int) : Draft := ⟨days, none, [], none, .unknown, !days.isEmpty⟩

/-! ### The moment of a draft -/

/-- A day of a month. -/
def isDay (n : Int) : Bool := 1 ≤ n && n ≤ 31

/-- The year that a number stands for: one of two digits is from 1950 to 2049. -/
def fullYear (n : Int) : Int :=
  if 0 ≤ n ∧ n ≤ 49 then n + 2000 else if 50 ≤ n ∧ n ≤ 99 then n + 1900 else n

/-- The year, month and day, where a number that is left out is 1. With a named
month the first number is the day if it can be one, else the year; without, it
is the month if it can be a day, else the year. -/
def freeDate? (d : Draft) : Option (Int × Int × Int) :=
  match d.days with
  | [] => none
  | a :: more =>
    let b := more.headD 1
    let c := more.getD 1 1
    some (match d.month with
      | some month => if isDay a then (fullYear b, month, a) else (fullYear a, month, b)
      | none => if isDay a then (fullYear c, a, b) else (fullYear a, b, c))

/-- The hour, given the half of the day it is in. -/
def hour? (d : Draft) : Option Nat :=
  let hour := d.time.headD 0
  match d.half with
  | none => some hour
  | some before => if hour ≤ 12 then some (hour % 12 + before) else none

/-- The time of the day in milliseconds; 24:00 is the end of the day. -/
def timeOfDay? (d : Draft) : Option Int :=
  let minute := d.time.getD 1 0
  let second := d.time.getD 2 0
  let millisecond := d.time.getD 3 0
  match d.hour? with
  | none => none
  | some hour =>
    let time := ((hour * 60 + minute) * 60 + second) * 1000 + millisecond
    if hour < 24 ∧ minute < 60 ∧ second < 60 ∧ millisecond < 1000 ∨
        hour = 24 ∧ minute = 0 ∧ second = 0 ∧ millisecond = 0 then some time else none

/-- The moment of a date and of the draft's time. -/
def momentOn? (d : Draft) (date : Int × Int × Int) : Option Int :=
  let (year, month, day) := date
  match d.timeOfDay? with
  | some time =>
    if 1 ≤ month ∧ month ≤ 12 ∧ isDay day then
      inRange? (dayNumber year month day * dayLength + time - d.offset.milliseconds)
    else none
  | none => none

/-- The moment of a draft that was read freely. -/
def moment? (d : Draft) : Option Int := d.freeDate?.bind d.momentOn?

/-! ### Free reading -/

/-- The draft with one more number in its date. -/
def addDay? (d : Draft) (n : Nat) : Option Draft :=
  if d.days.length < 3 then some { d with days := d.days ++ [(n : Int)], started := true } else none

/-- The draft with one more part of its time. -/
def addTime? (d : Draft) (n : Nat) : Option Draft :=
  if d.time.length < 4 then some { d with time := d.time ++ [n], started := true } else none

/-- Whether a number can be the next part of the time, once that has begun. -/
def awaits (d : Draft) (n : Nat) : Bool :=
  match d.time.length with
  | 1 | 2 => n < 60
  | 3 => n < 1000
  | _ => false

/-- The draft with the last parts of its time. -/
def closeTime (d : Draft) (parts : List Nat) : Draft :=
  { d with time := (d.time ++ parts ++ [0, 0, 0, 0]).take 4, started := true }

/-- Whether a time may end before these tokens. -/
def mayEnd : List Token → Bool
  | [] | .blank :: _ | .mark '+' :: _ | .mark '-' :: _ | .word (.zone _) 1 :: _ => true
  | _ => false

/-- The milliseconds that a number of so many digits writes after the point. -/
def thousandths (n digits : Nat) : Nat :=
  if digits = 1 then 100 * n
  else if digits = 2 then 10 * n
  else n / Nat.pow 10 (min digits maxDigits - 3)

/-- An offset whose hours, or hours and minutes, are written in so many digits.
If a colon follows, the minutes are still to come. -/
def offset? (negative : Bool) (n digits : Nat) (colon : Bool) : Option Offset :=
  if colon then some ⟨negative, some n, none⟩
  else if digits = 1 ∨ digits = 2 then some ⟨negative, some n, some 0⟩
  else if digits = 3 ∨ digits = 4 then some ⟨negative, some (n / 100), some (n % 100)⟩
  else none

/-- What a word says, which goes before these tokens. A word that says nothing
may only stand before the first number, and not right before it. -/
def word? (d : Draft) (w : Word) (more : List Token) : Option Draft :=
  let unknown : Option Draft :=
    match more with
    | .number .. :: _ => none
    | _ => if d.started then none else some d
  match w with
  | .month n => some { d with month := some n }
  | .half hours => if d.time.isEmpty then unknown else some { d with half := some hours }
  | .zone hours => if d.started then some { d with offset := .ofHours hours } else unknown
  | .separator | .other => unknown

/-- Whether a sign starts an offset. -/
def awaitsOffset (d : Draft) : Bool := d.offset.isUniversal || !d.time.isEmpty

/-- The draft after all the tokens. A hyphen right after a number of the date, or
after a month, only joins. -/
def read? (d : Draft) : List Token → Option Draft
  | [] => some d
  | .number n _ :: .mark ':' :: .mark ':' :: rest =>
    if d.time.isEmpty then read? { d with time := [n, 0], started := true } rest else none
  | .number n _ :: .mark ':' :: .mark '.' :: rest => (d.addTime? n).bind fun d => read? d rest
  | .number n _ :: .mark ':' :: rest => (d.addTime? n).bind fun d => read? d rest
  | .number n _ :: .mark '.' :: rest =>
    if d.awaits n then
      match rest with
      | .number m digits :: rest => read? (d.closeTime [n, thousandths m digits]) rest
      | _ => none
    else if d.offset.awaits n then
      read? { d with offset := { d.offset with minutes := some n }, started := true } rest
    else
      match rest with
      | .mark '-' :: rest => (d.addDay? n).bind fun d => read? d rest
      | rest => (d.addDay? n).bind fun d => read? d rest
  | .number n _ :: rest =>
    if d.offset.awaits n then
      read? { d with offset := { d.offset with minutes := some n }, started := true } rest
    else if d.awaits n then
      if mayEnd rest then read? (d.closeTime [n]) rest else none
    else
      match rest with
      | .mark '-' :: rest => (d.addDay? n).bind fun d => read? d rest
      | rest => (d.addDay? n).bind fun d => read? d rest
  | .word (.month m) _ :: .mark '-' :: rest => read? { d with month := some m } rest
  | .word w _ :: rest => (d.word? w rest).bind fun d => read? d rest
  | .mark c :: rest =>
    if (c = '+' ∨ c = '-') ∧ d.awaitsOffset then
      match rest with
      | .number n digits :: .mark ':' :: rest =>
        (offset? (c = '-') n digits true).bind fun o => read? { d with offset := o, started := true } rest
      | .number n digits :: rest =>
        (offset? (c = '-') n digits false).bind fun o => read? { d with offset := o, started := true } rest
      | .mark ':' :: rest => read? { d with offset := ⟨c = '-', some 0, none⟩, started := true } rest
      | _ => none
    else if (c = '+' ∨ c = '-' ∨ c = ')') ∧ d.started then none
    else read? d rest
  | .blank :: rest | .other :: rest => read? d rest

end Draft

/-! ### The full form -/

/-- A date at the front of a text. -/
structure Start where
  /-- The year, the month and the day, as far as they are written. -/
  days : List Int
  /-- Whether the date is one of the full form, up to where it ends. -/
  whole : Bool
  rest : List Token
deriving Repr

namespace Start

/-- The day after a year and a month. -/
def day (year : Int) (month : Nat) : List Token → Start
  | .mark '-' :: .number n 2 :: rest =>
    if Draft.isDay n then ⟨[year, month, n], true, rest⟩ else ⟨[year, month], false, .number n 2 :: rest⟩
  | .mark '-' :: rest => ⟨[year, month], false, rest⟩
  | rest => ⟨[year, month], true, rest⟩

/-- The month after a year, and the day. -/
def month (year : Int) : List Token → Start
  | .mark '-' :: .number n 2 :: rest =>
    if 1 ≤ n ∧ n ≤ 12 then day year n rest else ⟨[year], false, .number n 2 :: rest⟩
  | .mark '-' :: rest => ⟨[year], false, rest⟩
  | rest => ⟨[year], true, rest⟩

/-- The date that tokens start with; the year zero has no sign. -/
def ofTokens : List Token → Start
  | .mark '+' :: .number n 6 :: rest => month n rest
  | .mark '-' :: .number n 6 :: rest => if n = 0 then ⟨[], false, .mark '-' :: rest⟩ else month (-n) rest
  | .number n 4 :: rest => month n rest
  | rest => ⟨[], false, rest⟩

/-- The date, where a number that is left out is 1. -/
def date (s : Start) : Int × Int × Int := (s.days.headD 1, s.days.getD 1 1, s.days.getD 2 1)

end Start

/-- The offset that ends a text. -/
def ending? : List Token → Option Offset
  | [] => some .unknown
  | [.word (.zone _) 1] => some (.ofHours 0)
  | [.mark c, .number n 4] =>
    if (c = '+' ∨ c = '-') ∧ n / 100 < 24 ∧ n % 100 < 60 then
      some ⟨c = '-', some (n / 100), some (n % 100)⟩
    else none
  | [.mark c, .number n 2, .mark ':', .number m 2] =>
    if (c = '+' ∨ c = '-') ∧ n < 24 ∧ m < 60 then some ⟨c = '-', some n, some m⟩ else none
  | _ => none

/-- The draft of a time in the full form: hours and minutes, then seconds and a
fraction of one if they are not left out, and an offset. -/
def fullTime? : List Token → Option Draft
  | .number h 2 :: .mark ':' :: .number m 2 :: .mark ':' :: .number s 2 :: .mark '.' ::
      .number f digits :: rest =>
    if h = 24 ∧ f ≠ 0 then none
    else (ending? rest).map fun o => ⟨[], none, [h, m, s, Draft.thousandths f digits], none, o, true⟩
  | .number h 2 :: .mark ':' :: .number m 2 :: .mark ':' :: .number s 2 :: rest =>
    (ending? rest).map fun o => ⟨[], none, [h, m, s], none, o, true⟩
  | .number h 2 :: .mark ':' :: .number m 2 :: rest =>
    (ending? rest).map fun o => ⟨[], none, [h, m], none, o, true⟩
  | _ => none

/-- The moment that a text writes. A NUL ends it. -/
def read? (text : String) : Option Int :=
  let start := Start.ofTokens (tokens (text.toList.takeWhile (· ≠ '\x00')))
  match start.whole, start.rest with
  | true, [] => (Draft.ofDays []).momentOn? start.date
  | true, .word .separator _ :: rest => (fullTime? rest).bind fun d => d.momentOn? start.date
  | _, rest => ((Draft.ofDays start.days).read? rest).bind Draft.moment?

/-- The moment that a value stands for: a number of milliseconds, or a text. -/
def ofValue? : Value → Option Int
  | .number n => n.trunc.toInt?.bind inRange?
  | .bool b => some (if b then 1 else 0)
  | v => read? v.display

end Folio.Calendar
