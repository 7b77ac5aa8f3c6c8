/-
The shortest decimal text of a number: the fewest significant digits that read
back as the number, the nearest of those, and on a tie the even one. It is
positional from `1e-6` up to below `1e21` and has an exponent outside.
-/
import Folio.Number.Basic

namespace Folio.Number

/-- A decimal: the value is `digits * 10 ^ exponent`. -/
structure Decimal where
  /-- The significant digits as one number. -/
  digits : Nat
  /-- The power of ten they are scaled by. -/
  exponent : Int
deriving DecidableEq, Repr

/-- The rational that a decimal stands for. -/
def Decimal.toRat (d : Decimal) : Rat :=
  if 0 ≤ d.exponent then ((d.digits * Nat.pow 10 d.exponent.toNat : Nat) : Rat)
  else mkRat d.digits (Nat.pow 10 (-d.exponent).toNat)

/-- The exponent of the leading decimal digit of `n / d`, for positive `n` and `d`. -/
def leadingExponent (n d : Nat) : Int :=
  if d ≤ n then (Nat.toDigits 10 (n / d)).length - 1
  else
    match (List.range (Nat.toDigits 10 d).length).find? fun s => d ≤ n * Nat.pow 10 (s + 1) with
    | some s => -(s + 1)
    | none => 0

/-- Of the two neighbours of the positive `q` with `places` significant digits,
the nearer one that reads back as `q`; an exact tie goes to even digits. -/
def neighbour? (q : Rat) (places : Nat) : Option Decimal :=
  let exponent := leadingExponent q.num.natAbs q.den - places + 1
  let scaled : Rat :=
    if 0 ≤ exponent then mkRat q.num (q.den * Nat.pow 10 exponent.toNat)
    else mkRat (q.num * (Nat.pow 10 (-exponent).toNat : Nat)) q.den
  let low : Decimal := ⟨scaled.floor.toNat, exponent⟩
  let high : Decimal := ⟨scaled.floor.toNat + 1, exponent⟩
  let reads (d : Decimal) : Bool := ofRat d.toRat = .finite q
  match reads low, reads high with
  | false, false => none
  | true, false => some low
  | false, true => some high
  | true, true =>
    let below := scaled - low.digits
    let above := high.digits - scaled
    if below < above then some low
    else if above < below then some high
    else some (if low.digits % 2 = 0 then low else high)

/-- The shortest decimal that reads back as the positive `q`. -/
def shortest (q : Rat) : Decimal :=
  match (List.range 17).findSome? fun k => neighbour? q (k + 1) with
  | some d => d
  | none => ⟨q.floor.toNat, 0⟩

/-- `ds` without the zeros at its end. -/
def dropZeros (ds : List Char) : List Char :=
  (ds.reverse.dropWhile (· == '0')).reverse

/-- The text of the positive value with digits `ds`, the point `point` places
after the first of them (before it if negative). -/
def layOut (ds : List Char) (point : Int) : List Char :=
  let count : Int := ds.length
  if count ≤ point ∧ point ≤ 21 then ds ++ List.replicate (point - count).toNat '0'
  else if 0 < point ∧ point ≤ 21 then ds.take point.toNat ++ '.' :: ds.drop point.toNat
  else if -6 < point ∧ point ≤ 0 then '0' :: '.' :: (List.replicate (-point).toNat '0' ++ ds)
  else
    let power := point - 1
    let mark := if power < 0 then '-' else '+'
    let mantissa := match ds with
      | d :: more@(_ :: _) => d :: '.' :: more
      | ds => ds
    mantissa ++ 'e' :: mark :: (Nat.toDigits 10 power.natAbs)

/-- The shortest decimal text of a positive rational. -/
def positiveText (q : Rat) : List Char :=
  let d := shortest q
  let all := Nat.toDigits 10 d.digits
  layOut (dropZeros all) (all.length + d.exponent)

/-- The text of a number. -/
def text : Number → String
  | .nan => "NaN"
  | .infinite false => "Infinity"
  | .infinite true => "-Infinity"
  | .finite q =>
    if q = 0 then "0"
    else if q < 0 then String.ofList ('-' :: positiveText (-q))
    else String.ofList (positiveText q)

instance : ToString Number := ⟨text⟩

end Folio.Number
