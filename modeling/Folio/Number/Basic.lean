/-
Numbers: the values of double precision arithmetic, without the sign of zero.
A finite number is kept as the rational it stands for, so comparing two
numbers is exact and only the arithmetic rounds (`Number.ofRat`).
-/
namespace Folio

/-- A number as the chat service and the environment supply it. -/
inductive Number where
  /-- The result of an operation that has none. -/
  | nan
  /-- Beyond every finite number, below them all if `negative`. -/
  | infinite (negative : Bool)
  /-- The rational `value`. -/
  | finite (value : Rat)
deriving DecidableEq, Repr, Inhabited

namespace Number

/-- `n / d` rounded to the nearest natural number, a half going to the even neighbour. -/
def roundHalfEven (n d : Nat) : Nat :=
  let q := n / d
  let r := n % d
  if 2 * r < d then q
  else if d < 2 * r then q + 1
  else if q % 2 = 0 then q else q + 1

/-- The power of two `2 ^ e`. -/
def twoPow (e : Int) : Rat :=
  if 0 ≤ e then ((Nat.pow 2 e.toNat : Nat) : Rat) else mkRat 1 (Nat.pow 2 (-e).toNat)

/-- The exponent `e` with `2 ^ e ≤ n / d < 2 ^ (e + 1)`, for positive `n` and `d`. -/
def binaryExponent (n d : Nat) : Int :=
  let e : Int := Nat.log2 n - Nat.log2 d
  let reached := if 0 ≤ e then d * Nat.pow 2 e.toNat ≤ n else d ≤ n * Nat.pow 2 (-e).toNat
  if reached then e else e - 1

/-- The spacing exponent at `n / d`: 53 significant bits, none below `2 ^ (-1074)`. -/
def spacing (n d : Nat) : Int := max (binaryExponent n d - 52) (-1074)

/-- The magnitude `n / d` on the grid of its spacing, rounded half to even. -/
def roundMagnitude (n d : Nat) : Rat :=
  let k := spacing n d
  let m :=
    if 0 ≤ k then roundHalfEven n (d * Nat.pow 2 k.toNat)
    else roundHalfEven (n * Nat.pow 2 (-k).toNat) d
  (m : Rat) * twoPow k

/-- The number nearest to a rational; a magnitude of `2 ^ 1024` or more is infinite. -/
def ofRat (q : Rat) : Number :=
  if q = 0 then .finite 0
  else
    let magnitude := roundMagnitude q.num.natAbs q.den
    if twoPow 1024 ≤ magnitude then .infinite (q < 0)
    else .finite (if q < 0 then -magnitude else magnitude)

/-- The number nearest to `mantissa * 10 ^ exponent`. Exponents far outside the
range are settled without forming the power. -/
def ofScientific (mantissa : Int) (exponent : Int) : Number :=
  if mantissa = 0 then .finite 0
  else
    let digits : Int := (Nat.log2 mantissa.natAbs : Int) / 3 + 1
    if 400 < exponent then .infinite (mantissa < 0)
    else if exponent + digits < -400 then .finite 0
    else if 0 ≤ exponent then ofRat (mantissa * (Nat.pow 10 exponent.toNat : Nat) : Int)
    else ofRat (mkRat mantissa (Nat.pow 10 (-exponent).toNat))

instance : NatCast Number := ⟨fun n => .finite (n : Rat)⟩

instance : IntCast Number := ⟨fun n => .finite (n : Rat)⟩

instance (n : Nat) : OfNat Number n := ⟨.finite (n : Rat)⟩

/-! ### Arithmetic -/

/-- The negated number. -/
def neg : Number → Number
  | .nan => .nan
  | .infinite s => .infinite !s
  | .finite q => .finite (-q)

/-- The sum; infinities of opposite sign have none. -/
def add : Number → Number → Number
  | .finite a, .finite b => ofRat (a + b)
  | .nan, _ | _, .nan => .nan
  | .infinite s, .infinite t => if s = t then .infinite s else .nan
  | .infinite s, _ | _, .infinite s => .infinite s

/-- The product of a number and a positive natural. -/
def scale (a : Number) (k : Nat) : Number :=
  match a with
  | .finite q => ofRat (q * k)
  | a => a

instance : Neg Number := ⟨neg⟩
instance : Add Number := ⟨add⟩
instance : Sub Number := ⟨fun a b => add a (neg b)⟩

/-! ### Order -/

/-- Strict order; nothing is below or above `nan`. -/
def lt : Number → Number → Bool
  | .finite a, .finite b => a < b
  | .infinite true, .finite _ | .finite _, .infinite false | .infinite true, .infinite false => true
  | _, _ => false

/-- Order with equality; `nan` is not even below itself. -/
def le : Number → Number → Bool
  | .nan, _ | _, .nan => false
  | a, b => !lt b a

/-- The smaller of two numbers, `nan` if either is. -/
instance : Min Number where
  min
    | .nan, _ | _, .nan => .nan
    | a, b => if lt b a then b else a

/-- The larger of two numbers, `nan` if either is. -/
instance : Max Number where
  max
    | .nan, _ | _, .nan => .nan
    | a, b => if lt a b then b else a

/-! ### Integers -/

/-- The number cut toward zero; `nan` and the infinities stay. -/
def trunc : Number → Number
  | .finite q => .finite ((if q < 0 then -(-q).floor else q.floor : Int) : Rat)
  | a => a

/-- The integer that the number is, if it is one. -/
def toInt? : Number → Option Int
  | .finite q => if q.den = 1 then some q.num else none
  | _ => none

/-- The natural number that the number is, if it is one. -/
def toNat? (a : Number) : Option Nat :=
  match a.toInt? with
  | some i => if 0 ≤ i then some i.toNat else none
  | none => none

/-- How many entries a list of this length has: the number cut toward zero,
and none for `nan` and below zero. -/
def toLength (a : Number) (most : Nat) : Nat :=
  match a with
  | .nan | .infinite true => 0
  | .infinite false => most
  | .finite q => q.floor.toNat

@[simp] theorem toInt?_intCast (n : Int) : toInt? (n : Number) = some n := by
  show (if ((n : Rat)).den = 1 then some ((n : Rat)).num else none) = some n
  simp

@[simp] theorem toNat?_natCast (n : Nat) : toNat? (n : Number) = some n := by
  have h : toInt? (n : Number) = some (n : Int) := by
    show (if ((n : Rat)).den = 1 then some ((n : Rat)).num else none) = some (n : Int)
    simp
  simp [toNat?, h]

end Number

end Folio
