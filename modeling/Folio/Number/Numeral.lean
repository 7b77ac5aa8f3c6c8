/-
Reading texts as numbers: decimal numerals with an optional fraction and
exponent, whole numbers after `0x`, `0o` or `0b`, and `Infinity`, with white
space around them. A blank text is zero, and any other is `nan`.
-/
import Folio.Value
import Folio.Text.Blank

namespace Folio.Number

/-- The value of a digit in a base of at most 16. -/
def digit? (base : Nat) (c : Char) : Option Nat :=
  let value :=
    if c.isDigit then c.toNat - '0'.toNat
    else if 'a' ≤ c ∧ c ≤ 'f' then c.toNat - 'a'.toNat + 10
    else if 'A' ≤ c ∧ c ≤ 'F' then c.toNat - 'A'.toNat + 10
    else 16
  if value < base then some value else none

/-- The whole number that the digits write, at least one of them. -/
def whole? (base : Nat) (ds : List Char) : Option Nat :=
  if ds = [] then none
  else ds.foldl (fun n d => n.bind fun n => (digit? base d).map (base * n + ·)) (some 0)

/-! ### Digits are read back -/

theorem digit?_digitChar {base d : Nat} (small : base ≤ 16) (h : d < base) :
    digit? base (Nat.digitChar d) = some d := by
  have all : ∀ d < 16, ∀ base ≤ 16, d < base → digit? base (Nat.digitChar d) = some d := by decide
  exact all d (by omega) base small h

theorem foldl_toDigits {base : Nat} (big : 1 < base) (small : base ≤ 16) (n : Nat) :
    (Nat.toDigits base n).foldl (fun n d => n.bind fun n => (digit? base d).map (base * n + ·)) (some 0) =
      some n := by
  induction n using Nat.strongRecOn with
  | _ n ih =>
    by_cases h : n < base
    · rw [Nat.toDigits_of_lt_base h]
      simp [digit?_digitChar small h]
    · have hlt : n / base < n := Nat.div_lt_self (by omega) big
      have hmod : n % base < base := Nat.mod_lt _ (by omega)
      rw [Nat.toDigits_of_base_le big (by omega), List.foldl_append, ih _ hlt]
      simp [digit?_digitChar small hmod, Nat.div_add_mod]

theorem whole?_zeros_append {base : Nat} (big : 0 < base) (k : Nat) {ds : List Char} (h : ds ≠ []) :
    whole? base (List.replicate k '0' ++ ds) = whole? base ds := by
  induction k with
  | zero => rfl
  | succ k ih =>
    have hz : digit? base '0' = some 0 := by simp [digit?, big]
    rw [← ih, List.replicate_succ, List.cons_append]
    simp [whole?, hz, h]

/-- The digits of a number, with any number of zeros before them, are read back
as that number. -/
theorem whole?_toDigits {base : Nat} (big : 1 < base) (small : base ≤ 16) (k n : Nat) :
    whole? base (List.replicate k '0' ++ Nat.toDigits base n) = some n := by
  rw [whole?_zeros_append (by omega) k Nat.toDigits_ne_nil, whole?, if_neg Nat.toDigits_ne_nil,
    foldl_toDigits big small]

/-! ### Numerals -/

/-- The exponent that ends a decimal numeral. -/
def exponent? : List Char → Option Int
  | [] => some 0
  | mark :: text =>
    if mark = 'e' ∨ mark = 'E' then
      match text with
      | '-' :: ds => (whole? 10 ds).map fun n => -(n : Int)
      | '+' :: ds => (whole? 10 ds).map fun n => (n : Int)
      | ds => (whole? 10 ds).map fun n => (n : Int)
    else none

/-- The number that an unsigned decimal numeral or `Infinity` writes. -/
def unsigned? (text : List Char) : Option Number :=
  if text = "Infinity".toList then some (.infinite false)
  else
    let whole := text.takeWhile Char.isDigit
    let (fraction, rest) := match text.dropWhile Char.isDigit with
      | '.' :: more => (more.takeWhile Char.isDigit, more.dropWhile Char.isDigit)
      | more => ([], more)
    match whole? 10 (whole ++ fraction), exponent? rest with
    | some mantissa, some exponent => some (ofScientific mantissa (exponent - fraction.length))
    | _, _ => none

/-- The base that a letter after a leading zero announces. -/
def announcedBase? (c : Char) : Option Nat :=
  if c = 'x' ∨ c = 'X' then some 16
  else if c = 'o' ∨ c = 'O' then some 8
  else if c = 'b' ∨ c = 'B' then some 2
  else none

/-- The number that a text writes, `nan` if it writes none. -/
def read (text : String) : Number :=
  match (Text.trim text).toList with
  | [] => 0
  | '-' :: ds => ((unsigned? ds).map neg).getD .nan
  | '+' :: ds => (unsigned? ds).getD .nan
  | ds@('0' :: c :: more) =>
    match announcedBase? c with
    | some base => ((whole? base more).map fun n => ofRat n).getD .nan
    | none => (unsigned? ds).getD .nan
  | ds => (unsigned? ds).getD .nan

/-- The number that a value counts as. -/
def ofValue : Value → Number
  | .absent | .record _ => .nan
  | .null => 0
  | .bool b => if b then 1 else 0
  | .number n => n
  | .text s => read s
  | .list items => read (Value.display (.list items))

end Folio.Number
