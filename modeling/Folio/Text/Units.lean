/-
Lengths of texts. A limit of the chat service counts 16-bit units, of which a
character beyond the basic plane takes two (`units`); word wrapping counts
characters (`List.length`, `String.length`).
-/
namespace Folio.Text

/-- The 16-bit units that a character takes. -/
def charUnits (c : Char) : Nat := if c.toNat < 0x10000 then 1 else 2

/-- The length of a text in 16-bit units. -/
def units : List Char → Nat
  | [] => 0
  | c :: cs => charUnits c + units cs

/-- The length of a string in 16-bit units. -/
def unitLength (text : String) : Nat := units text.toList

@[simp] theorem units_nil : units [] = 0 := rfl

@[simp] theorem units_cons (c : Char) (cs : List Char) :
    units (c :: cs) = charUnits c + units cs := rfl

@[simp] theorem units_append (a b : List Char) : units (a ++ b) = units a + units b := by
  induction a with
  | nil => rw [List.nil_append, units_nil, Nat.zero_add]
  | cons c a ih => rw [List.cons_append, units_cons, units_cons, ih, Nat.add_assoc]

end Folio.Text
