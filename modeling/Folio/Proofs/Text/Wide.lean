/-
Characters against 16-bit units. A text has one unit for each character and one more
for each that is wide, that is, beyond the basic plane (`units_eq`). So a limit in
characters is one in units for texts without wide characters, and may be out by as much
again for others.
-/
import Folio.Text.Units

namespace Folio.Text

/-- Whether a character takes two units. -/
def isWide (c : Char) : Bool := 0x10000 ≤ c.toNat

/-- How many wide characters a text has. -/
def wideCount (text : String) : Nat := text.toList.countP isWide

theorem units_eq (cs : List Char) : units cs = cs.length + cs.countP isWide := by
  induction cs with
  | nil => rfl
  | cons c cs ih =>
    rw [units_cons, ih, List.length_cons, List.countP_cons, charUnits, isWide]
    by_cases wide : 0x10000 ≤ c.toNat
    · rw [if_neg (Nat.not_lt.2 wide), if_pos (decide_eq_true wide)]
      omega
    · rw [if_pos (Nat.not_le.1 wide), if_neg (by simpa using wide)]
      omega

theorem unitLength_eq (text : String) : unitLength text = text.length + wideCount text := by
  rw [unitLength, units_eq, String.length_toList, wideCount]

theorem wideCount_le_length (text : String) : wideCount text ≤ text.length := by
  rw [wideCount, ← String.length_toList]
  exact List.countP_le_length

theorem wideCount_append (a b : String) : wideCount (a ++ b) = wideCount a + wideCount b := by
  rw [wideCount, String.toList_append, List.countP_append, wideCount, wideCount]

theorem unitLength_append (a b : String) : unitLength (a ++ b) = unitLength a + unitLength b := by
  rw [unitLength, String.toList_append, units_append, unitLength, unitLength]

theorem unitLength_eq_zero_iff {text : String} : unitLength text = 0 ↔ text = "" := by
  rw [unitLength_eq, Nat.add_eq_zero_iff, String.length_eq_zero_iff]
  exact and_iff_left_of_imp fun none => none ▸ rfl

theorem units_replicate (n : Nat) (c : Char) : units (List.replicate n c) = n * charUnits c := by
  induction n with
  | zero => rw [List.replicate_zero, units_nil, Nat.zero_mul]
  | succ n ih => rw [List.replicate_succ, units_cons, ih, Nat.succ_mul, Nat.add_comm]

/-- A part of a text has no more wide characters than the text. -/
theorem wideCount_le_of_infix {a b : String} (h : a.toList <:+: b.toList) : wideCount a ≤ wideCount b :=
  h.sublist.countP_le

/-- Digits are not wide. -/
theorem wideCount_toString (n : Nat) : wideCount (toString n) = 0 := by
  have digits : (toString n).toList = Nat.toDigits 10 n := String.toList_ofList
  rw [wideCount, digits, List.countP_eq_zero]
  intro c hc
  have digit := Nat.isDigit_of_mem_toDigits (by decide) (by decide) hc
  rw [Char.isDigit, Bool.and_eq_true, decide_eq_true_iff, decide_eq_true_iff] at digit
  have small : c.toNat ≤ '9'.toNat := digit.2
  have nine : '9'.toNat < 0x10000 := by decide
  rw [isWide, decide_eq_true_iff]
  omega

end Folio.Text
