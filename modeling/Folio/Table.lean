/-
Tables: finite maps from keys to values. A key has at most one value; what was
put last stands first.
-/
namespace Folio

/-- A finite map, as its list of entries. -/
abbrev Table (κ α : Type) := List (κ × α)

namespace Table

variable {κ α : Type} [DecidableEq κ]

/-- The value of a key. -/
def get? (t : Table κ α) (k : κ) : Option α := (t.find? fun e => e.1 = k).map (·.2)

/-- Whether a key has a value. -/
def has (t : Table κ α) (k : κ) : Bool := (t.get? k).isSome

/-- The table without a key. -/
def erase (t : Table κ α) (k : κ) : Table κ α := t.filter fun e => e.1 ≠ k

/-- The table with a key's value set. -/
def put (t : Table κ α) (k : κ) (a : α) : Table κ α := (k, a) :: t.erase k

@[simp] theorem get?_nil (k : κ) : get? ([] : Table κ α) k = none := rfl

@[simp] theorem get?_put_self (t : Table κ α) (k : κ) (a : α) : (t.put k a).get? k = some a := by
  simp [get?, put]

theorem get?_erase_self (t : Table κ α) (k : κ) : (t.erase k).get? k = none := by
  simp [get?, erase]

theorem get?_erase_other (t : Table κ α) {k l : κ} (ne : l ≠ k) : (t.erase k).get? l = t.get? l := by
  induction t with
  | nil => rfl
  | cons e t ih =>
    simp only [get?, erase, List.filter_cons] at ih ⊢
    by_cases hk : e.1 = k <;> by_cases hl : e.1 = l <;> simp_all

theorem get?_put_other (t : Table κ α) {k l : κ} (a : α) (ne : l ≠ k) : (t.put k a).get? l = t.get? l := by
  rw [← get?_erase_other t ne]
  simp [get?, put, ne.symm]

end Table

end Folio
