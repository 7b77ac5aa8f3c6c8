/-
Times: what a clock shows that starts at zero and only goes forward. It may have run
off to infinity, and if not it shows a number that needs no rounding. So a time never
gets less by waiting, even where the waiting gets lost in the rounding
(`IsTime.add`). Times are ordered as rationals with infinity on top of them
(`distance`), which is where their order is reasoned about.
-/
import Folio.Proofs.Number.Rounding
import Mathlib.Order.WithBot

namespace Folio.Number

variable {a b c : Number}

/-- A number that a clock can show. -/
inductive IsTime : Number → Prop where
  | finite {q : Rat} (nonneg : 0 ≤ q) (exact : IsDouble q) : IsTime (.finite q)
  | never : IsTime (.infinite false)

instance (a : Number) : Decidable (IsTime a) :=
  match a with
  | .finite q => decidable_of_iff (0 ≤ q ∧ ofRat q = .finite q)
      ⟨fun h => .finite h.1 h.2, fun h => match h with | .finite nonneg exact => ⟨nonneg, exact⟩⟩
  | .infinite false => isTrue .never
  | .infinite true => isFalse (fun h => nomatch h)
  | .nan => isFalse (fun h => nomatch h)

/-- How far off a time is. -/
def distance : Number → WithTop Rat
  | .finite q => q
  | _ => ⊤

theorem IsTime.zero : IsTime 0 := .finite (le_refl 0) rfl

theorem isTime_ofRat {x : Rat} (hx : 0 ≤ x) : IsTime (ofRat x) := by
  cases hy : ofRat x with
  | finite y =>
    obtain ⟨nonneg, exact⟩ := isDouble_of_ofRat hx hy
    exact .finite nonneg exact
  | infinite s =>
    cases s with
    | false => exact .never
    | true =>
      rcases hx.eq_or_lt with rfl | pos
      · cases hy
      · rw [ofRat_of_pos pos] at hy
        split at hy <;> cases hy
  | nan =>
    rcases hx.eq_or_lt with rfl | pos
    · cases hy
    · rw [ofRat_of_pos pos] at hy
      split at hy <;> cases hy

namespace IsTime

theorem le_iff (ha : IsTime a) (hb : IsTime b) : a.le b = true ↔ a.distance ≤ b.distance := by
  cases ha with
  | finite =>
    cases hb with
    | finite => rw [le_finite]; exact WithTop.coe_le_coe.symm
    | never => exact ⟨fun _ => le_top, fun _ => rfl⟩
  | never =>
    cases hb with
    | finite => exact ⟨fun h => (by cases h), fun h => absurd h (not_le.2 (WithTop.coe_lt_top _))⟩
    | never => exact ⟨fun _ => le_refl _, fun _ => rfl⟩

theorem lt_iff (ha : IsTime a) (hb : IsTime b) : a.lt b = true ↔ a.distance < b.distance := by
  cases ha with
  | finite =>
    cases hb with
    | finite => rw [lt_finite]; exact WithTop.coe_lt_coe.symm
    | never => exact ⟨fun _ => WithTop.coe_lt_top _, fun _ => rfl⟩
  | never =>
    cases hb with
    | finite => exact ⟨fun h => (by cases h), fun h => absurd h (not_lt.2 le_top)⟩
    | never => exact ⟨fun h => (by cases h), fun h => absurd h (lt_irrefl _)⟩

theorem distance_inj (ha : IsTime a) (hb : IsTime b) (h : a.distance = b.distance) : a = b := by
  cases ha with
  | finite =>
    cases hb with
    | finite => exact congrArg Number.finite (WithTop.coe_inj.1 h)
    | never => cases h
  | never =>
    cases hb with
    | finite => cases h
    | never => rfl

theorem max_eq (ha : IsTime a) (hb : IsTime b) : max a b = if a.distance < b.distance then b else a := by
  have h : max a b = if lt a b then b else a := by
    cases ha <;> cases hb <;> rfl
  rw [h]
  by_cases hlt : a.distance < b.distance
  · rw [if_pos hlt, if_pos ((ha.lt_iff hb).2 hlt)]
  · rw [if_neg hlt, if_neg fun h => hlt ((ha.lt_iff hb).1 h)]

theorem max_of_le (ha : IsTime a) (hb : IsTime b) (h : a.distance ≤ b.distance) : max a b = b := by
  rw [ha.max_eq hb]
  split
  · rfl
  next hlt => exact ha.distance_inj hb (h.antisymm (not_lt.1 hlt))

/-- Waiting leads to a time that is no earlier. -/
theorem add (ha : IsTime a) (hb : (0 : Number).le b = true) : IsTime (a + b) ∧ a.distance ≤ (a + b).distance := by
  cases ha with
  | @finite q nonneg exact =>
    cases b with
    | nan => cases hb
    | infinite s =>
      cases s with
      | true => cases hb
      | false => exact ⟨.never, le_top⟩
    | finite r =>
      have hr : 0 ≤ r := (le_finite _ _).1 hb
      have sum : Number.finite q + Number.finite r = ofRat (q + r) := rfl
      have later := ofRat_le_ofRat nonneg (le_add_of_nonneg_right hr : q ≤ q + r)
      have time := isTime_ofRat (add_nonneg nonneg hr)
      have now : IsTime (.finite q) := .finite nonneg exact
      rw [IsDouble] at exact
      rw [exact] at later
      rw [sum]
      exact ⟨time, (now.le_iff time).1 later⟩
  | never =>
    cases b with
    | nan => cases hb
    | infinite s =>
      cases s with
      | true => cases hb
      | false => exact ⟨.never, le_refl _⟩
    | finite r => exact ⟨.never, le_refl _⟩

theorem add_natCast (ha : IsTime a) (n : Nat) : IsTime (a + (n : Number)) ∧ a.distance ≤ (a + (n : Number)).distance :=
  ha.add ((le_finite _ _).2 (Nat.cast_le.2 (Nat.zero_le n)))

end IsTime

/-! ## What is not before what

A clock may also be set to no number, or to one that needs rounding. Then it is still not
before what it was not before. -/

theorem not_lt_of_le (h : a.le b = true) : b.lt a = false := by
  cases a <;> cases b <;> simp_all [le, lt]

theorem lt_trans (h : a.lt b = true) (h' : b.lt c = true) : a.lt c = true :=
  match a, b, c, h, h' with
  | .finite _, .finite _, .finite _, h, h' =>
    (lt_finite _ _).2 (((lt_finite _ _).1 h).trans ((lt_finite _ _).1 h'))
  | .infinite true, .finite _, .infinite false, _, _ | .infinite true, .finite _, .finite _, _, _
  | .finite _, .finite _, .infinite false, _, _ => rfl

/-- Nothing is below what is no number, or below the least one. -/
theorem lt_nan (a : Number) : a.lt .nan = false ∧ a.lt (.infinite true) = false := by
  cases a <;> simp [lt]

/-- What is no number is not below anything, and neither is the greatest one. -/
theorem nan_lt (a : Number) : Number.lt .nan a = false ∧ (Number.infinite false).lt a = false := by
  cases a <;> simp [lt]

theorem lt_of_lt_of_not_lt (h : a.lt c = true) (h' : b.lt c = false) (some : b ≠ .nan) : a.lt b = true := by
  cases c with
  | nan => exact absurd (h.symm.trans (lt_nan a).1) Bool.noConfusion
  | infinite low =>
    cases low with
    | true => exact absurd (h.symm.trans (lt_nan a).2) Bool.noConfusion
    | false =>
      cases b with
      | nan => exact absurd rfl some
      | finite => cases h'
      | infinite low =>
        cases low with
        | true => cases h'
        | false => exact h
  | finite r =>
    cases b with
    | nan => exact absurd rfl some
    | infinite low =>
      cases low with
      | true => cases h'
      | false =>
        cases a with
        | nan => cases h
        | finite => rfl
        | infinite low =>
          cases low with
          | true => rfl
          | false => cases h
    | finite q =>
      rw [← Bool.not_eq_true, lt_finite] at h'
      cases a with
      | nan => cases h
      | finite p => exact (lt_finite _ _).2 (((lt_finite _ _).1 h).trans_le (not_lt.1 h'))
      | infinite low =>
        cases low with
        | true => rfl
        | false => cases h

theorem max_eq_nan_or (a b : Number) : max a b = .nan ∨ b ≠ .nan ∧ max a b = if a.lt b then b else a := by
  cases a <;> cases b <;> first | exact .inl rfl | exact .inr ⟨Number.noConfusion, rfl⟩

/-- The larger of two numbers is not below what the first is not below. -/
theorem not_max_lt (b : Number) (h : a.lt c = false) : (max a b).lt c = false := by
  obtain none | ⟨-, larger⟩ := max_eq_nan_or a b
  · rw [none]
    rfl
  · rw [larger]
    split
    next less =>
      by_contra below
      rw [Bool.not_eq_false] at below
      rw [lt_trans less below] at h
      cases h
    · exact h

/-- The larger of two numbers is not below what the second is not below. -/
theorem not_max_lt_right (a : Number) (h : b.lt c = false) : (max a b).lt c = false := by
  obtain none | ⟨some, larger⟩ := max_eq_nan_or a b
  · rw [none]
    rfl
  · rw [larger]
    split
    · exact h
    next less =>
      by_contra below
      exact less (lt_of_lt_of_not_lt (Bool.not_eq_false _ ▸ below) h some)

/-- Who starts to wait no sooner does not end sooner. -/
theorem not_add_natCast_lt (time : b.lt 0 = false) (h : a.lt b = false) (n : Nat) :
    (a + (n : Number)).lt (b + (n : Number)) = false := by
  cases b with
  | nan => exact (lt_nan (a + (n : Number))).1
  | infinite low =>
    cases low with
    | true => cases time
    | false =>
      cases a with
      | nan => rfl
      | finite => cases h
      | infinite low =>
        cases low with
        | true => cases h
        | false => rfl
  | finite q =>
    cases a with
    | nan => rfl
    | infinite low =>
      cases low with
      | true => cases h
      | false => exact (nan_lt (.finite q + (n : Number))).2
    | finite p =>
      have start : 0 ≤ q := by
        have zero : (0 : Number) = .finite 0 := rfl
        rwa [zero, ← Bool.not_eq_true, lt_finite, not_lt] at time
      rw [← Bool.not_eq_true, lt_finite, not_lt] at h
      have pos : 0 ≤ q + (n : Rat) := add_nonneg start (Nat.cast_nonneg n)
      exact not_lt_of_le (ofRat_le_ofRat pos (add_le_add_left h (n : Rat)))

end Folio.Number
