/-
What rounding to a number keeps. A positive rational is rounded to a multiple of
its unit, `2 ^ spacing`, that is nearest to it, and of two that are as near to the
even one (`IsNearest`). So rounding is monotone (`ofRat_le_ofRat`), leaves what it
gave before as it is (`isDouble_of_ofRat`), and does not touch the natural numbers
up to `2 ^ 53` (`isDouble_natCast`). Only numbers from zero on are treated: they are
what clocks, delays and indices are.
-/
import Folio.Number.Basic
import Mathlib.Algebra.Order.Field.Power
import Mathlib.Data.Rat.Cast.Order
import Mathlib.Tactic.FieldSimp
import Mathlib.Tactic.Linarith
import Mathlib.Tactic.Positivity
import Mathlib.Tactic.Ring

namespace Folio.Number

/-! ## The nearest whole number -/

/-- `m` is a whole number nearest to `x`, and the even one of two. -/
def IsNearest (x : Rat) (m : Nat) : Prop :=
  |x - m| ≤ 1 / 2 ∧ (|x - m| = 1 / 2 → m % 2 = 0)

theorem isNearest_below (q : Nat) {f : Rat} (pos : 0 ≤ f) (half : f < 1 / 2 ∨ f = 1 / 2 ∧ q % 2 = 0) :
    IsNearest (q + f) q := by
  have dist : |(q : Rat) + f - q| = f := by rw [add_sub_cancel_left, abs_of_nonneg pos]
  rw [IsNearest, dist]
  rcases half with less | ⟨half, even⟩
  · exact ⟨less.le, fun he => absurd he less.ne⟩
  · exact ⟨half.le, fun _ => even⟩

theorem isNearest_above (q : Nat) {f : Rat} (less : f < 1) (half : 1 / 2 < f ∨ f = 1 / 2 ∧ q % 2 = 1) :
    IsNearest (q + f) (q + 1) := by
  have dist : |(q : Rat) + f - ((q + 1 : Nat) : Rat)| = 1 - f := by
    push_cast
    rw [abs_of_nonpos (by linarith)]
    ring
  rw [IsNearest, dist]
  rcases half with more | ⟨half, odd⟩
  · exact ⟨by linarith, fun he => absurd he (by linarith)⟩
  · exact ⟨by linarith, fun _ => by omega⟩

/-- Which side of a half a fraction lies on, told by whole numbers. -/
theorem div_lt_half {d : Nat} (hd : 0 < d) (r : Nat) :
    ((r : Rat) / d < 1 / 2 ↔ 2 * r < d) ∧ (1 / 2 < (r : Rat) / d ↔ d < 2 * r) := by
  have hd' : (0 : Rat) < d := by exact_mod_cast hd
  have less : (r : Rat) < 1 / 2 * d ↔ (2 : Rat) * r < d := by constructor <;> intro h <;> linarith
  have more : 1 / 2 * (d : Rat) < r ↔ (d : Rat) < 2 * r := by constructor <;> intro h <;> linarith
  rw [div_lt_iff₀ hd', lt_div_iff₀ hd', less, more]
  exact ⟨by exact_mod_cast Iff.rfl, by exact_mod_cast Iff.rfl⟩

theorem roundHalfEven_isNearest {d : Nat} (hd : 0 < d) (n : Nat) :
    IsNearest ((n : Rat) / d) (roundHalfEven n d) := by
  have hr : n % d < d := Nat.mod_lt n hd
  have hd' : (0 : Rat) < d := by exact_mod_cast hd
  have parts : (n : Rat) / d = (n / d : Nat) + (n % d : Nat) / (d : Rat) := by
    have h : ((d * (n / d) + n % d : Nat) : Rat) = n := by rw [Nat.div_add_mod]
    rw [← h]
    push_cast
    field_simp
  have pos : (0 : Rat) ≤ (n % d : Nat) / (d : Rat) := by positivity
  have less : ((n % d : Nat) : Rat) / d < 1 := (div_lt_one hd').2 (by exact_mod_cast hr)
  obtain ⟨below, above⟩ := div_lt_half hd (n % d)
  rw [parts, roundHalfEven]
  split
  next h => exact isNearest_below _ pos (.inl (below.2 h))
  next h =>
    split
    next h' => exact isNearest_above _ less (.inl (above.2 h'))
    next h' =>
      have half : ((n % d : Nat) : Rat) / d = 1 / 2 :=
        le_antisymm (not_lt.1 fun more => h' (above.1 more)) (not_lt.1 fun less => h (below.1 less))
      split
      next even => exact isNearest_below _ pos (.inr ⟨half, even⟩)
      next odd => exact isNearest_above _ less (.inr ⟨half, by omega⟩)

/-- What is nearest to a larger number is no smaller. -/
theorem IsNearest.mono {x y : Rat} {m n : Nat} (hm : IsNearest x m) (hn : IsNearest y n) (h : x ≤ y) : m ≤ n := by
  by_contra hlt
  have hlt' : ((n + 1 : Nat) : Rat) ≤ m := by exact_mod_cast Nat.not_le.1 hlt
  push_cast at hlt'
  have hx := abs_le.1 hm.1
  have hy := abs_le.1 hn.1
  -- Both lie in the middle, so both would be even.
  have ex : x - m = -(1 / 2) := by linarith
  have ey : y - n = 1 / 2 := by linarith
  have em : (m : Rat) = ((n + 1 : Nat) : Rat) := by push_cast; linarith
  have evenM := hm.2 (by rw [ex, abs_neg, abs_of_pos (by norm_num)])
  have evenN := hn.2 (by rw [ey, abs_of_pos (by norm_num)])
  have same : m = n + 1 := by exact_mod_cast em
  omega

theorem isNearest_natCast (n : Nat) : IsNearest n n := by
  rw [IsNearest, sub_self, abs_zero]
  exact ⟨by norm_num, fun h => absurd h (by norm_num)⟩

theorem IsNearest.unique {x : Rat} {m n : Nat} (hm : IsNearest x m) (hn : IsNearest x n) : m = n :=
  Nat.le_antisymm (hm.mono hn (le_refl x)) (hn.mono hm (le_refl x))

/-! ## The unit -/

theorem twoPow_eq (e : Int) : twoPow e = (2 : Rat) ^ e := by
  have pow : ∀ k : Nat, ((Nat.pow 2 k : Nat) : Rat) = 2 ^ k := fun k => by
    have h : Nat.pow 2 k = 2 ^ k := rfl
    rw [h]
    push_cast
    rfl
  rw [twoPow]
  split
  next h =>
    obtain ⟨k, rfl⟩ := Int.eq_ofNat_of_zero_le h
    rw [Int.toNat_natCast, zpow_natCast]
    exact pow k
  next h =>
    obtain ⟨k, hk⟩ := Int.eq_ofNat_of_zero_le (a := -e) (by omega)
    have he : e = -(k : Int) := by omega
    rw [hk, Int.toNat_natCast, he, zpow_neg, zpow_natCast, Rat.mkRat_eq_div, ← pow k]
    push_cast
    rw [one_div]

theorem zpow_log2 {n : Nat} (hn : 0 < n) :
    (2 : Rat) ^ (Nat.log2 n : Int) ≤ n ∧ (n : Rat) < 2 ^ ((Nat.log2 n : Int) + 1) := by
  have next : (Nat.log2 n : Int) + 1 = ((Nat.log2 n + 1 : Nat) : Int) := by push_cast; rfl
  rw [next, zpow_natCast, zpow_natCast]
  have below : n < 2 ^ (Nat.log2 n + 1) := Nat.lt_log2_self
  exact ⟨by exact_mod_cast Nat.log2_self_le (by omega), by exact_mod_cast below⟩

/-- `2 ^ e` is the largest power of two up to `n / d`. -/
theorem binaryExponent_spec {n d : Nat} (hn : 0 < n) (hd : 0 < d) :
    (2 : Rat) ^ binaryExponent n d ≤ (n : Rat) / d ∧ (n : Rat) / d < 2 ^ (binaryExponent n d + 1) := by
  have hd' : (0 : Rat) < d := by exact_mod_cast hd
  have two : (2 : Rat) ≠ 0 := by norm_num
  obtain ⟨nLow, nHigh⟩ := zpow_log2 hn
  obtain ⟨dLow, dHigh⟩ := zpow_log2 hd
  rw [binaryExponent]
  generalize he : (Nat.log2 n : Int) - Nat.log2 d = e
  have high : (n : Rat) / d < 2 ^ (e + 1) := by
    rw [div_lt_iff₀ hd']
    have h : (2 : Rat) ^ (e + 1) * 2 ^ (Nat.log2 d : Int) = 2 ^ ((Nat.log2 n : Int) + 1) := by
      rw [← zpow_add₀ two]
      congr 1
      omega
    have h' := mul_le_mul_of_nonneg_left dLow (by positivity : (0 : Rat) ≤ 2 ^ (e + 1))
    linarith
  have low : (2 : Rat) ^ (e - 1) ≤ (n : Rat) / d := by
    rw [le_div_iff₀ hd']
    have h : (2 : Rat) ^ (e - 1) * 2 ^ ((Nat.log2 d : Int) + 1) = 2 ^ (Nat.log2 n : Int) := by
      rw [← zpow_add₀ two]
      congr 1
      omega
    have h' := mul_le_mul_of_nonneg_left dHigh.le (by positivity : (0 : Rat) ≤ 2 ^ (e - 1))
    linarith
  have reached : (if 0 ≤ e then d * Nat.pow 2 e.toNat ≤ n else d ≤ n * Nat.pow 2 (-e).toNat) ↔
      (2 : Rat) ^ e ≤ (n : Rat) / d := by
    rw [le_div_iff₀ hd', ← twoPow_eq, twoPow]
    split
    · rw [mul_comm]
      exact_mod_cast Iff.rfl
    · have pos : (0 : Rat) < (Nat.pow 2 (-e).toNat : Nat) := by
        exact_mod_cast Nat.pow_pos (by norm_num)
      rw [Rat.mkRat_eq_div, Int.cast_one, div_mul_eq_mul_div, one_mul, div_le_iff₀ pos]
      exact_mod_cast Iff.rfl
  simp only [reached]
  by_cases h : (2 : Rat) ^ e ≤ (n : Rat) / d
  · rw [if_pos h]
    exact ⟨h, high⟩
  · rw [if_neg h, sub_add_cancel]
    exact ⟨low, not_le.1 h⟩

/-- `k` is the exponent of the unit at `x`: `x` has at most 53 binary digits before
it, and exactly 53 unless the unit is the smallest. -/
structure IsUnit (x : Rat) (k : Int) : Prop where
  lowest : -1074 ≤ k
  below : x < 2 ^ (k + 53)
  above : k = -1074 ∨ (2 : Rat) ^ (k + 52) ≤ x

theorem spacing_isUnit {n d : Nat} (hn : 0 < n) (hd : 0 < d) : IsUnit ((n : Rat) / d) (spacing n d) := by
  obtain ⟨low, high⟩ := binaryExponent_spec hn hd
  rw [spacing]
  generalize binaryExponent n d = e at low high
  refine ⟨le_max_right _ _, ?_, ?_⟩
  · refine high.trans_le (zpow_le_zpow_right₀ (by norm_num) ?_)
    have h := le_max_left (e - 52) (-1074)
    omega
  · rcases le_total (e - 52) (-1074) with h | h
    · exact .inl (max_eq_right h)
    · right
      rw [max_eq_left h, sub_add_cancel]
      exact low

/-- The magnitude is a multiple of the unit that is nearest. -/
theorem roundMagnitude_spec {d : Nat} (hd : 0 < d) (n : Nat) :
    ∃ m : Nat, roundMagnitude n d = m * 2 ^ spacing n d ∧ IsNearest ((n : Rat) / d / 2 ^ spacing n d) m := by
  have pow : ∀ k : Nat, ((Nat.pow 2 k : Nat) : Rat) = 2 ^ k := fun k => by
    have h : Nat.pow 2 k = 2 ^ k := rfl
    rw [h]
    push_cast
    rfl
  rw [roundMagnitude]
  generalize spacing n d = k
  rw [twoPow_eq]
  refine ⟨_, rfl, ?_⟩
  split
  next h =>
    obtain ⟨j, rfl⟩ := Int.eq_ofNat_of_zero_le h
    have near := roundHalfEven_isNearest (Nat.mul_pos hd (Nat.pow_pos (n := j) (by norm_num : 0 < 2))) n
    rw [Int.toNat_natCast, zpow_natCast, div_div]
    have e : ((d * Nat.pow 2 j : Nat) : Rat) = d * 2 ^ j := by rw [Nat.cast_mul, pow]
    rw [← e]
    exact near
  next h =>
    obtain ⟨j, hj⟩ := Int.eq_ofNat_of_zero_le (a := -k) (by omega)
    have hk : k = -(j : Int) := by omega
    have near := roundHalfEven_isNearest hd (n * Nat.pow 2 j)
    rw [hj, Int.toNat_natCast, hk, zpow_neg, zpow_natCast, div_inv_eq_mul]
    have e : (n : Rat) / d * 2 ^ j = ((n * Nat.pow 2 j : Nat) : Rat) / d := by
      rw [Nat.cast_mul, pow]
      ring
    rw [e]
    exact near

/-! ## Rounding -/

variable {x y : Rat}

/-- A positive rational is rounded to a multiple of its unit. -/
theorem exists_round (hx : 0 < x) :
    ∃ (m : Nat) (k : Int), IsUnit x k ∧ IsNearest (x / 2 ^ k) m ∧ roundMagnitude x.num.natAbs x.den = m * 2 ^ k := by
  have num : 0 < x.num := Rat.num_pos.2 hx
  have value : ((x.num.natAbs : Nat) : Rat) / x.den = x := by
    have h : ((x.num.natAbs : Nat) : Int) = x.num := by omega
    have h' : ((x.num.natAbs : Int) : Rat) = x.num := congrArg Int.cast h
    rw [← Int.cast_natCast, h', Rat.num_div_den]
  have unit := spacing_isUnit (n := x.num.natAbs) (by omega) x.den_pos
  obtain ⟨m, eq, near⟩ := roundMagnitude_spec x.den_pos x.num.natAbs
  rw [value] at unit near
  exact ⟨m, _, unit, near, eq⟩

theorem IsUnit.mono {k l : Int} (hk : IsUnit x k) (hl : IsUnit y l) (h : x ≤ y) : k ≤ l := by
  rcases hk.above with low | above
  · have := hl.lowest
    omega
  · have lt : (2 : Rat) ^ (k + 52) < 2 ^ (l + 53) := above.trans_lt (h.trans_lt hl.below)
    have := (zpow_lt_zpow_iff_right₀ (by norm_num)).1 lt
    omega

theorem IsUnit.nearest_le {k : Int} {m : Nat} (hk : IsUnit x k) (near : IsNearest (x / 2 ^ k) m) : m ≤ 2 ^ 53 := by
  refine near.mono (isNearest_natCast (2 ^ 53)) ?_
  have pos : (0 : Rat) < 2 ^ k := by positivity
  rw [div_le_iff₀ pos]
  have below := hk.below
  rw [zpow_add₀ (by norm_num)] at below
  push_cast
  linarith

theorem IsUnit.le_nearest {k : Int} {m : Nat} (above : (2 : Rat) ^ (k + 52) ≤ x) (near : IsNearest (x / 2 ^ k) m) :
    2 ^ 52 ≤ m := by
  refine (isNearest_natCast (2 ^ 52)).mono near ?_
  have pos : (0 : Rat) < 2 ^ k := by positivity
  rw [le_div_iff₀ pos]
  rw [zpow_add₀ (by norm_num)] at above
  push_cast
  linarith

theorem roundMagnitude_nonneg (hx : 0 < x) : 0 ≤ roundMagnitude x.num.natAbs x.den := by
  obtain ⟨m, k, -, -, eq⟩ := exists_round hx
  rw [eq]
  positivity

/-- A larger magnitude is not rounded to a smaller one. -/
theorem roundMagnitude_mono (hx : 0 < x) (h : x ≤ y) :
    roundMagnitude x.num.natAbs x.den ≤ roundMagnitude y.num.natAbs y.den := by
  obtain ⟨m, k, hk, hm, ex⟩ := exists_round hx
  obtain ⟨n, l, hl, hn, ey⟩ := exists_round (hx.trans_le h)
  rw [ex, ey]
  have posK : (0 : Rat) < 2 ^ k := by positivity
  have posL : (0 : Rat) < 2 ^ l := by positivity
  rcases (hk.mono hl h).eq_or_lt with rfl | lt
  · have le : m ≤ n := hm.mono hn ((div_le_div_iff_of_pos_right posK).2 h)
    have le' : (m : Rat) ≤ n := by exact_mod_cast le
    exact mul_le_mul_of_nonneg_right le' posK.le
  · -- The units differ, so a power of two lies between.
    have above : (2 : Rat) ^ (l + 52) ≤ y := hl.above.resolve_left (by have := hk.lowest; omega)
    have hm' : (m : Rat) ≤ 2 ^ 53 := by exact_mod_cast hk.nearest_le hm
    have hn' : (2 : Rat) ^ 52 ≤ n := by exact_mod_cast IsUnit.le_nearest above hn
    calc (m : Rat) * 2 ^ k ≤ 2 ^ 53 * 2 ^ k := mul_le_mul_of_nonneg_right hm' posK.le
      _ = 2 ^ (k + 53) := by rw [zpow_add₀ (by norm_num), mul_comm]; rfl
      _ ≤ 2 ^ (l + 52) := zpow_le_zpow_right₀ (by norm_num) (by omega)
      _ = 2 ^ 52 * 2 ^ l := by rw [zpow_add₀ (by norm_num), mul_comm]; rfl
      _ ≤ n * 2 ^ l := mul_le_mul_of_nonneg_right hn' posL.le

/-- What has few enough binary digits is not rounded. -/
theorem roundMagnitude_self {m : Nat} {k : Int} (hk : -1074 ≤ k) (hm : m ≤ 2 ^ 53) (hx : x = m * 2 ^ k)
    (pos : 0 < x) : roundMagnitude x.num.natAbs x.den = x := by
  obtain ⟨n, l, hl, hn, eq⟩ := exists_round pos
  have two : (2 : Rat) ≠ 0 := by norm_num
  have whole : ∃ j : Nat, x / 2 ^ l = j := by
    rcases le_or_gt l k with h | h
    · obtain ⟨i, hi⟩ := Int.eq_ofNat_of_zero_le (a := k - l) (by omega)
      refine ⟨m * 2 ^ i, ?_⟩
      rw [hx, mul_div_assoc, ← zpow_sub₀ two, hi, zpow_natCast]
      push_cast
      rfl
    · -- The unit is larger, so all digits are used up: it is the next power of two.
      have above : (2 : Rat) ^ (l + 52) ≤ x := hl.above.resolve_left (by omega)
      have hm' : (m : Rat) ≤ 2 ^ 53 := by exact_mod_cast hm
      have below : x ≤ 2 ^ (k + 53) := by
        rw [hx, zpow_add₀ two, mul_comm]
        exact mul_le_mul_of_nonneg_left hm' (by positivity)
      have le := (zpow_le_zpow_iff_right₀ (by norm_num)).1 (above.trans below)
      obtain rfl : l = k + 1 := by omega
      have value : x = 2 ^ (k + 1 + 52) := by
        refine le_antisymm (below.trans_eq ?_) above
        congr 1
        omega
      refine ⟨2 ^ 52, ?_⟩
      rw [value, zpow_add₀ two (k + 1), mul_div_cancel_left₀ _ (by positivity)]
      push_cast
      rfl
  obtain ⟨j, hj⟩ := whole
  rw [hj] at hn
  obtain rfl := hn.unique (isNearest_natCast j)
  rw [eq, ← hj, div_mul_cancel₀ _ (by positivity)]

theorem ofRat_of_pos (hx : 0 < x) : ofRat x = if twoPow 1024 ≤ roundMagnitude x.num.natAbs x.den
    then .infinite false else .finite (roundMagnitude x.num.natAbs x.den) := by
  have neg : ¬x < 0 := not_lt.2 hx.le
  simp only [ofRat, if_neg hx.ne', neg, decide_false, if_false]

@[simp] theorem le_finite (a b : Rat) : (finite a).le (finite b) = true ↔ a ≤ b := by simp [le, lt]

@[simp] theorem lt_finite (a b : Rat) : (finite a).lt (finite b) = true ↔ a < b := by simp [lt]

/-- **Rounding is monotone.** -/
theorem ofRat_le_ofRat (hx : 0 ≤ x) (h : x ≤ y) : (ofRat x).le (ofRat y) = true := by
  rcases hx.eq_or_lt with rfl | hx
  · have zero : ofRat 0 = .finite 0 := rfl
    rcases h.eq_or_lt with rfl | hy
    · simp [zero]
    · rw [zero, ofRat_of_pos hy]
      split
      · rfl
      · exact (le_finite _ _).2 (roundMagnitude_nonneg hy)
  · have mono := roundMagnitude_mono hx h
    rw [ofRat_of_pos hx, ofRat_of_pos (hx.trans_le h)]
    split
    next big => rw [if_pos (big.trans mono)]; rfl
    · split
      · rfl
      · exact (le_finite _ _).2 mono

/-- A rational that is a number as it is. -/
def IsDouble (x : Rat) : Prop := ofRat x = .finite x

theorem isDouble_of_grid {m : Nat} {k : Int} (hk : -1074 ≤ k) (hm : m ≤ 2 ^ 53) (hx : x = m * 2 ^ k)
    (small : x < twoPow 1024) : IsDouble x := by
  have nonneg : 0 ≤ x := hx ▸ mul_nonneg m.cast_nonneg (zpow_nonneg (by norm_num) k)
  rcases nonneg.eq_or_lt with rfl | pos
  · rfl
  · rw [IsDouble, ofRat_of_pos pos, roundMagnitude_self hk hm hx pos, if_neg (not_le.2 small)]

/-- What was rounded is not rounded any more. -/
theorem isDouble_of_ofRat (hx : 0 ≤ x) (h : ofRat x = .finite y) : 0 ≤ y ∧ IsDouble y := by
  rcases hx.eq_or_lt with rfl | hx
  · obtain rfl : 0 = y := Number.finite.inj h
    exact ⟨le_refl 0, rfl⟩
  · obtain ⟨m, k, hk, hm, eq⟩ := exists_round hx
    rw [ofRat_of_pos hx, eq] at h
    split at h
    · cases h
    next small =>
      obtain rfl := Number.finite.inj h
      exact ⟨by positivity, isDouble_of_grid hk.lowest (hk.nearest_le hm) rfl (not_le.1 small)⟩

/-! ## What a rational is rounded to -/

/-- What a rational from zero on is rounded to: the multiple of its unit that is nearest to
it, or infinity if that is `2 ^ 1024` or more. -/
inductive IsRounded (x : Rat) : Number → Prop where
  | finite {m : Nat} {k : Int} (unit : IsUnit x k) (near : IsNearest (x / 2 ^ k) m)
      (small : (m : Rat) * 2 ^ k < 2 ^ 1024) : IsRounded x (.finite (m * 2 ^ k))
  | infinite {m : Nat} {k : Int} (unit : IsUnit x k) (near : IsNearest (x / 2 ^ k) m)
      (large : 2 ^ 1024 ≤ (m : Rat) * 2 ^ k) : IsRounded x (.infinite false)

theorem IsUnit.unique {k l : Int} (hk : IsUnit x k) (hl : IsUnit x l) : k = l :=
  (hk.mono hl (le_refl x)).antisymm (hl.mono hk (le_refl x))

theorem isUnit_lowest (h : x < 2 ^ (-1021 : Int)) : IsUnit x (-1074) := ⟨le_refl _, h, .inl rfl⟩

theorem IsRounded.unique {n n' : Number} (h : IsRounded x n) (h' : IsRounded x n') : n = n' := by
  cases h with
  | finite unit near small =>
    cases h' with
    | finite unit' near' =>
      obtain rfl := unit.unique unit'
      rw [near.unique near']
    | infinite unit' near' large =>
      obtain rfl := unit.unique unit'
      obtain rfl := near.unique near'
      exact absurd large (not_le.2 small)
  | infinite unit near large =>
    cases h' with
    | finite unit' near' small =>
      obtain rfl := unit.unique unit'
      obtain rfl := near.unique near'
      exact absurd large (not_le.2 small)
    | infinite => rfl

theorem isRounded_ofRat (hx : 0 ≤ x) : IsRounded x (ofRat x) := by
  have top : twoPow 1024 = 2 ^ 1024 := by
    rw [twoPow_eq]
    exact zpow_natCast 2 1024
  rcases hx.eq_or_lt with rfl | pos
  · have least : (0 : Rat) / 2 ^ (-1074 : Int) = ((0 : Nat) : Rat) := by rw [zero_div, Nat.cast_zero]
    have zero : ofRat 0 = .finite (((0 : Nat) : Rat) * 2 ^ (-1074 : Int)) := by
      rw [Nat.cast_zero, zero_mul]
      rfl
    rw [zero]
    refine .finite (isUnit_lowest (by positivity)) (least ▸ isNearest_natCast 0) ?_
    rw [Nat.cast_zero, zero_mul]
    positivity
  · obtain ⟨m, k, unit, near, eq⟩ := exists_round pos
    rw [ofRat_of_pos pos, eq, top]
    split
    next large => exact .infinite unit near large
    next small => exact .finite unit near (not_le.1 small)

/-- A rational from zero on is rounded to what it should be, and to nothing else. -/
theorem ofRat_eq_iff (hx : 0 ≤ x) {n : Number} : ofRat x = n ↔ IsRounded x n :=
  ⟨fun its => its ▸ isRounded_ofRat hx, (isRounded_ofRat hx).unique⟩

theorem ofRat_of_large (h : 2 ^ 1024 ≤ x) : ofRat x = .infinite false := by
  have pos : (0 : Rat) < 2 ^ 1024 := by positivity
  have grid : (2 : Rat) ^ 1024 = ((1 : Nat) : Rat) * 2 ^ (1024 : Int) := by
    rw [Nat.cast_one, one_mul]
    exact (zpow_natCast 2 1024).symm
  have large := roundMagnitude_mono pos h
  rw [roundMagnitude_self (by norm_num) (by norm_num) grid pos] at large
  rw [ofRat_of_pos (pos.trans_le h), if_pos]
  rw [twoPow_eq]
  exact (zpow_natCast 2 1024).trans_le large

theorem ofRat_of_small (hx : 0 ≤ x) (h : x < 2 ^ (-1075 : Int)) : ofRat x = .finite 0 := by
  have half : x / 2 ^ (-1074 : Int) < 1 / 2 := by
    rw [div_lt_iff₀ (by positivity)]
    refine h.trans_eq ?_
    rw [show (-1075 : Int) = -1074 + -1 by norm_num, zpow_add₀ (by norm_num), mul_comm]
    norm_num
  have nonneg : 0 ≤ x / 2 ^ (-1074 : Int) := div_nonneg hx (by positivity)
  have near : IsNearest (x / 2 ^ (-1074 : Int)) 0 := by
    rw [IsNearest, Nat.cast_zero, sub_zero, abs_of_nonneg nonneg]
    exact ⟨half.le, fun its => absurd its half.ne⟩
  have unit : IsUnit x (-1074) := isUnit_lowest (h.trans (zpow_lt_zpow_right₀ (by norm_num) (by norm_num)))
  have zero : (((0 : Nat) : Rat) * 2 ^ (-1074 : Int)) = 0 := by rw [Nat.cast_zero, zero_mul]
  have rounded : IsRounded x (.finite (((0 : Nat) : Rat) * 2 ^ (-1074 : Int))) :=
    .finite unit near (by rw [zero]; positivity)
  rw [zero] at rounded
  exact (ofRat_eq_iff hx).2 rounded

/-! ## Natural numbers -/

/-- Natural numbers up to `2 ^ 53` are numbers as they are. -/
theorem isDouble_natCast {n : Nat} (h : n ≤ 2 ^ 53) : IsDouble n := by
  refine isDouble_of_grid (m := n) (k := 0) (by norm_num) h (by rw [zpow_zero, mul_one]) ?_
  have le : (n : Rat) ≤ 2 ^ 53 := by exact_mod_cast h
  refine le.trans_lt ?_
  rw [← zpow_natCast, twoPow_eq]
  exact zpow_lt_zpow_right₀ (by norm_num) (by norm_num)

theorem natCast_eq (n : Nat) : (n : Number) = .finite (n : Rat) := rfl

theorem lt_natCast (m n : Nat) : lt (m : Number) n = decide (m < n) := by
  rw [Bool.eq_iff_iff, decide_eq_true_iff, natCast_eq, natCast_eq, lt_finite]
  exact Nat.cast_lt

theorem max_natCast (m n : Nat) : max (m : Number) (n : Number) = ((max m n : Nat) : Number) := by
  have h : max (m : Number) (n : Number) = if lt m n then (n : Number) else m := rfl
  rw [h, lt_natCast]
  rcases Nat.lt_or_ge m n with hmn | hmn
  · rw [if_pos (decide_eq_true hmn), Nat.max_eq_right hmn.le]
  · rw [if_neg (by simpa using hmn), Nat.max_eq_left hmn]

theorem min_natCast (m n : Nat) : min (m : Number) (n : Number) = ((min m n : Nat) : Number) := by
  have h : min (m : Number) (n : Number) = if lt n m then (n : Number) else m := rfl
  rw [h, lt_natCast]
  rcases Nat.lt_or_ge n m with hmn | hmn
  · rw [if_pos (decide_eq_true hmn), Nat.min_eq_right hmn.le]
  · rw [if_neg (by simpa using hmn), Nat.min_eq_left hmn]

theorem natCast_add_one {n : Nat} (h : n < 2 ^ 53) : (n : Number) + 1 = ((n + 1 : Nat) : Number) := by
  have sum : (n : Number) + 1 = ofRat ((n : Rat) + ((1 : Nat) : Rat)) := rfl
  have cast : (n : Rat) + ((1 : Nat) : Rat) = ((n + 1 : Nat) : Rat) := by push_cast; rfl
  rw [sum, cast]
  exact isDouble_natCast h

/-- The difference of two natural numbers, where it is one. -/
theorem natCast_sub {m n : Nat} (h : m ≤ n) (small : n ≤ 2 ^ 53) :
    (n : Number) - (m : Number) = ((n - m : Nat) : Number) := by
  have diff : (n : Number) - (m : Number) = ofRat ((n : Rat) + -(m : Rat)) := rfl
  have cast : (n : Rat) + -(m : Rat) = ((n - m : Nat) : Rat) := by rw [Nat.cast_sub h, sub_eq_add_neg]
  rw [diff, cast]
  exact isDouble_natCast (by omega)

theorem natCast_sub_one {n : Nat} (h : n + 1 ≤ 2 ^ 53) : ((n + 1 : Nat) : Number) - 1 = (n : Number) :=
  natCast_sub (Nat.le_add_left 1 n) h

theorem toNat?_finite_of_nonpos (hx : x ≤ 0) (n : Nat) : (finite x).toNat? ≠ some (n + 1) := by
  intro h
  have nonpos : x.num ≤ 0 := Rat.num_nonpos.2 hx
  rw [toNat?, toInt?] at h
  by_cases whole : x.den = 1
  · simp only [if_pos whole] at h
    split at h
    · have := Option.some.inj h
      omega
    · cases h
  · simp only [if_neg whole] at h
    cases h

/-- What is not positive is not rounded to a positive number. -/
theorem toNat?_ofRat_of_nonpos (hx : x ≤ 0) (n : Nat) : (ofRat x).toNat? ≠ some (n + 1) := by
  rcases hx.eq_or_lt with rfl | neg
  · exact toNat?_finite_of_nonpos (le_refl 0) n
  · have nonneg := roundMagnitude_nonneg (neg_pos.2 neg)
    rw [Rat.num_neg_eq_neg_num, Rat.den_neg_eq_den, Int.natAbs_neg] at nonneg
    simp only [ofRat, if_neg neg.ne, if_pos neg]
    split
    · exact fun h => by cases h
    · exact toNat?_finite_of_nonpos (neg_nonpos.2 nonneg) n

theorem zero_sub_one : ((0 : Nat) : Number) - 1 = .finite (-1) := by decide +kernel

end Folio.Number
