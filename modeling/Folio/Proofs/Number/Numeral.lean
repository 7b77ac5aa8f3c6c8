/-
Numerals, as a grammar. `Writes text n` says of a text without white space around it that it
writes the number `n`: as `Infinity` or as a decimal numeral, which may have a sign, a point
and an exponent, or as a whole number in a base that is announced. The value is positional,
and rounded once at the end.

Reading finds the number that a text writes, if it writes one (`read_eq_iff`). There is one
lemma for the reader of each part. Where a part ends is clear from the character after it, so
whatever parts a numeral is put together from are the parts that are read.
-/
import Folio.Number.Numeral
import Folio.Proofs.Number.Rounding
import Folio.Proofs.Text.Trim

namespace Folio.Number

variable {base d m places : Nat} {e : Int} {c : Char} {n : Number} {cs ds es tail : List Char} {text : String}

/-! ## Digits -/

/-- A character is the digit of a value in a base; letters may be in either case. -/
structure IsDigit (base : Nat) (c : Char) (d : Nat) : Prop where
  small : d < base
  shape : c = Nat.digitChar d ∨ c = (Nat.digitChar d).toUpper

/-- Digits write a natural number in a base, the highest first. -/
inductive Digits (base : Nat) : List Char → Nat → Prop where
  | one {c : Char} {d : Nat} (digit : IsDigit base c d) : Digits base [c] d
  | more {ds : List Char} {m : Nat} {c : Char} {d : Nat} (front : Digits base ds m) (digit : IsDigit base c d) :
      Digits base (ds ++ [c]) (base * m + d)

theorem exists_digit (h : c.isDigit = true) : ∃ d < 10, c = Nat.digitChar d := by
  simp only [Char.isDigit, Bool.and_eq_true, decide_eq_true_eq] at h
  obtain ⟨low, high⟩ := h
  have low' : 48 ≤ c.toNat := low
  have high' : c.toNat ≤ 57 := high
  have all : ∀ d < 10, Char.ofNat (48 + d) = Nat.digitChar d := by decide
  refine ⟨c.toNat - 48, by omega, ?_⟩
  rw [← all _ (by omega), Nat.add_sub_cancel' low', Char.ofNat_toNat]

theorem digit?_eq_some_iff (small : base ≤ 16) : digit? base c = some d ↔ IsDigit base c d := by
  constructor
  · intro read
    simp only [digit?, Option.ite_none_right_eq_some, Option.some.injEq] at read
    obtain ⟨below, rfl⟩ := read
    refine ⟨below, ?_⟩
    revert below
    split
    next digit =>
      have all : ∀ d < 10, (Nat.digitChar d).toNat - '0'.toNat = d := by decide
      obtain ⟨d, hd, rfl⟩ := exists_digit digit
      exact fun _ => .inl (by rw [all d hd])
    split
    next lower =>
      have low : 97 ≤ c.toNat := lower.1
      have high : c.toNat ≤ 102 := lower.2
      have all : ∀ k < 6, Char.ofNat (97 + k) = Nat.digitChar (k + 10) := by decide
      have its := all (c.toNat - 97) (by omega)
      rw [Nat.add_sub_cancel' low, Char.ofNat_toNat] at its
      exact fun _ => .inl its
    split
    next upper =>
      have low : 65 ≤ c.toNat := upper.1
      have high : c.toNat ≤ 70 := upper.2
      have all : ∀ k < 6, Char.ofNat (65 + k) = (Nat.digitChar (k + 10)).toUpper := by decide
      have its := all (c.toNat - 65) (by omega)
      rw [Nat.add_sub_cancel' low, Char.ofNat_toNat] at its
      exact fun _ => .inr its
    · exact fun below => absurd below (Nat.not_lt.2 small)
  · rintro ⟨below, rfl | rfl⟩
    · exact digit?_digitChar small below
    · have all : ∀ d < 16, ∀ base ≤ 16, d < base → digit? base (Nat.digitChar d).toUpper = some d := by decide
      exact all d (by omega) base small below

theorem whole?_singleton (base : Nat) (c : Char) : whole? base [c] = digit? base c := by
  simp [whole?]

theorem whole?_append (base : Nat) (some : ds ≠ []) (c : Char) :
    whole? base (ds ++ [c]) = (whole? base ds).bind fun m => (digit? base c).map (base * m + ·) := by
  rw [whole?, if_neg (by simp), List.foldl_append, whole?, if_neg some]
  rfl

theorem Digits.ne_nil (h : Digits base ds m) : ds ≠ [] := by
  cases h <;> simp

theorem whole?_eq_some_iff (small : base ≤ 16) : whole? base ds = some m ↔ Digits base ds m := by
  constructor
  · intro read
    induction ds using List.reverseRecOn generalizing m with
    | nil => cases read
    | append_singleton ds c ih =>
      by_cases none : ds = []
      · subst none
        rw [List.nil_append, whole?_singleton] at read
        exact .one ((digit?_eq_some_iff small).1 read)
      · rw [whole?_append base none] at read
        obtain ⟨m, front, read⟩ := Option.bind_eq_some_iff.1 read
        obtain ⟨d, digit, rfl⟩ := Option.map_eq_some_iff.1 read
        exact .more (ih front) ((digit?_eq_some_iff small).1 digit)
  · intro digits
    induction digits with
    | one digit => rw [whole?_singleton, (digit?_eq_some_iff small).2 digit]
    | more front digit ih =>
      rw [whole?_append base front.ne_nil, ih, Option.bind_some, (digit?_eq_some_iff small).2 digit]
      rfl

theorem IsDigit.isDigit (h : IsDigit 10 c d) : c.isDigit = true := by
  have all : ∀ d < 10, (Nat.digitChar d).isDigit = true ∧ (Nat.digitChar d).toUpper.isDigit = true := by decide
  obtain ⟨small, rfl | rfl⟩ := h
  · exact (all d small).1
  · exact (all d small).2

theorem Digits.exists_isDigit (h : Digits base ds m) : ∀ c ∈ ds, ∃ d, IsDigit base c d := by
  induction h with
  | one digit =>
    intro c hc
    obtain rfl := List.mem_singleton.1 hc
    exact ⟨_, digit⟩
  | more front digit ih =>
    intro c hc
    rcases List.mem_append.1 hc with hc | hc
    · exact ih c hc
    · obtain rfl := List.mem_singleton.1 hc
      exact ⟨_, digit⟩

theorem Digits.isDigit (h : Digits 10 ds m) (c : Char) (hc : c ∈ ds) : c.isDigit = true := by
  obtain ⟨d, digit⟩ := h.exists_isDigit c hc
  exact digit.isDigit

/-! ## Decimal numerals -/

/-- The exponent after a decimal numeral; there may be none. -/
inductive Exponent : List Char → Int → Prop where
  | none : Exponent [] 0
  | bare {c : Char} {ds : List Char} {m : Nat} (mark : c = 'e' ∨ c = 'E') (digits : Digits 10 ds m) :
      Exponent (c :: ds) m
  | plus {c : Char} {ds : List Char} {m : Nat} (mark : c = 'e' ∨ c = 'E') (digits : Digits 10 ds m) :
      Exponent (c :: '+' :: ds) m
  | minus {c : Char} {ds : List Char} {m : Nat} (mark : c = 'e' ∨ c = 'E') (digits : Digits 10 ds m) :
      Exponent (c :: '-' :: ds) (-m)

/-- Decimal digits, which may have a point before, among or after them: the number that they
write without it, and how many of them are behind it. -/
inductive Mantissa : List Char → Nat → Nat → Prop where
  | whole {ds : List Char} {m : Nat} (digits : Digits 10 ds m) : Mantissa ds m 0
  | pointed {ds es : List Char} {m : Nat} (digits : Digits 10 (ds ++ es) m) : Mantissa (ds ++ '.' :: es) m es.length

/-- What a text without a sign and without white space around it writes. -/
inductive Unsigned : List Char → Number → Prop where
  | infinity : Unsigned ['I', 'n', 'f', 'i', 'n', 'i', 't', 'y'] (.infinite false)
  | decimal {cs tail : List Char} {m places : Nat} {e : Int} {n : Number} (mantissa : Mantissa cs m places)
      (exponent : Exponent tail e) (rounded : IsRounded (m * 10 ^ (e - places)) n) : Unsigned (cs ++ tail) n

theorem exponent?_eq_some_iff : exponent? cs = some e ↔ Exponent cs e := by
  have digits : ∀ (sign : Int → Int) (ds : List Char) (e : Int),
      Option.map sign (do let m ← whole? 10 ds; pure (m : Int)) = some e ↔ ∃ m, Digits 10 ds m ∧ sign m = e := by
    intro sign ds e
    simp only [← whole?_eq_some_iff (by decide : 10 ≤ 16)]
    cases whole? 10 ds <;> simp
  constructor
  · intro read
    unfold exponent? at read
    split at read
    next =>
      obtain rfl := Option.some.inj read
      exact .none
    next c ds =>
      split at read
      next mark =>
        split at read
        all_goals obtain ⟨m, written, rfl⟩ := (digits _ _ _).1 read
        · exact .minus mark written
        · exact .plus mark written
        · exact .bare mark written
      · cases read
  · intro written
    unfold exponent?
    cases written with
    | none => rfl
    | bare mark written =>
      simp only [if_pos mark]
      split
      · exact absurd (written.isDigit '-' (by simp)) (by decide)
      · exact absurd (written.isDigit '+' (by simp)) (by decide)
      · exact (digits _ _ _).2 ⟨_, written, rfl⟩
    | plus mark written | minus mark written =>
      simp only [if_pos mark]
      exact (digits _ _ _).2 ⟨_, written, rfl⟩

/-- An exponent starts with its mark. -/
theorem Exponent.opens (h : Exponent tail e) : ∀ c ∈ tail.head?, c = 'e' ∨ c = 'E' := by
  cases h with
  | none => exact fun c hc => nomatch hc
  | bare mark _ | plus mark _ | minus mark _ =>
    intro c hc
    obtain rfl := Option.some.inj hc
    exact mark

/-- A run of digits ends before the first character that is none. -/
theorem span_isDigit (digits : ∀ c ∈ ds, c.isDigit = true) (opens : ∀ c ∈ tail.head?, c.isDigit = false) :
    (ds ++ tail).takeWhile Char.isDigit = ds ∧ (ds ++ tail).dropWhile Char.isDigit = tail := by
  rw [List.takeWhile_append_of_pos digits, List.dropWhile_append_of_pos digits]
  cases tail with
  | nil => exact ⟨List.append_nil ds, rfl⟩
  | cons c tail =>
    have other : ¬c.isDigit = true := by simp [opens c rfl]
    rw [List.takeWhile_cons_of_neg other, List.dropWhile_cons_of_neg other, List.append_nil]
    exact ⟨rfl, rfl⟩

/-! ## Rounding once

Exponents far out of range are settled without forming the power. -/

theorem cast_le_pow_digits (m : Nat) : (m : Rat) < 10 ^ ((Nat.log2 m : Int) / 3 + 1) := by
  obtain ⟨k, hk⟩ := Int.eq_ofNat_of_zero_le (a := (Nat.log2 m : Int) / 3 + 1) (by omega)
  rw [hk, zpow_natCast]
  have below : m < 2 ^ (Nat.log2 m + 1) := Nat.lt_log2_self
  have more : 2 ^ (Nat.log2 m + 1) ≤ 2 ^ (3 * k) := Nat.pow_le_pow_right (by norm_num) (by omega)
  have eight : 2 ^ (3 * k) ≤ 10 ^ k := by
    rw [Nat.pow_mul]
    exact Nat.pow_le_pow_left (by norm_num) k
  exact_mod_cast (below.trans_le more).trans_le eight

theorem two_zpow_le_ten_zpow {k : Int} (h : 0 ≤ k) : (2 : Rat) ^ (3 * k) ≤ 10 ^ k := by
  rw [zpow_mul]
  exact zpow_le_zpow_left₀ h (by norm_num) (by norm_num)

/-- Beyond this exponent any whole number is out of range. -/
theorem le_scientific {m : Nat} (pos : 0 < m) {e : Int} (large : 400 < e) : (2 : Rat) ^ 1024 ≤ m * 10 ^ e := by
  have one : (1 : Rat) ≤ m := by exact_mod_cast pos
  calc (2 : Rat) ^ 1024 = 2 ^ (1024 : Int) := (zpow_natCast 2 1024).symm
    _ ≤ 2 ^ (3 * e) := zpow_le_zpow_right₀ (by norm_num) (by omega)
    _ ≤ 10 ^ e := two_zpow_le_ten_zpow (by omega)
    _ ≤ m * 10 ^ e := le_mul_of_one_le_left (by positivity) one

/-- Below this exponent a whole number with that many digits is nearest to zero. -/
theorem scientific_lt {m : Nat} {e : Int} (small : e + ((Nat.log2 m : Int) / 3 + 1) < -400) :
    (m : Rat) * 10 ^ e < 2 ^ (-1075 : Int) := by
  have inverse : (10 : Rat) ^ (-401 : Int) ≤ 2 ^ (3 * (-401) : Int) := by
    rw [zpow_neg, mul_neg, zpow_neg]
    exact inv_anti₀ (by positivity) (two_zpow_le_ten_zpow (by norm_num))
  calc (m : Rat) * 10 ^ e < 10 ^ ((Nat.log2 m : Int) / 3 + 1) * 10 ^ e :=
        mul_lt_mul_of_pos_right (cast_le_pow_digits m) (by positivity)
    _ = 10 ^ ((Nat.log2 m : Int) / 3 + 1 + e) := (zpow_add₀ (by norm_num) _ _).symm
    _ ≤ 10 ^ (-401 : Int) := zpow_le_zpow_right₀ (by norm_num) (by omega)
    _ ≤ 2 ^ (3 * (-401) : Int) := inverse
    _ ≤ 2 ^ (-1075 : Int) := zpow_le_zpow_right₀ (by norm_num) (by norm_num)

/-- What is put together from a mantissa and an exponent is their rational, rounded. -/
theorem ofScientific_natCast (m : Nat) (e : Int) : ofScientific m e = ofRat (m * 10 ^ e) := by
  have ten : ∀ k : Nat, ((Nat.pow 10 k : Nat) : Rat) = 10 ^ k := fun k => by
    have pow : Nat.pow 10 k = 10 ^ k := rfl
    rw [pow]
    push_cast
    rfl
  rcases Nat.eq_zero_or_pos m with rfl | pos
  · have zero : ((0 : Nat) : Rat) * 10 ^ e = 0 := by rw [Nat.cast_zero, zero_mul]
    rw [zero]
    rfl
  have unsigned : ¬(m : Int) < 0 := by omega
  have size : Int.natAbs (m : Int) = m := Int.natAbs_natCast m
  rw [ofScientific, if_neg (by omega)]
  simp only [size, unsigned, decide_false]
  split
  next large => exact (ofRat_of_large (le_scientific pos large)).symm
  split
  next small => exact (ofRat_of_small (by positivity) (scientific_lt small)).symm
  split
  next whole =>
    obtain ⟨k, rfl⟩ := Int.eq_ofNat_of_zero_le whole
    congr 1
    rw [Int.toNat_natCast, zpow_natCast, ← ten]
    push_cast
    rfl
  next fraction =>
    obtain ⟨k, hk⟩ := Int.eq_ofNat_of_zero_le (a := -e) (by omega)
    obtain rfl : e = -(k : Int) := by omega
    congr 1
    rw [hk, Int.toNat_natCast, Rat.mkRat_eq_div, zpow_neg, zpow_natCast, ← ten, div_eq_mul_inv]
    push_cast
    rfl

/-! ## Texts without a sign -/

theorem Digits.not_infinity (h : Digits 10 ds m) (tail : List Char) : ds ++ tail ≠ "Infinity".toList := by
  cases ds with
  | nil => exact absurd rfl h.ne_nil
  | cons c ds =>
    intro its
    obtain rfl : c = 'I' := (List.cons.inj its).1
    exact absurd (h.isDigit 'I' (by simp)) (by decide)

/-- Digits without a point, and what follows them. -/
theorem unsigned?_whole (word : ds ++ tail ≠ "Infinity".toList) (digits : ∀ c ∈ ds, c.isDigit = true)
    (opens : ∀ c ∈ tail.head?, c.isDigit = false ∧ c ≠ '.') : unsigned? (ds ++ tail) = some n ↔
      ∃ m e, Digits 10 ds m ∧ Exponent tail e ∧ ofScientific (m : Nat) e = n := by
  obtain ⟨front, back⟩ := span_isDigit digits fun c hc => (opens c hc).1
  simp only [← whole?_eq_some_iff (by decide : 10 ≤ 16), ← exponent?_eq_some_iff]
  have pointless : ∀ more, tail ≠ '.' :: more := by
    rintro more rfl
    exact (opens '.' rfl).2 rfl
  rw [unsigned?, if_neg word]
  simp only [front, back, List.append_nil, List.length_nil, Nat.cast_zero, sub_zero]
  cases whole? 10 ds <;> cases exponent? tail <;> simp

/-- Digits with a point, and what follows them. -/
theorem unsigned?_pointed (digits : ∀ c ∈ ds, c.isDigit = true) (more : ∀ c ∈ es, c.isDigit = true)
    (opens : ∀ c ∈ tail.head?, c.isDigit = false) : unsigned? (ds ++ '.' :: (es ++ tail)) = some n ↔
      ∃ m e, Digits 10 (ds ++ es) m ∧ Exponent tail e ∧ ofScientific (m : Nat) (e - es.length) = n := by
  have word : ds ++ '.' :: (es ++ tail) ≠ "Infinity".toList := by
    intro its
    have point : '.' ∈ "Infinity".toList := its ▸ by simp
    exact absurd point (by decide)
  have point : ∀ c ∈ ('.' :: (es ++ tail)).head?, c.isDigit = false := by
    rintro c hc
    obtain rfl := Option.some.inj hc
    decide
  obtain ⟨front, back⟩ := span_isDigit digits point
  obtain ⟨front', back'⟩ := span_isDigit more opens
  simp only [← whole?_eq_some_iff (by decide : 10 ≤ 16), ← exponent?_eq_some_iff]
  rw [unsigned?, if_neg word]
  simp only [front, back, front', back']
  cases whole? 10 (ds ++ es) <;> cases exponent? tail <;> simp

/-- Whatever a text is, it is digits with or without a point, and what follows them. -/
theorem exists_digits (cs : List Char) :
    (∃ ds tail, cs = ds ++ tail ∧ (∀ c ∈ ds, c.isDigit = true) ∧ ∀ c ∈ tail.head?, c.isDigit = false ∧ c ≠ '.') ∨
      ∃ ds es tail, cs = ds ++ '.' :: (es ++ tail) ∧ (∀ c ∈ ds, c.isDigit = true) ∧ (∀ c ∈ es, c.isDigit = true) ∧
        ∀ c ∈ tail.head?, c.isDigit = false := by
  have run : ∀ cs : List Char, ∃ ds tail, cs = ds ++ tail ∧ (∀ c ∈ ds, c.isDigit = true) ∧
      ∀ c ∈ tail.head?, c.isDigit = false := by
    intro cs
    refine ⟨_, _, List.takeWhile_append_dropWhile.symm, fun c hc => List.mem_takeWhile_imp hc, fun c hc => ?_⟩
    have first := List.head?_dropWhile_not Char.isDigit cs
    rwa [Option.mem_def.1 hc] at first
  obtain ⟨ds, tail, rfl, digits, opens⟩ := run cs
  by_cases pointed : tail.head? = some '.'
  · obtain ⟨rest, rfl⟩ := List.head?_eq_some_iff.1 pointed
    obtain ⟨es, tail, rfl, more, opens⟩ := run rest
    exact .inr ⟨ds, es, tail, rfl, digits, more, opens⟩
  · refine .inl ⟨ds, tail, rfl, digits, fun c hc => ⟨opens c hc, ?_⟩⟩
    rintro rfl
    exact pointed hc

/-- What is read without a sign is what is written. -/
theorem unsigned?_eq_some_iff : unsigned? cs = some n ↔ Unsigned cs n := by
  have rounded : ∀ (m : Nat) (e : Int) (n : Number), ofScientific m e = n ↔ IsRounded (m * 10 ^ e) n := by
    intro m e n
    rw [ofScientific_natCast, ofRat_eq_iff (by positivity)]
  constructor
  · intro read
    by_cases word : cs = "Infinity".toList
    · rw [unsigned?, if_pos word] at read
      obtain rfl := Option.some.inj read
      exact word ▸ .infinity
    · rcases exists_digits cs with ⟨ds, tail, rfl, digits, opens⟩ | ⟨ds, es, tail, rfl, digits, more, opens⟩
      · obtain ⟨m, e, written, exponent, its⟩ := (unsigned?_whole word digits opens).1 read
        refine .decimal (.whole written) exponent ?_
        rw [Nat.cast_zero, sub_zero]
        exact (rounded m e n).1 its
      · obtain ⟨m, e, written, exponent, its⟩ := (unsigned?_pointed digits more opens).1 read
        rw [← List.cons_append, ← List.append_assoc]
        exact .decimal (.pointed written) exponent ((rounded m _ n).1 its)
  · intro written
    cases written with
    | infinity => rfl
    | @decimal cs tail m places e n mantissa exponent its =>
      have marked : ∀ c ∈ tail.head?, c.isDigit = false ∧ c ≠ '.' := by
        intro c hc
        rcases exponent.opens c hc with rfl | rfl <;> decide
      cases mantissa with
      | whole digits =>
        rw [Nat.cast_zero, sub_zero] at its
        exact (unsigned?_whole (digits.not_infinity tail) digits.isDigit marked).2
          ⟨m, e, digits, exponent, (rounded m e n).2 its⟩
      | @pointed ds es m digits =>
        rw [List.append_assoc, List.cons_append]
        refine (unsigned?_pointed (fun c hc => ?_) (fun c hc => ?_) fun c hc => (marked c hc).1).2
          ⟨m, e, digits, exponent, (rounded m _ n).2 its⟩
        · exact digits.isDigit c (List.mem_append_left es hc)
        · exact digits.isDigit c (List.mem_append_right ds hc)

/-! ## Texts -/

/-- The marks of a base, behind a zero. -/
def bases : List (Char × Nat) := [('x', 16), ('X', 16), ('o', 8), ('O', 8), ('b', 2), ('B', 2)]

/-- What a text without white space around it writes. -/
inductive Writes : List Char → Number → Prop where
  | unsigned {cs : List Char} {n : Number} (written : Unsigned cs n) : Writes cs n
  | plus {cs : List Char} {n : Number} (written : Unsigned cs n) : Writes ('+' :: cs) n
  | minus {cs : List Char} {n : Number} (written : Unsigned cs n) : Writes ('-' :: cs) (-n)
  | based {c : Char} {base m : Nat} {ds : List Char} {n : Number} (mark : (c, base) ∈ bases)
      (digits : Digits base ds m) (rounded : IsRounded m n) : Writes ('0' :: c :: ds) n

theorem Unsigned.ne_nan (h : Unsigned cs n) : n ≠ .nan := by
  cases h with
  | infinity => exact Number.noConfusion
  | decimal _ _ rounded => cases rounded <;> exact Number.noConfusion

theorem Unsigned.opens (h : Unsigned cs n) : ∃ c rest, cs = c :: rest ∧ (c.isDigit = true ∨ c = '.' ∨ c = 'I') := by
  cases h with
  | infinity => exact ⟨_, _, rfl, .inr (.inr rfl)⟩
  | @decimal cs tail _ _ _ _ mantissa _ _ =>
    cases mantissa with
    | whole digits =>
      obtain ⟨c, ds, rfl⟩ := List.exists_cons_of_ne_nil digits.ne_nil
      exact ⟨c, ds ++ tail, rfl, .inl (digits.isDigit c (by simp))⟩
    | @pointed ds es _ digits =>
      cases ds with
      | nil => exact ⟨'.', es ++ tail, rfl, .inr (.inl rfl)⟩
      | cons c ds => exact ⟨c, ds ++ '.' :: es ++ tail, by simp, .inl (digits.isDigit c (by simp))⟩

theorem announcedBase?_eq_some_iff : announcedBase? c = some base ↔ (c, base) ∈ bases := by
  unfold announcedBase?
  simp only [bases, List.mem_cons, Prod.mk.injEq, List.not_mem_nil, or_false]
  split
  next hex => rcases hex with rfl | rfl <;> simp [eq_comm]
  split
  next octal => rcases octal with rfl | rfl <;> simp [eq_comm]
  split
  next binary => rcases binary with rfl | rfl <;> simp [eq_comm]
  · simp_all

/-- No numeral has the mark of a base behind its first zero. -/
theorem not_unsigned_of_mark (mark : (c, base) ∈ bases) : ¬Unsigned ('0' :: c :: ds) n := by
  rw [← unsigned?_eq_some_iff]
  have zero : ∀ c ∈ ['0'], c.isDigit = true := List.forall_mem_singleton.2 rfl
  have all : ∀ b ∈ bases, b.1.isDigit = false ∧ b.1 ≠ '.' ∧ b.1 ≠ 'e' ∧ b.1 ≠ 'E' := by decide
  obtain ⟨digit, point, lower, upper⟩ := all _ mark
  intro read
  have opens : ∀ c' ∈ (c :: ds).head?, c'.isDigit = false ∧ c' ≠ '.' := by
    intro c' hc
    obtain rfl := Option.some.inj hc
    exact ⟨digit, point⟩
  have word : ['0'] ++ c :: ds ≠ "Infinity".toList := by simp
  obtain ⟨m, e, -, exponent, -⟩ := (unsigned?_whole word zero opens).1 read
  exact (exponent.opens c rfl).elim lower upper

theorem Writes.ne_nan (h : Writes cs n) : n ≠ .nan := by
  cases h with
  | unsigned written | plus written => exact written.ne_nan
  | @minus _ n written =>
    cases n with
    | nan => exact absurd rfl written.ne_nan
    | infinite | finite => exact Number.noConfusion
  | based _ _ rounded => cases rounded <;> exact Number.noConfusion

theorem le_of_mem_bases (mark : (c, base) ∈ bases) : base ≤ 16 := by
  have all : ∀ b ∈ bases, b.2 ≤ 16 := by decide
  exact all _ mark

/-- What is read as a number is written. -/
theorem Writes.of_read (trimmed : Text.trim text = text) (some : text ≠ "") (its : read text = n) (given : n ≠ .nan) :
    Writes text.toList n := by
  have nonempty : text.toList ≠ [] := fun empty => some (String.toList_eq_nil_iff.1 empty)
  -- What is read is a number, so there is one to fall back from.
  have found : ∀ {o : Option Number}, o.getD .nan = n → o = Option.some n := by
    rintro o rfl
    cases o with
    | none => exact absurd rfl given
    | some n => rfl
  rw [read, trimmed] at its
  generalize text.toList = cs at nonempty its
  split at its
  next => exact absurd rfl nonempty
  next ds =>
    obtain ⟨n, written, rfl⟩ := Option.map_eq_some_iff.1 (found its)
    exact .minus (unsigned?_eq_some_iff.1 written)
  next ds => exact .plus (unsigned?_eq_some_iff.1 (found its))
  next c more =>
    split at its
    next base mark =>
      rw [announcedBase?_eq_some_iff] at mark
      obtain ⟨_, whole, rounded⟩ := Option.map_eq_some_iff.1 (found its)
      obtain ⟨m, digits, ⟨⟩⟩ := Option.bind_eq_some_iff.1 whole
      exact .based mark ((whole?_eq_some_iff (le_of_mem_bases mark)).1 digits)
        ((ofRat_eq_iff (Nat.cast_nonneg m)).1 rounded)
    next => exact .unsigned (unsigned?_eq_some_iff.1 (found its))
  next => exact .unsigned (unsigned?_eq_some_iff.1 (found its))

/-- What is written without a sign is taken neither for a sign nor for the mark of a base. -/
theorem Unsigned.read_eq (trimmed : Text.trim text = text) (written : Unsigned text.toList n) : read text = n := by
  rw [read, trimmed]
  generalize text.toList = cs at written
  obtain ⟨c, rest, rfl, opens⟩ := written.opens
  have found : (unsigned? (c :: rest)).getD .nan = n := by rw [unsigned?_eq_some_iff.2 written, Option.getD_some]
  split
  next empty => cases empty
  next its =>
    obtain rfl : c = '-' := (List.cons.inj its).1
    exact absurd opens (by decide)
  next its =>
    obtain rfl : c = '+' := (List.cons.inj its).1
    exact absurd opens (by decide)
  next c more its =>
    split
    next base mark => exact absurd (its ▸ written) (not_unsigned_of_mark (announcedBase?_eq_some_iff.1 mark))
    next => exact its ▸ found
  next => exact found

theorem Writes.read_eq (trimmed : Text.trim text = text) (h : Writes text.toList n) : read text = n := by
  generalize its : text.toList = cs at h
  cases h with
  | unsigned written => exact Unsigned.read_eq trimmed (its ▸ written)
  | plus written => simp only [read, trimmed, its, unsigned?_eq_some_iff.2 written, Option.getD_some]
  | minus written =>
    simp only [read, trimmed, its, unsigned?_eq_some_iff.2 written, Option.map_some, Option.getD_some]
    rfl
  | @based c base m ds _ mark digits rounded =>
    simp only [read, trimmed, its, announcedBase?_eq_some_iff.2 mark,
      (whole?_eq_some_iff (le_of_mem_bases mark)).2 digits]
    exact (ofRat_eq_iff (Nat.cast_nonneg m)).2 rounded

/-- **Reading finds the number that a text writes.** A text that is not blank and has no white
space around it is read as the number that it writes, and as none if it writes none. -/
theorem read_eq_iff (trimmed : Text.trim text = text) (some : text ≠ "") :
    read text = n ∧ n ≠ .nan ↔ Writes text.toList n :=
  ⟨fun h => .of_read trimmed some h.1 h.2, fun written => ⟨written.read_eq trimmed, written.ne_nan⟩⟩

end Folio.Number
