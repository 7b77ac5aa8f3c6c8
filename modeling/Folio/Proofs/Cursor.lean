/-
The index of a paginator in the arithmetic of numbers. A paginator keeps its index
as a natural number, and reads the value of a menu entry exactly. A program that
keeps it as a number has to cut it, may put it at -1 for want of pages, and reads
the value with rounding (`assigned`, `written`). Once the index is cut back into
range, as it is before anything is shown, the two agree for as many pages as a
number can count (`assigned_eq`, `assigned_written`).

`move` is what a press means to the author. On an index within the pages it is what
a paginator does (`pressed_eq_move`).
-/
import Folio.Paginator
import Folio.Proofs.Number.Numeral
import Mathlib.Data.List.TakeWhile

namespace Folio

namespace Cursor

open Number

/-! ## Setting an index -/

/-- A number, with zero for one that is none. -/
def orZero : Number → Number
  | .nan => 0
  | n => n

/-- The index that a paginator of `count` pages is set to by a value. -/
def assigned (count : Nat) (value : Number) : Number :=
  min (max (orZero value.trunc) 0) (max ((count : Number) - 1) 0)

/-- What is left of the value once it is a whole number from zero on. -/
theorem max_trunc_eq (value : Number) :
    max (orZero value.trunc) 0 = (if value = .infinite false then .infinite false else
      (value.toLength 0 : Nat) : Number) := by
  cases value with
  | nan => rfl
  | infinite negative => cases negative <;> rfl
  | finite q =>
    rw [if_neg (by simp)]
    have trunc : orZero (trunc (.finite q)) = .finite ((if q < 0 then -(-q).floor else q.floor : Int) : Rat) := rfl
    have cut : ∀ i : Int, max (Number.finite (i : Rat)) 0 = ((i.toNat : Nat) : Number) := by
      intro i
      have h : max (Number.finite (i : Rat)) 0 =
          if lt (.finite i) (.finite ((0 : Nat) : Rat)) then .finite ((0 : Nat) : Rat) else .finite (i : Rat) := rfl
      rw [h]
      rcases lt_or_ge i 0 with hi | hi
      · rw [if_pos ((lt_finite _ _).2 (by exact_mod_cast hi)), Int.toNat_of_nonpos hi.le]
        rfl
      · rw [if_neg fun hlt => ?_]
        · obtain ⟨k, rfl⟩ := Int.eq_ofNat_of_zero_le hi
          rw [Int.toNat_natCast, Int.cast_natCast, natCast_eq]
        · have lt : (i : Rat) < ((0 : Nat) : Rat) := (lt_finite _ _).1 hlt
          have lt' : i < 0 := by exact_mod_cast lt
          omega
    rw [trunc, cut]
    have length : (Number.finite q).toLength 0 = q.floor.toNat := rfl
    rw [length]
    split
    next neg =>
      -- Cut toward zero it is not above zero, and neither is its floor.
      have below : q.floor < 0 := by
        rw [Rat.floor_lt_iff]
        exact_mod_cast neg
      have above : 0 ≤ (-q).floor := by
        rw [Rat.le_floor_iff]
        push_cast
        linarith
      rw [Int.toNat_of_nonpos below.le, Int.toNat_of_nonpos (by omega)]
    · rfl

theorem max_last_eq {count : Nat} (small : count ≤ 2 ^ 53) :
    max ((count : Number) - 1) 0 = ((count - 1 : Nat) : Number) := by
  cases count with
  | zero => rw [zero_sub_one]; rfl
  | succ n =>
    rw [natCast_sub_one small]
    exact (max_natCast n 0).trans (congrArg _ (Nat.max_zero n))

/-- Setting the index in the arithmetic of numbers is `turnTo`. -/
theorem assigned_eq {count : Nat} (small : count ≤ 2 ^ 53) (value : Number) :
    assigned count value = ((min (value.toLength (count - 1)) (count - 1) : Nat) : Number) := by
  rw [assigned, max_trunc_eq, max_last_eq small]
  split
  next h =>
    subst h
    have length : (Number.infinite false).toLength (count - 1) = count - 1 := rfl
    rw [length, Nat.min_self]
    rfl
  next h =>
    have length : value.toLength (count - 1) = value.toLength 0 := by
      cases value with
      | nan => rfl
      | infinite negative =>
        cases negative with
        | true => rfl
        | false => exact absurd rfl h
      | finite q => rfl
    rw [length]
    exact min_natCast _ _

theorem assigned_natCast {count : Nat} (small : count ≤ 2 ^ 53) (i : Nat) :
    assigned count i = ((min i (count - 1) : Nat) : Number) := by
  have length : (i : Number).toLength (count - 1) = i := by
    have h : (i : Number).toLength (count - 1) = ((i : Rat).floor).toNat := rfl
    have floor : (i : Rat).floor = i := rfl
    rw [h, floor, Int.toNat_natCast]
  rw [assigned_eq small, length]

/-! ## Reading a menu entry -/

/-- A text of decimal digits, at least one. -/
def isDigits (text : String) : Bool := !text.toList.isEmpty && text.toList.all Char.isDigit

/-- The number that the value of a menu entry is read as. -/
def picked (value : String) : Number := if isDigits value then Number.read value else .nan

/-- The natural number that decimal digits write. -/
def decimal (ds : List Char) : Nat := ds.foldl (fun n d => 10 * n + (d.toNat - '0'.toNat)) 0

theorem digit?_ten (c : Char) :
    digit? 10 c = if c.isDigit then some (c.toNat - '0'.toNat) else none := by
  split
  next h =>
    have all : ∀ d < 10, digit? 10 (Nat.digitChar d) = some ((Nat.digitChar d).toNat - '0'.toNat) := by decide
    obtain ⟨d, hd, rfl⟩ := exists_digit h
    exact all d hd
  next h =>
    rw [digit?, if_neg h]
    refine if_neg (Nat.not_lt.2 ?_)
    split
    · omega
    · split <;> omega

/-- What is read of digits, and of nothing else, is the number that they write. -/
theorem whole?_ten (ds : List Char) :
    whole? 10 ds = if ds ≠ [] ∧ ds.all Char.isDigit = true then some (decimal ds) else none := by
  have lost : ∀ ds : List Char, ds.foldl (fun n d => n.bind fun n => (digit? 10 d).map (10 * n + ·)) none = none := by
    intro ds
    induction ds with
    | nil => rfl
    | cons c cs ih => rw [List.foldl_cons, Option.bind_none, ih]
  have step : ∀ (ds : List Char) (m : Nat),
      ds.foldl (fun n d => n.bind fun n => (digit? 10 d).map (10 * n + ·)) (some m) =
        if ds.all Char.isDigit = true then
          some (ds.foldl (fun n d => 10 * n + (d.toNat - '0'.toNat)) m) else none := by
    intro ds
    induction ds with
    | nil => intro m; rfl
    | cons c cs ih =>
      intro m
      rw [List.foldl_cons, Option.bind_some, digit?_ten]
      cases hc : c.isDigit with
      | true => rw [if_pos rfl, Option.map_some, ih, List.foldl_cons, List.all_cons, hc, Bool.true_and]
      | false => rw [if_neg (by simp), Option.map_none, lost, List.all_cons, hc, Bool.false_and, if_neg (by simp)]
  rw [whole?, step]
  by_cases h : ds = []
  · simp [h]
  · simp [h, decimal]

theorem trim_of_isDigits {text : String} (h : text.toList.all Char.isDigit = true) : Text.trim text = text := by
  have solid : ∀ c ∈ text.toList, c ∉ Text.spaces := by
    intro c hc
    have all : ∀ d < 10, Nat.digitChar d ∉ Text.spaces := by decide
    obtain ⟨d, hd, rfl⟩ := exists_digit (List.all_eq_true.1 h c hc)
    exact all d hd
  exact Text.Trims.trim_eq ⟨⟨[], [], by simp, by simp, by simp⟩, fun c hc => solid c (List.mem_of_head? hc),
    fun c hc => solid c (List.mem_of_getLast? hc)⟩

/-- Digits are read as the number nearest to what they write. -/
theorem read_of_isDigits {text : String} (h : isDigits text = true) :
    Number.read text = ofRat (decimal text.toList) := by
  simp only [isDigits, Bool.and_eq_true, Bool.not_eq_true', List.isEmpty_eq_false_iff] at h
  obtain ⟨nonempty, all⟩ := h
  have digits : Digits 10 text.toList (decimal text.toList) := by
    rw [← whole?_eq_some_iff (by decide), whole?_ten, if_pos ⟨nonempty, all⟩]
  have unsigned : Unsigned (text.toList ++ []) (ofRat (decimal text.toList)) := by
    refine .decimal (.whole digits) .none ?_
    rw [Nat.cast_zero, sub_zero, zpow_zero, mul_one]
    exact isRounded_ofRat (Nat.cast_nonneg _)
  rw [List.append_nil] at unsigned
  have blank : text ≠ "" := by
    rintro rfl
    exact nonempty rfl
  exact ((read_eq_iff (trim_of_isDigits all) blank).2 (.unsigned unsigned)).1

/-- The entry that a menu value leads to is the number that it is read as, if that
is below the count. -/
theorem picked_lt {count : Nat} (small : count ≤ 2 ^ 53) (value : String) :
    match Paginator.choice? count value with
    | some i => (picked value).lt count = true ∧ picked value = (i : Number)
    | none => (picked value).lt count = false := by
  rw [Paginator.choice?, whole?_ten]
  have nonempty : isDigits value = decide (value.toList ≠ [] ∧ value.toList.all Char.isDigit = true) := by
    rw [Bool.eq_iff_iff, decide_eq_true_iff, isDigits, Bool.and_eq_true, Bool.not_eq_true', List.isEmpty_eq_false_iff]
  by_cases h : value.toList ≠ [] ∧ value.toList.all Char.isDigit = true
  · have read : picked value = ofRat (decimal value.toList) := by
      rw [picked, if_pos (by rw [nonempty, decide_eq_true h]), read_of_isDigits (by rw [nonempty, decide_eq_true h])]
    rw [if_pos h, read]
    generalize decimal value.toList = v
    simp only
    split
    next i hi =>
      split at hi
      next lt =>
        obtain rfl := Option.some.inj hi
        have exact : ofRat (v : Rat) = (v : Number) := isDouble_natCast (lt.le.trans small)
        rw [exact, lt_natCast]
        exact ⟨decide_eq_true lt, rfl⟩
      · cases hi
    next hi =>
      have le : count ≤ v := by
        by_contra lt
        rw [if_pos (Nat.lt_of_not_le lt)] at hi
        cases hi
      -- Rounding keeps it at least at the count, which is not rounded.
      have mono : (ofRat (count : Rat)).le (ofRat (v : Rat)) = true :=
        ofRat_le_ofRat (Nat.cast_nonneg count) (Nat.cast_le.2 le)
      have exact : ofRat (count : Rat) = (count : Number) := isDouble_natCast small
      rw [exact, natCast_eq] at mono
      rw [natCast_eq]
      generalize ofRat (v : Rat) = n at mono
      cases n with
      | nan => rfl
      | infinite negative =>
        cases negative with
        | true => cases mono
        | false => rfl
      | finite q => simpa [lt] using (le_finite _ _).1 mono
  · have read : picked value = .nan := by rw [picked, if_neg (by rw [nonempty]; simpa using h)]
    rw [if_neg h, read]
    rfl

/-! ## A press -/

/-- What a press writes as the index, before it is cut back into range, and the
value of a menu entry that leads nowhere. -/
def written (count : Nat) (index : Number) (role : Option Role) (values : List String) : Number × Option String :=
  match role with
  | some .first => (0, none)
  | some .last => ((count : Number) - 1, none)
  | some .next => (if (index + 1).lt count then index + 1 else index, none)
  | some .back => (if (0 : Number).le (index - 1) then index - 1 else index, none)
  | some .select =>
    let value := values.headD ""
    if (picked value).lt count then (picked value, none) else (index, some value)
  | some .callback | none => (index, none)

/-- What a press writes is, once it is cut back into range, the index of the press. -/
theorem assigned_written {count index : Nat} (small : count ≤ 2 ^ 53) (inside : index < 2 ^ 53) (role : Option Role)
    (values : List String) :
    assigned count (written count index role values).1 =
        ((min (Paginator.pressed count index role values).1 (count - 1) : Nat) : Number) ∧
      (written count index role values).2 = (Paginator.pressed count index role values).2 := by
  have stays := assigned_natCast small index
  match role with
  | some .first => exact ⟨assigned_natCast small 0, rfl⟩
  | some .last =>
    refine ⟨?_, rfl⟩
    cases count with
    | zero =>
      have below : (written 0 index (some .last) values).1 = .finite (-1) := zero_sub_one
      have cut : assigned 0 (.finite (-1)) = 0 := by decide +kernel
      rw [below, cut]
      rfl
    | succ n =>
      have last : (written (n + 1) index (some .last) values).1 = (n : Number) := natCast_sub_one small
      rw [last]
      exact assigned_natCast small n
  | some .next =>
    refine ⟨?_, rfl⟩
    rw [written, natCast_add_one inside, lt_natCast]
    simp only [Paginator.pressed]
    by_cases h : index + 1 < count
    · rw [if_pos (decide_eq_true h), if_pos h]
      exact assigned_natCast small _
    · rw [if_neg (by simpa using h), if_neg h]
      exact stays
  | some .back =>
    refine ⟨?_, rfl⟩
    rw [written]
    simp only [Paginator.pressed]
    cases index with
    | zero =>
      rw [zero_sub_one, if_neg (by decide +kernel)]
      exact stays
    | succ i =>
      have above : (0 : Number).le (i : Number) = true := (le_finite _ _).2 (Nat.cast_le.2 (Nat.zero_le i))
      rw [natCast_sub_one (by omega), if_pos above]
      exact assigned_natCast small i
  | some .select =>
    have picks := picked_lt small (values.headD "")
    rw [written]
    simp only [Paginator.pressed]
    cases hc : Paginator.choice? count (values.headD "") with
    | none =>
      simp only [hc] at picks
      rw [if_neg (by rw [picks]; simp)]
      exact ⟨stays, rfl⟩
    | some i =>
      simp only [hc] at picks
      rw [if_pos picks.1, picks.2]
      exact ⟨assigned_natCast small i, rfl⟩
  | some .callback => exact ⟨stays, rfl⟩
  | none => exact ⟨stays, rfl⟩

/-- What a press of a role means on `count` pages: where it leads from an index. -/
def move (count index : Nat) (role : Option Role) (values : List String) : Nat :=
  match role with
  | some .first => 0
  | some .last => count - 1
  | some .next => min (index + 1) (count - 1)
  | some .back => index - 1
  | some .select =>
    let value := values.headD ""
    if isDigits value ∧ decimal value.toList < count then decimal value.toList else index
  | some .callback | none => index

theorem choice?_eq (count : Nat) (value : String) : Paginator.choice? count value =
    if isDigits value ∧ decimal value.toList < count then some (decimal value.toList) else none := by
  have digits : isDigits value = true ↔ value.toList ≠ [] ∧ value.toList.all Char.isDigit = true := by
    rw [isDigits, Bool.and_eq_true, Bool.not_eq_true', List.isEmpty_eq_false_iff]
  rw [Paginator.choice?, whole?_ten]
  by_cases h : isDigits value = true
  · rw [if_pos (digits.1 h)]
    simp only [h, true_and]
  · rw [if_neg fun h' => h (digits.2 h'), if_neg fun h' => h h'.1]

/-- On an index within the pages, a press leads where it should, and within the pages. -/
theorem pressed_eq_move {count index : Nat} (inside : index < count) (role : Option Role) (values : List String) :
    (Paginator.pressed count index role values).1 = move count index role values ∧
      move count index role values < count := by
  match role with
  | some .first => exact ⟨rfl, by rw [move]; omega⟩
  | some .last => exact ⟨rfl, by rw [move]; omega⟩
  | some .next =>
    simp only [Paginator.pressed, move]
    split <;> omega
  | some .back =>
    exact ⟨rfl, by rw [move]; omega⟩
  | some .select =>
    simp only [Paginator.pressed, move, choice?_eq]
    by_cases h : isDigits (values.headD "") ∧ decimal (values.headD "").toList < count
    · rw [if_pos h, if_pos h]
      exact ⟨rfl, h.2⟩
    · rw [if_neg h, if_neg h]
      exact ⟨rfl, inside⟩
  | some .callback => exact ⟨rfl, inside⟩
  | none => exact ⟨rfl, inside⟩

end Cursor

end Folio
