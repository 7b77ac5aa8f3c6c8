/-
Word wrapping. A text is cut at its runs of white space into chunks of at most
`width` characters. Words break only at white space; a run wider than a whole
chunk is split, and fills up the chunk it starts in. White space inside a chunk
is kept as it is, and a run of it that ends a chunk, or opens one after the
first, is dropped.
-/
import Folio.Text.Blank

namespace Folio.Text

/-- A maximal stretch of a text that is all white space or has none. -/
abbrev Run := List Char

/-- The runs of a text, in order. -/
def runs : List Char → List Run
  | [] => []
  | c :: cs =>
    match runs cs with
    | (d :: r) :: rs => if isBreak c == isBreak d then (c :: d :: r) :: rs else [c] :: (d :: r) :: rs
    | rs => [c] :: rs

/-- Whether a run is white space. -/
def Run.isGap (r : Run) : Bool := r.all isBreak

/-- The runs from the front that fit whole into `room` characters, and those left. -/
def fitting (room : Nat) : List Run → List Run × List Run
  | [] => ([], [])
  | r :: rs =>
    if r.length ≤ room then
      let split := fitting (room - r.length) rs
      (r :: split.1, split.2)
    else ([], r :: rs)

/-- The runs of the next chunk, and those left. A run wider than a whole chunk
is split to fill what room there is. -/
def cut (width : Nat) (rs : List Run) : List Run × List Run :=
  let taken := (fitting width rs).1
  let room := width - taken.flatten.length
  match (fitting width rs).2 with
  | [] => (taken, [])
  | r :: more =>
    if width < r.length ∧ 0 < room then (taken ++ [r.take room], r.drop room :: more)
    else (taken, r :: more)

/-- A chunk's runs without the white space at its end. -/
def dropGapAtEnd (taken : List Run) : List Run :=
  match taken.getLast? with
  | some r => if Run.isGap r then taken.dropLast else taken
  | none => taken

/-- The runs without a white space run at the front. -/
def dropGapAtFront : List Run → List Run
  | [] => []
  | r :: rs => if Run.isGap r then rs else r :: rs

/-- The measure that each chunk lowers: the characters left and the runs they are in. -/
def weight : List Run → Nat
  | [] => 0
  | r :: rs => r.length + 1 + weight rs

theorem fitting_append (room : Nat) (rs : List Run) :
    (fitting room rs).1 ++ (fitting room rs).2 = rs := by
  fun_induction fitting room rs with
  | case1 => rfl
  | case2 room r rs h split ih => simpa [split] using ih
  | case3 => rfl

theorem weight_cons (r : Run) (rs : List Run) : weight (r :: rs) = r.length + 1 + weight rs := rfl

theorem weight_append (a b : List Run) : weight (a ++ b) = weight a + weight b := by
  induction a with
  | nil => rw [List.nil_append, weight, Nat.zero_add]
  | cons r a ih => rw [List.cons_append, weight_cons, weight_cons, ih]; omega

theorem weight_pos {rs : List Run} (ne : rs ≠ []) : 0 < weight rs := by
  cases rs with
  | nil => exact absurd rfl ne
  | cons r rs => rw [weight_cons]; omega

theorem weight_fitting (room : Nat) (rs : List Run) :
    weight rs = weight (fitting room rs).1 + weight (fitting room rs).2 := by
  rw [← weight_append, fitting_append]

theorem weight_cut_lt {width : Nat} (pos : 0 < width) {rs : List Run} (ne : rs ≠ []) :
    weight (cut width rs).2 < weight rs := by
  have split := weight_fitting width rs
  have whole := fitting_append width rs
  unfold cut
  cases taken : (fitting width rs).1 with
  | cons t ts =>
    have lower : weight (fitting width rs).2 < weight rs := by
      rw [split, taken, weight_cons]; omega
    cases rest : (fitting width rs).2 with
    | nil => exact weight_pos ne
    | cons r more =>
      rw [rest] at lower
      dsimp only
      split
      · rw [weight_cons] at lower ⊢
        rw [List.length_drop]; omega
      · exact lower
  | nil =>
    cases rs with
    | nil => exact absurd rfl ne
    | cons r more =>
      simp only [fitting] at taken whole ⊢
      split at taken
      · simp at taken
      · next wide =>
        rw [if_neg wide] at whole ⊢
        simp only [List.flatten_nil, List.length_nil, Nat.sub_zero]
        rw [if_pos ⟨by omega, pos⟩, weight_cons, weight_cons, List.length_drop]
        omega

theorem weight_dropGapAtFront_le (rs : List Run) : weight (dropGapAtFront rs) ≤ weight rs := by
  cases rs with
  | nil => exact Nat.le_refl _
  | cons r rs =>
    simp only [dropGapAtFront]
    split
    · rw [weight_cons]; omega
    · exact Nat.le_refl _

theorem cut_nil (width : Nat) : cut width [] = ([], []) := rfl

/-- The runs that the next chunk starts from: a chunk after the first does not
open with white space. -/
def opening (started : Bool) (rs : List Run) : List Run :=
  if started then dropGapAtFront rs else rs

theorem weight_cut_opening_lt {width : Nat} (pos : 0 < width) (started : Bool) {rs : List Run}
    (ne : rs ≠ []) : weight (cut width (opening started rs)).2 < weight rs := by
  have drop : weight (opening started rs) ≤ weight rs := by
    unfold opening; split
    · exact weight_dropGapAtFront_le rs
    · exact Nat.le_refl _
  by_cases empty : opening started rs = []
  · rw [empty, cut_nil]
    exact weight_pos ne
  · exact Nat.lt_of_lt_of_le (weight_cut_lt pos empty) drop

/-- The chunks of the runs `rs`; `started` says that a chunk stands before them. -/
def fill (width : Nat) (pos : 0 < width) (started : Bool) (rs : List Run) : List (List Char) :=
  if _ne : rs = [] then []
  else
    let next := cut width (opening started rs)
    let chunk := (dropGapAtEnd next.1).flatten
    if chunk = [] then fill width pos started next.2
    else chunk :: fill width pos true next.2
termination_by weight rs
decreasing_by
  all_goals exact weight_cut_opening_lt pos started _ne

/-- The text wrapped to chunks of at most `width` characters. -/
def wrap (width : Nat) (pos : 0 < width) (text : List Char) : List (List Char) :=
  fill width pos false (runs text)

end Folio.Text
