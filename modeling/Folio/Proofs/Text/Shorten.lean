/-
What a summary is. A text within its width is left as it is, but for its white space.
Otherwise as many whole words are kept as fit beside the dots: a word is added to those
that fit already, so they are all the words in front of the first that does not
(`longestFit_spec`). If not even the first word fits, it is cut.

Either way the dots stand right behind a word, so a summary is made of words that are
joined already. It is within its width, unless the dots alone are not, and so it is its
own summary (`shorten_shorten`).
-/
import Folio.Proofs.Text.Collapse

namespace Folio.Text

variable {room width : Int} {text w : List Char} {pre ws : List (List Char)} {n : Nat}

theorem length_longestFit_le (room : Int) (line : List Char) (ws : List (List Char)) :
    ((longestFit room line ws).length : Int) ≤ max room line.length := by
  fun_induction longestFit room line ws with
  | case1 line => omega
  | case2 line w ws next beyond => omega
  | case3 line w ws next within ih => omega

/-- A summary has at most `width` characters, or is three dots. -/
theorem length_shorten_le (width : Int) (text : List Char) : ((shorten width text).length : Int) ≤ max width 3 := by
  rw [shorten]
  split
  next fits => omega
  next beyond =>
    have kept := length_longestFit_le (width - ellipsis.length) [] (words text)
    have dots : ellipsis.length = 3 := rfl
    rw [List.length_nil, dots] at kept
    rw [List.length_append, dots]
    split
    next => rw [List.length_take]; omega
    next some =>
      have := List.length_pos_iff.2 some
      omega

/-! ## The words that are kept -/

/-- The first `n` words fit in so many characters, and no more of them do. -/
structure IsLongestFit (room : Int) (ws : List (List Char)) (n : Nat) : Prop where
  le : n ≤ ws.length
  fits : ((joinWords (ws.take n)).length : Int) ≤ room
  beyond : ∀ m, n < m → m ≤ ws.length → room < (joinWords (ws.take m)).length

theorem joinWords_ne_nil (h : ∀ w ∈ ws, IsWord w) (some : ws ≠ []) : joinWords ws ≠ [] := by
  intro none
  rw [← words_joinWords h, none] at some
  exact some rfl

/-- Words that fit are kept, and so are those after them as long as they fit as well. -/
theorem longestFit_spec (h : ∀ w ∈ pre ++ ws, IsWord w) (some : pre ≠ [])
    (fits : ((joinWords pre).length : Int) ≤ room) :
    ∃ n, pre.length ≤ n ∧ IsLongestFit room (pre ++ ws) n ∧
      longestFit room (joinWords pre) ws = joinWords ((pre ++ ws).take n) := by
  have front : ∀ ws : List (List Char), (pre ++ ws).take pre.length = pre := fun ws => List.take_left
  induction ws generalizing pre with
  | nil =>
    refine ⟨pre.length, Nat.le_refl _, ⟨by simp, by rwa [front], fun m more le => ?_⟩, by rw [front, longestFit]⟩
    rw [List.append_nil] at le
    exact absurd more (Nat.not_lt.2 le)
  | cons w ws ih =>
    have line : joinWords pre ≠ [] := joinWords_ne_nil (fun v hv => h v (List.mem_append_left _ hv)) some
    have next : joinWords (pre ++ [w]) = joinWords pre ++ ' ' :: w := by
      rw [joinWords_append some (List.cons_ne_nil w []), joinWords_singleton]
    have all : pre ++ w :: ws = (pre ++ [w]) ++ ws := by simp
    rw [longestFit, if_neg line, ← next]
    split
    next beyond =>
      refine ⟨pre.length, Nat.le_refl _, ⟨by simp, by rwa [front], fun m more le => ?_⟩, by rw [front]⟩
      -- More than the words that fit are at least these and the next.
      have prefixed : pre ++ [w] <+: (pre ++ w :: ws).take m := by
        rw [all, List.prefix_take_iff, List.length_append, List.length_singleton]
        exact ⟨List.prefix_append _ _, more⟩
      have longer := (joinWords_mono prefixed).length_le
      omega
    next within =>
      rw [all] at h ⊢
      obtain ⟨n, least, longest, kept⟩ := ih h (by simp) (Int.not_lt.1 within) fun ws => List.take_left
      refine ⟨n, ?_, longest, kept⟩
      rw [List.length_append] at least
      exact Nat.le_of_add_right_le least

theorem longestFit_first (h : ∀ v ∈ w :: ws, IsWord v) (fits : (w.length : Int) ≤ room) :
    ∃ n, 0 < n ∧ IsLongestFit room (w :: ws) n ∧ longestFit room [] (w :: ws) = joinWords ((w :: ws).take n) := by
  have one : joinWords [w] = w := joinWords_singleton w
  have start : longestFit room [] (w :: ws) = longestFit room (joinWords [w]) ws := by
    rw [one, longestFit, if_pos rfl, if_neg (Int.not_lt.2 fits)]
  have alone : ((joinWords [w]).length : Int) ≤ room := one.symm ▸ fits
  obtain ⟨n, least, longest, kept⟩ := longestFit_spec (List.singleton_append ▸ h) (List.cons_ne_nil w []) alone
  exact ⟨n, least, longest, start.trans kept⟩

theorem longestFit_none (h : ∀ w ∈ ws.head?, room < w.length) : longestFit room [] ws = [] := by
  cases ws with
  | nil => rfl
  | cons w ws => rw [longestFit, if_pos rfl, if_pos (h w rfl)]

theorem take_ne_nil (pos : 0 < n) (some : ws ≠ []) : ws.take n ≠ [] := by
  rw [Ne, List.take_eq_nil_iff, not_or]
  exact ⟨Nat.ne_of_gt pos, some⟩

/-! ## Summaries -/

theorem shorten_of_fits (fits : ((joinWords (words text)).length : Int) ≤ width) :
    shorten width text = joinWords (words text) := if_pos fits

theorem shorten_of_beyond (beyond : width < (joinWords (words text)).length) :
    shorten width text = (if longestFit (width - 3) [] (words text) = [] then
        (joinWords (words text)).take (width - 3).toNat else longestFit (width - 3) [] (words text)) ++ ellipsis :=
  if_neg (Int.not_le.2 beyond)

/-- A text of which the first word fits is cut behind a word. -/
theorem shorten_of_first (beyond : width < (joinWords (words text)).length)
    (first : ∃ w ∈ (words text).head?, (w.length : Int) ≤ width - 3) :
    ∃ n, 0 < n ∧ IsLongestFit (width - 3) (words text) n ∧
      shorten width text = joinWords ((words text).take n) ++ ellipsis := by
  obtain ⟨w, first, fits⟩ := first
  obtain ⟨ws, split⟩ := List.head?_eq_some_iff.1 first
  have each : ∀ v ∈ words text, IsWord v := fun v => isWord_of_mem_words
  rw [shorten_of_beyond beyond]
  rw [split] at each ⊢
  obtain ⟨n, pos, longest, kept⟩ := longestFit_first each fits
  have some : joinWords ((w :: ws).take n) ≠ [] :=
    joinWords_ne_nil (fun v hv => each v (List.mem_of_mem_take hv)) (take_ne_nil pos (List.cons_ne_nil w ws))
  exact ⟨n, pos, longest, by rw [kept, if_neg some]⟩

/-- A text of which not even the first word fits is cut inside it. -/
theorem shorten_of_none (beyond : width < (joinWords (words text)).length)
    (none : ∀ w ∈ (words text).head?, width - 3 < w.length) :
    shorten width text = (joinWords (words text)).take (width - 3).toNat ++ ellipsis := by
  rw [shorten_of_beyond beyond, if_pos (longestFit_none none)]

/-! ## Summaries of summaries -/

/-- Joined words within the width are left as they are. -/
theorem shorten_joinWords (h : ∀ w ∈ ws, IsWord w) (fits : ((joinWords ws).length : Int) ≤ width) :
    shorten width (joinWords ws) = joinWords ws := by
  have same := words_joinWords h
  rw [← same] at fits
  rw [shorten_of_fits fits, same]

/-- The dots make one word with what stands right in front of them. -/
theorem isWord_dotted (solid : ∀ c ∈ w, isBlank c = false) : IsWord (w ++ ellipsis) := by
  have dots : ellipsis.all (!isBlank ·) = true := by decide
  refine ⟨List.append_ne_nil_of_right_ne_nil w (List.cons_ne_nil _ _), fun c hc => ?_⟩
  rcases List.mem_append.1 hc with hc | hc
  · exact solid c hc
  · simpa using List.all_eq_true.1 dots c hc

/-- Where there is no room beside the dots, they are all there is. -/
theorem shorten_of_narrow (narrow : width < 3) (beyond : width < (joinWords (words text)).length) :
    shorten width text = ellipsis := by
  have none : ∀ w ∈ (words text).head?, width - 3 < w.length := by
    intro w hw
    omega
  have zero : (width - 3).toNat = 0 := by omega
  rw [shorten_of_none beyond none, zero]
  rfl

/-- What a cut text leaves is words that are joined. -/
theorem exists_words_of_beyond (wide : 3 ≤ width) (beyond : width < (joinWords (words text)).length) :
    ∃ vs, shorten width text = joinWords vs ∧ ∀ v ∈ vs, IsWord v := by
  have each : ∀ v ∈ words text, IsWord v := fun v => isWord_of_mem_words
  by_cases first : ∃ w ∈ (words text).head?, (w.length : Int) ≤ width - 3
  · obtain ⟨n, pos, longest, cut⟩ := shorten_of_first beyond first
    obtain ⟨w, front, -⟩ := first
    have some : (words text).take n ≠ [] := take_ne_nil pos (List.ne_nil_of_mem (List.mem_of_mem_head? front))
    -- The dots belong to the last word that is kept.
    generalize last : ((words text).take n).getLast some = v
    have kept : (words text).take n = ((words text).take n).dropLast ++ [v] := by
      rw [← last, List.dropLast_concat_getLast]
    have word : IsWord v := each v (List.mem_of_mem_take (last ▸ List.getLast_mem some))
    refine ⟨((words text).take n).dropLast ++ [v ++ ellipsis], ?_, fun u hu => ?_⟩
    · rw [cut, ← joinWords_append_right, ← kept]
    rcases List.mem_append.1 hu with hu | hu
    · exact each u (List.mem_of_mem_take (List.dropLast_subset _ hu))
    · rw [List.mem_singleton.1 hu]
      exact isWord_dotted word.solid
  · have none : ∀ w ∈ (words text).head?, width - 3 < w.length := by simpa using first
    rw [shorten_of_none beyond none]
    cases split : words text with
    | nil =>
      rw [split, joinWords_nil, List.length_nil] at beyond
      omega
    | cons w ws =>
      have long := none w (by rw [split]; rfl)
      obtain ⟨rest, line⟩ := joinWords_mono (List.prefix_append [w] ws)
      rw [joinWords_singleton] at line
      have room : (width - 3).toNat ≤ w.length := by omega
      refine ⟨[w.take (width - 3).toNat ++ ellipsis], ?_, fun u hu => ?_⟩
      · rw [joinWords_singleton, ← List.take_append_of_le_length room, line]
        rfl
      · rw [List.mem_singleton.1 hu]
        exact isWord_dotted fun c hc => (each w (by simp [split])).solid c (List.mem_of_mem_take hc)

/-- A summary is its own summary. -/
theorem shorten_shorten (width : Int) (text : List Char) : shorten width (shorten width text) = shorten width text := by
  by_cases fits : ((joinWords (words text)).length : Int) ≤ width
  · rw [shorten_of_fits fits]
    exact shorten_joinWords (fun w => isWord_of_mem_words) fits
  have beyond := Int.not_le.1 fits
  by_cases wide : 3 ≤ width
  · obtain ⟨vs, cut, each⟩ := exists_words_of_beyond wide beyond
    have length := length_shorten_le width text
    rw [cut] at length ⊢
    exact shorten_joinWords each (by omega)
  · have narrow := Int.not_le.1 wide
    have dots : joinWords (words ellipsis) = ellipsis := rfl
    rw [shorten_of_narrow narrow beyond]
    refine shorten_of_narrow narrow ?_
    rw [dots]
    exact narrow

/-- **What a summary is.** It is its own summary. It has at most `width` characters, or is
three dots. A text that is within the width when its white space is collapsed is left like
that. Of any other text whose first word fits beside the dots, the summary has as many whole
words as fit; of any other, the characters that fit, of which there may be none. -/
theorem shorten_summarizes (width : Int) (text : List Char) :
    let ws := (text.splitOnP isBlank).filter fun w => !w.isEmpty
    let collapsed := [' '].intercalate ws
    shorten width (shorten width text) = shorten width text ∧
    ((shorten width text).length : Int) ≤ max width 3 ∧
    (collapsed.length ≤ width → shorten width text = collapsed) ∧
    (width < collapsed.length → (∃ w ∈ ws.head?, (w.length : Int) ≤ width - 3) →
      ∃ n, 0 < n ∧ IsLongestFit (width - 3) ws n ∧
        shorten width text = [' '].intercalate (ws.take n) ++ ['.', '.', '.']) ∧
    (width < collapsed.length → (∀ w ∈ ws.head?, width - 3 < w.length) →
      shorten width text = collapsed.take (max (width - 3) 0).toNat ++ ['.', '.', '.']) := by
  intro ws collapsed
  have pieces : ws = words text := (words_eq text).symm
  have line : collapsed = joinWords (words text) := congrArg joinWords pieces
  rw [line, pieces]
  refine ⟨shorten_shorten width text, length_shorten_le width text, shorten_of_fits, shorten_of_first,
    fun beyond none => ?_⟩
  have room : (max (width - 3) 0).toNat = (width - 3).toNat := by omega
  rw [room]
  exact shorten_of_none beyond none

example : shorten 12 " one  two\nthree".toList = "one two...".toList := by decide

example : shorten 2 "one".toList = "...".toList := by decide

end Folio.Text
