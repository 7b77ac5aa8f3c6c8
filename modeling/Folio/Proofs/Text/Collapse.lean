/-
The words of a text, and the text collapsed. `words` scans the text character by
character; it finds what is left of the pieces between white space when the empty ones
are dropped (`words_eq`). Words joined by single spaces are the words of what they join
(`words_joinWords`), so a text that is collapsed already is left as it is.
-/
import Folio.Text.Shorten

namespace Folio.Text

variable {text word w : List Char} {ws : List (List Char)} {width : Int}

/-! ## Words -/

/-- A text that is one word. -/
structure IsWord (w : List Char) : Prop where
  some : w ≠ []
  solid : ∀ c ∈ w, isBlank c = false

/-- The words are the pieces between white space, without the empty ones. -/
theorem words_eq (text : List Char) : words text = (text.splitOnP isBlank).filter fun w => !w.isEmpty := by
  fun_induction words text with
  | case1 => rfl
  | case2 c cs blank ih =>
    rw [List.splitOnP_cons_eq_if_modifyHead, if_pos blank, ih]
    rfl
  | case3 c solid =>
    rw [List.splitOnP_eq_singleton (by simpa using solid)]
    rfl
  | case4 c solid d cs blank ih =>
    rw [List.splitOnP_cons_eq_if_modifyHead, if_neg solid, ih, List.splitOnP_cons_eq_if_modifyHead, if_pos blank]
    rfl
  | case5 c solid d cs solid' w ws found ih =>
    obtain ⟨p, ps, split⟩ := List.exists_cons_of_ne_nil (List.splitOnP_ne_nil isBlank cs)
    rw [found, List.splitOnP_cons_eq_if_modifyHead, if_neg solid', split] at ih
    obtain ⟨rfl, rfl⟩ := List.cons.inj ih
    rw [found, List.splitOnP_cons_eq_if_modifyHead, if_neg solid, List.splitOnP_cons_eq_if_modifyHead, if_neg solid', split]
    rfl
  | case6 c solid d cs solid' none ih =>
    obtain ⟨p, ps, split⟩ := List.exists_cons_of_ne_nil (List.splitOnP_ne_nil isBlank cs)
    rw [none, List.splitOnP_cons_eq_if_modifyHead, if_neg solid', split] at ih
    cases ih

/-- Words end at white space. -/
theorem words_append_blank {c : Char} (blank : isBlank c = true) (a b : List Char) :
    words (a ++ c :: b) = words a ++ words b := by
  rw [words_eq, words_eq, words_eq, List.splitOnP_append_cons a b blank, List.filter_append]

theorem words_of_isWord (h : IsWord w) : words w = [w] := by
  rw [words_eq, List.splitOnP_eq_singleton h.solid]
  simp [h.some]

theorem IsWord.cons {c : Char} (solid : ¬isBlank c = true) (h : ∀ d ∈ w, isBlank d = false) : IsWord (c :: w) :=
  ⟨List.cons_ne_nil c w, List.forall_mem_cons.2 ⟨Bool.eq_false_iff.2 solid, h⟩⟩

theorem isWord_of_mem_words (h : w ∈ words text) : IsWord w := by
  fun_induction words text generalizing w with
  | case1 => cases h
  | case2 c cs blank ih => exact ih h
  | case3 c solid =>
    obtain rfl := List.mem_singleton.1 h
    exact .cons solid (List.forall_mem_nil _)
  | case4 c solid d cs blank ih =>
    rcases List.mem_cons.1 h with rfl | h
    · exact .cons solid (List.forall_mem_nil _)
    · exact ih h
  | case5 c solid d cs solid' v ws found ih =>
    rw [found] at h ih
    rcases List.mem_cons.1 h with rfl | h
    · exact .cons solid (ih (List.mem_cons_self ..)).solid
    · exact ih (List.mem_cons_of_mem v h)
  | case6 c solid d cs solid' none ih =>
    rw [none] at h
    obtain rfl := List.mem_singleton.1 h
    exact .cons solid (List.forall_mem_nil _)

/-! ## Joining -/

@[simp] theorem joinWords_nil : joinWords [] = [] := List.intercalate_nil

@[simp] theorem joinWords_singleton (w : List Char) : joinWords [w] = w := List.intercalate_singleton

theorem joinWords_cons (w : List Char) (some : ws ≠ []) : joinWords (w :: ws) = w ++ ' ' :: joinWords ws := by
  rw [joinWords, List.intercalate_cons_of_ne_nil some, List.append_assoc]
  rfl

theorem joinWords_append {vs : List (List Char)} (some : ws ≠ []) (some' : vs ≠ []) :
    joinWords (ws ++ vs) = joinWords ws ++ ' ' :: joinWords vs := by
  induction ws with
  | nil => exact absurd rfl some
  | cons w ws ih =>
    have more : ws ++ vs ≠ [] := List.append_ne_nil_of_right_ne_nil ws some'
    rw [List.cons_append, joinWords_cons w more]
    by_cases last : ws = []
    · rw [last, List.nil_append, joinWords_singleton]
    · rw [ih last, joinWords_cons w last, List.append_assoc, List.cons_append]

/-- The first words make the start of the line. -/
theorem joinWords_mono {vs : List (List Char)} (h : vs <+: ws) : joinWords vs <+: joinWords ws := by
  obtain ⟨rest, rfl⟩ := h
  by_cases none : vs = []
  · rw [none, joinWords_nil]
    exact List.nil_prefix
  by_cases all : rest = []
  · have same : vs ++ rest = vs := by rw [all, List.append_nil]
    exact ⟨[], by rw [same, List.append_nil]⟩
  · rw [joinWords_append none all]
    exact List.prefix_append _ _

/-- What stands right behind the last word belongs to it. -/
theorem joinWords_append_right (ws : List (List Char)) (w dots : List Char) :
    joinWords (ws ++ [w]) ++ dots = joinWords (ws ++ [w ++ dots]) := by
  by_cases none : ws = []
  · rw [none, List.nil_append, List.nil_append, joinWords_singleton, joinWords_singleton]
  · rw [joinWords_append none (List.cons_ne_nil _ _), joinWords_append none (List.cons_ne_nil _ _), joinWords_singleton,
      joinWords_singleton, List.append_assoc, List.cons_append]

/-- Joined words are the words of the text that they make. -/
theorem words_joinWords (h : ∀ w ∈ ws, IsWord w) : words (joinWords ws) = ws := by
  induction ws with
  | nil => rfl
  | cons w ws ih =>
    have first : words w = [w] := words_of_isWord (h w (List.mem_cons_self ..))
    have others := ih fun v hv => h v (List.mem_cons_of_mem w hv)
    by_cases some : ws = []
    · rw [some, joinWords_singleton, first]
    · have space : isBlank ' ' = true := by decide
      rw [joinWords_cons w some, words_append_blank space, first, others]
      rfl

end Folio.Text
