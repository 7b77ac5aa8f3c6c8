/-
Cutting a list into groups that each have to fit. Where a part of what fits does too, it
is best to take as much as fits every time (`IsGreedy`): however else the list is cut, a
group of that cut that starts no later ends no later, so there are as many groups at
least (`IsGreedyGrouping.length_le`).

A loop that cuts greedily is seen to do so from its end: a group in front of what is cut
already has to be full for the next element alone (`IsGreedyGrouping.cons`).
-/
import Mathlib.Data.List.Chain

namespace Folio

variable {α β : Type} {Fits : List α → Prop} {items : List α} {groups others : List (List α)}

/-- A list in consecutive groups, none of them empty, that each fit. -/
structure IsGrouping (Fits : List α → Prop) (items : List α) (groups : List (List α)) : Prop where
  flatten : groups.flatten = items
  some : ∀ g ∈ groups, g ≠ []
  fits : ∀ g ∈ groups, Fits g

/-- No group would fit with the next element as well. -/
def IsGreedy (Fits : List α → Prop) (groups : List (List α)) : Prop :=
  groups.IsChain fun g h => ∀ x ∈ h.head?, ¬Fits (g ++ [x])

theorem IsGrouping.map {Fits' : List β → Prop} (h : IsGrouping Fits items groups) (f : α → β)
    (keeps : ∀ g, Fits g → Fits' (g.map f)) : IsGrouping Fits' (items.map f) (groups.map (List.map f)) where
  flatten := by rw [← List.map_flatten, h.flatten]
  some := by
    intro g hg
    obtain ⟨g, mem, rfl⟩ := List.mem_map.1 hg
    simpa using h.some g mem
  fits := by
    intro g hg
    obtain ⟨g, mem, rfl⟩ := List.mem_map.1 hg
    exact keeps g (h.fits g mem)

/-- Greedy groups of the end of a list are no more than any that fit of the whole list. -/
theorem IsGreedy.length_le_of_behind (part : ∀ a b c, b ≠ [] → Fits (a ++ b ++ c) → Fits b) (greedy : IsGreedy Fits groups)
    (some : ∀ g ∈ groups, g ≠ []) (fits : ∀ o ∈ others, Fits o) (ahead : List α)
    (behind : others.flatten = ahead ++ groups.flatten) : groups.length ≤ others.length := by
  induction others generalizing groups ahead with
  | nil =>
    have none : groups.flatten = [] := (List.append_eq_nil_iff.1 behind.symm).2
    cases groups with
    | nil => exact Nat.le_refl _
    | cons g groups => exact absurd (List.append_eq_nil_iff.1 none).1 (some g (List.mem_cons_self ..))
  | cons o others ih =>
    cases groups with
    | nil => exact Nat.zero_le _
    | cons g groups =>
      rw [List.forall_mem_cons] at fits
      rw [List.flatten_cons, List.flatten_cons, ← List.append_assoc] at behind
      suffices later : ∃ ahead', others.flatten = ahead' ++ groups.flatten by
        obtain ⟨ahead', later⟩ := later
        exact Nat.succ_le_succ
          (ih (List.IsChain.tail greedy) (fun h hh => some h (List.mem_cons_of_mem g hh)) fits.2 ahead' later)
      rcases List.append_eq_append_iff.1 behind with ⟨ahead', -, split⟩ | ⟨past, reached, split⟩
      · exact ⟨ahead', split⟩
      · cases past with
        | nil => exact ⟨[], split.symm⟩
        | cons x past =>
          -- The other group took the next element too, so this one could have.
          exfalso
          cases groups with
          | nil => simp at split
          | cons h groups =>
            obtain ⟨y, h', rfl⟩ := List.exists_cons_of_ne_nil (some h (by simp))
            obtain ⟨rfl, -⟩ := List.cons.inj split
            have taken := fits.1
            rw [reached] at taken
            refine (List.isChain_cons_cons.1 greedy).1 y rfl (part ahead (g ++ [y]) past (by simp) ?_)
            simpa only [List.append_assoc, List.singleton_append] using taken

/-- A grouping that takes as much as fits every time. -/
structure IsGreedyGrouping (Fits : List α → Prop) (items : List α) (groups : List (List α)) : Prop
    extends IsGrouping Fits items groups where
  greedy : IsGreedy Fits groups

namespace IsGreedyGrouping

theorem nil : IsGreedyGrouping Fits [] [] where
  flatten := rfl
  some := List.forall_mem_nil _
  fits := List.forall_mem_nil _
  greedy := .nil

/-- One more group in front, which the element behind it does not fit. -/
theorem cons (h : IsGreedyGrouping Fits items groups) {g : List α} (some : g ≠ []) (fits : Fits g)
    (full : ∀ x ∈ items.head?, ¬Fits (g ++ [x])) : IsGreedyGrouping Fits (g ++ items) (g :: groups) where
  flatten := by rw [List.flatten_cons, h.flatten]
  some := List.forall_mem_cons.2 ⟨some, h.some⟩
  fits := List.forall_mem_cons.2 ⟨fits, h.fits⟩
  greedy := by
    cases groups with
    | nil => exact .singleton g
    | cons next groups =>
      obtain ⟨x, next', rfl⟩ := List.exists_cons_of_ne_nil (h.some next List.mem_cons_self)
      have first : items.head? = Option.some x := by rw [← h.flatten]; rfl
      refine List.isChain_cons_cons.2 ⟨fun y hy => ?_, h.greedy⟩
      exact full y (first.trans hy)

/-- **To take as much as fits every time makes as few groups as can be.** -/
theorem length_le (cut : IsGreedyGrouping Fits items groups) (part : ∀ a b c, b ≠ [] → Fits (a ++ b ++ c) → Fits b)
    (other : IsGrouping Fits items others) : groups.length ≤ others.length :=
  cut.greedy.length_le_of_behind part cut.some other.fits [] (by rw [other.flatten, cut.flatten]; rfl)

end IsGreedyGrouping

end Folio
