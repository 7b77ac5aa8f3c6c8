/-
Laying controls out in rows keeps them all, in their order, and makes as few rows as
can be. A part of a row is a row, so it is best to fill each one (`IsGreedyGrouping`).
The loop closes a row in three places, and each time it is full for the control behind
it: before a control that stands alone, after one, and when it has all the buttons that
a row takes. A row that is still empty is not closed at all (`flush_append`).
-/
import Folio.Control
import Folio.Proofs.Grouping

namespace Folio

variable {α : Type} {alone : α → Bool} {row pending items : List α} {groups : List (List α)} {c : α}

/-- A row of controls: one that stands alone, or one to five of the others. -/
def IsRow (alone : α → Bool) (row : List α) : Prop :=
  (row.length = 1 ∧ ∀ c ∈ row, alone c = true) ∨ (1 ≤ row.length ∧ row.length ≤ 5 ∧ ∀ c ∈ row, alone c = false)

instance (alone : α → Bool) (row : List α) : Decidable (IsRow alone row) := inferInstanceAs (Decidable (_ ∨ _))

namespace IsRow

theorem length_le (h : IsRow alone row) : row.length ≤ 5 := by
  rcases h with ⟨one, -⟩ | ⟨-, room, -⟩
  · omega
  · exact room

/-- A control that stands alone has no others in its row. -/
theorem length_eq_one (h : IsRow alone row) (mem : c ∈ row) (lone : alone c = true) : row.length = 1 := by
  rcases h with ⟨one, -⟩ | ⟨-, -, others⟩
  · exact one
  · rw [others c mem] at lone
    cases lone

/-- A part of a row is a row. -/
theorem part (a b c : List α) (some : b ≠ []) (h : IsRow alone (a ++ b ++ c)) : IsRow alone b := by
  have pos : 1 ≤ b.length := List.length_pos_iff.2 some
  have mem {x : α} (hx : x ∈ b) : x ∈ a ++ b ++ c := List.mem_append_left c (List.mem_append_right a hx)
  rw [IsRow, List.length_append, List.length_append] at h
  rcases h with ⟨one, lone⟩ | ⟨-, room, others⟩
  · exact .inl ⟨by omega, fun x hx => lone x (mem hx)⟩
  · exact .inr ⟨pos, by omega, fun x hx => others x (mem hx)⟩

end IsRow

/-- To close the pending row makes a row of it unless it is empty. -/
theorem IsGreedyGrouping.flush_append (h : IsGreedyGrouping (IsRow alone) items groups) (others : ∀ c ∈ pending, alone c = false)
    (room : pending.length ≤ 5) (full : pending ≠ [] → ∀ x ∈ items.head?, ¬IsRow alone (pending ++ [x])) :
    IsGreedyGrouping (IsRow alone) (pending ++ items) (flush pending ++ groups) := by
  cases pending with
  | nil => exact h
  | cons c pending =>
    exact h.cons (List.cons_ne_nil c pending) (.inr ⟨Nat.succ_pos _, room, others⟩) (full (List.cons_ne_nil c pending))

/-- The rows from the pending one on, which could take no more each. -/
theorem spreadOnto_spec (alone : α → Bool) (pending cs : List α) (others : ∀ c ∈ pending, alone c = false)
    (room : pending.length ≤ 5) :
    IsGreedyGrouping (IsRow alone) (pending ++ cs) (spreadOnto alone pending cs) := by
  fun_induction spreadOnto alone pending cs with
  | case1 pending =>
    have none : IsGreedyGrouping (IsRow alone) [] [] := .nil
    have closed := none.flush_append others room fun _ x first => by cases first
    rwa [List.append_nil (flush pending)] at closed
  | case2 pending c cs lone ih =>
    have behind := ih (List.forall_mem_nil _) (Nat.zero_le 5)
    -- Neither the control behind this one nor the buttons before it share its row.
    have row : IsGreedyGrouping (IsRow alone) ([c] ++ cs) ([c] :: spreadOnto alone [] cs) := by
      refine behind.cons (List.cons_ne_nil c []) (.inl ⟨rfl, by simpa using lone⟩) fun x _ shared => ?_
      have one := shared.length_eq_one List.mem_cons_self lone
      simp at one
    refine row.flush_append others room fun some x first shared => some ?_
    obtain rfl := Option.some.inj first
    have one := shared.length_eq_one (by simp) lone
    simpa using one
  | case3 pending c cs shares full ih =>
    have behind := ih (by simpa using shares) (by decide : 1 ≤ 5)
    have five : pending.length = 5 := full
    refine behind.cons (List.ne_nil_of_length_eq_add_one five) (.inr ⟨by omega, room, others⟩) fun x _ shared => ?_
    have long := shared.length_le
    rw [List.length_append, five] at long
    exact absurd long (by simp)
  | case4 pending c cs shares notFull ih =>
    have more : pending.length ≠ 5 := notFull
    have grown := ih (List.forall_mem_append.2 ⟨others, by simpa using shares⟩) (by
      rw [List.length_append, List.length_singleton]
      omega)
    rwa [List.append_assoc] at grown

/-- Rows keep all controls, in their order. -/
theorem flatten_spread (alone : α → Bool) (cs : List α) : (spread alone cs).flatten = cs :=
  (spreadOnto_spec alone [] cs (List.forall_mem_nil _) (Nat.zero_le 5)).flatten

/-- **Controls are laid out in as few rows as can be.** Whichever of the controls stand
alone, the rows hold all of them in their order, each row has one that stands alone or one
to five of the others, and no other way to cut the controls into such rows has fewer. -/
theorem spread_fewest (alone : α → Bool) (controls : List α) :
    IsGrouping (IsRow alone) controls (spread alone controls) ∧
      ∀ others, IsGrouping (IsRow alone) controls others → (spread alone controls).length ≤ others.length := by
  have cut := spreadOnto_spec alone [] controls (List.forall_mem_nil _) (Nat.zero_le 5)
  exact ⟨cut.toIsGrouping, fun others other => cut.length_le IsRow.part other⟩

/-- Six buttons and a menu, against another way to lay them out. -/
theorem spread_fewest_other :
    let alone : String → Bool := fun name => name == "select"
    let names := ["first", "back", "next", "last", "callback", "more", "select"]
    let rows := [["first"], ["back", "next", "last", "callback", "more"], ["select"]]
    IsGrouping (IsRow alone) names rows ∧ (spread alone names).length ≤ rows.length := by
  intro alone names rows
  have other : IsGrouping (IsRow alone) names rows := ⟨rfl, by decide, by decide⟩
  exact ⟨other, (spread_fewest alone names).2 rows other⟩

end Folio
