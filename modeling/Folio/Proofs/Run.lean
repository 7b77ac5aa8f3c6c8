/-
Runs of a scripted world. As in a room, a move is an act, a turn of what has been ready
longest, a timer going off, or the clock moving, and a run is any sequence of moves. So an
act comes between any two turns, also after a timer went off and before whoever waited for
it goes on.

What a script does is one such sequence for each of its steps, so what holds of every run
holds of all that a script shows (`exists_afterAll_playFrom`).
-/
import Folio.Script

namespace Folio.Scripted

/-- What can happen next in a world with acts of type `α`. -/
inductive Move (α : Type) where
  /-- An act, of step `k`. -/
  | act (k : Nat) (a : α)
  /-- What has been ready longest takes its turn. -/
  | turn
  /-- The first timer goes off, if it is due by then. -/
  | fire (limit : Number)
  /-- The clock moves. -/
  | moveTo (time : Number)

variable {σ κ ρ α ω : Type} [Timed σ κ ρ] [Scripted σ α ω]

/-- The world after a move. -/
def after (s : σ) : Move α → σ
  | .act k a => (act k a s).1
  | .turn => Timed.turn s
  | .fire limit => (Timed.fire? limit s).getD s
  | .moveTo time => Timed.moveTo time s

/-- The world after moves. -/
def afterAll (s : σ) (moves : List (Move α)) : σ := moves.foldl after s

@[simp] theorem afterAll_nil (s : σ) : afterAll s [] = s := rfl

@[simp] theorem afterAll_cons (s : σ) (m : Move α) (moves : List (Move α)) :
    afterAll s (m :: moves) = afterAll (after s m) moves := rfl

@[simp] theorem afterAll_append (s : σ) (moves moves' : List (Move α)) :
    afterAll s (moves ++ moves') = afterAll (afterAll s moves) moves' := List.foldl_append

/-! ## Scripts are runs -/

theorem exists_afterAll_turns (n : Nat) (s : σ) : ∃ moves, Timed.turns n s = afterAll s moves := by
  induction n generalizing s with
  | zero => exact ⟨[], rfl⟩
  | succ n ih =>
    rw [Timed.turns]
    split
    · exact ⟨[], rfl⟩
    · obtain ⟨moves, same⟩ := ih (Timed.turn s)
      exact ⟨.turn :: moves, same⟩

theorem exists_afterAll_fireUpTo {f : σ → σ} (h : ∀ s, ∃ moves, f s = afterAll s moves) (limit : Number) (n : Nat) (s : σ) :
    ∃ moves, Timed.fireUpTo f limit n s = afterAll s moves := by
  induction n generalizing s with
  | zero => exact ⟨[], rfl⟩
  | succ n ih =>
    rw [Timed.fireUpTo]
    split
    next fired hf =>
      obtain ⟨first, same⟩ := h fired
      obtain ⟨moves, same'⟩ := ih (f fired)
      refine ⟨.fire limit :: (first ++ moves), ?_⟩
      rw [same', afterAll_cons, afterAll_append, after, hf, Option.getD_some, ← same]
    · exact ⟨[], rfl⟩

/-- A step of a script is a sequence of moves. -/
theorem exists_afterAll_step (k : Nat) (s : σ) (next : Step α) : ∃ moves, (step k s next).1 = afterAll s moves := by
  cases next with
  | act a =>
    obtain ⟨moves, same⟩ := exists_afterAll_turns (Timed.work (act k a s).1) (act k a s).1
    exact ⟨.act k a :: moves, same⟩
  | advance ms =>
    obtain ⟨moves, same⟩ := exists_afterAll_fireUpTo (fun s => exists_afterAll_turns (Timed.work s) s)
      ((Timed.agenda s).now + ms) (Timed.agenda s).timers.length s
    refine ⟨moves ++ [.moveTo ((Timed.agenda s).now + ms)], ?_⟩
    rw [afterAll_append, ← same]
    rfl
  | race ms a =>
    obtain ⟨moves, same⟩ := exists_afterAll_fireUpTo (f := id) (fun s => ⟨[], rfl⟩) ((Timed.agenda s).now + ms)
      (Timed.agenda s).timers.length (Timed.moveTo ((Timed.agenda s).now + ms) s)
    generalize hf : Timed.fireUpTo id ((Timed.agenda s).now + ms) (Timed.agenda s).timers.length
      (Timed.moveTo ((Timed.agenda s).now + ms) s) = fired at same
    obtain ⟨turns, settled⟩ := exists_afterAll_turns (Timed.work (act k a fired).1) (act k a fired).1
    refine ⟨.moveTo ((Timed.agenda s).now + ms) :: (moves ++ .act k a :: turns), ?_⟩
    rw [afterAll_cons, afterAll_append, after, ← same, afterAll_cons, after, ← settled]
    show Timed.settle (act k a _).1 = _
    rw [hf]
    rfl

/-- Whatever a script shows, a run leads to. -/
theorem exists_afterAll_playFrom (script : List (Step α)) (k : Nat) (s : σ) :
    ∀ shown ∈ playFrom k s script, ∃ moves, shown.after = afterAll s moves := by
  induction script generalizing k s with
  | nil => exact List.forall_mem_nil _
  | cons next more ih =>
    obtain ⟨first, stepped⟩ := exists_afterAll_step k s next
    intro shown hshown
    rcases List.mem_cons.1 hshown with rfl | later
    · exact ⟨first, stepped⟩
    · obtain ⟨moves, reached⟩ := ih (k + 1) _ shown later
      exact ⟨first ++ moves, by rw [afterAll_append, ← stepped]; exact reached⟩

end Folio.Scripted
