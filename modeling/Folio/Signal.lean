/-
A signal that tasks can wait for. It stays raised until it is cleared, so any
number of calls to `set` before a task goes on count as one. A wait ends when
the signal is raised, or when its time is up.
-/
import Folio.Agenda

namespace Folio

/-- A flag, and those who wait for it. -/
structure Signal (κ : Type) where
  raised : Bool
  sleepers : List κ
deriving Repr

namespace Signal

variable {κ ρ : Type} [DecidableEq κ]

/-- A signal that was never raised. -/
def initial : Signal κ := ⟨false, []⟩

/-- Raises the flag: every sleeper's timer is taken back, and it wakes. The
function `wake` says what a sleeper goes on with, given whether the flag was
raised in time. -/
def set (wake : κ → Bool → ρ) (s : Signal κ) (a : Agenda κ ρ) : Signal κ × Agenda κ ρ :=
  (⟨true, []⟩, s.sleepers.foldl (fun a key => (a.cancel key).enqueue (wake key true)) a)

/-- The sleepers wake in the order in which they called, and none of their timers is left. -/
theorem set_eq (wake : κ → Bool → ρ) (s : Signal κ) (a : Agenda κ ρ) :
    s.set wake a = (⟨true, []⟩, { a with
      timers := a.timers.filter fun t => t.key ∉ s.sleepers
      ready := a.ready ++ s.sleepers.map (wake · true) }) := by
  rw [set]
  congr 1
  generalize s.sleepers = keys
  induction keys generalizing a with
  | nil =>
    have all : a.timers.filter (fun t => t.key ∉ ([] : List κ)) = a.timers := List.filter_eq_self.2 (by simp)
    rw [List.foldl_nil, all, List.map_nil, List.append_nil]
  | cons key keys ih =>
    rw [List.foldl_cons, ih]
    simp only [Agenda.cancel, Agenda.enqueue, List.filter_filter, List.map_cons, List.append_assoc,
      List.singleton_append, List.mem_cons, not_or, Bool.decide_and, Bool.and_comm]

/-- Lowers the flag. -/
def clear (s : Signal κ) : Signal κ := { s with raised := false }

/-- Waits for the flag for at most `ms`. -/
def wait (wake : κ → Bool → ρ) (key : κ) (ms : Number) (s : Signal κ) (a : Agenda κ ρ) :
    Signal κ × Agenda κ ρ :=
  if s.raised then (s, a.enqueue (wake key true))
  else ({ s with sleepers := s.sleepers ++ [key] }, a.start key ms)

/-- The time of a sleeper is up. -/
def lapse (wake : κ → Bool → ρ) (key : κ) (s : Signal κ) (a : Agenda κ ρ) : Signal κ × Agenda κ ρ :=
  ({ s with sleepers := s.sleepers.filter (· ≠ key) }, a.enqueue (wake key false))

end Signal

end Folio
