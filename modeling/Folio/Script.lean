/-
Scripts: what is done in a world step by step. A step acts or lets time pass,
and it is over when nothing is ready to run. It has its result at once, or
starts a task whose outcome is its result; a task that is still pending when
the step is over settles during a later one.
-/
import Folio.Agenda

namespace Folio

/-- A step: an act, the passing of time, or an act that comes just as time is up
for those who wait. -/
inductive Step (α : Type) where
  | act (a : α)
  | advance (ms : Number)
  | race (ms : Number) (a : α)
deriving Repr

/-- A world in which acts of type `α` have outcomes of type `ω`. -/
class Scripted (σ : Type) (α ω : outParam Type) where
  /-- The act of step `k`, up to where it waits, and its outcome if it has one by then. -/
  act : (k : Nat) → α → σ → σ × Option ω
  /-- The outcome of an act that yields nothing. -/
  nothing : ω
  /-- The outcomes of the steps that waited, in the order in which they came. -/
  settled : σ → List (Nat × ω)

/-- What can be seen of a step: its result unless that is pending, the outcomes
of earlier steps that settled meanwhile, and the world before and after it. -/
structure Shown (σ ω : Type) where
  result : Option ω
  /-- The outcomes of earlier steps, in the order in which they came. -/
  settled : List (Nat × ω)
  before : σ
  after : σ

namespace Scripted

variable {σ κ ρ α ω : Type} [Timed σ κ ρ] [Scripted σ α ω]

/-- Step number `k`, and all that it leads to. -/
def step (k : Nat) (s : σ) : Step α → σ × Option ω
  | .act a =>
    let (s, result) := act k a s
    (Timed.settle s, result)
  | .advance ms => (Timed.advance ms s, some (nothing σ))
  | .race ms a => Timed.race ms (act k a) s

/-- What can be seen of step `k`. -/
def look (k : Nat) (s : σ) (next : Step α) : Shown σ ω :=
  let (after, result) := step k s next
  let outcomes := (settled after).drop (settled s).length
  { result := result <|> (outcomes.find? fun o => o.1 = k).map (·.2)
    settled := outcomes.filter fun o => o.1 ≠ k
    before := s
    after }

/-- What can be seen of the steps from number `k` on. -/
def playFrom (k : Nat) (s : σ) : List (Step α) → List (Shown σ ω)
  | [] => []
  | next :: more =>
    let shown := look k s next
    shown :: playFrom (k + 1) shown.after more

/-- What can be seen of a script. -/
def play (s : σ) (script : List (Step α)) : List (Shown σ ω) := playFrom 0 s script

end Scripted

end Folio
