/-
Virtual time. An agenda holds the clock, the timers that are set, and what is
ready to run, first come first served. A world with an agenda (`Timed`) runs in
turns: a turn takes what has been ready longest, and may make more ready. Time
passes only between turns, when `advance` or `race` moves the clock. It is
counted in milliseconds, of which a delay is always a whole number.
-/
import Folio.Number.Basic

namespace Folio

/-- A timer: when it goes off, and for whom. -/
structure Timer (κ : Type) where
  due : Number
  key : κ
deriving DecidableEq, Repr

/-- The clock, the timers by the order in which they go off, and what is ready
to run. -/
structure Agenda (κ ρ : Type) where
  now : Number
  timers : List (Timer κ)
  ready : List ρ
deriving Repr

namespace Agenda

variable {κ ρ : Type}

/-- The agenda at the start of time. -/
def initial : Agenda κ ρ := ⟨0, [], []⟩

/-- The longest delay that a timer can have. -/
def maxDelay : Nat := 2147483647

/-- The delay of a timer set for `ms`: its whole milliseconds, or one if that is
out of range. -/
def delay (ms : Number) : Nat :=
  match ms with
  | .finite q => if 1 ≤ q ∧ q ≤ maxDelay then q.floor.toNat else 1
  | _ => 1

/-- The timers with one more, after those that go off no later. -/
def insert (t : Timer κ) : List (Timer κ) → List (Timer κ)
  | [] => [t]
  | u :: us => if t.due.lt u.due then t :: u :: us else u :: insert t us

/-- Sets a timer. -/
def start (a : Agenda κ ρ) (key : κ) (ms : Number) : Agenda κ ρ :=
  { a with timers := insert ⟨a.now + (delay ms : Number), key⟩ a.timers }

/-- Takes back the timers for `key`. -/
def cancel [DecidableEq κ] (a : Agenda κ ρ) (key : κ) : Agenda κ ρ :=
  { a with timers := a.timers.filter fun t => t.key ≠ key }

/-- Makes something ready to run. -/
def enqueue (a : Agenda κ ρ) (r : ρ) : Agenda κ ρ := { a with ready := a.ready ++ [r] }

/-- Moves the clock forward to a time; it never goes back. -/
def moveTo (a : Agenda κ ρ) (time : Number) : Agenda κ ρ := { a with now := max a.now time }

end Agenda

/-- A world with an agenda. -/
class Timed (σ : Type) (κ ρ : outParam Type) where
  agenda : σ → Agenda κ ρ
  withAgenda : σ → Agenda κ ρ → σ
  /-- What happens at once when a timer for `key` goes off. -/
  lapse : (key : κ) → σ → σ
  /-- What happens in a turn of `r`. -/
  resume : (r : ρ) → σ → σ
  /-- A bound on the turns before nothing is ready. -/
  work : σ → Nat

namespace Timed

variable {σ κ ρ : Type} [Timed σ κ ρ]

/-- Whether nothing is ready to run. -/
def isQuiet (s : σ) : Bool := (agenda s).ready.isEmpty

/-- One turn, if anything is ready. -/
def turn (s : σ) : σ :=
  match (agenda s).ready with
  | [] => s
  | r :: rest => resume r (withAgenda s { agenda s with ready := rest })

/-- At most `count` turns. -/
def turns : Nat → σ → σ
  | 0, s => s
  | count + 1, s => if isQuiet s then s else turns count (turn s)

/-- Turns until nothing is ready. -/
def settle (s : σ) : σ := turns (work s) s

/-- The first timer goes off, with the clock at its time, if that is at most `limit`. -/
def fire? (limit : Number) (s : σ) : Option σ :=
  match (agenda s).timers with
  | [] => none
  | t :: rest =>
    if t.due.le limit then some (lapse t.key (withAgenda s ({ agenda s with timers := rest }.moveTo t.due)))
    else none

/-- At most `count` timers go off up to `limit`, each followed by `after`. -/
def fireUpTo (after : σ → σ) (limit : Number) : Nat → σ → σ
  | 0, s => s
  | count + 1, s =>
    match fire? limit s with
    | some s => fireUpTo after limit count (after s)
    | none => s

/-- The clock moves to a time. -/
def moveTo (time : Number) (s : σ) : σ := withAgenda s ((agenda s).moveTo time)

/-- Time passes: each timer goes off when it is due, and all that it makes ready
runs before the next. -/
def advance (ms : Number) (s : σ) : σ :=
  let limit := (agenda s).now + ms
  moveTo limit (fireUpTo settle limit (agenda s).timers.length s)

/-- Time jumps: all timers that are due by then go off, and `act` happens before
anything that they made ready runs. -/
def race {α : Type} (ms : Number) (act : σ → σ × α) (s : σ) : σ × α :=
  let limit := (agenda s).now + ms
  let fired := fireUpTo id limit (agenda s).timers.length (moveTo limit s)
  let (acted, a) := act fired
  (settle acted, a)

end Timed

end Folio
