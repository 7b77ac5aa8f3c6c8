/-
A signal under virtual time, with any number of waits that overlap. Each wait
is numbered by its caller and settles once.
-/
import Folio.Script
import Folio.Signal

namespace Folio

/-- A signal, its agenda, and the waits that have settled. -/
structure SignalRun where
  signal : Signal Nat
  agenda : Agenda Nat (Nat × Bool)
  /-- The waits that have settled, in that order, and whether they saw the flag. -/
  settled : List (Nat × Bool)
deriving Repr

namespace SignalRun

/-- What is done with a signal. -/
inductive Act where
  | set
  | clear
  | wait (ms : Number)
deriving Repr

/-- The run before its first step. -/
def initial : SignalRun := ⟨.initial, .initial, []⟩

/-- An act, which has the number `k`. -/
def act (k : Nat) (a : Act) (run : SignalRun) : SignalRun :=
  match a with
  | .set =>
    let (signal, agenda) := run.signal.set Prod.mk run.agenda
    { run with signal, agenda }
  | .clear => { run with signal := run.signal.clear }
  | .wait ms =>
    let (signal, agenda) := run.signal.wait Prod.mk k ms run.agenda
    { run with signal, agenda }

/-- The time of a wait is up. -/
def lapse (k : Nat) (run : SignalRun) : SignalRun :=
  let (signal, agenda) := run.signal.lapse Prod.mk k run.agenda
  { run with signal, agenda }

/-- A wait settles. -/
def resume (r : Nat × Bool) (run : SignalRun) : SignalRun :=
  { run with settled := run.settled ++ [r] }

instance : Timed SignalRun Nat (Nat × Bool) where
  agenda := agenda
  withAgenda run agenda := { run with agenda }
  lapse := lapse
  resume := resume
  work run := run.agenda.ready.length

/-- A wait yields whether it saw the flag, and any other act nothing. -/
instance : Scripted SignalRun Act (Option Bool) where
  act k a run :=
    (run.act k a, match a with
      | .set | .clear => some none
      | .wait _ => none)
  nothing := none
  settled run := run.settled.map fun s => (s.1, some s.2)

end SignalRun

end Folio
