/-
A watchdog waits for a signal, over and over. Each ping raises the signal and
so starts the wait anew; when a wait runs out, the watchdog is stopped and its
owner is idle. `stop` wakes it, so that its task ends at once.
-/
import Folio.Signal

namespace Folio

/-- A watchdog. -/
structure Watchdog (κ : Type) where
  interval : Number
  signal : Signal κ
  running : Bool
deriving Repr

namespace Watchdog

/-- Where the task of a watchdog stands after a turn. -/
inductive Next where
  /-- It waits for the signal. -/
  | asleep
  /-- It has ended. -/
  | ended
  /-- The wait ran out: the idle handler is due, and after it the task ends. -/
  | idle
deriving DecidableEq, Repr

variable {κ ρ : Type} [DecidableEq κ]

/-- A watchdog that has not started. -/
def fresh (interval : Number) : Watchdog κ := ⟨interval, .initial, true⟩

/-- Waits for the signal while the watchdog is running. -/
def watch (wake : κ → Bool → ρ) (key : κ) (w : Watchdog κ) (a : Agenda κ ρ) :
    Watchdog κ × Agenda κ ρ × Next :=
  if w.running then
    let (signal, a) := w.signal.wait wake key w.interval a
    ({ w with signal }, a, .asleep)
  else (w, a, .ended)

/-- Goes on after a wait, which ended with a ping or ran out. -/
def resume (wake : κ → Bool → ρ) (key : κ) (pinged : Bool) (w : Watchdog κ) (a : Agenda κ ρ) :
    Watchdog κ × Agenda κ ρ × Next :=
  if pinged then watch wake key { w with signal := w.signal.clear } a
  else if w.running then ({ w with running := false }, a, .idle)
  else (w, a, .ended)

/-- A sign of life. -/
def ping (wake : κ → Bool → ρ) (w : Watchdog κ) (a : Agenda κ ρ) : Watchdog κ × Agenda κ ρ :=
  if w.running then
    let (signal, a) := w.signal.set wake a
    ({ w with signal }, a)
  else (w, a)

/-- Stops the watchdog; the idle handler will not be called. -/
def stop (wake : κ → Bool → ρ) (w : Watchdog κ) (a : Agenda κ ρ) : Watchdog κ × Agenda κ ρ :=
  if w.running then
    let (signal, a) := w.signal.set wake a
    ({ w with signal, running := false }, a)
  else (w, a)

/-- The wait's time is up. -/
def lapse (wake : κ → Bool → ρ) (key : κ) (w : Watchdog κ) (a : Agenda κ ρ) :
    Watchdog κ × Agenda κ ρ :=
  let (signal, a) := w.signal.lapse wake key a
  ({ w with signal }, a)

end Watchdog

end Folio
