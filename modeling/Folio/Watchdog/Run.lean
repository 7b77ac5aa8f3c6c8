/-
A watchdog under virtual time, with an idle handler of a given behaviour: it may call the
watchdog that called it, and then ends one way or the other, or waits until it is finished.
-/
import Folio.Fault
import Folio.Script
import Folio.Watchdog

namespace Folio

/-- What can be asked of a watchdog, from outside and by its idle handler. -/
inductive WatchdogCall where
  | ping
  | stop
deriving Repr

/-- What an idle handler does. -/
structure IdleHandler where
  /-- What it asks of the watchdog that called it, in order. -/
  calls : List WatchdogCall
  /-- How it ends; `none` if it waits to be finished. -/
  outcome : Option (Except Fault Unit)

/-- What the task of a watchdog goes on with. -/
inductive WatchdogTurn where
  /-- A wait is over. -/
  | woken (pinged : Bool)
  /-- The idle handler is done. -/
  | handled (outcome : Except Fault Unit)

/-- A watchdog, its agenda, and what came of its task. -/
structure WatchdogRun where
  handler : IdleHandler
  watchdog : Watchdog Unit
  agenda : Agenda Unit WatchdogTurn
  /-- The call that started the task. -/
  starter : Option Nat
  /-- Whether the idle handler waits to be finished. -/
  held : Bool
  /-- The calls of the idle handler: when, and whether the watchdog was running. -/
  idles : List (Number × Bool)
  /-- The outcome of the task, for the call that started it. -/
  settled : List (Nat × Except Fault Unit)

namespace WatchdogRun

/-- What is done with a watchdog. -/
inductive Act where
  | start
  | call (c : WatchdogCall)
  /-- Finishes the idle handler that waits for it. -/
  | finish (outcome : Except Fault Unit)

/-- What comes of an act. -/
inductive Reply where
  | nothing
  /-- The task was started before. -/
  | sameTask
  /-- The task that the act started has ended. -/
  | ended (outcome : Except Fault Unit)

/-- The run before its first step. -/
def initial (interval : Number) (handler : IdleHandler) : WatchdogRun :=
  ⟨handler, .fresh interval, .initial, none, false, [], []⟩

/-- How the task goes on after a wait. -/
def wake (_ : Unit) (pinged : Bool) : WatchdogTurn := .woken pinged

/-- The task ends. -/
def conclude (outcome : Except Fault Unit) (run : WatchdogRun) : WatchdogRun :=
  match run.starter with
  | some k => { run with settled := run.settled ++ [(k, outcome)] }
  | none => run

/-- The idle handler is done. -/
def handled (outcome : Except Fault Unit) (run : WatchdogRun) : WatchdogRun :=
  { run with agenda := run.agenda.enqueue (.handled outcome) }

/-- A change of the watchdog and its agenda. -/
def change (f : Watchdog Unit → Agenda Unit WatchdogTurn → Watchdog Unit × Agenda Unit WatchdogTurn)
    (run : WatchdogRun) : WatchdogRun :=
  let (watchdog, agenda) := f run.watchdog run.agenda
  { run with watchdog, agenda }

/-- The watchdog is pinged or stopped. -/
def call (c : WatchdogCall) : WatchdogRun → WatchdogRun :=
  match c with
  | .ping => change (Watchdog.ping wake)
  | .stop => change (Watchdog.stop wake)

/-- The idle handler is called. -/
def callHandler (run : WatchdogRun) : WatchdogRun :=
  let idle := { run with idles := run.idles ++ [(run.agenda.now, run.watchdog.running)] }
  let called := run.handler.calls.foldl (fun run c => run.call c) idle
  match run.handler.outcome with
  | some outcome => called.handled outcome
  | none => { called with held := true }

/-- The task goes on from where the watchdog left it. -/
def proceed (step : Watchdog Unit × Agenda Unit WatchdogTurn × Watchdog.Next) (run : WatchdogRun) :
    WatchdogRun :=
  let (watchdog, agenda, next) := step
  let run := { run with watchdog, agenda }
  match next with
  | .asleep => run
  | .ended => run.conclude (.ok ())
  | .idle => run.callHandler

/-- An act, which has the number `k`. -/
def act (k : Nat) (a : Act) (run : WatchdogRun) : WatchdogRun × Option Reply :=
  match a with
  | .start =>
    match run.starter with
    | some _ => (run, some .sameTask)
    | none =>
      let run := { run with starter := some k }
      (run.proceed (run.watchdog.watch wake () run.agenda), none)
  | .call c => (run.call c, some .nothing)
  | .finish outcome =>
    (if run.held then { run with held := false }.handled outcome else run, some .nothing)

/-- A turn of the task. -/
def resume (r : WatchdogTurn) (run : WatchdogRun) : WatchdogRun :=
  match r with
  | .woken pinged => run.proceed (run.watchdog.resume wake () pinged run.agenda)
  | .handled outcome => run.conclude outcome

instance : Timed WatchdogRun Unit WatchdogTurn where
  agenda := agenda
  withAgenda run agenda := { run with agenda }
  lapse _ := change (Watchdog.lapse wake ())
  resume := resume
  work run := 3 * run.agenda.ready.length

instance : Scripted WatchdogRun Act Reply where
  act := act
  nothing := .nothing
  settled run := run.settled.map fun s => (s.1, .ended s.2)

end WatchdogRun

end Folio
