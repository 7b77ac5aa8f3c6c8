/-
The phases of a watchdog's task. Its flag, its timer, what is ready to run for it and its
idle handler are kept in different places and change at different times; but a run is
always at one of seven phases, and each move leads from a phase to a phase
(`Course.toRun_after`). So a started task is in one place: it waits for one timer, or one
turn of it is ready, or its handler waits to be finished, or it is over.

The idle handler is called with the watchdog stopped, so what it asks of the watchdog comes
to nothing (`callHandler_of_stopped`), and no phase says which handler it was.
-/
import Folio.Proofs.Run
import Folio.Watchdog.Run

namespace Folio.WatchdogRun

open Scripted (Move after afterAll)

/-- How far the task has got; `k` is the call that started it. -/
inductive Phase where
  | unstarted (raised running : Bool)
  /-- It waits for the signal, until `due` at the latest. -/
  | asleep (k : Nat) (due : Number)
  /-- Its wait is over, and its turn has not come yet. -/
  | woken (k : Nat) (pinged raised running : Bool)
  /-- The idle handler was called at `idle`, and waits to be finished. -/
  | held (k : Nat) (idle : Number) (raised : Bool)
  /-- The idle handler is done, and the task's turn has not come yet. -/
  | handled (k : Nat) (idle : Number) (raised : Bool) (outcome : Except Fault Unit)
  /-- It was stopped and has ended. -/
  | stopped (k : Nat) (raised : Bool)
  /-- It has ended after its idle handler. -/
  | ended (k : Nat) (idle : Number) (raised : Bool) (outcome : Except Fault Unit)

/-- The phase of a task, and the time. -/
structure Course where
  now : Number
  phase : Phase

variable {interval : Number} {handler : IdleHandler}

namespace Phase

/-- The run whose task is at a phase. -/
def toRun (interval : Number) (handler : IdleHandler) (now : Number) : Phase → WatchdogRun
  | unstarted raised running =>
    ⟨handler, ⟨interval, ⟨raised, []⟩, running⟩, ⟨now, [], []⟩, none, false, [], []⟩
  | asleep k due =>
    ⟨handler, ⟨interval, ⟨false, [()]⟩, true⟩, ⟨now, [⟨due, ()⟩], []⟩, some k, false, [], []⟩
  | woken k pinged raised running =>
    ⟨handler, ⟨interval, ⟨raised, []⟩, running⟩, ⟨now, [], [.woken pinged]⟩, some k, false, [], []⟩
  | held k idle raised =>
    ⟨handler, ⟨interval, ⟨raised, []⟩, false⟩, ⟨now, [], []⟩, some k, true, [(idle, false)], []⟩
  | handled k idle raised outcome =>
    ⟨handler, ⟨interval, ⟨raised, []⟩, false⟩, ⟨now, [], [.handled outcome]⟩, some k, false, [(idle, false)], []⟩
  | stopped k raised =>
    ⟨handler, ⟨interval, ⟨raised, []⟩, false⟩, ⟨now, [], []⟩, some k, false, [], [(k, .ok ())]⟩
  | ended k idle raised outcome =>
    ⟨handler, ⟨interval, ⟨raised, []⟩, false⟩, ⟨now, [], []⟩, some k, false, [(idle, false)], [(k, outcome)]⟩

/-- The phase after the watchdog was pinged or stopped. -/
def call : WatchdogCall → Phase → Phase
  | .ping, unstarted _ true => unstarted true true
  | .stop, unstarted _ true => unstarted true false
  | .ping, asleep k _ => woken k true true true
  | .stop, asleep k _ => woken k true true false
  | .ping, woken k pinged _ true => woken k pinged true true
  | .stop, woken k pinged _ true => woken k pinged true false
  | _, phase => phase

/-- The phase after a watchdog that runs, with its flag lowered, goes to sleep. -/
def sleep (interval now : Number) (k : Nat) : Phase := asleep k (now + (Agenda.delay interval : Number))

/-- The phase after the task was started. -/
def start (interval now : Number) (k : Nat) : Phase → Phase
  | unstarted false true => sleep interval now k
  | unstarted true true => woken k true true true
  | unstarted raised false => stopped k raised
  | phase => phase

/-- The phase after the idle handler was finished. -/
def finish (outcome : Except Fault Unit) : Phase → Phase
  | held k idle raised => handled k idle raised outcome
  | phase => phase

/-- The phase after what is ready took its turn. -/
def turn (interval : Number) (handler : IdleHandler) (now : Number) : Phase → Phase
  | woken k true _ true => sleep interval now k
  | woken k true _ false => stopped k false
  | woken k false raised true =>
    match handler.outcome with
    | some outcome => handled k now raised outcome
    | none => held k now raised
  | woken k false raised false => stopped k raised
  | handled k idle raised outcome => ended k idle raised outcome
  | phase => phase

end Phase

namespace Course

/-- The run of a course. -/
def toRun (interval : Number) (handler : IdleHandler) (c : Course) : WatchdogRun := c.phase.toRun interval handler c.now

/-- The course after a move. -/
def after (interval : Number) (handler : IdleHandler) (c : Course) : Move Act → Course
  | .act k .start => { c with phase := c.phase.start interval c.now k }
  | .act _ (.call call) => { c with phase := c.phase.call call }
  | .act _ (.finish outcome) => { c with phase := c.phase.finish outcome }
  | .turn => { c with phase := c.phase.turn interval handler c.now }
  | .fire limit =>
    match c.phase with
    | .asleep k due => if due.le limit then ⟨max c.now due, .woken k false false true⟩ else c
    | _ => c
  | .moveTo time => { c with now := max c.now time }

end Course

/-- A watchdog that does not run takes no notice of calls. -/
theorem call_of_stopped (c : WatchdogCall) {run : WatchdogRun} (stopped : run.watchdog.running = false) :
    run.call c = run := by
  cases c with
  | ping => simp [call, change, Watchdog.ping, stopped]
  | stop => simp [call, change, Watchdog.stop, stopped]

theorem calls_of_stopped (calls : List WatchdogCall) {run : WatchdogRun} (stopped : run.watchdog.running = false) :
    calls.foldl (fun run c => run.call c) run = run := by
  induction calls with
  | nil => rfl
  | cons c calls ih => rw [List.foldl_cons, call_of_stopped c stopped, ih]

/-- The idle handler is called when the watchdog has been stopped, so its own calls change nothing. -/
theorem callHandler_of_stopped {run : WatchdogRun} (stopped : run.watchdog.running = false) :
    run.callHandler = match run.handler.outcome with
      | some outcome => { run with idles := run.idles ++ [(run.agenda.now, false)] }.handled outcome
      | none => { run with idles := run.idles ++ [(run.agenda.now, false)], held := true } := by
  let idle := { run with idles := run.idles ++ [(run.agenda.now, false)] }
  have called : run.handler.calls.foldl (fun run c => run.call c) idle = idle := calls_of_stopped _ stopped
  cases ends : run.handler.outcome with
  | some outcome =>
    rw [callHandler, ends, stopped]
    exact congrArg (handled outcome) called
  | none =>
    rw [callHandler, ends, stopped]
    exact congrArg (fun run : WatchdogRun => { run with held := true }) called

namespace Phase

variable (phase : Phase) (now : Number)

theorem toRun_call (c : WatchdogCall) :
    (phase.toRun interval handler now).call c = (phase.call c).toRun interval handler now := by
  cases c <;> cases phase with
  | unstarted raised running => cases running <;> rfl
  | woken k pinged raised running => cases running <;> rfl
  | _ => rfl

theorem toRun_start (k : Nat) :
    ((phase.toRun interval handler now).act k .start).1 = (phase.start interval now k).toRun interval handler now := by
  cases phase with
  | unstarted raised running => cases raised <;> cases running <;> rfl
  | _ => rfl

theorem toRun_finish (k : Nat) (outcome : Except Fault Unit) :
    ((phase.toRun interval handler now).act k (.finish outcome)).1 = (phase.finish outcome).toRun interval handler now := by
  cases phase <;> rfl

theorem toRun_turn :
    Timed.turn (phase.toRun interval handler now) = (phase.turn interval handler now).toRun interval handler now := by
  cases phase with
  | woken k pinged raised running =>
    cases pinged <;> cases running
    · rfl
    · show callHandler ⟨handler, ⟨interval, ⟨raised, []⟩, false⟩, ⟨now, [], []⟩, some k, false, [], []⟩ = _
      rw [callHandler_of_stopped rfl]
      dsimp only [turn]
      cases handler.outcome <;> rfl
    · rfl
    · rfl
  | _ => rfl

end Phase

namespace Course

variable (c : Course)

/-- **A run goes from phase to phase.** -/
theorem toRun_after (m : Move Act) :
    Scripted.after (c.toRun interval handler) m = (c.after interval handler m).toRun interval handler := by
  obtain ⟨now, phase⟩ := c
  cases m with
  | act k a =>
    cases a with
    | start => exact phase.toRun_start now k
    | call call => exact phase.toRun_call now call
    | finish outcome => exact phase.toRun_finish now k outcome
  | turn => exact phase.toRun_turn now
  | fire limit =>
    cases phase with
    | asleep k due =>
      by_cases up : due.le limit = true
      · have fired : Timed.fire? limit (toRun interval handler ⟨now, .asleep k due⟩) =
            some (toRun interval handler ⟨max now due, .woken k false false true⟩) := if_pos up
        rw [Scripted.after, fired, Option.getD_some, after]
        dsimp only
        rw [if_pos up]
      · have stays : Timed.fire? limit (toRun interval handler ⟨now, .asleep k due⟩) = none := if_neg up
        rw [Scripted.after, stays, Option.getD_none, after]
        dsimp only
        rw [if_neg up]
    | _ => rfl
  | moveTo time => cases phase <;> rfl

/-- The course after moves. -/
def afterAll (interval : Number) (handler : IdleHandler) (c : Course) (moves : List (Move Act)) : Course :=
  moves.foldl (after interval handler) c

/-- The course of a watchdog that was not started. -/
def initial : Course := ⟨0, .unstarted false true⟩

theorem toRun_afterAll (moves : List (Move Act)) :
    Scripted.afterAll (c.toRun interval handler) moves = (c.afterAll interval handler moves).toRun interval handler := by
  induction moves generalizing c with
  | nil => rfl
  | cons m moves ih => rw [Scripted.afterAll_cons, toRun_after, ih, afterAll, afterAll, List.foldl_cons]

end Course

/-- Every run of a new watchdog is that of a course. -/
theorem afterAll_initial (moves : List (Move Act)) :
    afterAll (initial interval handler) moves =
      (Course.initial.afterAll interval handler moves).toRun interval handler :=
  Course.initial.toRun_afterAll moves

end Folio.WatchdogRun
