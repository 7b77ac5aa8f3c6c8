/-
Turns of a room: a frame goes on with the outcome of the one above it.
-/
import Folio.Room.Press

namespace Folio.Room

/-- The outcome that the caller of a step sees. -/
def seen (room : Room) (paginator : Option Nat) : Outcome → Outcome
  | .ok (.message h) =>
    match paginator.bind room.paginator? with
    | some pg => .ok (.sent h (pg.message = some h))
    | none => .ok (.message h)
  | outcome => outcome

/-- The first frame goes on with an outcome, and the others after it. -/
def resume (room : Room) (frame : Frame) (frames : List Frame) (outcome : Outcome) : Room :=
  match frame, outcome with
  | .yield a, .ok _ => room.finish frames (.ok a)
  | .pass, outcome => room.finish frames outcome
  | .fail fault, .ok _ => room.finish frames (.error fault)
  | .fetch command id, .ok _ => room.relay (.fetchAnswer command id) frames
  | .deliver p origin, .ok (.message h) => (room.goLive p origin h).finish frames (.ok (.message h))
  | .deliver .., .ok a => room.finish frames (.ok a)
  | .expire p, .error fault =>
    match room.paginator? p with
    | some pg => (room.log (.expiryFailed pg.session fault)).finish frames (.ok .nothing)
    | none => room.finish frames (.ok .nothing)
  | .guard press, .error fault => room.apologize press fault frames
  | .notice _, .error fault => (room.log (.noticeFailed fault)).finish frames (.ok .nothing)
  | .expire _, .ok _ | .guard _, .ok _ | .notice _, .ok _ => room.finish frames (.ok .nothing)
  | .caller step paginator, outcome =>
    { room with settled := room.settled ++ [(step, room.seen paginator outcome)] }
  | .yield _, .error fault | .fail _, .error fault | .fetch .., .error fault
  | .deliver .., .error fault => room.finish frames (.error fault)

/-- A turn of a task. -/
def run (task : Task) (room : Room) : Room :=
  match task with
  | .woken w pinged => room.wake w pinged
  | .resume [] _ => room
  | .resume (frame :: frames) outcome => room.resume frame frames outcome

/-- A bound on the turns that tasks lead to. -/
def work : List Task → Nat
  | [] => 0
  | .woken .. :: tasks => 12 + work tasks
  | .resume frames _ :: tasks => 12 * (frames.length + 1) + work tasks

instance : Timed Room Nat Task where
  agenda := agenda
  withAgenda room agenda := { room with agenda }
  lapse w room := room.modifyWatchdog w (Watchdog.lapse .woken w)
  resume := run
  work room := Room.work room.agenda.ready

end Folio.Room
