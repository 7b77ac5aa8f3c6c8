/-
A room: a chat client with its router, the paginators that share it, and the
virtual time in which they live. Whatever waits for the chat service is a stack
of frames, each saying what remains to be done once the one above it is
finished; a call that is answered, and a frame that is finished, hands its
outcome on in a turn of its own.
-/
import Folio.Room.Event
import Folio.Router
import Folio.Session
import Folio.Watchdog

namespace Folio

/-- What an operation of a room yields. -/
inductive Answer where
  | nothing
  | flag (b : Bool)
  | value (v : Value)
  | message (h : Handle)
  /-- The message of a delivery, and whether the paginator holds it. -/
  | sent (h : Handle) (held : Bool)

/-- What an answered call yields. -/
def Call.answered : Call → Answer
  | .deliver via _ id _ => .message ⟨id, some via⟩
  | .post id _ | .replyTo id _ | .editAnswer _ id _ | .fetchAnswer _ id | .followUp _ id _ =>
    .message ⟨id, none⟩
  | _ => .nothing

/-- An outcome. -/
abbrev Outcome := Except Fault Answer

/-- What remains to be done. -/
inductive Frame where
  /-- Yields an answer of its own. -/
  | yield (a : Answer)
  /-- Yields what the frame above did. -/
  | pass
  /-- Fails, though the frame above did not. -/
  | fail (f : Fault)
  /-- Asks for the answer to a command that was just given. -/
  | fetch (command : String) (id : Nat)
  /-- Makes a paginator live in the message that was delivered. -/
  | deliver (paginator : Nat) (origin : Origin)
  /-- Logs that a paginator failed to expire. -/
  | expire (paginator : Nat)
  /-- Logs that a press failed, and tells the user. -/
  | guard (press : Press)
  /-- Logs that the user of a press could not be told. -/
  | notice (press : Press)
  /-- Settles the call of step `step`, which may be a delivery of a paginator. -/
  | caller (step : Nat) (paginator : Option Nat)

/-- What is ready to run in a room. -/
inductive Task where
  /-- The wait of a watchdog is over. -/
  | woken (watchdog : Nat) (pinged : Bool)
  /-- The frames go on with an outcome. -/
  | resume (frames : List Frame) (outcome : Outcome)

/-- A call that is not answered yet, and what goes on when it is. -/
structure HeldCall where
  call : Call
  frames : List Frame

/-- What a handler of the script does. -/
inductive Reaction where
  | succeed
  | fail
  /-- Acknowledges the press. -/
  | defer
  /-- Acknowledges the press and then fails. -/
  | deferAndFail
  /-- Greets the user. -/
  | greet
  /-- Unregisters its own session. -/
  | unregister
deriving DecidableEq, Repr

/-- What the router runs. -/
inductive Handler where
  | paginator (p : Nat)
  | scripted (name session : String) (reaction : Reaction)
  /-- Does nothing. -/
  | silent
deriving DecidableEq, Repr

/-- A command of a user, and how far it is answered. -/
structure Command where
  user : String
  deferred : Bool
  replied : Bool
  /-- The id of its answer, once that is known. -/
  answer : Option Nat
deriving DecidableEq, Repr

/-- Whether a command is still without any answer. -/
def Command.isFresh (c : Command) : Bool := !c.deferred && !c.replied

/-- What a message may be sent in answer to. -/
inductive Context where
  | message (user channel : String) (sendable : Bool)
  | command (c : Command)
deriving DecidableEq, Repr

/-- The user of a context. -/
def Context.user : Context → String
  | message user .. => user
  | command c => c.user

/-- How far an interaction is answered. -/
structure Interaction where
  replied : Bool
  deferred : Bool
deriving DecidableEq, Repr

/-- The client of a room. -/
inductive Client where
  /-- A client with two ways of delivery. -/
  | plain
  /-- A client of the service, which may listen for interactions. -/
  | service (listens : Bool)
deriving DecidableEq, Repr

/-- A watchdog, and the number of the paginator that it watches over. -/
structure Watcher where
  owner : Nat
  watchdog : Watchdog Nat

/-- A room. -/
structure Room where
  client : Client
  environment : Environment
  /-- Where the session ids come from. -/
  ids : SessionIds
  contexts : Table String Context
  /-- The interactions, by the step in which they came in. -/
  interactions : Table Nat Interaction
  agenda : Agenda Nat Task
  watchers : List Watcher
  /-- The paginators by number; one whose construction failed is missing. -/
  paginators : List (Option Paginator)
  router : Router Handler
  /-- The calls that wait for an answer, the oldest first. -/
  held : List HeldCall
  /-- Whether calls are held back. -/
  holding : Bool
  /-- The calls that fail, and with what message. -/
  failures : Table String String
  /-- The number of message ids that are taken. -/
  handles : Nat
  /-- The number of session ids that are taken. -/
  sessions : Nat
  /-- All that happened, in order. -/
  journal : List Event
  /-- The outcomes of the steps' calls, in the order in which they came. -/
  settled : List (Nat × Outcome)

namespace Room

/-- An empty room that draws its session ids from a supply. -/
def openedWith (ids : SessionIds) (client : Client) (environment : Environment)
    (contexts : Table String Context) : Room where
  client := client
  environment := environment
  ids := ids
  contexts := contexts
  interactions := []
  agenda := .initial
  watchers := []
  paginators := []
  router := .empty
  held := []
  holding := false
  failures := []
  handles := 0
  sessions := 0
  journal := if client = .service true then [.listening] else []
  settled := []

/-- An empty room whose session ids count. -/
def opened (client : Client) (environment : Environment) (contexts : Table String Context) : Room :=
  openedWith .numbered client environment contexts

/-- Whether the client is one of the service. -/
def isService (room : Room) : Bool := room.client ≠ .plain

/-- Notes an event. -/
def record (room : Room) (e : Event) : Room := { room with journal := room.journal ++ [e] }

/-- Logs a line. -/
def log (room : Room) (line : LogLine) : Room := room.record (.log line)

/-- Takes the next message id. -/
def takeId (room : Room) : Nat × Room := (room.handles + 1, { room with handles := room.handles + 1 })

/-! ### Parts -/

/-- A paginator by number. -/
def paginator? (room : Room) (p : Nat) : Option Paginator := (room.paginators[p]?).join

/-- Changes a paginator. -/
def modifyPaginator (room : Room) (p : Nat) (f : Paginator → Paginator) : Room :=
  { room with paginators := room.paginators.modify p (Option.map f) }

/-- Changes a command. -/
def modifyCommand (room : Room) (name : String) (f : Command → Command) : Room :=
  match room.contexts.get? name with
  | some (.command c) => { room with contexts := room.contexts.put name (.command (f c)) }
  | _ => room

/-- Changes an interaction. -/
def modifyInteraction (room : Room) (i : Option Nat) (f : Interaction → Interaction) : Room :=
  match i with
  | some i =>
    match room.interactions.get? i with
    | some state => { room with interactions := room.interactions.put i (f state) }
    | none => room
  | none => room

/-- Changes a watchdog together with the agenda. -/
def modifyWatchdog (room : Room) (w : Nat)
    (f : Watchdog Nat → Agenda Nat Task → Watchdog Nat × Agenda Nat Task) : Room :=
  match room.watchers[w]? with
  | some watcher =>
    let (watchdog, agenda) := f watcher.watchdog room.agenda
    { room with watchers := room.watchers.set w { watcher with watchdog }, agenda }
  | none => room

/-- A sign of life for the watchdog of a paginator, if it has one. -/
def ping (room : Room) : Option Nat → Room
  | some w => room.modifyWatchdog w (Watchdog.ping .woken)
  | none => room

/-- Stops the watchdog of a paginator, if it has one. -/
def callOff (room : Room) : Option Nat → Room
  | some w => room.modifyWatchdog w (Watchdog.stop .woken)
  | none => room

/-! ### Frames and calls -/

/-- The frames go on with an outcome, in a turn of their own. -/
def finish (room : Room) (frames : List Frame) (outcome : Outcome) : Room :=
  if frames.isEmpty then room
  else { room with agenda := room.agenda.enqueue (.resume frames outcome) }

/-- A call succeeds: the service marks what it answered. -/
def succeed (room : Room) (c : Call) (frames : List Frame) : Room :=
  let marked := match c with
    | .answer name .. | .editAnswer name .. | .followUp name .. =>
      room.modifyCommand name fun c => { c with replied := true }
    | .acknowledge i => room.modifyInteraction i fun i => { i with deferred := true }
    | .notify i _ | .replace i _ => room.modifyInteraction i fun i => { i with replied := true }
    | _ => room
  marked.finish frames (.ok c.answered)

/-- Makes a call. It fails if calls of its name do, it is held back if calls
are, and it succeeds otherwise. What goes on is `atOnce`, or `later` if it is
held back. -/
def callWith (room : Room) (c : Call) (atOnce later : List Frame) : Room :=
  let room := room.record (.call c)
  match room.failures.get? (c.name room.isService) with
  | some message => room.finish atOnce (.error (.reported message))
  | none =>
    if room.holding then { room with held := room.held ++ [⟨c, later⟩] }
    else room.succeed c atOnce

/-- Makes a call and waits for its answer, which takes a turn longer if it was
held back. -/
def call (room : Room) (c : Call) (frames : List Frame) : Room :=
  room.callWith c frames (.pass :: frames)

/-- Makes a call whose answer is the caller's own. Handing it on takes two turns,
and no more of them if it was held back. -/
def relay (room : Room) (c : Call) (frames : List Frame) : Room :=
  room.callWith c (.pass :: .pass :: frames) (.pass :: .pass :: frames)

/-- A held call is answered. -/
def release (room : Room) (position : Nat) (failure : Option String) : Option Room :=
  (room.held[position]?).map fun h =>
    let room := { room with held := room.held.eraseIdx position }
    match failure with
    | some message => room.finish h.frames (.error (.reported message))
    | none => room.succeed h.call h.frames

/-! ### Registration -/

/-- Registers a session with the client. -/
def register (room : Room) (session : String) (names : List String) (handler : Handler) : Room :=
  let room := { room with router := room.router.register session names handler }
  if room.isService then room else room.record (.registered session names)

/-- Unregisters a session with the client. -/
def unregister (room : Room) (session : String) : Room :=
  let room := { room with router := room.router.unregister session }
  if room.isService then room else room.record (.unregistered session)

end Room

end Folio
