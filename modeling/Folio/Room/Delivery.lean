/-
The life of a paginator: it is sent, any number of times, it is shown anew, and
it stops, when it is asked to or when its author has been idle. Stopping comes
first and disabling the controls on the message after it, so the message may
keep its controls when that fails.
-/
import Folio.Room.Basic

namespace Folio.Room

/-! ### Sending -/

/-- Sends in answer to a context: to a command by answering it, or by changing
the answer it has, and to a message by posting in its channel. -/
def sendTo (room : Room) (name : String) (payload : Payload) (frames : List Frame) : Room :=
  match room.contexts.get? name with
  | some (.command c) =>
    let (id, room) := match c.answer with
      | some id => (id, room)
      | none =>
        let (id, room) := room.takeId
        (id, room.modifyCommand name fun c => { c with answer := some id })
    if c.isFresh then room.call (.answer name id payload) (.fetch name id :: frames)
    else room.relay (.editAnswer name id payload) frames
  | some (.message _ channel sendable) =>
    if sendable then
      let (id, room) := room.takeId
      room.relay (.post id payload) frames
    else room.finish frames (.error (.closedChannel channel))
  | none => room.finish frames (.error .missing)

/-- Replies to a context: to a command with another answer if it has one. -/
def replyTo (room : Room) (name : String) (payload : Payload) (frames : List Frame) : Room :=
  match room.contexts.get? name with
  | some (.command c) =>
    if c.isFresh then room.sendTo name payload (.pass :: frames)
    else
      let (id, room) := room.takeId
      room.relay (.followUp name id payload) frames
  | some (.message ..) =>
    let (id, room) := room.takeId
    room.relay (.replyTo id payload) frames
  | none => room.finish frames (.error .missing)

/-- Delivers a payload to an origin. -/
def deliver (room : Room) (via : Via) (origin : Origin) (payload : Payload) (frames : List Frame) : Room :=
  match origin with
  | .user user =>
    let (id, room) := room.takeId
    room.call (.deliver via user id payload) frames
  | .context name =>
    match via with
    | .send => room.sendTo name payload frames
    | .reply => room.replyTo name payload frames

/-- The user that an origin stands for. -/
def authorOf? (room : Room) : Origin → Option String
  | .user user => some user
  | .context name => (room.contexts.get? name).map Context.user

/-- Sends a paginator, or replies with it. -/
def send (room : Room) (p : Nat) (via : Via) (origin : Origin) (frames : List Frame) : Room :=
  match room.paginator? p with
  | none => room.finish frames (.error .missing)
  | some pg =>
    if pg.status = .stopped then room.finish frames (.error .stopped)
    else if pg.pages.isEmpty then room.finish frames (.error .nothingToSend)
    else
      let room := room.modifyPaginator p Paginator.clamp
      match pg.clamp.payload with
      | .error fault => room.finish frames (.error fault)
      | .ok payload => room.deliver via origin payload (.deliver p origin :: frames)

/-- Starts the watchdog of a paginator whose author may be idle for so many
seconds; it may be idle forever if there are none. -/
def watchOver (room : Room) (p : Nat) (seconds : Rat) : Room :=
  if 0 < seconds then
    let w := room.watchers.length
    let interval := Number.scale (.finite seconds) 1000
    let (watchdog, agenda, _) := (Watchdog.fresh interval).watch .woken w room.agenda
    let room := { room with agenda, watchers := room.watchers ++ [Watcher.mk p watchdog] }
    room.modifyPaginator p fun pg => { pg with watchdog := some w }
  else room.modifyPaginator p fun pg => { pg with watchdog := none }

/-- A paginator goes live in a message that was delivered. -/
def goLive (room : Room) (p : Nat) (origin : Origin) (h : Handle) : Room :=
  match room.paginator? p with
  | none => room
  | some pg =>
    let room := room.modifyPaginator p fun pg =>
      { pg with message := some h, author := room.authorOf? origin, status := .active }
    let room :=
      if pg.registered then room
      else
        (room.register pg.session (Role.all.map Role.name) (.paginator p)).modifyPaginator p
          fun pg => { pg with registered := true }
    let seconds := pg.config.idleTimeoutSeconds
    ((room.callOff pg.watchdog).watchOver p seconds).log (.sent pg.session pg.pages.length seconds)

/-! ### Showing anew -/

/-- Changes a message. -/
def edit (room : Room) (h : Handle) (payload : Payload) (frames : List Frame) : Room :=
  room.call (.edit h.id payload) (if room.isService then .yield .nothing :: frames else frames)

/-- Shows the current page of a paginator in its message. -/
def update (room : Room) (p : Nat) (frames : List Frame) : Room :=
  match room.paginator? p with
  | none => room.finish frames (.error .missing)
  | some pg =>
    match pg.message with
    | none => room.finish frames (.error (.unsent "update"))
    | some h =>
      let room := room.modifyPaginator p Paginator.clamp
      match pg.clamp.payload with
      | .error fault => room.finish frames (.error fault)
      | .ok payload => room.edit h payload (.yield .nothing :: frames)

/-! ### Stopping -/

/-- A paginator is over: nobody watches it, the router forgets it, and its
controls in the message are disabled. -/
def shutDown (room : Room) (p : Nat) (h : Handle) (reason : StopReason) (frames : List Frame) : Room :=
  match room.paginator? p with
  | none => room.finish frames (.error .missing)
  | some pg =>
    let room := room.modifyPaginator p fun pg => { pg with status := .stopped }
    let room := (room.callOff pg.watchdog).unregister pg.session
    let room := room.modifyPaginator p fun pg => { pg with registered := false }
    let room := room.log (.stopped pg.session reason)
    match pg.offControls with
    | .error fault => room.finish frames (.error fault)
    | .ok payload => room.edit h payload (.yield .nothing :: frames)

/-- Stops a paginator; once it is stopped nothing more happens. -/
def stop (room : Room) (p : Nat) (frames : List Frame) : Room :=
  match room.paginator? p with
  | none => room.finish frames (.error .missing)
  | some pg =>
    match pg.message with
    | none => room.finish frames (.error (.unsent "stop"))
    | some h =>
      if pg.status = .stopped then room.finish frames (.ok .nothing)
      else room.shutDown p h .asked (.yield .nothing :: frames)

/-- The author of a paginator has been idle. That ends it, unless another
watchdog has taken over. -/
def expire (room : Room) (w : Nat) : Room :=
  match room.watchers[w]? with
  | none => room
  | some watcher =>
    match room.paginator? watcher.owner with
    | none => room
    | some pg =>
      match pg.message with
      | none => room
      | some h =>
        if pg.watchdog = some w ∧ pg.status = .active then
          (room.log (.idle pg.session)).shutDown watcher.owner h .timedOut
            [.yield .nothing, .yield .nothing, .expire watcher.owner]
        else room

/-- The wait of a watchdog is over. -/
def wake (room : Room) (w : Nat) (pinged : Bool) : Room :=
  match room.watchers[w]? with
  | none => room
  | some watcher =>
    let (watchdog, agenda, next) := watcher.watchdog.resume .woken w pinged room.agenda
    let room := { room with agenda, watchers := room.watchers.set w { watcher with watchdog } }
    match next with
    | .asleep | .ended => room
    | .idle => room.expire w

end Folio.Room
