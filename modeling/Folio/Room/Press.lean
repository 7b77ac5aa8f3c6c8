/-
Presses: a user uses a control. The author of a paginator turns its pages,
anyone else is told off, and every press is acknowledged. A press that came in
from the service and failed is answered with an apology.
-/
import Folio.Room.Delivery

namespace Folio.Room

/-! ### Answers to a press -/

/-- Acknowledges a press without a visible change. -/
def acknowledge (room : Room) (press : Press) (frames : List Frame) : Room :=
  room.call (.acknowledge press.interaction)
    (if press.interaction.isSome then .yield .nothing :: frames else frames)

/-- Tells the user of a press something that nobody else sees. -/
def notify (room : Room) (press : Press) (text : String) (frames : List Frame) : Room :=
  room.call (.notify press.interaction text)
    (if press.interaction.isSome then .yield .nothing :: frames else frames)

/-- Answers a press with the current page of a paginator, and waits for that. If
there is no such page, what goes on is `failed`. -/
def replace (room : Room) (p : Nat) (press : Press) (failed frames : List Frame) : Room :=
  match room.paginator? p with
  | none => room.finish failed (.error .missing)
  | some pg =>
    let room := room.modifyPaginator p Paginator.clamp
    match pg.clamp.payload with
    | .error fault => room.finish failed (.error fault)
    | .ok payload =>
      let frames := .yield .nothing :: frames
      room.call (.replace press.interaction payload)
        (if press.interaction.isSome then .yield .nothing :: frames else frames)

/-! ### Paginators -/

/-- Runs the callback of a paginator. -/
def runCallback (room : Room) (p : Nat) (callback : Callback) (press : Press) (frames : List Frame) :
    Room :=
  let room := room.record (.callback press)
  match callback with
  | .give value => room.finish frames (.ok (.value value))
  | .fail message => room.finish frames (.error (.reported message))
  | .failLater message => room.finish (.pass :: .pass :: frames) (.error (.reported message))
  | .defer => room.acknowledge press (.yield (.value (.text "deferred")) :: .pass :: frames)
  | .stop => room.stop p (.yield (.value (.text "stopped")) :: .pass :: frames)
  | .update => room.update p (.yield (.value (.text "updated")) :: .pass :: frames)
  | .send origin => room.send p .send origin (.pass :: .pass :: frames)
  | .turnTo index =>
    (room.modifyPaginator p (·.turnTo index)).replace p press (.pass :: .pass :: frames)
      (.pass :: frames)

/-- A paginator receives a press. -/
def receive (room : Room) (p : Nat) (press : Press) (frames : List Frame) : Room :=
  match room.paginator? p with
  | none => room.finish frames (.error .missing)
  | some pg =>
    if pg.author ≠ some press.user then
      let room := room.log (.stranger pg.session press.user)
      if pg.config.wrongUserMessage = "" then room.acknowledge press (.pass :: frames)
      else room.notify press pg.config.wrongUserMessage (.pass :: frames)
    else if pg.status ≠ .active then room.acknowledge press (.pass :: frames)
    else
      let room := room.ping pg.watchdog
      let role : Option Role := (parseCustomId? press.customId).map (·.2)
      match role, pg.callback with
      | some .callback, some callback => room.runCallback p callback press frames
      | _, _ =>
        let (index, refused) := Paginator.pressed pg.pages.length pg.index role press.values
        let room := match refused with
          | some value => room.log (.badChoice pg.session value)
          | none => room
        (room.modifyPaginator p fun pg => { pg with index }).replace p press frames frames

/-! ### The router -/

/-- What the handlers of the script say. -/
def greeting (name : String) : String := "hello from " ++ name

/-- Runs a handler. -/
def runHandler (room : Room) (handler : Handler) (press : Press) (frames : List Frame) : Room :=
  match handler with
  | .paginator p => room.receive p press frames
  | .silent => room.finish frames (.ok .nothing)
  | .scripted name session reaction =>
    let room := room.record (.handler name press)
    match reaction with
    | .succeed => room.finish frames (.ok .nothing)
    | .fail => room.finish frames (.error (.reported (name ++ " failed")))
    | .defer => room.acknowledge press (.yield .nothing :: frames)
    | .deferAndFail => room.acknowledge press (.fail (.reported (name ++ " failed late")) :: frames)
    | .greet => room.notify press (greeting name) (.yield .nothing :: frames)
    | .unregister =>
      { room with router := room.router.unregister session }.finish frames (.ok .nothing)

/-- Routes a press to the handler of its custom id. A press of a control whose
session is gone is acknowledged all the same. -/
def dispatch (room : Room) (press : Press) (frames : List Frame) : Room :=
  match room.router.handler? press.customId with
  | some handler => room.runHandler handler press (.yield (.flag true) :: frames)
  | none =>
    if (parseCustomId? press.customId).isSome then
      room.acknowledge press (.yield (.flag false) :: frames)
    else room.finish frames (.ok (.flag false))

/-! ### Interactions from the service -/

/-- What a user is told when a press failed. -/
def apology : String := "Something went wrong. Try again."

/-- What kind of control an interaction comes from. -/
inductive ComponentKind where
  | button
  | menu
  | other
deriving DecidableEq, Repr

/-- The press that an interaction is; only a menu has values. -/
def pressOf (kind : ComponentKind) (user customId : String) (values : List String)
    (interaction : Option Nat) : Press :=
  ⟨user, customId, if kind = .menu then values else [], interaction⟩

/-- An interaction comes in from the service, in step `k`. Only uses of the controls
of some paginator are routed. -/
def emit (room : Room) (k : Nat) (kind : ComponentKind) (user customId : String) (values : List String)
    (state : Interaction) : Room :=
  if kind ≠ .other ∧ (parseCustomId? customId).isSome then
    let press := pressOf kind user customId values (some k)
    { room with interactions := room.interactions.put k state }.dispatch press [.guard press]
  else room

/-- A routed press failed: that is logged, and the user is told unless the
interaction was answered. -/
def apologize (room : Room) (press : Press) (fault : Fault) (frames : List Frame) : Room :=
  let room := room.log (.pressFailed press.customId press.user fault)
  match press.interaction.bind room.interactions.get? with
  | some i =>
    if i.replied || i.deferred then room.finish frames (.ok .nothing)
    else room.call (.notify press.interaction apology) (.notice press :: frames)
  | none => room.finish frames (.ok .nothing)

end Folio.Room
