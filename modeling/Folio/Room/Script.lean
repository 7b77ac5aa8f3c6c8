/-
What is done in a room: the acts of a script, and what they return.
-/
import Folio.Config.Resolve
import Folio.Room.Turn
import Folio.Script

namespace Folio

/-- What the pages of a new paginator are made from. -/
inductive Source where
  | content (size : Number) (before after text : String)
  | entries (size : Number) (before after : String) (entries : List String)
  | pages (drafts : List PageDraft)

/-- The pages of a source. -/
def Source.toPages : Source → Except Fault (List Page)
  | content size before after text => Page.ofContent size before after text
  | entries size before after items => .ok (Page.ofEntries size before after items)
  | pages drafts => drafts.mapM Page.ofDraft

/-- The custom id that a press has: one that is given, or that of a control of a
paginator. -/
inductive Target where
  | id (customId : String)
  | control (paginator : Nat) (name : String)

/-- A press as a script gives it. -/
structure PressDraft where
  user : String
  target : Target
  values : List String

/-- What is done in a room. -/
inductive Room.Act where
  | create (source : Source) (config : Value) (callback : Option Callback)
  | setIndex (paginator : Nat) (index : Value)
  | setCallback (paginator : Nat) (callback : Option Callback)
  | splice (paginator : Nat) (start removed : Number) (pages : List PageDraft)
  | showPayload (paginator : Nat)
  | send (paginator : Nat) (via : Via) (origin : Origin)
  | stop (paginator : Nat)
  | update (paginator : Nat)
  /-- A paginator receives a press. -/
  | interact (paginator : Nat) (press : PressDraft)
  /-- The router receives a press. -/
  | dispatch (press : PressDraft)
  /-- An interaction comes in from the service. -/
  | emit (kind : ComponentKind) (press : PressDraft) (state : Interaction)
  /-- Shows the press that an interaction is. -/
  | wrap (kind : ComponentKind) (press : PressDraft)
  /-- Registers a handler with the router. -/
  | register (session : String) (names : List String) (name : String) (reaction : Reaction)
  /-- Unregisters a session with the router. -/
  | unregister (session : String)
  | has (customId : String)
  /-- Registers a session with the client. -/
  | clientRegister (session : String) (names : List String)
  /-- Unregisters a session with the client. -/
  | clientUnregister (session : String)
  | author (origin : Origin)
  /-- From now on calls of a name fail, or no longer do. -/
  | setFailure (call : String) (message : Option String)
  /-- From now on calls are held back, or no longer are. -/
  | setHolding (on : Bool)
  | release (position : Nat) (failure : Option String)

/-- What comes of an act. -/
inductive Room.Reply where
  | answer (a : Answer)
  | created (session : String) (pages : List Page) (config : Config)
  | count (n : Nat)
  | payload (p : Payload)
  | text (s : String)
  | press (p : Press)
  | nothingHeld

namespace Room

/-- What an act returns at once; `none` if it is up to the outcome of a call. -/
abbrev Returned := Option (Except Fault Reply)

/-- An answer at once. -/
def returned (a : Answer) : Returned := some (.ok (.answer a))

/-- Makes a paginator. Its number is taken even if that fails, and so is a
session id unless the pages are at fault. -/
def create (room : Room) (source : Source) (overrides : Value) (callback : Option Callback) :
    Room × Except Fault Reply :=
  let add (room : Room) (p : Option Paginator) : Room :=
    { room with paginators := room.paginators ++ [p] }
  match source.toPages with
  | .error fault => (add room none, .error fault)
  | .ok pages =>
    let room := { room with sessions := room.sessions + 1 }
    match Config.resolveValue room.environment overrides with
    | .error fault => (add room none, .error fault)
    | .ok config =>
      let session := room.ids.id room.sessions
      (add room (some (Paginator.create session pages config callback)),
        .ok (.created session pages config))

/-- The custom id of a target. -/
def customIdOf? (room : Room) : Target → Option String
  | .id customId => some customId
  | .control p name => (room.paginator? p).map fun pg => boundId pg.session name

/-- An act on a press, given its custom id. -/
def withPress (room : Room) (draft : PressDraft) (use : String → Room × Returned) : Room × Returned :=
  match room.customIdOf? draft.target with
  | some customId => use customId
  | none => (room, some (.error .missing))

/-- An act on a paginator, given what it is. -/
def withPaginator (room : Room) (p : Nat) (use : Paginator → Room × Returned) : Room × Returned :=
  match room.paginator? p with
  | some pg => use pg
  | none => (room, some (.error .missing))

/-- The act of step `k`, up to where it waits. -/
def act (k : Nat) (a : Act) (room : Room) : Room × Returned :=
  match a with
  | .create source config callback =>
    let (room, result) := room.create source config callback
    (room, some result)
  | .setIndex p index =>
    room.withPaginator p fun pg =>
      let pg := pg.turnTo (Number.ofValue index)
      (room.modifyPaginator p fun _ => pg, some (.ok (.count pg.index)))
  | .setCallback p callback =>
    room.withPaginator p fun _ =>
      (room.modifyPaginator p fun pg => { pg with callback }, returned .nothing)
  | .splice p start removed drafts =>
    room.withPaginator p fun pg =>
      match drafts.mapM Page.ofDraft with
      | .error fault => (room, some (.error fault))
      | .ok pages =>
        let (pg, count) := pg.splice start removed pages
        (room.modifyPaginator p fun _ => pg, some (.ok (.count count)))
  | .showPayload p =>
    room.withPaginator p fun pg =>
      (room.modifyPaginator p Paginator.clamp, some (pg.clamp.payload.map .payload))
  | .send p via origin => (room.send p via origin [.caller k (some p)], none)
  | .stop p => (room.stop p [.caller k none], none)
  | .update p => (room.update p [.caller k none], none)
  | .interact p draft =>
    room.withPress draft fun id =>
      (room.receive p ⟨draft.user, id, draft.values, none⟩ [.caller k none], none)
  | .dispatch draft =>
    room.withPress draft fun id =>
      (room.dispatch ⟨draft.user, id, draft.values, none⟩ [.caller k none], none)
  | .emit kind draft state =>
    if room.client = .service true then
      room.withPress draft fun id =>
        (room.emit k kind draft.user id draft.values state, some (.ok (.count 1)))
    else (room, some (.ok (.count 0)))
  | .wrap kind draft =>
    room.withPress draft fun id =>
      (room, some (.ok (.press (pressOf kind draft.user id draft.values (some k)))))
  | .register session names name reaction =>
    ({ room with router := room.router.register session names (.scripted name session reaction) },
      returned .nothing)
  | .unregister session =>
    ({ room with router := room.router.unregister session }, returned .nothing)
  | .has customId => (room, returned (.flag (room.router.has customId)))
  | .clientRegister session names => (room.register session names .silent, returned .nothing)
  | .clientUnregister session => (Room.unregister room session, returned .nothing)
  | .author origin =>
    (room, some (match room.authorOf? origin with
      | some user => .ok (.text user)
      | none => .error .missing))
  | .setFailure call message =>
    ({ room with failures := match message with
        | some message => room.failures.put call message
        | none => room.failures.erase call }, returned .nothing)
  | .setHolding on => ({ room with holding := on }, returned .nothing)
  | .release position failure =>
    match room.release position failure with
    | some room => (room, returned .nothing)
    | none => (room, some (.ok .nothingHeld))

instance : Scripted Room Act (Except Fault Reply) where
  act := act
  nothing := .ok (.answer .nothing)
  settled room := room.settled.map fun o => (o.1, o.2.map Reply.answer)

end Room

/-- The events in a step, the first of which shows what happened before it too. -/
def Shown.events {ω : Type} (shown : Shown Room ω) (isFirst : Bool) : List Event :=
  if isFirst then shown.after.journal else shown.after.journal.drop shown.before.journal.length

end Folio
