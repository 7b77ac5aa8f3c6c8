/-
Dealings with the outside. Most of what an operation of a room does is to make a
call, to log, and to hand an outcome on: that leaves the paginators, the router,
the watchdogs with their timers, and the clock alone (`Room.inside`), and what can
be seen of it is what it adds to the journal. `Outward es a b` says that the way
from `a` to `b` is of this kind and that the events `es` happened on it.
-/
import Folio.Room.Script

namespace Folio

/-- Whether a task belongs to a watchdog. -/
def Task.isWoken : Task → Bool
  | .woken .. => true
  | .resume .. => false

/-- What a call shows. -/
def Call.payload? : Call → Option Payload
  | .deliver _ _ _ payload | .edit _ payload | .post _ payload | .replyTo _ payload | .answer _ _ payload
  | .editAnswer _ _ payload | .followUp _ _ payload | .replace _ payload => some payload
  | .fetchAnswer .. | .acknowledge _ | .notify .. => none

/-- The role that a press names. -/
def Press.role (press : Press) : Option Role := (parseCustomId? press.customId).map (·.2)

/-- What an event shows. -/
def Event.payload? : Event → Option Payload
  | .call c => c.payload?
  | _ => none

namespace Room

variable {a b c room : Room} {es es' : List Event} {frames : List Frame}

/-- The room without what concerns the outside alone. -/
def inside (room : Room) : Room :=
  { room with
    contexts := []
    interactions := []
    agenda := { room.agenda with ready := room.agenda.ready.filter Task.isWoken }
    held := []
    holding := false
    failures := []
    handles := 0
    journal := []
    settled := [] }

/-- From `a` to `b` only the outside was dealt with, and `es` happened. -/
structure Outward (es : List Event) (a b : Room) : Prop where
  inside : b.inside = a.inside
  journal : b.journal = a.journal ++ es

namespace Outward

theorem refl (room : Room) : Outward [] room room := ⟨rfl, (List.append_nil _).symm⟩

theorem trans (h : Outward es a b) (h' : Outward es' b c) : Outward (es ++ es') a c where
  inside := h'.inside.trans h.inside
  journal := by rw [h'.journal, h.journal, List.append_assoc]

/-- What happened before in silence makes no difference. -/
theorem after (h : Outward es b c) (h' : Outward [] a b) : Outward es a c := h'.trans h

/-- What happens after in silence makes no difference. -/
theorem andThen (h : Outward es a b) (h' : Outward [] b c) : Outward es a c := by
  have both := h.trans h'
  rwa [List.append_nil] at both

variable (h : Outward es a b)

include h

theorem paginators : b.paginators = a.paginators := by
  have same : b.inside.paginators = a.inside.paginators := by rw [h.inside]
  exact same

theorem paginator? (p : Nat) : b.paginator? p = a.paginator? p := by
  rw [Room.paginator?, h.paginators, Room.paginator?]

theorem watchers : b.watchers = a.watchers := by
  have same : b.inside.watchers = a.inside.watchers := by rw [h.inside]
  exact same

theorem router : b.router = a.router := by
  have same : b.inside.router = a.inside.router := by rw [h.inside]
  exact same

theorem now : b.agenda.now = a.agenda.now := by
  have same : b.inside.agenda.now = a.inside.agenda.now := by rw [h.inside]
  exact same

theorem timers : b.agenda.timers = a.agenda.timers := by
  have same : b.inside.agenda.timers = a.inside.agenda.timers := by rw [h.inside]
  exact same

theorem woken : b.agenda.ready.filter Task.isWoken = a.agenda.ready.filter Task.isWoken := by
  have same : b.inside.agenda.ready = a.inside.agenda.ready := by rw [h.inside]
  exact same

end Outward

/-! ## Calls -/

theorem record_outward (room : Room) (e : Event) : Outward [e] room (room.record e) := ⟨rfl, rfl⟩

theorem log_outward (room : Room) (line : LogLine) : Outward [.log line] room (room.log line) := ⟨rfl, rfl⟩

theorem takeId_outward (room : Room) : Outward [] room room.takeId.2 := ⟨rfl, (List.append_nil _).symm⟩

theorem modifyCommand_outward (room : Room) (name : String) (f : Command → Command) :
    Outward [] room (room.modifyCommand name f) := by
  rw [modifyCommand]
  split
  · exact ⟨rfl, (List.append_nil _).symm⟩
  · exact .refl room

theorem modifyInteraction_outward (room : Room) (i : Option Nat) (f : Interaction → Interaction) :
    Outward [] room (room.modifyInteraction i f) := by
  cases i with
  | none => exact .refl room
  | some i =>
    rw [modifyInteraction]
    split
    · exact ⟨rfl, (List.append_nil _).symm⟩
    · exact .refl room

theorem finish_outward (room : Room) (frames : List Frame) (outcome : Outcome) :
    Outward [] room (room.finish frames outcome) := by
  rw [finish]
  split
  · exact .refl room
  · refine ⟨?_, (List.append_nil _).symm⟩
    have woken : (room.agenda.ready ++ [Task.resume frames outcome]).filter Task.isWoken =
        room.agenda.ready.filter Task.isWoken := by simp [Task.isWoken]
    simp only [Room.inside, Agenda.enqueue, woken]

theorem succeed_outward (room : Room) (call : Call) (frames : List Frame) :
    Outward [] room (room.succeed call frames) := by
  cases call with
  | answer name _ _ | editAnswer name _ _ | followUp name _ _ =>
    exact (finish_outward _ frames _).after (room.modifyCommand_outward name _)
  | acknowledge i | notify i _ | replace i _ =>
    exact (finish_outward _ frames _).after (room.modifyInteraction_outward i _)
  | deliver _ _ _ _ | edit _ _ | post _ _ | replyTo _ _ | fetchAnswer _ _ => exact finish_outward room frames _

/-- A call is recorded, whatever comes of it. -/
theorem callWith_outward (room : Room) (call : Call) (atOnce later : List Frame) :
    Outward [.call call] room (room.callWith call atOnce later) := by
  have recorded := room.record_outward (.call call)
  rw [callWith]
  split
  · exact recorded.andThen (finish_outward _ atOnce _)
  · split
    · exact recorded.andThen ⟨rfl, (List.append_nil _).symm⟩
    · exact recorded.andThen (succeed_outward _ call atOnce)

theorem call_outward (room : Room) (call : Call) (frames : List Frame) :
    Outward [.call call] room (room.call call frames) := room.callWith_outward call _ _

theorem relay_outward (room : Room) (call : Call) (frames : List Frame) :
    Outward [.call call] room (room.relay call frames) := room.callWith_outward call _ _

/-! ## Frames that hand on -/

/-- Frames that hand an outcome on, some of them with an answer of their own in its place, and
what it has become after the last of them. -/
inductive HandsOn : List Frame → Outcome → Outcome → Prop where
  | done (outcome : Outcome) : HandsOn [] outcome outcome
  | pass {above : List Frame} {outcome outcome' : Outcome} (rest : HandsOn above outcome outcome') :
      HandsOn (.pass :: above) outcome outcome'
  | yield {above : List Frame} {outcome outcome' : Outcome} (a : Answer)
      (rest : HandsOn above (outcome.map fun _ => a) outcome') : HandsOn (.yield a :: above) outcome outcome'

theorem resume_yield (room : Room) (a : Answer) (frames : List Frame) (outcome : Outcome) :
    room.resume (.yield a) frames outcome = room.finish frames (outcome.map fun _ => a) := by
  cases outcome <;> rfl

/-- The first of them takes its turn, and the others hand on what is left. -/
theorem HandsOn.turn {f : Frame} {above : List Frame} {outcome outcome' : Outcome}
    (h : HandsOn (f :: above) outcome outcome') (room : Room) (frames : List Frame) :
    ∃ outcome₁, HandsOn above outcome₁ outcome' ∧
      room.resume f (above ++ frames) outcome = room.finish (above ++ frames) outcome₁ := by
  cases h with
  | pass rest => exact ⟨outcome, rest, rfl⟩
  | yield a rest => exact ⟨_, rest, room.resume_yield a (above ++ frames) outcome⟩

/-! ## Deliveries and edits -/

/-- Why a delivery fails before any call is made: its context is not there, or a message is
to be sent in a channel that takes none. -/
inductive Refuses (room : Room) : Via → Origin → Fault → Prop where
  | unknown {via : Via} {name : String} (missing : room.contexts.get? name = none) :
      Refuses room via (.context name) .missing
  | closed {name user channel : String} (context : room.contexts.get? name = some (.message user channel false)) :
      Refuses room .send (.context name) (.closedChannel channel)

/-- From `a` to `b` a payload was sent out to an origin, or it was refused before that. -/
inductive SendsOut (via : Via) (origin : Origin) (payload : Payload) (frames : List Frame) (a b : Room) : Prop where
  | out {call : Call} (shows : call.payload? = some payload) (outward : Outward [.call call] a b)
  | refused {fault : Fault} (refuses : a.Refuses via origin fault) (eq : b = a.finish frames (.error fault))

/-- A refusal goes unnoticed outside, and anything else shows the payload. -/
theorem SendsOut.outward {via : Via} {origin : Origin} {payload : Payload} (h : SendsOut via origin payload frames a b) :
    Outward [] a b ∨ ∃ call : Call, call.payload? = some payload ∧ Outward [.call call] a b := by
  cases h with
  | out shows outward => exact .inr ⟨_, shows, outward⟩
  | refused _ eq => exact .inl (eq ▸ a.finish_outward frames _)

/-- A command is answered, or its answer is changed. -/
theorem sendTo_command_outward {name : String} {c : Command} (context : room.contexts.get? name = some (.command c))
    (payload : Payload) (frames : List Frame) : ∃ call : Call, call.payload? = some payload ∧
      Outward [.call call] room (room.sendTo name payload frames) := by
  have call : ∀ (id : Nat) (r : Room), Outward [] room r → ∃ call : Call, call.payload? = some payload ∧
      Outward [.call call] room
        (if c.isFresh then r.call (.answer name id payload) (.fetch name id :: frames)
          else r.relay (.editAnswer name id payload) frames) := by
    intro id r h
    split
    · exact ⟨_, rfl, (r.call_outward _ _).after h⟩
    · exact ⟨_, rfl, (r.relay_outward _ _).after h⟩
  rw [sendTo, context]
  cases answer : c.answer with
  | some id =>
    simp only [answer]
    exact call _ _ (.refl room)
  | none =>
    simp only [answer]
    exact call _ _ ((modifyCommand_outward _ _ _).after room.takeId_outward)

theorem sendTo_sendsOut (room : Room) (name : String) (payload : Payload) (frames : List Frame) :
    SendsOut .send (.context name) payload frames room (room.sendTo name payload frames) := by
  cases context : room.contexts.get? name with
  | none =>
    refine .refused (.unknown context) ?_
    rw [sendTo, context]
  | some c =>
    cases c with
    | command c =>
      obtain ⟨call, shows, outward⟩ := sendTo_command_outward context payload frames
      exact .out shows outward
    | message user channel sendable =>
      rw [sendTo, context]
      cases sendable with
      | false => exact .refused (.closed context) rfl
      | true => exact .out rfl ((relay_outward _ _ _).after room.takeId_outward)

theorem replyTo_sendsOut (room : Room) (name : String) (payload : Payload) (frames : List Frame) :
    SendsOut .reply (.context name) payload frames room (room.replyTo name payload frames) := by
  cases context : room.contexts.get? name with
  | none =>
    refine .refused (.unknown context) ?_
    rw [replyTo, context]
  | some c =>
    rw [replyTo, context]
    cases c with
    | command c =>
      simp only
      split
      · obtain ⟨call, shows, outward⟩ := sendTo_command_outward context payload (.pass :: frames)
        exact .out shows outward
      · exact .out rfl ((relay_outward _ _ _).after room.takeId_outward)
    | message user channel sendable => exact .out rfl ((relay_outward _ _ _).after room.takeId_outward)

theorem deliver_sendsOut (room : Room) (via : Via) (origin : Origin) (payload : Payload) (frames : List Frame) :
    SendsOut via origin payload frames room (room.deliver via origin payload frames) := by
  cases origin with
  | user user => exact .out rfl ((call_outward _ _ _).after room.takeId_outward)
  | context name =>
    cases via with
    | send => exact room.sendTo_sendsOut name payload frames
    | reply => exact room.replyTo_sendsOut name payload frames

theorem edit_outward (room : Room) (h : Handle) (payload : Payload) (frames : List Frame) :
    Outward [.call (.edit h.id payload)] room (room.edit h payload frames) := room.call_outward _ _

/-! ## Answers to a press -/

theorem acknowledge_outward (room : Room) (press : Press) (frames : List Frame) :
    Outward [.call (.acknowledge press.interaction)] room (room.acknowledge press frames) := room.call_outward _ _

theorem notify_outward (room : Room) (press : Press) (text : String) (frames : List Frame) :
    Outward [.call (.notify press.interaction text)] room (room.notify press text frames) := room.call_outward _ _

/-- An apology is logged, and shows no page. -/
theorem apologize_outward (room : Room) (press : Press) (fault : Fault) (frames : List Frame) :
    ∃ es, Outward (.log (.pressFailed press.customId press.user fault) :: es) room
        (room.apologize press fault frames) ∧
      (es = [] ∨ es = [.call (.notify press.interaction apology)]) := by
  have logged := room.log_outward (.pressFailed press.customId press.user fault)
  rw [apologize]
  split
  · split
    · exact ⟨[], logged.andThen (finish_outward _ frames _), .inl rfl⟩
    · exact ⟨_, logged.trans (call_outward _ _ (.notice press :: frames)), .inr rfl⟩
  · exact ⟨[], logged.andThen (finish_outward _ frames _), .inl rfl⟩

end Room

end Folio
