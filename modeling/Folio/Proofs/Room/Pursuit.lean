/-
What the client and a command have to do with each other: deliveries are asked for, turns
are taken, and the calls that are made may fail, at once or after they were held back
(`Talk`). What is under way then is one call that waits for an answer, or one outcome that
is handed on (`Pursuing`), and it fits the delivery that was asked for.
-/
import Mathlib.Data.List.Forall2
import Folio.Proofs.Room.Contained
import Folio.Proofs.Room.Dispatching

namespace Folio

/-- What happens next between the client and a command. -/
inductive Talk where
  /-- The client is asked, in step `k`, to deliver a payload. -/
  | ask (k : Nat) (via : Via) (payload : Payload)
  /-- What has been ready longest takes its turn. -/
  | turn
  /-- From now on calls of a name fail, or no longer do. -/
  | setFailure (call : String) (message : Option String)
  /-- From now on calls are held back, or no longer are. -/
  | setHolding (on : Bool)
  /-- A call that was held back is answered. -/
  | release (position : Nat) (failure : Option String)

/-- Whether a delivery is asked for. -/
def Talk.isAsk : Talk → Bool
  | .ask .. => true
  | _ => false

/-- A delivery that was asked for: whether the command was without any answer then, and
how many message ids were taken. -/
structure Asked where
  step : Nat
  via : Via
  fresh : Bool
  taken : Nat

/-- The message that a delivery may return, given the command and the room later on: the one
answer of the command, or a message that was new when another one was asked for, and with
which the command was answered once more. -/
def Asked.Returns (a : Asked) (name : String) (c : Command) (room : Room) (id : Nat) : Prop :=
  id ≤ room.handles ∧
    if a.via = .send ∨ a.fresh = true then c.answer = some id
    else a.taken < id ∧ c.answer ≠ some id ∧ ∃ payload, .call (.followUp name id payload) ∈ room.journal

/-- Whether a call gives a command its first answer. -/
def Call.isFirst : Call → Bool
  | .answer .. => true
  | _ => false

/-- Whether a call that succeeds answers a command. -/
def Call.answersCommand (name : String) : Call → Bool
  | .answer n .. | .editAnswer n .. | .followUp n .. => n = name
  | _ => false

/-- Whether an event suits a command. A first answer is one to a command that has none, and
an answer is changed, or another one given, if it has one. -/
def Event.suits (name : String) (c : Command) : Event → Bool
  | .call (.answer n _ _) => n = name && c.isFresh
  | .call (.editAnswer n _ _) | .call (.followUp n _ _) => n = name && !c.isFresh
  | _ => true

/-- The command after a call that succeeded. -/
def Command.after (c : Command) (name : String) (call : Call) : Command :=
  if call.answersCommand name then { c with replied := true } else c

/-- How many first answers a command can still be given. -/
def Command.chances (c : Command) : Nat := if c.isFresh then 1 else 0

namespace Room

variable {name : String} {room : Room} {c : Command} {frames : List Frame} {k id : Nat}

/-- The room after that. -/
def talk (name : String) (room : Room) : Talk → Room
  | .ask k via payload => room.deliver via (.context name) payload [.caller k none]
  | .turn => room.after .turn
  | .setFailure call message => room.after (.act 0 (.setFailure call message))
  | .setHolding on => room.after (.act 0 (.setHolding on))
  | .release position failure => room.after (.act 0 (.release position failure))

/-- The room after all of that. -/
def talkAll (name : String) (room : Room) (talks : List Talk) : Room := talks.foldl (talk name) room

@[simp] theorem talkAll_nil (name : String) (room : Room) : room.talkAll name [] = room := rfl

@[simp] theorem talkAll_cons (name : String) (room : Room) (t : Talk) (talks : List Talk) :
    room.talkAll name (t :: talks) = (room.talk name t).talkAll name talks := rfl

/-- What is under way: the calls that are held back, and what is ready. -/
def underway (room : Room) : Hand := ⟨room.held, room.agenda.ready⟩

/-- Whether nothing is under way. -/
def isIdle (room : Room) : Bool := room.held.isEmpty && room.agenda.ready.isEmpty

/-- Whether each delivery is asked for when nothing else is under way. -/
def inTurn (name : String) (room : Room) : List Talk → Bool
  | [] => true
  | t :: talks => (!t.isAsk || room.isIdle) && (room.talk name t).inTurn name talks

/-- What was asked for. -/
def askedBy (room : Room) (name : String) : Talk → List Asked
  | .ask k via _ =>
    match room.contexts.get? name with
    | some (.command c) => [⟨k, via, c.isFresh, room.handles⟩]
    | _ => []
  | _ => []

/-- All that was asked for. -/
def asked (name : String) (room : Room) : List Talk → List Asked
  | [] => []
  | t :: talks => room.askedBy name t ++ (room.talk name t).asked name talks

/-- What can be seen. -/
def said (name : String) (room : Room) (t : Talk) : List Event := (room.talk name t).journal.drop room.journal.length

/-- The call that an event is, if it succeeds at once. -/
def granted? (room : Room) : Event → Option Call
  | .call c => if room.grants c then some c else none
  | _ => none

/-- The calls that succeed: those that succeed at once, and one that was held back if it is
answered so. -/
def succeedsBy (name : String) (room : Room) : Talk → List Call
  | .release position none => (room.held[position]?.map HeldCall.call).toList
  | t => (room.said name t).filterMap room.granted?

/-- All calls that succeed. -/
def succeeds (name : String) (room : Room) : List Talk → List Call
  | [] => []
  | t :: talks => room.succeedsBy name t ++ (room.talk name t).succeeds name talks

/-! ## Calls -/

/-- What a room knows of a command, and what is under way. -/
structure Sees (name : String) (c : Command) (hand : Hand) (room : Room) : Prop where
  command : room.contexts.get? name = some (.command c)
  underway : room.underway = hand

/-- From `a` to `b` some events happened, and nobody was told anything. -/
structure Untold (es : List Event) (a b : Room) : Prop where
  journal : b.journal = a.journal ++ es
  settled : b.settled = a.settled
  le : a.handles ≤ b.handles

namespace Untold

variable {a b c : Room} {es : List Event}

theorem refl (room : Room) : Untold [] room room := ⟨(List.append_nil _).symm, rfl, Nat.le_refl _⟩

/-- What happened before in silence makes no difference. -/
theorem after (h : Untold es b c) (h' : Untold [] a b) : Untold es a c where
  journal := by rw [h.journal, h'.journal, List.append_nil]
  settled := h.settled.trans h'.settled
  le := Nat.le_trans h'.le h.le

end Untold

theorem finish_untold (room : Room) (frames : List Frame) (outcome : Outcome) :
    Untold [] room (room.finish frames outcome) := by
  rw [finish]
  split
  · exact .refl room
  · exact ⟨(List.append_nil _).symm, rfl, Nat.le_refl _⟩

theorem modifyCommand_untold (room : Room) (n : String) (f : Command → Command) :
    Untold [] room (room.modifyCommand n f) := by
  rw [modifyCommand]
  split
  · exact ⟨(List.append_nil _).symm, rfl, Nat.le_refl _⟩
  · exact .refl room

theorem modifyInteraction_untold (room : Room) (i : Option Nat) (f : Interaction → Interaction) :
    Untold [] room (room.modifyInteraction i f) := by
  cases i with
  | none => exact .refl room
  | some i =>
    rw [modifyInteraction]
    split
    · exact ⟨(List.append_nil _).symm, rfl, Nat.le_refl _⟩
    · exact .refl room

theorem succeed_untold (room : Room) (call : Call) (frames : List Frame) : Untold [] room (room.succeed call frames) := by
  cases call with
  | answer n | editAnswer n | followUp n => exact (finish_untold _ frames _).after (room.modifyCommand_untold n _)
  | acknowledge i | notify i | replace i => exact (finish_untold _ frames _).after (room.modifyInteraction_untold i _)
  | deliver | edit | post | replyTo | fetchAnswer => exact room.finish_untold frames _

theorem callWith_untold (room : Room) (call : Call) (atOnce later : List Frame) :
    Untold [.call call] room (room.callWith call atOnce later) := by
  have recorded : Untold [.call call] room (room.record (.call call)) := ⟨rfl, rfl, Nat.le_refl _⟩
  have andThen : ∀ {r : Room}, Untold [] (room.record (.call call)) r → Untold [.call call] room r := fun h =>
    ⟨h.journal.trans (List.append_nil _), h.settled, h.le⟩
  rw [callWith]
  split
  · exact andThen (finish_untold _ atOnce _)
  split
  · exact ⟨rfl, rfl, Nat.le_refl _⟩
  · exact andThen (succeed_untold _ call atOnce)

theorem finish_sees {held : List HeldCall} {ready : List Task} (h : room.Sees name c ⟨held, ready⟩)
    (some : frames ≠ []) (outcome : Outcome) :
    (room.finish frames outcome).Sees name c ⟨held, ready ++ [.resume frames outcome]⟩ := by
  obtain ⟨command, underway⟩ := h
  obtain ⟨rfl, rfl⟩ := Hand.mk.inj underway
  have more : frames.isEmpty = false := by simpa using some
  rw [finish, more]
  exact ⟨command, rfl⟩

theorem modifyCommand_sees {hand : Hand} (h : room.Sees name c hand) (n : String) (f : Command → Command) :
    (room.modifyCommand n f).Sees name (if n = name then f c else c) hand := by
  rw [modifyCommand]
  by_cases same : n = name
  · rw [if_pos same, same, h.command]
    exact ⟨Table.get?_put_self _ _ _, h.underway⟩
  · rw [if_neg same]
    split
    · exact ⟨(Table.get?_put_other _ _ fun eq => same eq.symm).trans h.command, h.underway⟩
    · exact h

theorem modifyInteraction_sees {hand : Hand} (h : room.Sees name c hand) (i : Option Nat)
    (f : Interaction → Interaction) : (room.modifyInteraction i f).Sees name c hand := by
  cases i with
  | none => exact h
  | some i =>
    rw [modifyInteraction]
    split
    · exact ⟨h.command, h.underway⟩
    · exact h

theorem succeed_sees (h : room.Sees name c .none) (some : frames ≠ []) (call : Call) :
    (room.succeed call frames).Sees name (c.after name call) ⟨[], [.resume frames (.ok call.answered)]⟩ := by
  cases call with
  | answer n | editAnswer n | followUp n =>
    have marked := modifyCommand_sees h n fun c => { c with replied := true }
    simp only [Command.after, Call.answersCommand, decide_eq_true_eq]
    exact finish_sees marked some _
  | acknowledge i | notify i | replace i => exact finish_sees (modifyInteraction_sees h i _) some _
  | deliver | edit | post | replyTo | fetchAnswer => exact finish_sees h some _

/-- What comes of a call that is made while nothing is under way. -/
inductive Comes (name : String) (c : Command) (call : Call) (atOnce later : List Frame) (a b : Room) : Prop where
  | failed (fault : Fault) (grants : a.grants call = false)
    (sees : b.Sees name c ⟨[], [.resume atOnce (.error fault)]⟩)
  | waits (grants : a.grants call = false) (sees : b.Sees name c ⟨[⟨call, later⟩], []⟩)
  | succeeded (grants : a.grants call = true)
    (sees : b.Sees name (c.after name call) ⟨[], [.resume atOnce (.ok call.answered)]⟩)

theorem callWith_comes (h : room.Sees name c .none) (call : Call) {atOnce : List Frame} (some : atOnce ≠ [])
    (later : List Frame) : Comes name c call atOnce later room (room.callWith call atOnce later) := by
  have recorded : (room.record (.call call)).Sees name c .none := ⟨h.command, h.underway⟩
  cases failing : room.failures.get? (call.name room.isService) with
  | some message =>
    rw [callWith_of_failing failing]
    exact .failed _ (by rw [grants, failing]; rfl) (finish_sees recorded some _)
  | none =>
    cases holding : room.holding with
    | true =>
      have none : room.held = [] := congrArg Hand.held h.underway
      rw [callWith_of_holding failing holding, none]
      refine .waits (by rw [grants, holding, Bool.not_true, Bool.and_false]) ⟨h.command, ?_⟩
      exact congrArg (Hand.mk _) (congrArg Hand.ready h.underway)
    | false =>
      rw [callWith_of_works failing holding]
      exact .succeeded (by rw [grants, failing, holding]; rfl) (succeed_sees recorded some call)

/-! ## Pursuits -/

/-- The frames hand an outcome on to the caller of step `k`. -/
inductive Relays (k : Nat) : List Frame → Prop where
  | last : Relays k [.caller k none]
  | pass {frames : List Frame} (h : Relays k frames) : Relays k (.pass :: frames)

/-- The frames ask for the answer to a command, for the caller of step `k`. -/
inductive Fetches (name : String) (id k : Nat) : List Frame → Prop where
  | fetch {frames : List Frame} (h : Relays k frames) : Fetches name id k (.fetch name id :: frames)
  | pass {frames : List Frame} (h : Fetches name id k frames) : Fetches name id k (.pass :: frames)

/-- The frames hand a fault on to the caller of step `k`. -/
inductive Fails (k : Nat) : List Frame → Prop where
  | last : Fails k [.caller k none]
  | pass {frames : List Frame} (h : Fails k frames) : Fails k (.pass :: frames)
  | fetch {frames : List Frame} (name : String) (id : Nat) (h : Fails k frames) : Fails k (.fetch name id :: frames)

theorem Relays.fails (h : Relays k frames) : Fails k frames := by
  induction h with
  | last => exact .last
  | pass _ ih => exact ih.pass

theorem Fetches.fails (h : Fetches name id k frames) : Fails k frames := by
  induction h with
  | fetch h => exact .fetch _ _ h.fails
  | pass _ ih => exact ih.pass

theorem Fails.ne_nil (h : Fails k frames) : frames ≠ [] := by
  cases h <;> exact List.cons_ne_nil _ _

/-- A delivery is under way. While its first answer is, the command is without any. -/
inductive Pursuing (name : String) (a : Asked) (c : Command) (room : Room) : Hand → Prop where
  | answering {id : Nat} {payload : Payload} {frames : List Frame} (fresh : c.isFresh = true)
    (returns : a.Returns name c room id) (fetches : Fetches name id a.step frames) :
    Pursuing name a c room ⟨[⟨.answer name id payload, frames⟩], []⟩
  | answered {id : Nat} {answer : Answer} {frames : List Frame} (returns : a.Returns name c room id)
    (fetches : Fetches name id a.step frames) : Pursuing name a c room ⟨[], [.resume frames (.ok answer)]⟩
  | waiting {call : Call} {id : Nat} {frames : List Frame} (other : call.isFirst = false)
    (answered : call.answered = .message ⟨id, none⟩) (returns : a.Returns name c room id)
    (relays : Relays a.step frames) :
    Pursuing name a c room ⟨[⟨call, frames⟩], []⟩
  | due {id : Nat} {frames : List Frame} (returns : a.Returns name c room id) (relays : Relays a.step frames) :
    Pursuing name a c room ⟨[], [.resume frames (.ok (.message ⟨id, none⟩))]⟩
  | failed {frames : List Frame} (fails : Fails a.step frames) (fault : Fault) :
    Pursuing name a c room ⟨[], [.resume frames (.error fault)]⟩

/-- A delivery is under way, or none is. -/
inductive Talking (name : String) (c : Command) (room : Room) : Option Asked → Hand → Prop where
  | idle : Talking name c room none .none
  | pursuing {a : Asked} {hand : Hand} (h : Pursuing name a c room hand) : Talking name c room (some a) hand

/-- How far a conversation has come. -/
structure Abreast (name : String) (c : Command) (now : Option Asked) (room : Room) : Prop where
  command : room.contexts.get? name = some (.command c)
  talking : Talking name c room now room.underway
  known : ∀ id, c.answer = some id → id ≤ room.handles

/-- From `a` to `b` the answer of a command stays the same once it is known, and is a new
message when it gets known. -/
structure Grows (c : Command) (a : Room) (c' : Command) (b : Room) : Prop where
  le : a.handles ≤ b.handles
  seen : ∀ e ∈ a.journal, e ∈ b.journal
  kept : ∀ id, c.answer = some id → c'.answer = some id
  drawn : ∀ id, c'.answer = some id → c.answer = some id ∨ a.handles < id

/-- What the caller of a delivery was told: a message that it may return, or a fault. -/
def Told (name : String) (c : Command) (room : Room) (a : Asked) (o : Nat × Outcome) : Prop :=
  o.1 = a.step ∧ ∀ answer, o.2 = .ok answer → ∃ id, answer = .message ⟨id, none⟩ ∧ a.Returns name c room id

section

variable {a b d : Room} {c' c'' : Command} {asked : Asked}

theorem Grows.refl (c : Command) (room : Room) : Grows c room c room :=
  ⟨Nat.le_refl _, fun _ he => he, fun _ h => h, fun _ h => .inl h⟩

theorem Grows.trans (h : Grows c a c' b) (h' : Grows c' b c'' d) : Grows c a c'' d where
  le := Nat.le_trans h.le h'.le
  seen e he := h'.seen e (h.seen e he)
  kept id known := h'.kept id (h.kept id known)
  drawn id known := by
    rcases h'.drawn id known with known | new
    · exact h.drawn id known
    · exact .inr (Nat.lt_of_le_of_lt h.le new)

/-- The answer stays what it is. -/
theorem Untold.grows {es : List Event} (h : Untold es a b) (same : c'.answer = c.answer) : Grows c a c' b where
  le := h.le
  seen e he := by rw [h.journal]; exact List.mem_append_left es he
  kept _ known := same.trans known
  drawn _ known := .inl (same.symm.trans known)

/-- A message that may be returned may be returned later. -/
theorem Grows.returns (grows : Grows c a c' b) (h : asked.Returns name c a id) : asked.Returns name c' b id := by
  obtain ⟨le, returns⟩ := h
  refine ⟨Nat.le_trans le grows.le, ?_⟩
  split at returns
  next own =>
    rw [if_pos own]
    exact grows.kept id returns
  next other =>
    obtain ⟨new, apart, payload, seen⟩ := returns
    rw [if_neg other]
    refine ⟨new, fun known => ?_, payload, grows.seen _ seen⟩
    rcases grows.drawn id known with known | new
    · exact apart known
    · exact absurd le (Nat.not_le.2 new)

theorem Told.grows {o : Nat × Outcome} (h : Told name c a asked o) (grows : Grows c a c' b) : Told name c' b asked o := by
  obtain ⟨step, returns⟩ := h
  refine ⟨step, fun answer succeeded => ?_⟩
  obtain ⟨id, message, returns⟩ := returns answer succeeded
  exact ⟨id, message, grows.returns returns⟩

/-- What is under way stays so. -/
theorem Talking.grows {now : Option Asked} {hand : Hand} (h : Talking name c a now hand) (grows : Grows c a c b) :
    Talking name c b now hand := by
  cases h with
  | idle => exact .idle
  | pursuing pursuing =>
    refine .pursuing ?_
    cases pursuing with
    | answering fresh returns fetches => exact .answering fresh (grows.returns returns) fetches
    | answered returns fetches => exact .answered (grows.returns returns) fetches
    | waiting other answered returns relays => exact .waiting other answered (grows.returns returns) relays
    | due returns relays => exact .due (grows.returns returns) relays
    | failed fails fault => exact .failed fails fault

end

/-- From `a` to `b` a conversation went on: this was asked for, and these calls succeeded. -/
structure Progress (name : String) (a : Room) (c : Command) (now : Option Asked) (asks : List Asked) (calls : List Call)
    (b : Room) (c' : Command) (now' : Option Asked) : Prop where
  abreast : b.Abreast name c' now'
  grows : Grows c a c' b
  once : calls.countP Call.isFirst + c'.chances ≤ c.chances
  told : ∃ asks' outcomes, b.settled = a.settled ++ outcomes ∧ now.toList ++ asks = asks' ++ now'.toList ∧
    List.Forall₂ (Told name c' b) asks' outcomes

namespace Progress

variable {a b d : Room} {c' c'' : Command} {now now' now'' : Option Asked} {asks asks' : List Asked}
  {calls calls' : List Call}

theorem refl (h : room.Abreast name c now) : Progress name room c now [] [] room c now where
  abreast := h
  grows := .refl c _
  once := by simp
  told := ⟨[], [], (List.append_nil _).symm, List.append_nil _, .nil⟩

theorem trans (h : Progress name a c now asks calls b c' now') (h' : Progress name b c' now' asks' calls' d c'' now'') :
    Progress name a c now (asks ++ asks') (calls ++ calls') d c'' now'' where
  abreast := h'.abreast
  grows := h.grows.trans h'.grows
  once := by
    have first := h.once
    have second := h'.once
    rw [List.countP_append]
    omega
  told := by
    obtain ⟨ended, outcomes, settled, all, told⟩ := h.told
    obtain ⟨ended', outcomes', settled', all', told'⟩ := h'.told
    refine ⟨ended ++ ended', outcomes ++ outcomes', ?_, ?_, ?_⟩
    · rw [settled', settled, List.append_assoc]
    · rw [← List.append_assoc, all, List.append_assoc, all', List.append_assoc]
    · exact List.rel_append (told.imp fun _ _ told => told.grows h'.grows) told'

end Progress

end Room

end Folio
