/-
Conversations with a command. The client is asked for deliveries to a command, one after
the other, and any of the calls that it makes may fail. Whether the command was answered
decides which call is made, and a call that succeeds decides that: so each step shows what
is under way next together with how far the command is answered (`Goes`).

The first answer is tried only while there is none, and if it succeeds there is one from
then on. So the chance for it is used up (`Command.chances`), whatever comes of the
message that is fetched next.
-/
import Folio.Proofs.Room.Pursuit

namespace Folio.Room

variable {name : String} {room : Room} {c : Command} {frames : List Frame} {k id : Nat}

/-- What comes of something that happens: the conversation goes on, and what can be seen of
it suits the command. -/
def Goes (name : String) (c : Command) (now : Option Asked) (room : Room) (t : Talk) : Prop :=
  (∀ e ∈ room.said name t, e.suits name c = true) ∧
    ∃ c' now', Progress name room c now (room.askedBy name t) (room.succeedsBy name t) (room.talk name t) c' now'

/-! ## Chances -/

theorem answer_after (c : Command) (name : String) (call : Call) : (c.after name call).answer = c.answer := by
  rw [Command.after]
  split <;> rfl

theorem chances_after_le (c : Command) (name : String) (call : Call) : (c.after name call).chances ≤ c.chances := by
  rw [Command.after]
  split
  · simp [Command.chances, Command.isFresh]
  · exact Nat.le_refl _

/-- A call that suits a command uses the chance up if it is a first answer. -/
theorem first_add_chances {call : Call} (suits : Event.suits name c (.call call) = true) :
    [call].countP Call.isFirst + (c.after name call).chances ≤ c.chances := by
  cases call with
  | answer n id payload =>
    obtain ⟨its, fresh⟩ := (Bool.and_eq_true_iff.1 suits : decide (n = name) = true ∧ c.isFresh = true)
    have replied : c.after name (.answer n id payload) = { c with replied := true } := if_pos its
    have used : (c.after name (.answer n id payload)).chances = 0 := by simp [replied, Command.chances, Command.isFresh]
    rw [used, Command.chances, if_pos fresh]
    exact Nat.le_refl 1
  | _ => exact Nat.le_trans (Nat.le_of_eq (Nat.zero_add _)) (chances_after_le c name _)

/-! ## Steps -/

section

variable {r : Room} {t : Talk} {now : Option Asked} {a : Asked} {c' c₁ : Command} {es : List Event}

/-- Which calls succeed, unless one that was held back does. -/
theorem succeedsBy_of_said (other : ∀ position, t ≠ .release position none) (said : room.said name t = es) :
    room.succeedsBy name t = es.filterMap room.granted? := by
  rw [succeedsBy, said]
  exact other

theorem said_of_journal (journal : (room.talk name t).journal = room.journal ++ es) : room.said name t = es := by
  rw [said, journal, List.drop_left]

/-- Something happens, and nobody is told anything. -/
theorem goes_untold {now' : Option Asked} {hand : Hand} (untold : Untold es room (room.talk name t))
    (suits : ∀ e ∈ es, e.suits name c = true) (sees : (room.talk name t).Sees name c' hand)
    (talking : Talking name c' (room.talk name t) now' hand) (asks : now.toList ++ room.askedBy name t = now'.toList)
    (grows : Grows c room c' (room.talk name t)) (known : ∀ id, c'.answer = some id → id ≤ (room.talk name t).handles)
    (once : (room.succeedsBy name t).countP Call.isFirst + c'.chances ≤ c.chances) : Goes name c now room t := by
  refine ⟨fun e he => suits e (said_of_journal untold.journal ▸ he), c', now', ?_, grows, once, ?_⟩
  · exact ⟨sees.command, sees.underway ▸ talking, known⟩
  · exact ⟨[], [], untold.settled.trans (List.append_nil _).symm, asks, .nil⟩

/-- Nothing can be seen, and what is under way goes on. -/
theorem goes_silently {hand : Hand} (h : room.Abreast name c now) (untold : Untold [] room (room.talk name t))
    (sees : (room.talk name t).Sees name c hand)
    (other : ∀ position, t = .release position none → room.held[position]? = none)
    (asks : room.askedBy name t = []) (talking : Talking name c room now hand) : Goes name c now room t := by
  have grows : Grows c room c (room.talk name t) := untold.grows rfl
  have calls : room.succeedsBy name t = [] := by
    by_cases release : ∃ position, t = .release position none
    · obtain ⟨position, rfl⟩ := release
      rw [succeedsBy, other position rfl]
      rfl
    · exact succeedsBy_of_said (fun position its => release ⟨position, its⟩) (said_of_journal untold.journal)
  refine goes_untold untold (by simp) sees (talking.grows grows) ?_ grows ?_ ?_
  · rw [asks, List.append_nil]
  · exact fun id its => Nat.le_trans (h.known id its) untold.le
  · rw [calls]
    exact Nat.le_of_eq (Nat.zero_add _)

/-- All that matters is whether the command is without any answer. -/
theorem suits_congr (fresh : c₁.isFresh = c.isFresh) (e : Event) : e.suits name c₁ = e.suits name c := by
  cases e with
  | call call => cases call <;> simp only [Event.suits, fresh]
  | _ => rfl

/-- Nothing can be seen yet, but a call can be made in `r`, where more may be known of the
command than in `room`. -/
structure Readied (room : Room) (name : String) (c c₁ : Command) (r : Room) : Prop where
  untold : Untold [] room r
  grants : ∀ call, r.grants call = room.grants call
  sees : r.Sees name c₁ .none
  grows : Grows c room c₁ r
  fresh : c₁.isFresh = c.isFresh
  known : ∀ id, c₁.answer = some id → id ≤ r.handles

/-- A call is made, for a delivery that is under way or begins. -/
theorem goes_by_call {call : Call} {atOnce later : List Frame} (readied : Readied room name c c₁ r)
    (suits : Event.suits name c (.call call) = true) (talked : room.talk name t = r.callWith call atOnce later)
    (other : ∀ position, t ≠ .release position none) (asks : now.toList ++ room.askedBy name t = [a])
    (returns : a.Returns name c₁ (r.record (.call call)) id) (failed : Fails a.step atOnce)
    (waits : ∀ {b}, a.Returns name c₁ b id → Pursuing name a c₁ b ⟨[⟨call, later⟩], []⟩)
    (succeeded : ∀ {c' b}, a.Returns name c' b id →
      Pursuing name a c' b ⟨[], [.resume atOnce (.ok call.answered)]⟩) : Goes name c now room t := by
  obtain ⟨before, grants, sees, grows, fresh, known⟩ := readied
  have untold : Untold [.call call] r (room.talk name t) := talked ▸ r.callWith_untold call atOnce later
  have whole : Untold [.call call] room (room.talk name t) := untold.after before
  have recorded : Untold [] (r.record (.call call)) (room.talk name t) :=
    ⟨untold.journal.trans (List.append_nil _).symm, untold.settled, untold.le⟩
  have first := first_add_chances (c := c₁) (suits_congr fresh _ ▸ suits)
  have same : c₁.chances = c.chances := by rw [Command.chances, Command.chances, fresh]
  rw [same] at first
  -- What is left to show is how far the command is answered, and what is under way.
  have goes : ∀ {calls : List Call} {c' : Command} {hand : Hand}, room.succeedsBy name t = calls →
      calls.countP Call.isFirst + c'.chances ≤ c.chances → c'.answer = c₁.answer →
      (room.talk name t).Sees name c' hand → Pursuing name a c' (room.talk name t) hand →
      Goes name c now room t := by
    intro calls c' hand succeeds once answer sees pursuing
    refine goes_untold whole ?_ sees (.pursuing pursuing) asks (grows.trans (untold.grows answer)) ?_ (succeeds ▸ once)
    · simpa using suits
    · exact fun id its => Nat.le_trans (known id (answer ▸ its)) untold.le
  have succeeds : room.succeedsBy name t = if r.grants call then [call] else [] := by
    rw [succeedsBy_of_said other (said_of_journal whole.journal), grants]
    simp only [List.filterMap_cons, List.filterMap_nil, granted?]
    cases room.grants call <;> rfl
  have none : [].countP Call.isFirst + c₁.chances ≤ c.chances := by rw [same]; exact Nat.le_of_eq (Nat.zero_add _)
  cases callWith_comes sees call failed.ne_nil later with
  | failed fault fails sees =>
    rw [fails] at succeeds
    exact goes succeeds none rfl (talked ▸ sees) (.failed failed fault)
  | waits fails sees =>
    rw [fails] at succeeds
    exact goes succeeds none rfl (talked ▸ sees) (waits ((recorded.grows rfl).returns returns))
  | succeeded works sees =>
    rw [works] at succeeds
    have answer := answer_after c₁ name call
    exact goes succeeds first answer (talked ▸ sees) (succeeded ((recorded.grows answer).returns returns))

/-- Nothing happens. -/
theorem goes_nowhere (h : room.Abreast name c now) (same : room.talk name t = room) (asks : room.askedBy name t = [])
    (other : ∀ position, t = .release position none → room.held[position]? = none) : Goes name c now room t := by
  have silent : Untold [] room (room.talk name t) := by
    rw [same]
    exact .refl room
  exact goes_silently h silent (same.symm ▸ ⟨h.command, rfl⟩) other asks h.talking

/-! ### Turns -/

variable {frame : Frame} {outcome outcome' : Outcome}

theorem popped_untold (room : Room) : Untold [] room (room.popped []) := ⟨(List.append_nil _).symm, rfl, Nat.le_refl _⟩

theorem popped_sees (h : room.Abreast name c now)
    (underway : room.underway = ⟨[], [.resume (frame :: frames) outcome]⟩) :
    room.talk name .turn = (room.popped []).resume frame frames outcome ∧ (room.popped []).Sees name c .none := by
  have ready : room.agenda.ready = [.resume (frame :: frames) outcome] := congrArg Hand.ready underway
  exact ⟨after_turn ready, h.command, congrArg (Hand.mk · []) (congrArg Hand.held underway)⟩

/-- An outcome is handed on. -/
theorem goes_on (h : room.Abreast name c (some a)) (underway : room.underway = ⟨[], [.resume (frame :: frames) outcome]⟩)
    (resumed : ∀ r : Room, r.resume frame frames outcome = r.finish frames outcome') (more : frames ≠ [])
    (pursuing : Pursuing name a c room ⟨[], [.resume frames outcome']⟩) : Goes name c (some a) room .turn := by
  obtain ⟨turned, sees⟩ := popped_sees h underway
  rw [resumed] at turned
  have untold : Untold [] room (room.talk name .turn) :=
    turned ▸ (finish_untold _ frames outcome').after room.popped_untold
  exact goes_silently h untold (turned ▸ finish_sees sees more outcome') (by simp) rfl (.pursuing pursuing)

/-- The caller of a delivery is told what came of it. -/
theorem goes_told (h : room.Abreast name c (some a))
    (underway : room.underway = ⟨[], [.resume [.caller a.step none] outcome]⟩)
    (returns : ∀ answer, outcome = .ok answer → ∃ id, answer = .message ⟨id, none⟩ ∧ a.Returns name c room id) :
    Goes name c (some a) room .turn := by
  obtain ⟨turned, sees⟩ := popped_sees h underway
  rw [resume, seen_none] at turned
  have said : room.said name .turn = [] := said_of_journal (by rw [turned]; exact (List.append_nil _).symm)
  have grows : Grows c room c (room.talk name .turn) := by
    rw [turned]
    exact ⟨Nat.le_refl _, fun _ he => he, fun _ its => its, fun _ its => .inl its⟩
  have abreast : (room.talk name .turn).Abreast name c none := by
    rw [turned]
    exact ⟨sees.command, sees.underway ▸ .idle, h.known⟩
  have told : Told name c room a (a.step, outcome) := ⟨rfl, returns⟩
  refine ⟨by simp [said], c, none, abreast, grows, ?_, [a], [(a.step, outcome)], ?_, rfl, .cons (told.grows grows) .nil⟩
  · rw [succeedsBy_of_said (by simp) said]
    exact Nat.le_of_eq (Nat.zero_add _)
  · rw [turned]
    rfl

/-- The answer to a command is asked for once it was given. -/
theorem goes_to_fetch {answer : Answer} (h : room.Abreast name c (some a)) (returns : a.Returns name c room id)
    (underway : room.underway = ⟨[], [.resume (.fetch name id :: frames) (.ok answer)]⟩)
    (relays : Relays a.step frames) : Goes name c (some a) room .turn := by
  obtain ⟨turned, sees⟩ := popped_sees h underway
  let r : Room := room.popped []
  have fetched : room.talk name .turn =
      r.callWith (.fetchAnswer name id) (.pass :: .pass :: frames) (.pass :: .pass :: frames) := turned
  have recorded : Untold [.call (.fetchAnswer name id)] room (r.record (.call (.fetchAnswer name id))) :=
    ⟨rfl, rfl, Nat.le_refl _⟩
  have readied : Readied room name c c r :=
    ⟨room.popped_untold, fun _ => rfl, sees, room.popped_untold.grows rfl, rfl, h.known⟩
  exact goes_by_call readied rfl fetched (by simp) rfl ((recorded.grows rfl).returns returns) relays.fails.pass.pass
    (fun returns => .waiting rfl rfl returns relays.pass.pass) (fun returns => .due returns relays.pass.pass)

theorem goes_turn (h : room.Abreast name c now) : Goes name c now room .turn := by
  have talking := h.talking
  generalize underway : room.underway = hand at talking
  have idle : hand.ready = [] → Goes name c now room .turn := fun none =>
    goes_nowhere h (after_turn_nil ((congrArg Hand.ready underway).trans none)) rfl (by simp)
  cases talking with
  | idle => exact idle rfl
  | pursuing pursuing =>
    cases pursuing with
    | answering | waiting => exact idle rfl
    | answered returns fetches =>
      cases fetches with
      | fetch relays => exact goes_to_fetch h returns underway relays
      | pass fetches => exact goes_on h underway (fun _ => rfl) fetches.fails.ne_nil (.answered returns fetches)
    | due returns relays =>
      cases relays with
      | last => exact goes_told h underway fun answer its => ⟨_, (Except.ok.inj its).symm, returns⟩
      | pass relays => exact goes_on h underway (fun _ => rfl) relays.fails.ne_nil (.due returns relays)
    | failed fails fault =>
      cases fails with
      | last => exact goes_told h underway fun answer its => nomatch its
      | pass fails => exact goes_on h underway (fun _ => rfl) fails.ne_nil (.failed fails fault)
      | fetch n id fails => exact goes_on h underway (fun _ => rfl) fails.ne_nil (.failed fails fault)

/-! ### Answers to calls that were held back -/

/-- A call that was held back fails, or succeeds. -/
theorem goes_answered {call : Call} (h : room.Abreast name c (some a))
    (underway : room.underway = ⟨[⟨call, frames⟩], []⟩) (fails : Fails a.step frames)
    (once : [call].countP Call.isFirst + (c.after name call).chances ≤ c.chances)
    (succeeded : Pursuing name a (c.after name call) room ⟨[], [.resume frames (.ok call.answered)]⟩)
    (failure : Option String) : Goes name c (some a) room (.release 0 failure) := by
  have held : room.held = [⟨call, frames⟩] := congrArg Hand.held underway
  let r : Room := { room with held := [] }
  have sees : r.Sees name c .none := ⟨h.command, congrArg (Hand.mk []) (congrArg Hand.ready underway)⟩
  have silent : Untold [] room r := ⟨(List.append_nil _).symm, rfl, Nat.le_refl _⟩
  cases failure with
  | some message =>
    have talked : room.talk name (.release 0 (some message)) = r.finish frames (.error (.reported message)) :=
      after_release (by rw [release, held]; rfl)
    have untold : Untold [] room (room.talk name (.release 0 (some message))) :=
      talked ▸ (finish_untold r frames _).after silent
    exact goes_silently h untold (talked ▸ finish_sees sees fails.ne_nil _) (by simp) rfl (.pursuing (.failed fails _))
  | none =>
    have talked : room.talk name (.release 0 none) = r.succeed call frames :=
      after_release (by rw [release, held]; rfl)
    have untold : Untold [] room (room.talk name (.release 0 none)) := talked ▸ (succeed_untold r call frames).after silent
    have succeeds : room.succeedsBy name (.release 0 none) = [call] := by rw [succeedsBy, held]; rfl
    have answer := answer_after c name call
    have talking : Talking name (c.after name call) (room.talk name (.release 0 none)) (some a) _ :=
      Talking.grows (.pursuing succeeded) (untold.grows rfl)
    exact goes_untold untold (by simp) (talked ▸ succeed_sees sees fails.ne_nil call) talking rfl (untold.grows answer)
      (fun id its => Nat.le_trans (h.known id (answer.symm.trans its)) untold.le) (succeeds ▸ once)

theorem goes_release (h : room.Abreast name c now) (position : Nat) (failure : Option String) :
    Goes name c now room (.release position failure) := by
  have talking := h.talking
  generalize underway : room.underway = hand at talking
  have idle : hand.held[position]? = none → Goes name c now room (.release position failure) := fun none => by
    have held : room.held[position]? = Option.none := (congrArg (·.held[position]?) underway).trans none
    have same : room.talk name (.release position failure) = room := by simp [talk, after, act, release, held]
    refine goes_nowhere h same rfl fun other its => ?_
    cases its
    exact held
  cases talking with
  | idle => exact idle rfl
  | @pursuing a hand pursuing =>
    cases position with
    | succ => cases pursuing <;> exact idle rfl
    | zero =>
      cases pursuing with
      | answered | due | failed => exact idle rfl
      | @answering id payload frames fresh returns fetches =>
        have suits : Event.suits name c (.call (.answer name id payload)) = true :=
          Bool.and_eq_true_iff.2 ⟨decide_eq_true rfl, fresh⟩
        have grows : Grows c room (c.after name (.answer name id payload)) room :=
          (Untold.refl room).grows (answer_after _ _ _)
        exact goes_answered h underway fetches.fails (first_add_chances suits)
          (.answered (grows.returns returns) fetches) failure
      | @waiting call id frames other answered returns relays =>
        have once : [call].countP Call.isFirst + (c.after name call).chances ≤ c.chances := by
          rw [List.countP_singleton, other]
          exact Nat.le_trans (Nat.le_of_eq (Nat.zero_add _)) (chances_after_le c name call)
        have grows : Grows c room (c.after name call) room := (Untold.refl room).grows (answer_after _ _ _)
        have due : Pursuing name a (c.after name call) room ⟨[], [.resume frames (.ok call.answered)]⟩ := by
          rw [answered]
          exact .due (grows.returns returns) relays
        exact goes_answered h underway relays.fails once due failure

/-! ### Deliveries -/

/-- A command is answered for the first time if it is without any answer, and else its
answer is changed. -/
theorem sendTo_command (h : room.Abreast name c none) (idle : room.underway = .none) (payload : Payload)
    (frames : List Frame) : ∃ id r, Readied room name c { c with answer := some id } r ∧
      room.sendTo name payload frames = if c.isFresh then r.call (.answer name id payload) (.fetch name id :: frames)
      else r.relay (.editAnswer name id payload) frames := by
  cases known : c.answer with
  | some id =>
    have same : { c with answer := some id } = c := by rw [← known]
    have readied : Readied room name c c room :=
      ⟨.refl room, fun _ => rfl, ⟨h.command, idle⟩, .refl c _, rfl, h.known⟩
    refine ⟨id, room, same.symm ▸ readied, ?_⟩
    simp only [sendTo, h.command, known]
  | none =>
    let taken : Room := room.takeId.2
    let r := taken.modifyCommand name fun c => { c with answer := some (room.handles + 1) }
    have saw : taken.Sees name c .none := ⟨h.command, idle⟩
    have sees := modifyCommand_sees saw name fun c => { c with answer := some (room.handles + 1) }
    rw [if_pos rfl] at sees
    have modified : r = { taken with
        contexts := taken.contexts.put name (.command { c with answer := some (room.handles + 1) }) } := by
      simp only [r, modifyCommand, saw.command]
    refine ⟨room.handles + 1, r, ⟨?_, fun call => ?_, sees, ?_, rfl, ?_⟩, ?_⟩
    · exact (taken.modifyCommand_untold name _).after ⟨(List.append_nil _).symm, rfl, Nat.le_succ _⟩
    · rw [modified]
      rfl
    · rw [modified]
      refine ⟨Nat.le_succ _, fun _ he => he, fun id its => ?_, fun id its => ?_⟩
      · rw [known] at its
        cases its
      · exact .inr (Nat.lt_of_lt_of_eq (Nat.lt_succ_self _) (Option.some.inj its))
    · rw [modified]
      exact fun id its => Nat.le_of_eq (Option.some.inj its).symm
    · simp only [sendTo, h.command, known]
      rfl

/-- A message is sent, to a command without any answer unless it was to be sent. -/
theorem goes_send (h : room.Abreast name c none) (idle : room.underway = .none) {via : Via} {payload payload' : Payload}
    (relays : Relays k frames) (talked : room.talk name (.ask k via payload) = room.sendTo name payload' frames)
    (own : via = .send ∨ c.isFresh = true) : Goes name c none room (.ask k via payload) := by
  obtain ⟨id, r, readied, sent⟩ := sendTo_command h idle payload' frames
  rw [← talked] at sent
  let a : Asked := ⟨k, via, c.isFresh, room.handles⟩
  have asks : room.askedBy name (.ask k via payload) = [a] := by rw [askedBy, h.command]
  have returns : ∀ e, a.Returns name { c with answer := some id } (r.record e) id := fun e =>
    ⟨readied.known id rfl, if_pos own ▸ rfl⟩
  cases fresh : c.isFresh with
  | true =>
    rw [fresh, if_pos rfl] at sent
    have fetches : Fetches name id a.step (.fetch name id :: frames) := .fetch relays
    have suits : Event.suits name c (.call (.answer name id payload')) = true :=
      Bool.and_eq_true_iff.2 ⟨decide_eq_true rfl, fresh⟩
    exact goes_by_call readied suits sent (by simp) asks (returns _) fetches.fails
      (fun returns => .answering fresh returns fetches.pass) (fun returns => .answered returns fetches)
  | false =>
    rw [fresh, if_neg Bool.false_ne_true] at sent
    have suits : Event.suits name c (.call (.editAnswer name id payload')) = true :=
      Bool.and_eq_true_iff.2 ⟨decide_eq_true rfl, by rw [fresh]; rfl⟩
    have passes : Relays a.step (.pass :: .pass :: frames) := relays.pass.pass
    exact goes_by_call readied suits sent (by simp) asks (returns _) passes.fails
      (fun returns => .waiting rfl rfl returns passes) (fun returns => .due returns passes)

/-- A command that has an answer is given another one. -/
theorem goes_follow_up (h : room.Abreast name c none) (idle : room.underway = .none) {payload : Payload}
    (old : c.isFresh = false) : Goes name c none room (.ask k .reply payload) := by
  let a : Asked := ⟨k, .reply, c.isFresh, room.handles⟩
  let r : Room := room.takeId.2
  let call : Call := .followUp name r.handles payload
  have talked : room.talk name (.ask k .reply payload) =
      r.callWith call [.pass, .pass, .caller k none] [.pass, .pass, .caller k none] := by
    rw [talk, deliver, replyTo, h.command]
    simp only [old]
    rfl
  have untold : Untold [] room r := ⟨(List.append_nil _).symm, rfl, Nat.le_succ _⟩
  have asks : room.askedBy name (.ask k .reply payload) = [a] := by rw [askedBy, h.command]
  have returns : a.Returns name c (r.record (.call call)) r.handles := by
    refine ⟨Nat.le_refl _, ?_⟩
    rw [if_neg (by simp [a, old])]
    have new : c.answer ≠ some r.handles := fun its => Nat.not_succ_le_self _ (h.known _ its)
    exact ⟨Nat.lt_succ_self _, new, payload, List.mem_append_right _ (.head _)⟩
  have suits : Event.suits name c (.call call) = true := Bool.and_eq_true_iff.2 ⟨decide_eq_true rfl, by rw [old]; rfl⟩
  have passes : Relays a.step [.pass, .pass, .caller k none] := .pass (.pass .last)
  have known : ∀ id, c.answer = some id → id ≤ r.handles := fun id its => Nat.le_succ_of_le (h.known id its)
  have readied : Readied room name c c r := ⟨untold, fun _ => rfl, ⟨h.command, idle⟩, untold.grows rfl, rfl, known⟩
  exact goes_by_call readied suits talked (by simp) asks returns passes.fails
    (fun returns => .waiting rfl rfl returns passes) (fun returns => .due returns passes)

theorem goes_ask (h : room.Abreast name c none) (idle : room.underway = .none) (k : Nat) (via : Via) (payload : Payload) :
    Goes name c none room (.ask k via payload) := by
  cases via with
  | send => exact goes_send h idle .last rfl (.inl rfl)
  | reply =>
    cases fresh : c.isFresh with
    | true =>
      have talked : room.talk name (.ask k .reply payload) = room.sendTo name payload [.pass, .caller k none] := by
        simp only [talk, deliver, replyTo, h.command, fresh, if_pos]
      exact goes_send h idle (.pass .last) talked (.inr fresh)
    | false => exact goes_follow_up h idle fresh

theorem isIdle_iff (room : Room) : room.isIdle = true ↔ room.underway = .none := by
  simp [isIdle, underway, Hand.none]

/-- Nothing is under way between two deliveries. -/
theorem Abreast.of_isIdle (h : room.Abreast name c now) (idle : room.isIdle = true) : now = none := by
  have talking := h.talking
  rw [room.isIdle_iff.1 idle] at talking
  cases talking with
  | idle => rfl
  | pursuing pursuing => cases pursuing

/-- Whatever happens, a conversation goes on. -/
theorem goes_talk (h : room.Abreast name c now) (t : Talk) (inTurn : (!t.isAsk || room.isIdle) = true) :
    Goes name c now room t := by
  have unchanged : Untold [] room room := .refl room
  cases t with
  | ask k via payload =>
    have idle : room.isIdle = true := inTurn
    obtain rfl := h.of_isIdle idle
    exact goes_ask h (room.isIdle_iff.1 idle) k via payload
  | turn => exact goes_turn h
  | release position failure => exact goes_release h position failure
  | setFailure | setHolding =>
    exact goes_silently h ⟨unchanged.journal, rfl, Nat.le_refl _⟩ ⟨h.command, rfl⟩ (by simp) rfl h.talking

end

/-! ## Conversations -/

variable {now : Option Asked} {talks : List Talk}

theorem progress_talkAll (h : room.Abreast name c now) (inTurn : room.inTurn name talks = true) :
    ∃ c' now', Progress name room c now (room.asked name talks) (room.succeeds name talks) (room.talkAll name talks)
      c' now' := by
  induction talks generalizing room c now with
  | nil => exact ⟨c, now, .refl h⟩
  | cons t talks ih =>
    obtain ⟨first, inTurn⟩ := Bool.and_eq_true_iff.1 inTurn
    obtain ⟨-, c₁, now₁, progress⟩ := goes_talk h t first
    obtain ⟨c', now', progress'⟩ := ih progress.abreast inTurn
    exact ⟨c', now', progress.trans progress'⟩

theorem inTurn_append (name : String) (room : Room) (before after : List Talk) :
    room.inTurn name (before ++ after) = (room.inTurn name before && (room.talkAll name before).inTurn name after) := by
  induction before generalizing room with
  | nil => rfl
  | cons t before ih => rw [List.cons_append, inTurn, inTurn, ih, talkAll_cons, Bool.and_assoc]

/-- **Answers to a command go with how far it is answered.** A command is known, and
deliveries to it are asked for one after the other, each when nothing else is under way. In
between the turns are taken, calls are held back and answered, and calls of any name may
fail or work again.

Whatever is seen at any moment suits the command at that moment. It is answered for the
first time only while it is neither deferred nor replied to, and its answer is changed, or
another one given, only when it is. At most one first answer succeeds. The callers of the
deliveries are told what came of them in turn, and all of them are once nothing is under
way. Each is told a fault or a message: the one answer of the command if the message was to
be sent, or if the command was without any answer when a reply was asked for, and else a
message that is not the answer and that was new then. -/
theorem deliveries_respect_command (command : room.contexts.get? name = some (.command c))
    (known : ∀ id, c.answer = some id → id ≤ room.handles) (idle : room.isIdle = true)
    (inTurn : room.inTurn name talks = true) :
    (∀ before t after, talks = before ++ t :: after → ∃ c',
      (room.talkAll name before).contexts.get? name = some (.command c') ∧
        ∀ e ∈ (room.talkAll name before).said name t, e.suits name c' = true) ∧
    (room.succeeds name talks).countP Call.isFirst ≤ 1 ∧
    ∃ c' asks rest outcomes, (room.talkAll name talks).contexts.get? name = some (.command c') ∧
      (∀ id, c.answer = some id → c'.answer = some id) ∧
      (room.talkAll name talks).settled = room.settled ++ outcomes ∧ room.asked name talks = asks ++ rest ∧
      rest.length ≤ 1 ∧ ((room.talkAll name talks).isIdle = true → rest = []) ∧
      List.Forall₂ (Told name c' (room.talkAll name talks)) asks outcomes := by
  have abreast : room.Abreast name c none := ⟨command, room.isIdle_iff.1 idle ▸ .idle, known⟩
  refine ⟨?_, ?_⟩
  · rintro before t after rfl
    rw [inTurn_append] at inTurn
    obtain ⟨earlier, later⟩ := Bool.and_eq_true_iff.1 inTurn
    obtain ⟨c', now', progress⟩ := progress_talkAll abreast earlier
    exact ⟨c', progress.abreast.command, (goes_talk progress.abreast t (Bool.and_eq_true_iff.1 later).1).1⟩
  · obtain ⟨c', now', progress⟩ := progress_talkAll abreast inTurn
    obtain ⟨asks, outcomes, settled, all, told⟩ := progress.told
    have once := progress.once
    have chances : c.chances ≤ 1 := by
      rw [Command.chances]
      split <;> omega
    refine ⟨by omega, c', asks, now'.toList, outcomes, progress.abreast.command, progress.grows.kept, settled, all,
      ?_, ?_, told⟩
    · cases now' <;> simp
    · intro idle
      rw [progress.abreast.of_isIdle idle]
      rfl

/-- Ada's command is answered, but the answer cannot be fetched. So the next message changes
it, and a reply that waits for a while is another answer. -/
theorem deliveries_respect_command_unfetched :
    let room := openedWith .numbered (.service true) [] [("talk", .command ⟨"ada", false, false, none⟩)]
    let fetching : Option String → Talk := .setFailure "interaction.fetchReply"
    let talks : List Talk := [fetching (some "down"), .ask 1 .send (.controls []), .turn, .turn, .turn, .turn,
      fetching none, .ask 2 .send (.controls []), .turn, .turn, .turn,
      .setHolding true, .ask 3 .reply (.controls []), .release 0 none, .turn, .turn, .turn]
    let later := room.talkAll "talk" talks
    (room.succeeds "talk" talks).countP Call.isFirst ≤ 1 ∧ later.settled.map (·.2.isOk) = [false, true, true] ∧
      ∃ c', later.contexts.get? "talk" = some (.command c') ∧
        List.Forall₂ (Told "talk" c' later) (room.asked "talk" talks) later.settled := by
  intro room fetching talks later
  have idle : later.isIdle = true := by decide +kernel
  have fresh : room.contexts.get? "talk" = some (.command ⟨"ada", false, false, none⟩) := rfl
  have inTurn : room.inTurn "talk" talks = true := by decide +kernel
  obtain ⟨-, once, c', asks, rest, outcomes, command, -, settled, asked, -, all, told⟩ :=
    deliveries_respect_command fresh (by simp) rfl inTurn
  rw [all idle, List.append_nil] at asked
  have settled : later.settled = outcomes := settled
  refine ⟨once, by decide +kernel, c', command, ?_⟩
  rw [asked, settled]
  exact told

end Folio.Room
