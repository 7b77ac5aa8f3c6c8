/-
Failures of interactions are contained. The listener logs what failed and tells the user,
and both are said by `Listening`. What is left is that a user is not answered twice.

A task that routes to a paginator without a callback, or to nothing, makes at most one
call before the guard's turn, and what is above the guard only hands on what came of that
call. So if the call succeeds the guard gets no error, and no second answer is tried: that
is the invariant, `Answering`, of how many answers succeeded and of what is on hand.
-/
import Folio.Proofs.Room.Listening

namespace Folio.Room

variable {a b c room : Room} {k p n : Nat} {frames : List Frame} {press : Press} {m : Move}

/-! ## Answers that succeed -/

/-- Whether a call succeeds at once when it is made. -/
def grants (room : Room) (c : Call) : Bool := (room.failures.get? (c.name room.isService)).isNone && !room.holding

/-- Whether an event is a call that answers the interaction of step `k`, and succeeds at once. -/
def isGranted (k : Nat) (room : Room) : Event → Bool
  | .call c => concerns [k] c.interaction? && room.grants c
  | _ => false

/-- How many calls that answer the interaction of step `k` succeed by a move: those that it
makes, and one that was held back if it is answered so. -/
def granted (k : Nat) (room : Room) : Move → Nat
  | .act _ (.release position none) =>
    if room.held[position]?.any fun h => concerns [k] h.call.interaction? then 1 else 0
  | m => (room.events m).countP (room.isGranted k)

/-- Whether a move answers a call that was held back, with a success. -/
def Move.isGrant : Move → Bool
  | .act _ (.release _ none) => true
  | _ => false

/-- How many such calls succeed in a run. -/
def grantedAll (k : Nat) (room : Room) : List Move → Nat
  | [] => 0
  | m :: moves => room.granted k m + (room.after m).grantedAll k moves

/-- How many answers to the interaction of step `k` succeeded, and what is on hand: after
one that succeeded nothing but to hand on a success. -/
inductive Answering (k : Nat) : Nat → Hand → Prop where
  | waiting {frames : List Frame} (answers : Answers [k] frames) (c : Call) : Answering k 0 ⟨[⟨c, frames⟩], []⟩
  | unanswered {frames : List Frame} (answers : Answers [k] frames) (outcome : Outcome) :
    Answering k 0 ⟨[], [.resume frames outcome]⟩
  | answered {frames : List Frame} (answers : Answers [k] frames) (a : Answer) :
    Answering k 1 ⟨[], [.resume frames (.ok a)]⟩
  | ended {n : Nat} (once : n ≤ 1) : Answering k n .none

theorem Answering.le_one {hand : Hand} (h : Answering k n hand) : n ≤ 1 := by
  cases h with
  | waiting | unanswered => exact Nat.zero_le 1
  | answered => exact Nat.le_refl 1
  | ended once => exact once

theorem isGranted_of_not_answers {e : Event} (other : e.answers k = false) : room.isGranted k e = false := by
  cases e with
  | call c => exact Bool.and_eq_false_imp.2 fun its => absurd (other.symm.trans its) Bool.false_ne_true
  | listening | registered | unregistered | log | callback | handler => rfl

theorem countP_isGranted {es : List Event} (others : ∀ e ∈ es, e.answers k = false) : es.countP (room.isGranted k) = 0 :=
  List.countP_eq_zero.2 fun e he => by simp [isGranted_of_not_answers (others e he)]

/-! ## One operation -/

/-- From `a` to `b` nothing was done for step `k`, and calls succeed as before. -/
structure Silent (k : Nat) (a b : Room) : Prop extends Tends k [] a b where
  grants : ∀ c, b.grants c = a.grants c

theorem Silent.refl (room : Room) : Silent k room room := ⟨(Carries.refl room).toTends, fun _ => rfl⟩

theorem Silent.trans (h : Silent k a b) (h' : Silent k b c) : Silent k a c :=
  ⟨h'.toTends.after h.toTends, fun c => (h'.grants c).trans (h.grants c)⟩

theorem log_silent (room : Room) (line : LogLine) : Silent k room (room.log line) := ⟨room.record_tends rfl, fun _ => rfl⟩

theorem modifyPaginator_silent (room : Room) (p : Nat) (f : Paginator → Paginator) :
    Silent k room (room.modifyPaginator p f) := ⟨(room.modifyPaginator_carries p f).toTends, fun _ => rfl⟩

theorem ping_silent (room : Room) (w : Option Nat) : Silent k room (room.ping w) := by
  refine ⟨(room.ping_carries w).toTends, fun c => ?_⟩
  cases w with
  | none => rfl
  | some w =>
    rw [ping, modifyWatchdog]
    split <;> rfl

/-- On the way from `a` to `b` one answer was tried at most, and nothing was on hand before. -/
def Tried (k : Nat) (a b : Room) : Prop :=
  ∃ es, b.journal = a.journal ++ es ∧ Answering k (es.countP (a.isGranted k)) (b.hand k)

theorem Tried.ended (h : Silent k a b) (idle : a.hand k = .none) : Tried k a b := by
  obtain ⟨es, journal, others⟩ := h.journal
  refine ⟨es, journal, ?_⟩
  rw [h.hand_eq, idle]
  refine .ended (Nat.le_trans (Nat.le_of_eq (countP_isGranted fun e he => ?_)) (Nat.zero_le 1))
  exact Bool.eq_false_iff.2 fun its => Bool.false_ne_true (others e he its)

/-- What happened before in silence makes no difference. -/
theorem Tried.after (h : Tried k b c) (h' : Silent k a b) : Tried k a c := by
  obtain ⟨es, journal, answering⟩ := h
  obtain ⟨es', journal', others⟩ := h'.journal
  have same : b.isGranted k = a.isGranted k := by
    funext e
    cases e with
    | call c => rw [isGranted, isGranted, h'.grants]
    | listening | registered | unregistered | log | callback | handler => rfl
  have none : es'.countP (a.isGranted k) = 0 :=
    countP_isGranted fun e he => Bool.eq_false_iff.2 fun its => Bool.false_ne_true (others e he its)
  refine ⟨es' ++ es, by rw [journal, journal', List.append_assoc], ?_⟩
  rw [List.countP_append, none, Nat.zero_add, ← same]
  exact answering

theorem hand_succeed (idle : room.hand k = .none) (own : serve [k] frames = true) (call : Call) :
    (room.succeed call frames).hand k = ⟨[], [.resume frames (.ok call.answered)]⟩ := by
  have marked : ∀ {r : Room}, Carries k [] room r →
      (r.finish frames (.ok call.answered)).hand k = ⟨[], [.resume frames (.ok call.answered)]⟩ :=
    fun h => hand_finish (h.hand_eq.trans idle) own _
  cases call with
  | answer name _ _ | editAnswer name _ _ | followUp name _ _ => exact marked (room.modifyCommand_carries name _)
  | acknowledge i | notify i _ | replace i _ => exact marked (room.modifyInteraction_carries i _)
  | deliver | edit | post | replyTo | fetchAnswer => exact marked (.refl room)

theorem finish_tried (idle : room.hand k = .none) (answers : Answers [k] frames) (outcome : Outcome) :
    Tried k room (room.finish frames outcome) := by
  refine ⟨[], (room.finish_outward frames outcome).journal, ?_⟩
  rw [hand_finish idle answers.serve]
  exact .unanswered answers outcome

section

variable {call : Call} {later : List Frame}

theorem callWith_of_failing {message : String} (failing : room.failures.get? (call.name room.isService) = some message) :
    room.callWith call frames later = (room.record (.call call)).finish frames (.error (.reported message)) := by
  have failing : (room.record (.call call)).failures.get? (call.name (room.record (.call call)).isService) = some message :=
    failing
  simp only [callWith, failing]

theorem callWith_of_holding (works : room.failures.get? (call.name room.isService) = none) (holding : room.holding = true) :
    room.callWith call frames later =
      { room.record (.call call) with held := room.held ++ [⟨call, later⟩] } := by
  have works : (room.record (.call call)).failures.get? (call.name (room.record (.call call)).isService) = none := works
  have holding : (room.record (.call call)).holding = true := holding
  simp only [callWith, works, holding, if_pos]
  rfl

theorem callWith_of_works (works : room.failures.get? (call.name room.isService) = none) (free : room.holding = false) :
    room.callWith call frames later = (room.record (.call call)).succeed call frames := by
  have works : (room.record (.call call)).failures.get? (call.name (room.record (.call call)).isService) = none := works
  have free : (room.record (.call call)).holding = false := free
  simp only [callWith, works, free, Bool.false_eq_true, if_false]

end

theorem hand_call_of_holding (idle : room.hand k = .none) (own : serve [k] frames = true) {call : Call}
    (works : room.failures.get? (call.name room.isService) = none) (holding : room.holding = true) :
    (room.call call frames).hand k = ⟨[⟨call, .pass :: frames⟩], []⟩ := by
  have held : room.held.filter (HeldCall.serves k) = [] := congrArg Hand.held idle
  have ready : room.agenda.ready.filter (Task.serves [k]) = [] := congrArg Hand.ready idle
  rw [Room.call, callWith_of_holding works holding]
  simp [hand, record, held, ready, HeldCall.serves, own]

/-- A call fails, or waits for an answer, or succeeds. -/
theorem call_tried (idle : room.hand k = .none) (answers : Answers [k] frames) (call : Call) :
    Tried k room (room.call call frames) := by
  refine ⟨[.call call], (room.call_outward call frames).journal, ?_⟩
  have idle' : (room.record (.call call)).hand k = .none := idle
  have serves := answers.serve
  rw [List.countP_singleton, isGranted, grants]
  cases failing : room.failures.get? (call.name room.isService) with
  | some message =>
    rw [Room.call, callWith_of_failing failing, hand_finish idle' serves]
    simpa using Answering.unanswered answers (.error (.reported message))
  | none =>
    cases holding : room.holding with
    | true =>
      rw [hand_call_of_holding idle serves failing holding]
      simpa using Answering.waiting answers.pass call
    | false =>
      rw [Room.call, callWith_of_works failing holding, hand_succeed idle' serves]
      cases own : concerns [k] call.interaction? with
      | true => simpa using Answering.answered answers call.answered
      | false => simpa using Answering.unanswered answers (.ok call.answered)

/-! ## Routing -/

/-- The longer stack that waits for an answer to an interaction answers it as well. -/
theorem longer_answers (answers : Answers [k] frames) (press : Press) :
    Answers [k] (if press.interaction.isSome then .yield .nothing :: frames else frames) := by
  split
  · exact answers.yield
  · exact answers

theorem acknowledge_tried (idle : room.hand k = .none) (answers : Answers [k] frames) (press : Press) :
    Tried k room (room.acknowledge press frames) := call_tried idle (longer_answers answers press) _

theorem notify_tried (idle : room.hand k = .none) (answers : Answers [k] frames) (press : Press) (text : String) :
    Tried k room (room.notify press text frames) := call_tried idle (longer_answers answers press) _

theorem replace_tried (idle : room.hand k = .none) (answers : Answers [k] frames) (p : Nat) (press : Press) :
    Tried k room (room.replace p press frames frames) := by
  have clamped := room.modifyPaginator_silent (k := k) p Paginator.clamp
  have idle' := clamped.hand_eq.trans idle
  rw [replace]
  split
  · exact finish_tried idle answers _
  simp only
  split
  · exact (finish_tried idle' answers _).after clamped
  · exact (call_tried idle' (longer_answers answers.yield press) _).after clamped

/-- A paginator without a callback answers a press with one call at most. -/
theorem receive_tried (idle : room.hand k = .none) (answers : Answers [k] frames) (press : Press)
    (noCallback : ∀ pg, room.paginator? p = some pg → pg.callback = none) : Tried k room (room.receive p press frames) := by
  rw [receive]
  split
  · exact finish_tried idle answers _
  next pg hp =>
  split
  · have logged := room.log_silent (k := k) (.stranger pg.session press.user)
    have idle' := logged.hand_eq.trans idle
    simp only
    split
    · exact (acknowledge_tried idle' answers.pass press).after logged
    · exact (notify_tried idle' answers.pass press _).after logged
  split
  · exact acknowledge_tried idle answers.pass press
  have pinged := room.ping_silent (k := k) pg.watchdog
  simp only
  split
  next called =>
    rw [noCallback pg hp] at called
    cases called
  generalize Paginator.pressed pg.pages.length pg.index _ press.values = moved
  obtain ⟨index, refused⟩ := moved
  have turned : ∀ {r : Room}, Silent k room r →
      Tried k room ((r.modifyPaginator p fun pg => { pg with index }).replace p press frames frames) := by
    intro r h
    have turned := h.trans (r.modifyPaginator_silent p fun pg => { pg with index })
    exact (replace_tried (turned.hand_eq.trans idle) answers p press).after turned
  cases refused with
  | none => exact turned pinged
  | some value => exact turned (pinged.trans (log_silent _ _))

/-- What is not bound is acknowledged, if it is a custom id at all. -/
theorem dispatch_tried (idle : room.hand k = .none) (answers : Answers [k] frames) (press : Press)
    (handler : ∀ g, room.router.handler? press.customId = some g →
      ∃ p, g = .paginator p ∧ ∀ pg, room.paginator? p = some pg → pg.callback = none) :
    Tried k room (room.dispatch press frames) := by
  rw [dispatch]
  split
  next g bound =>
    obtain ⟨p, rfl, noCallback⟩ := handler g bound
    exact receive_tried idle answers.yield press noCallback
  · split
    · exact acknowledge_tried idle answers.yield press
    · exact finish_tried idle answers _

/-! ## Turns -/

/-- Nothing but to hand on what came of an answer: another one is tried only if that failed. -/
theorem resume_tried {frame : Frame} (idle : room.hand k = .none) (answers : Answers [k] (frame :: frames))
    (outcome : Outcome) : Tried k room (room.resume frame frames outcome) := by
  cases answers with
  | pass answers => exact finish_tried idle answers _
  | yield answers => cases outcome <;> exact finish_tried idle answers _
  | last own =>
    cases frame with
    | yield | pass | fail | fetch | deliver | expire => cases own
    | caller j paginator =>
      have none : (room.resume (.caller j paginator) [] outcome).hand k = .none := idle
      exact ⟨[], (List.append_nil _).symm, none ▸ .ended (Nat.zero_le 1)⟩
    | notice press =>
      cases outcome with
      | ok a => exact .ended (.refl room) idle
      | error fault => exact .ended (room.log_silent _) idle
    | guard press =>
      cases outcome with
      | ok a => exact .ended (.refl room) idle
      | error fault =>
        have logged := room.log_silent (k := k) (.pressFailed press.customId press.user fault)
        have notice : Answers [k] [.notice press] := .last own
        rw [resume, apologize]
        split
        · split
          · exact .ended logged idle
          · exact (call_tried (logged.hand_eq.trans idle) notice _).after logged
        · exact .ended logged idle

/-- A success is handed on in silence. -/
theorem resume_ok {frame : Frame} (idle : room.hand k = .none) (answers : Answers [k] (frame :: frames)) (a : Answer) :
    (room.resume frame frames (.ok a)).journal = room.journal ∧
      Answering k 1 ((room.resume frame frames (.ok a)).hand k) := by
  have handed : ∀ a, Answers [k] frames → (room.finish frames (.ok a)).journal = room.journal ∧
      Answering k 1 ((room.finish frames (.ok a)).hand k) := by
    intro a answers
    refine ⟨(room.finish_outward frames _).journal.trans (List.append_nil _), ?_⟩
    rw [hand_finish idle answers.serve]
    exact .answered answers a
  have ended : Answering k 1 (room.hand k) := by
    rw [idle]
    exact .ended (Nat.le_refl 1)
  cases answers with
  | pass answers => exact handed a answers
  | yield answers => exact handed _ answers
  | last own =>
    cases frame with
    | yield | pass | fail | fetch | deliver | expire => cases own
    | caller | notice | guard => exact ⟨rfl, ended⟩

/-! ## Moves -/

theorem Move.eq_of_isGrant (m : Move) (grant : m.isGrant = true) : ∃ j position, m = .act j (.release position none) := by
  cases m with
  | turn | fire | moveTo => cases grant
  | act j a =>
    cases a with
    | release position failure =>
      cases failure with
      | none => exact ⟨j, position, rfl⟩
      | some => cases grant
    | _ => cases grant

theorem granted_of_journal {es : List Event} (other : m.isGrant = false)
    (h : (room.after m).journal = room.journal ++ es) : room.granted k m = es.countP (room.isGranted k) := by
  rw [granted, events_of_journal h]
  rintro j position rfl
  cases other

/-- A move that has no part in the step answers nothing for it. -/
theorem granted_of_serves (other : m.step? ≠ some k) (free : room.serves k m = false) : room.granted k m = 0 := by
  cases grant : m.isGrant with
  | true =>
    obtain ⟨j, position, rfl⟩ := m.eq_of_isGrant grant
    refine if_neg fun some => ?_
    obtain ⟨h, found, its⟩ := (Option.any_eq_true _ _).1 some
    have free : h.serves k = false := by simpa [serves, found] using free
    exact Bool.false_ne_true ((Bool.or_eq_false_iff.1 free).2.symm.trans its)
  | false =>
    obtain ⟨es, journal, others⟩ := (room.after_tends other free).journal
    rw [granted_of_journal grant journal]
    exact countP_isGranted fun e he => Bool.eq_false_iff.2 fun its => Bool.false_ne_true (others e he its)

/-- What goes on when nothing was answered yet. -/
theorem answering_unanswered {outcome : Outcome} {rest : List Task} (answers : Answers [k] frames)
    (ready : room.agenda.ready = .resume frames outcome :: rest) (idle : (room.popped rest).hand k = .none) :
    Answering k (room.granted k .turn) ((room.after .turn).hand k) := by
  cases frames with
  | nil => cases answers
  | cons frame frames =>
    obtain ⟨es, journal, answering⟩ := resume_tried idle answers outcome
    have turned : room.after .turn = (room.popped rest).resume frame frames outcome := after_turn ready
    have journal : (room.after .turn).journal = room.journal ++ es := by rw [turned, journal]; rfl
    rw [granted_of_journal (m := .turn) rfl journal, turned]
    exact answering

/-- What goes on after an answer. -/
theorem answering_answered {a : Answer} {rest : List Task} (answers : Answers [k] frames)
    (ready : room.agenda.ready = .resume frames (.ok a) :: rest) (idle : (room.popped rest).hand k = .none) :
    Answering k (1 + room.granted k .turn) ((room.after .turn).hand k) := by
  cases frames with
  | nil => cases answers
  | cons frame frames =>
    obtain ⟨journal, answering⟩ := resume_ok idle answers a
    have turned : room.after .turn = (room.popped rest).resume frame frames (.ok a) := after_turn ready
    have journal : (room.after .turn).journal = room.journal ++ [] := by rw [turned, journal, List.append_nil]; rfl
    rw [granted_of_journal (m := .turn) rfl journal, turned]
    exact answering

/-- A call that was held back is answered. -/
theorem answering_release {j position : Nat} {c : Call} (answers : Answers [k] frames)
    (found : room.held[position]? = some ⟨c, frames⟩)
    (idle : ({ room with held := room.held.eraseIdx position } : Room).hand k = .none) (failure : Option String) :
    Answering k (room.granted k (.act j (.release position failure)))
      ((room.after (.act j (.release position failure))).hand k) := by
  cases failure with
  | some message =>
    have released : room.release position (some message) = some
        (({ room with held := room.held.eraseIdx position } : Room).finish frames (.error (.reported message))) := by
      rw [release, found]
      rfl
    have journal : (room.after (.act j (.release position (some message)))).journal = room.journal ++ [] := by
      rw [after_release released]
      exact (finish_outward _ frames _).journal
    rw [granted_of_journal (m := .act j (.release position (some message))) rfl journal, after_release released,
      hand_finish idle answers.serve]
    exact .unanswered answers _
  | none =>
    have released : room.release position none =
        some (({ room with held := room.held.eraseIdx position } : Room).succeed c frames) := by
      rw [release, found]
      rfl
    have granted : room.granted k (.act j (.release position none)) = if concerns [k] c.interaction? then 1 else 0 := by
      rw [Room.granted, found]
      rfl
    rw [after_release released, hand_succeed idle answers.serve, granted]
    cases concerns [k] c.interaction? with
    | true => exact .answered answers c.answered
    | false => exact .unanswered answers (.ok c.answered)

/-- Whatever happens, at most one answer succeeds. -/
theorem answering_after (other : m.step? ≠ some k) (h : Answering k n (room.hand k)) :
    Answering k (n + room.granted k m) ((room.after m).hand k) := by
  cases serves : room.serves k m with
  | false =>
    rw [granted_of_serves other serves, (room.after_tends other serves).hand_eq]
    exact h
  | true =>
    generalize current : room.hand k = hand at h
    cases h with
    | ended => exact absurd (serves.symm.trans (serves_of_hand_none current m)) Bool.noConfusion
    | waiting answers c =>
      obtain ⟨j, position, failure, rfl, found, idle⟩ := release_of_serves current serves
      rw [Nat.zero_add]
      exact answering_release answers found idle failure
    | unanswered answers outcome =>
      obtain ⟨rest, rfl, ready, idle⟩ := turn_of_serves current serves
      rw [Nat.zero_add]
      exact answering_unanswered answers ready idle
    | answered answers a =>
      obtain ⟨rest, rfl, ready, idle⟩ := turn_of_serves current serves
      exact answering_answered answers ready idle

theorem answering_afterAll {moves : List Move} (others : ∀ m ∈ moves, m.step? ≠ some k) (h : Answering k n (room.hand k)) :
    Answering k (n + room.grantedAll k moves) ((room.afterAll moves).hand k) := by
  induction moves generalizing room n with
  | nil => exact h
  | cons m moves ih =>
    rw [grantedAll, ← Nat.add_assoc, afterAll_cons]
    exact ih (fun m' hm => others m' (List.mem_cons_of_mem m hm)) (answering_after (others m (by simp)) h)

/-! ## Interactions -/

/-- Below a notice all goes on with a success. -/
theorem resume_notice (room : Room) (press : Press) (below : List Frame) (outcome : Outcome) :
    ∃ lines : List LogLine, room.resume (.notice press) below outcome = (lines.foldl log room).finish below (.ok .nothing) := by
  cases outcome with
  | ok a => exact ⟨[], rfl⟩
  | error fault => exact ⟨[.noticeFailed fault], rfl⟩

/-- Below a guard all goes on with a success, or a notice is put in between. -/
theorem resume_guard (room : Room) (press : Press) (below : List Frame) (outcome : Outcome) :
    ∃ lines : List LogLine,
      room.resume (.guard press) below outcome = (lines.foldl log room).finish below (.ok .nothing) ∨
      room.resume (.guard press) below outcome =
        (lines.foldl log room).call (.notify press.interaction apology) (.notice press :: below) := by
  cases outcome with
  | ok a => exact ⟨[], .inl rfl⟩
  | error fault =>
    refine ⟨[.pressFailed press.customId press.user fault], ?_⟩
    rw [resume, apologize]
    split
    · split
      · exact .inl rfl
      · exact .inr rfl
    · exact .inl rfl

/-- **Failures of interactions are contained.** In a run in which each act has a number of
its own, an interaction comes in, in step `k`, from a client that listens.

If it is no use of a control of some paginator, nothing happens at all. If it is, the
turns of its listener are as `Listening` says: the press is routed, or its routing
succeeded and nothing was logged, or it failed with an error that was logged once. Then
the user was told exactly if the interaction was neither replied to nor deferred at that
moment, and if that failed, it was logged once. Whatever is on hand for the step ends with
a guard or a notice. These get any outcome, and below them all goes on with a success, so
the listener's task never fails; and nothing else makes such reports. If the custom id is
bound to a paginator without a callback, or to nothing, at most one answer to the
interaction succeeds in the whole run. -/
theorem interaction_failures_are_contained {start : Room} {before rest : List Move} {kind : ComponentKind}
    {draft : PressDraft} {state : Interaction} {id : String} (opened : IsOpened start)
    (numbered : ((before ++ .act k (.emit kind draft state) :: rest).filterMap Move.step?).Nodup)
    (listening : (start.afterAll before).client = .service true)
    (target : (start.afterAll before).customIdOf? draft.target = some id) :
    let room := start.afterAll before
    let emitted : Move := .act k (.emit kind draft state)
    let press := pressOf kind draft.user id draft.values (some k)
    (kind = .other ∨ parseCustomId? id = none → room.after emitted = room) ∧
    (kind ≠ .other → (parseCustomId? id).isSome = true →
      Listening k press (room.heardAll k (emitted :: rest)) ((room.afterAll (emitted :: rest)).hand k) ∧
      ((∀ g, room.router.handler? id = some g →
          ∃ p, g = .paginator p ∧ ∀ pg, room.paginator? p = some pg → pg.callback = none) →
        room.grantedAll k (emitted :: rest) ≤ 1)) ∧
    (∀ (r : Room) (below : List Frame) (outcome : Outcome),
      (∃ lines : List LogLine, r.resume (.notice press) below outcome = (lines.foldl log r).finish below (.ok .nothing)) ∧
      ∃ lines : List LogLine, r.resume (.guard press) below outcome = (lines.foldl log r).finish below (.ok .nothing) ∨
        r.resume (.guard press) below outcome =
          (lines.foldl log r).call (.notify (some k) apology) (.notice press :: below)) ∧
    ∀ (r : Room) (m : Move), (r.after m).reports = r.reports ∨ ∃ frame below fault ready, m = .turn ∧
      r.agenda.ready = .resume (frame :: below) (.error fault) :: ready ∧
      ∃ press, frame = .guard press ∨ frame = .notice press := by
  intro room emitted press
  rw [List.filterMap_append, List.nodup_append] at numbered
  obtain ⟨-, numbered, apart⟩ := numbered
  have earlier : ∀ m ∈ before, m.step? ≠ some k := fun m hm its =>
    apart k (List.mem_filterMap.2 ⟨m, hm, its⟩) k (by simp [Move.step?]) rfl
  have later : ∀ m ∈ rest, m.step? ≠ some k := fun m hm its => by
    simp only [List.filterMap_cons, Move.step?, List.nodup_cons] at numbered
    exact numbered.1 (List.mem_filterMap.2 ⟨m, hm, its⟩)
  have idle : room.hand k = .none := opened.hand_none earlier
  have came : room.after emitted = room.emit k kind draft.user id draft.values state := by
    have target : room.customIdOf? draft.target = some id := target
    rw [after, act, if_pos listening, withPress, target]
  refine ⟨fun foreign => ?_, fun control read => ?_, fun r below outcome =>
    ⟨r.resume_notice press below outcome, r.resume_guard press below outcome⟩, reports_after⟩
  · rw [came, emit, if_neg]
    rintro ⟨control, read⟩
    rcases foreign with other | unread
    · exact control other
    · rw [unread] at read
      cases read
  · have silent : room.heard k emitted = [] := rfl
    refine ⟨?_, fun handler => ?_⟩
    · obtain ⟨routing, known⟩ := listening_emit draft.user draft.values state idle ⟨control, read⟩
      rw [heardAll, silent, List.nil_append, afterAll_cons, came]
      exact listening_afterAll rfl (fun _ => known) later routing
    · have guarded : Answers [k] [.guard press] := .last (by simp [press, pressOf])
      have noted : Silent k room { room with interactions := room.interactions.put k state } :=
        ⟨⟨⟨[], (List.append_nil _).symm, by simp⟩, fun _ => by simp, rfl, rfl⟩, fun _ => rfl⟩
      obtain ⟨es, journal, answering⟩ := (dispatch_tried (noted.hand_eq.trans idle) guarded press handler).after noted
      have routed : room.after emitted =
          { room with interactions := room.interactions.put k state }.dispatch press [.guard press] := by
        rw [came, emit, if_pos ⟨control, read⟩]
      rw [← routed] at journal answering
      rw [grantedAll, granted_of_journal (m := .act k (.emit kind draft state)) rfl journal]
      exact (answering_afterAll later answering).le_one

/-- Ada turns a page while her answers to interactions fail: that is logged, and she is told. -/
theorem interaction_failures_are_contained_update :
    let start := openedWith .numbered (.service true) [] [("talk", .message "ada" "general" true)]
    let before : List Move := [.act 0 (.create (.pages [.text "one" "" "" "", .text "two" "" "" ""]) (.record []) none),
      .act 1 (.send 0 .send (.context "talk")), .turn, .turn, .turn, .turn, .act 2 (.setFailure "component.update" (some "down"))]
    let draft : PressDraft := ⟨"ada", .control 0 "next", []⟩
    let rest : List Move := [.turn, .turn, .turn, .turn, .turn]
    let moves : List Move := .act 3 (.emit .button draft ⟨false, false⟩) :: rest
    let room := start.afterAll before
    ∃ id, room.customIdOf? draft.target = some id ∧
      Listening 3 (pressOf .button "ada" id [] (some 3)) (room.heardAll 3 moves) ((room.afterAll moves).hand 3) ∧
      (room.heardAll 3 moves).length = 2 ∧ room.grantedAll 3 moves ≤ 1 := by
  intro start before draft rest moves room
  have numbered : ((before ++ moves).filterMap Move.step?).Nodup := by decide +kernel
  have listens : room.client = .service true := by decide +kernel
  have target : room.customIdOf? draft.target = some (customId (sessionId 1) .next) := by decide +kernel
  have bound : room.router.handler? (customId (sessionId 1) .next) = some (.paginator 0) := by decide +kernel
  have uncalled : (room.paginator? 0).all (·.callback.isNone) = true := by decide +kernel
  obtain ⟨-, contained, -, -⟩ := interaction_failures_are_contained (.opened _ _ _ _) numbered listens target
  obtain ⟨listening, once⟩ := contained (by decide) (by decide +kernel)
  refine ⟨_, target, listening, by decide +kernel, once fun g found => ?_⟩
  refine ⟨0, (Option.some.inj (bound.symm.trans found)).symm, fun pg hp => ?_⟩
  rw [hp] at uncalled
  exact Option.isNone_iff_eq_none.1 uncalled

end Folio.Room
