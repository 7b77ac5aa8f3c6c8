/-
What is done for a step. It is done in one place at a time: either a call is held back
for the step, or one stack of frames is ready. `Carries k frames a b` says this of a way
from `a` to `b` on which an operation worked on `frames`: if they serve step `k`, one
more stack that ends with them is on hand for it, and if they do not, nothing is taken
from step `k` or added to it, and its interaction gets no answer. There is one such
lemma for each operation, each turn of a frame that hands something on, and each act.
-/
import Folio.Proofs.Room.Strangers
import Folio.Proofs.Room.UnderWay

namespace Folio

/-- Whether an event is a call that answers the interaction of step `k`. -/
def Event.answers (k : Nat) : Event → Bool
  | .call c => concerns [k] c.interaction?
  | _ => false

/-- Whether an event reports that a press failed, or that its user could not be told so. -/
def Event.isReport : Event → Bool
  | .log (.pressFailed ..) | .log (.noticeFailed _) => true
  | _ => false

/-- Whether a held call works for step `k`: what goes on with it does, or it answers the
interaction of that step. -/
def HeldCall.serves (k : Nat) (h : HeldCall) : Bool := serve [k] h.frames || concerns [k] h.call.interaction?

/-- Frames may go on with an answer to an interaction: if it is that of step `k`, they
serve that step. -/
def Owns (k : Nat) (i : Option Nat) (frames : List Frame) : Prop := concerns [k] i = true → serve [k] frames = true

theorem owns_none (k : Nat) (frames : List Frame) : Owns k none frames := fun h => absurd h Bool.false_ne_true

theorem Owns.cons {k : Nat} {i : Option Nat} {frames : List Frame} (h : Owns k i frames) (f : Frame) :
    Owns k i (f :: frames) := fun its => by rw [serve_cons, h its, Bool.or_true]

/-- Whether a frame only hands something on, and works for no step itself. -/
def Frame.isAside : Frame → Bool
  | .guard _ | .notice _ | .caller .. => false
  | .yield _ | .pass | .fail _ | .fetch .. | .deliver .. | .expire _ => true

theorem Frame.step?_of_isAside {f : Frame} (aside : f.isAside = true) : f.step? = none := by
  cases f with
  | guard | notice | caller => cases aside
  | yield | pass | fail | fetch | deliver | expire => rfl

theorem serve_append_of_aside {pre : List Frame} (aside : pre.all Frame.isAside = true) (steps : List Nat)
    (frames : List Frame) : serve steps (pre ++ frames) = serve steps frames := by
  induction pre with
  | nil => rfl
  | cons f pre ih =>
    rw [List.all_cons, Bool.and_eq_true] at aside
    rw [List.cons_append, serve_cons, Frame.step?_of_isAside aside.1, concerns_none, Bool.false_or]
    exact ih aside.2

/-- What is on hand for a step. -/
structure Hand where
  held : List HeldCall
  ready : List Task

namespace Hand

/-- Nothing is on hand. -/
def none : Hand := ⟨[], []⟩

/-- One more stack is on hand that ends with some frames. Those above them work for no step. -/
inductive Takes (k : Nat) (frames : List Frame) (hand : Hand) : Hand → Prop where
  | held (c : Call) {pre : List Frame} (aside : pre.all Frame.isAside = true) :
    Takes k frames hand ⟨hand.held ++ [⟨c, pre ++ frames⟩], hand.ready⟩
  | ready (outcome : Outcome) {pre : List Frame} (aside : pre.all Frame.isAside = true) :
    Takes k frames hand ⟨hand.held, hand.ready ++ [.resume (pre ++ frames) outcome]⟩

theorem Takes.drop {k : Nat} {frames : List Frame} {hand hand' : Hand} (pre : List Frame)
    (h : hand.Takes k (pre ++ frames) hand') (aside : pre.all Frame.isAside = true) : hand.Takes k frames hand' := by
  have longer : ∀ {pre' : List Frame}, pre'.all Frame.isAside = true → (pre' ++ pre).all Frame.isAside = true := by
    intro pre' before
    rw [List.all_append, Bool.and_eq_true]
    exact ⟨before, aside⟩
  cases h with
  | held c before =>
    rw [← List.append_assoc]
    exact .held c (longer before)
  | ready outcome before =>
    rw [← List.append_assoc]
    exact .ready outcome (longer before)

/-- If nothing else is on hand, that stack is all there is. -/
theorem Takes.of_none {k : Nat} {frames : List Frame} {hand : Hand} (h : none.Takes k frames hand) :
    ∃ pre : List Frame, pre.all Frame.isAside = true ∧
      ((∃ c, hand = ⟨[⟨c, pre ++ frames⟩], []⟩) ∨
        ∃ outcome, hand = ⟨[], [.resume (pre ++ frames) outcome]⟩) := by
  cases h with
  | held c aside => exact ⟨_, aside, .inl ⟨c, rfl⟩⟩
  | ready outcome aside => exact ⟨_, aside, .inr ⟨outcome, rfl⟩⟩

end Hand

namespace Room

variable {a b c room : Room} {k p : Nat} {frames : List Frame} {press : Press}

/-- What a room has on hand for step `k`. -/
def hand (k : Nat) (room : Room) : Hand where
  held := room.held.filter (HeldCall.serves k)
  ready := room.agenda.ready.filter (Task.serves [k])

/-- What the caller of step `k` was told. -/
def settledOf (k : Nat) (room : Room) : List (Nat × Outcome) := room.settled.filter fun o => o.1 = k

/-- The reports in the journal. -/
def reports (room : Room) : List Event := room.journal.filter Event.isReport

/-- What works for a step goes on with an outcome. -/
theorem ready_hand (k : Nat) (room : Room) : (room.hand k).ready = room.agenda.resumes.filter (Task.serves [k]) := by
  rw [hand, Agenda.resumes, List.filter_filter]
  refine List.filter_congr fun t _ => ?_
  cases t <;> simp [Task.serves, Task.isWoken]

/-! ## What an operation does for a step -/

/-- From `a` to `b` some frames were worked on. If they serve step `k`, one more stack
that ends with them is on hand for it. If not, what is on hand for step `k` is the same,
and no call answered its interaction. Either way its caller was told nothing. -/
structure Tends (k : Nat) (frames : List Frame) (a b : Room) : Prop where
  journal : ∃ es, b.journal = a.journal ++ es ∧ ∀ e ∈ es, e.answers k = true → serve [k] frames = true
  known : (a.interactions.get? k).isSome = true → (b.interactions.get? k).isSome = true
  hand : if serve [k] frames then (a.hand k).Takes k frames (b.hand k) else b.hand k = a.hand k
  settled : b.settledOf k = a.settledOf k

/-- From `a` to `b` some frames were worked on, and nothing was reported. -/
structure Carries (k : Nat) (frames : List Frame) (a b : Room) : Prop extends Tends k frames a b where
  reports : b.reports = a.reports

theorem Tends.hand_eq (h : Tends k [] a b) : b.hand k = a.hand k := h.hand

/-- What does not work for step `k` may happen before. -/
theorem Tends.after (h : Tends k frames b c) (h' : Tends k [] a b) : Tends k frames a c where
  journal := by
    obtain ⟨es, journal, own⟩ := h.journal
    obtain ⟨es', journal', none⟩ := h'.journal
    refine ⟨es' ++ es, by rw [journal, journal', List.append_assoc], fun e he answers => ?_⟩
    rcases List.mem_append.1 he with he | he
    · cases none e he answers
    · exact own e he answers
  known := h.known ∘ h'.known
  hand := h'.hand_eq ▸ h.hand
  settled := h.settled.trans h'.settled

/-- Frames that do not serve step `k` make no difference to it. -/
theorem Tends.none (h : Tends k frames a b) (aside : serve [k] frames = false) : Tends k [] a b where
  journal := by
    obtain ⟨es, journal, own⟩ := h.journal
    refine ⟨es, journal, fun e he answers => ?_⟩
    rw [aside] at own
    exact own e he answers
  known := h.known
  hand := by
    have hand := h.hand
    rwa [aside] at hand
  settled := h.settled

namespace Carries

theorem after (h : Carries k frames b c) (h' : Carries k [] a b) : Carries k frames a c :=
  ⟨h.toTends.after h'.toTends, h.reports.trans h'.reports⟩

theorem none (h : Carries k frames a b) (aside : serve [k] frames = false) : Carries k [] a b :=
  ⟨h.toTends.none aside, h.reports⟩

/-- What goes on with more frames goes on with the last of them. -/
theorem drop (pre : List Frame) (h : Carries k (pre ++ frames) a b) (aside : pre.all Frame.isAside = true) :
    Carries k frames a b := by
  have same : serve [k] (pre ++ frames) = serve [k] frames := serve_append_of_aside aside [k] frames
  obtain ⟨⟨journal, known, hand, settled⟩, reports⟩ := h
  rw [same] at journal hand
  refine ⟨⟨journal, known, ?_, settled⟩, reports⟩
  split at hand
  next own =>
    rw [if_pos own]
    exact hand.drop pre aside
  next other =>
    rw [if_neg other]
    exact hand

theorem refl (room : Room) : Carries k [] room room := ⟨⟨⟨[], by simp, by simp⟩, id, rfl, rfl⟩, rfl⟩

theorem of_eq (journal : b.journal = a.journal) (interactions : b.interactions = a.interactions)
    (ready : b.agenda.resumes = a.agenda.resumes) (held : b.held = a.held) (settled : b.settled = a.settled) :
    Carries k [] a b where
  journal := ⟨[], by rw [journal, List.append_nil], by simp⟩
  known h := interactions ▸ h
  hand := by
    have hand : b.hand k = a.hand k := by
      have same : (b.hand k).ready = (a.hand k).ready := by rw [ready_hand, ready_hand, ready]
      rw [hand, hand, held, Hand.mk.injEq]
      exact ⟨rfl, same⟩
    exact hand
  settled := by rw [settledOf, settled, settledOf]
  reports := by rw [Room.reports, journal, Room.reports]

end Carries

theorem record_tends (room : Room) {e : Event} (other : e.answers k = false) : Tends k [] room (room.record e) where
  journal := ⟨[e], rfl, fun e' he answers => by
    rw [List.mem_singleton.1 he, other] at answers
    cases answers⟩
  known := id
  hand := rfl
  settled := rfl

theorem record_carries (room : Room) {e : Event} (other : e.answers k = false) (quiet : e.isReport = false) :
    Carries k [] room (room.record e) := by
  refine ⟨room.record_tends other, ?_⟩
  simp [reports, record, quiet]

theorem finish_carries (room : Room) (frames : List Frame) (outcome : Outcome) :
    Carries k frames room (room.finish frames outcome) := by
  rw [finish]
  split
  next empty =>
    rw [List.isEmpty_iff.1 empty]
    exact .refl room
  · refine ⟨⟨⟨[], (List.append_nil _).symm, by simp⟩, id, ?_, rfl⟩, rfl⟩
    cases own : serve [k] frames with
    | false => simp [hand, Agenda.enqueue, Task.serves, own]
    | true =>
      have more : room.agenda.ready.filter (Task.serves [k]) ++ [.resume frames outcome] =
          (room.agenda.enqueue (.resume frames outcome)).ready.filter (Task.serves [k]) := by
        simp [Agenda.enqueue, Task.serves, own]
      have nothing : ([] : List Frame).all Frame.isAside = true := rfl
      rw [if_pos rfl, hand, hand, ← more]
      exact .ready outcome nothing

theorem modifyCommand_carries (room : Room) (name : String) (f : Command → Command) :
    Carries k [] room (room.modifyCommand name f) := by
  rw [modifyCommand]
  split
  · exact .of_eq rfl rfl rfl rfl rfl
  · exact .refl room

theorem modifyInteraction_carries (room : Room) (i : Option Nat) (f : Interaction → Interaction) :
    Carries k [] room (room.modifyInteraction i f) := by
  cases i with
  | none => exact .refl room
  | some i =>
    rw [modifyInteraction]
    split
    next state _ =>
      refine ⟨⟨⟨[], (List.append_nil _).symm, by simp⟩, fun known => ?_, rfl, rfl⟩, rfl⟩
      by_cases same : k = i
      · simp [same]
      · rwa [Table.get?_put_other _ _ same]
    · exact .refl room

theorem modifyPaginator_carries (room : Room) (p : Nat) (f : Paginator → Paginator) :
    Carries k [] room (room.modifyPaginator p f) := .of_eq rfl rfl rfl rfl rfl

theorem modifyWatchdog_carries (room : Room) (w : Nat)
    {f : Watchdog Nat → Agenda Nat Task → Watchdog Nat × Agenda Nat Task}
    (h : ∀ wd a, (f wd a).2.resumes = a.resumes) : Carries k [] room (room.modifyWatchdog w f) := by
  rw [modifyWatchdog]
  split
  · exact .of_eq rfl rfl (h _ _) rfl rfl
  · exact .refl room

theorem ping_carries (room : Room) (w : Option Nat) : Carries k [] room (room.ping w) := by
  cases w with
  | none => exact .refl room
  | some w => exact room.modifyWatchdog_carries w fun wd a => wd.resumes_ping a

theorem callOff_carries (room : Room) (w : Option Nat) : Carries k [] room (room.callOff w) := by
  cases w with
  | none => exact .refl room
  | some w => exact room.modifyWatchdog_carries w fun wd a => wd.resumes_stop a

theorem takeId_carries (room : Room) : Carries k [] room room.takeId.2 := .of_eq rfl rfl rfl rfl rfl

/-! ## Calls -/

theorem succeed_carries (room : Room) (call : Call) (frames : List Frame) :
    Carries k frames room (room.succeed call frames) := by
  cases call with
  | answer name _ _ | editAnswer name _ _ | followUp name _ _ =>
    exact (finish_carries _ frames _).after (room.modifyCommand_carries name _)
  | acknowledge i | notify i _ | replace i _ => exact (finish_carries _ frames _).after (room.modifyInteraction_carries i _)
  | deliver | edit | post | replyTo | fetchAnswer => exact room.finish_carries frames _

/-- A call may answer the interaction of step `k` if what goes on with it serves that step. -/
theorem Carries.called {call : Call} (h : Carries k frames (room.record (.call call)) b)
    (own : Owns k call.interaction? frames) : Carries k frames room b where
  journal := by
    obtain ⟨es, journal, own'⟩ := h.journal
    refine ⟨.call call :: es, by rw [journal, record, List.append_assoc]; rfl, fun e he answers => ?_⟩
    rcases List.mem_cons.1 he with rfl | he
    · exact own answers
    · exact own' e he answers
  known := h.known
  hand := h.hand
  settled := h.settled
  reports := by rw [h.reports, Room.reports, record, List.filter_append]; exact List.append_nil _

/-- A call is held back, or what goes on with it does so with what comes of it. -/
theorem callWith_carries (room : Room) {call : Call} (pre pre' : List Frame) (aside : pre.all Frame.isAside = true)
    (aside' : pre'.all Frame.isAside = true) (own : Owns k call.interaction? frames) :
    Carries k frames room (room.callWith call (pre ++ frames) (pre' ++ frames)) := by
  refine Carries.called ?_ own
  rw [callWith]
  split
  · exact (finish_carries _ _ _).drop pre aside
  split
  · refine ⟨⟨⟨[], (List.append_nil _).symm, by simp⟩, id, ?_, rfl⟩, rfl⟩
    have same : HeldCall.serves k ⟨call, pre' ++ frames⟩ = serve [k] frames := by
      rw [HeldCall.serves, serve_append_of_aside aside']
      cases serves : serve [k] frames with
      | true => rfl
      | false => exact Bool.eq_false_iff.2 fun answers => Bool.false_ne_true (serves.symm.trans (own answers))
    cases serves : serve [k] frames with
    | true =>
      have taken : (room.hand k).Takes k frames ⟨(room.hand k).held ++ [⟨call, pre' ++ frames⟩], (room.hand k).ready⟩ :=
        .held call aside'
      have more : ({ room.record (.call call) with held := room.held ++ [⟨call, pre' ++ frames⟩] } : Room).hand k =
          ⟨(room.hand k).held ++ [⟨call, pre' ++ frames⟩], (room.hand k).ready⟩ := by
        simp [hand, record, same, serves]
      rw [← more] at taken
      exact taken
    | false => simp [hand, record, same, serves]
  · exact (succeed_carries _ call _).drop pre aside

theorem call_carries (room : Room) {call : Call} (frames : List Frame)
    (own : Owns k call.interaction? frames) :
    Carries k frames room (room.call call frames) := room.callWith_carries [] [.pass] rfl rfl own

theorem relay_carries (room : Room) {call : Call} (frames : List Frame)
    (own : Owns k call.interaction? frames) :
    Carries k frames room (room.relay call frames) :=
  room.callWith_carries [.pass, .pass] [.pass, .pass] rfl rfl own

/-! ## Deliveries -/

theorem sendTo_carries (room : Room) (name : String) (payload : Payload) (frames : List Frame) :
    Carries k frames room (room.sendTo name payload frames) := by
  rw [sendTo]
  split
  next c _ =>
    have call : ∀ (id : Nat) (r : Room), Carries k [] room r → Carries k frames room
        (if c.isFresh then r.call (.answer name id payload) (.fetch name id :: frames)
          else r.relay (.editAnswer name id payload) frames) := by
      intro id r h
      split
      · exact ((r.call_carries (.fetch name id :: frames) (owns_none k _)).drop [.fetch name id] rfl).after h
      · exact (r.relay_carries frames (owns_none k _)).after h
    split
    next id room' hid =>
    split at hid
    · cases hid
      exact call _ _ (.refl room)
    · cases hid
      exact call _ _ ((modifyCommand_carries _ name _).after room.takeId_carries)
  · split
    · exact (relay_carries _ frames (owns_none k _)).after room.takeId_carries
    · exact room.finish_carries frames _
  · exact room.finish_carries frames _

theorem replyTo_carries (room : Room) (name : String) (payload : Payload) (frames : List Frame) :
    Carries k frames room (room.replyTo name payload frames) := by
  rw [replyTo]
  split
  · split
    · exact (room.sendTo_carries name payload (.pass :: frames)).drop [.pass] rfl
    · exact (relay_carries _ frames (owns_none k _)).after room.takeId_carries
  · exact (relay_carries _ frames (owns_none k _)).after room.takeId_carries
  · exact room.finish_carries frames _

theorem deliver_carries (room : Room) (via : Via) (origin : Origin) (payload : Payload) (frames : List Frame) :
    Carries k frames room (room.deliver via origin payload frames) := by
  cases origin with
  | user user => exact (call_carries _ frames (owns_none k _)).after room.takeId_carries
  | context name =>
    cases via with
    | send => exact room.sendTo_carries name payload frames
    | reply => exact room.replyTo_carries name payload frames

theorem send_carries (room : Room) (p : Nat) (via : Via) (origin : Origin) (frames : List Frame) :
    Carries k frames room (room.send p via origin frames) := by
  rw [send]
  split
  · exact room.finish_carries frames _
  split
  · exact room.finish_carries frames _
  split
  · exact room.finish_carries frames _
  have clamped := room.modifyPaginator_carries (k := k) p Paginator.clamp
  simp only
  split
  · exact (finish_carries _ frames _).after clamped
  · exact ((deliver_carries _ via origin _ (.deliver p origin :: frames)).drop [.deliver p origin] rfl).after clamped

/-! ## Showing anew, and stopping -/

theorem edit_carries (room : Room) (h : Handle) (payload : Payload) (frames : List Frame) :
    Carries k frames room (room.edit h payload frames) := by
  rw [edit]
  split
  · exact (room.call_carries (.yield .nothing :: frames) (owns_none k _)).drop [.yield .nothing] rfl
  · exact room.call_carries frames (owns_none k _)

theorem update_carries (room : Room) (p : Nat) (frames : List Frame) : Carries k frames room (room.update p frames) := by
  rw [update]
  split
  · exact room.finish_carries frames _
  split
  · exact room.finish_carries frames _
  have clamped := room.modifyPaginator_carries (k := k) p Paginator.clamp
  simp only
  split
  · exact (finish_carries _ frames _).after clamped
  · exact ((edit_carries _ _ _ (.yield .nothing :: frames)).drop [.yield .nothing] rfl).after clamped

theorem unregister_carries (room : Room) (session : String) : Carries k [] room (Room.unregister room session) := by
  rw [Room.unregister]
  have forgotten : Carries k [] room { room with router := room.router.unregister session } := .of_eq rfl rfl rfl rfl rfl
  split
  · exact forgotten
  · exact (record_carries _ rfl rfl).after forgotten

theorem register_carries (room : Room) (session : String) (names : List String) (handler : Handler) :
    Carries k [] room (room.register session names handler) := by
  rw [register]
  have bound : Carries k [] room { room with router := room.router.register session names handler } :=
    .of_eq rfl rfl rfl rfl rfl
  split
  · exact bound
  · exact (record_carries _ rfl rfl).after bound

theorem shutDown_carries (room : Room) (p : Nat) (h : Handle) (reason : StopReason) (frames : List Frame) :
    Carries k frames room (room.shutDown p h reason frames) := by
  rw [shutDown]
  split
  · exact room.finish_carries frames _
  next pg _ =>
    have stopped := (unregister_carries (k := k) _ pg.session).after ((callOff_carries _ pg.watchdog).after
      (room.modifyPaginator_carries p fun pg => { pg with status := .stopped }))
    have retired := (record_carries _ (e := .log (.stopped pg.session reason)) rfl rfl).after
      ((modifyPaginator_carries _ p fun pg => { pg with registered := false }).after stopped)
    simp only
    split
    · exact (finish_carries _ frames _).after retired
    · exact ((edit_carries _ h _ (.yield .nothing :: frames)).drop [.yield .nothing] rfl).after retired

theorem stop_carries (room : Room) (p : Nat) (frames : List Frame) : Carries k frames room (room.stop p frames) := by
  rw [stop]
  split
  · exact room.finish_carries frames _
  split
  · exact room.finish_carries frames _
  split
  · exact room.finish_carries frames _
  · exact (room.shutDown_carries p _ _ (.yield .nothing :: frames)).drop [.yield .nothing] rfl

theorem watchOver_carries (room : Room) (p : Nat) (seconds : Rat) : Carries k [] room (room.watchOver p seconds) := by
  have resumes := (Watchdog.fresh (Number.scale (.finite seconds) 1000)).resumes_watch room.agenda room.watchers.length
  rw [watchOver]
  split
  · have started : ∀ watchers, Carries k [] room { room with
        agenda := ((Watchdog.fresh (Number.scale (.finite seconds) 1000)).watch .woken room.watchers.length
          room.agenda).2.1, watchers } := fun watchers => .of_eq rfl rfl resumes rfl rfl
    exact (modifyPaginator_carries _ p _).after (started _)
  · exact room.modifyPaginator_carries p _

theorem goLive_carries (room : Room) (p : Nat) (origin : Origin) (h : Handle) :
    Carries k [] room (room.goLive p origin h) := by
  rw [goLive]
  split
  · exact .refl room
  next pg _ =>
    have held := room.modifyPaginator_carries (k := k) p fun pg =>
      { pg with message := some h, author := room.authorOf? origin, status := .active }
    have started : ∀ {r : Room}, Carries k [] room r → Carries k [] room (((r.callOff pg.watchdog).watchOver p
        pg.config.idleTimeoutSeconds).log (.sent pg.session pg.pages.length pg.config.idleTimeoutSeconds)) :=
      fun h => (record_carries _ rfl rfl).after ((watchOver_carries _ _ _).after ((callOff_carries _ _).after h))
    simp only
    split
    · exact started held
    · exact started ((modifyPaginator_carries _ p _).after ((register_carries _ _ _ _).after held))

theorem expire_carries (room : Room) (w : Nat) : Carries k [] room (room.expire w) := by
  rw [expire]
  split
  · exact .refl room
  split
  · exact .refl room
  split
  · exact .refl room
  split
  · exact ((shutDown_carries _ _ _ _ _).none rfl).after (room.record_carries rfl rfl)
  · exact .refl room

theorem wake_carries (room : Room) (w : Nat) (pinged : Bool) : Carries k [] room (room.wake w pinged) := by
  rw [wake]
  split
  · exact .refl room
  next watcher _ =>
    have goneOn : ∀ watchers, Carries k [] room
        { room with agenda := (watcher.watchdog.resume .woken w pinged room.agenda).2.1, watchers } :=
      fun watchers => .of_eq rfl rfl (Watchdog.resumes_resume _ _ _ _) rfl rfl
    simp only
    split
    · exact goneOn _
    · exact goneOn _
    · exact (expire_carries _ w).after (goneOn _)

/-! ## Presses

A press of the interaction of step `k` is worked on with frames that serve that step. -/

/-- The longer stack that waits for an answer to an interaction. -/
theorem answer_carries (room : Room) {call : Call} (press : Press) (frames : List Frame)
    (own : Owns k call.interaction? frames) :
    Carries k frames room
      (room.call call (if press.interaction.isSome then .yield .nothing :: frames else frames)) := by
  split
  · exact (room.call_carries (.yield .nothing :: frames) (own.cons _)).drop [.yield .nothing] rfl
  · exact room.call_carries frames own

section

variable (room) (own : Owns k press.interaction frames)

include own

theorem acknowledge_carries : Carries k frames room (room.acknowledge press frames) :=
  room.answer_carries press frames own

theorem notify_carries (text : String) : Carries k frames room (room.notify press text frames) :=
  room.answer_carries press frames own

theorem replace_carries (p : Nat) (pre : List Frame) (aside : pre.all Frame.isAside = true) :
    Carries k frames room (room.replace p press (pre ++ frames) frames) := by
  have clamped := room.modifyPaginator_carries (k := k) p Paginator.clamp
  rw [replace]
  split
  · exact (room.finish_carries _ _).drop pre aside
  simp only
  split
  · exact ((finish_carries _ _ _).drop pre aside).after clamped
  · exact ((answer_carries _ press (.yield .nothing :: frames) (own.cons _)).drop [.yield .nothing] rfl).after clamped

theorem runCallback_carries (p : Nat) (callback : Callback) :
    Carries k frames room (room.runCallback p callback press frames) := by
  have noted := room.record_carries (k := k) (e := .callback press) rfl rfl
  cases callback with
  | give value | fail message => exact (finish_carries _ frames _).after noted
  | failLater message => exact ((finish_carries _ _ _).drop [.pass, .pass] rfl).after noted
  | defer =>
    have deferred := acknowledge_carries (room.record (.callback press)) ((own.cons .pass).cons (.yield (.value (.text "deferred"))))
    exact (deferred.drop [.yield (.value (.text "deferred")), .pass] rfl).after noted
  | stop => exact ((stop_carries _ p _).drop [.yield (.value (.text "stopped")), .pass] rfl).after noted
  | update => exact ((update_carries _ p _).drop [.yield (.value (.text "updated")), .pass] rfl).after noted
  | send origin => exact ((send_carries _ p .send origin _).drop [.pass, .pass] rfl).after noted
  | turnTo index =>
    have replaced := replace_carries ((room.record (.callback press)).modifyPaginator p (·.turnTo index))
      (own.cons .pass) p [.pass] rfl
    exact ((replaced.drop [.pass] rfl).after (modifyPaginator_carries _ p _)).after noted

theorem receive_carries (p : Nat) : Carries k frames room (room.receive p press frames) := by
  rw [receive]
  split
  · exact room.finish_carries frames _
  next pg _ =>
  split
  · have logged := room.record_carries (k := k) (e := .log (.stranger pg.session press.user)) rfl rfl
    simp only
    split
    · exact ((acknowledge_carries _ (own.cons _)).drop [.pass] rfl).after logged
    · exact ((notify_carries _ (own.cons _) _).drop [.pass] rfl).after logged
  split
  · exact (acknowledge_carries _ (own.cons _)).drop [.pass] rfl
  have pinged := room.ping_carries (k := k) pg.watchdog
  simp only
  split
  · exact (runCallback_carries _ own p _).after pinged
  · generalize Paginator.pressed pg.pages.length pg.index _ press.values = moved
    obtain ⟨index, refused⟩ := moved
    have turned : ∀ {r : Room}, Carries k [] room r → Carries k frames room
        ((r.modifyPaginator p fun pg => { pg with index }).replace p press frames frames) :=
      fun h => ((replace_carries _ own p [] rfl).after (modifyPaginator_carries _ p _)).after h
    cases refused with
    | none => exact turned pinged
    | some value => exact turned ((record_carries _ rfl rfl).after pinged)

theorem runHandler_carries (handler : Handler) : Carries k frames room (room.runHandler handler press frames) := by
  cases handler with
  | paginator p => exact room.receive_carries own p
  | silent => exact room.finish_carries frames _
  | scripted name session reaction =>
    have noted := room.record_carries (k := k) (e := .handler name press) rfl rfl
    cases reaction with
    | succeed | fail => exact (finish_carries _ frames _).after noted
    | defer => exact ((acknowledge_carries _ (own.cons _)).drop [.yield .nothing] rfl).after noted
    | deferAndFail =>
      have deferred := acknowledge_carries (room.record (.handler name press)) (own.cons (.fail (.reported (name ++ " failed late"))))
      exact (deferred.drop [.fail (.reported (name ++ " failed late"))] rfl).after noted
    | greet => exact ((notify_carries _ (own.cons _) _).drop [.yield .nothing] rfl).after noted
    | unregister =>
      have forgotten : Carries k [] (room.record (.handler name press))
          { room.record (.handler name press) with router := room.router.unregister session } := .of_eq rfl rfl rfl rfl rfl
      exact (finish_carries _ frames _).after (forgotten.after noted)

theorem dispatch_carries : Carries k frames room (room.dispatch press frames) := by
  rw [dispatch]
  split
  · exact (room.runHandler_carries (own.cons _) _).drop [.yield (.flag true)] rfl
  · split
    · exact (room.acknowledge_carries (own.cons _)).drop [.yield (.flag false)] rfl
    · exact room.finish_carries frames _

end

/-- An interaction of another step comes in. -/
theorem emit_carries (room : Room) {j : Nat} (other : j ≠ k) (kind : ComponentKind) (user customId : String)
    (values : List String) (state : Interaction) : Carries k [] room (room.emit j kind user customId values state) := by
  rw [emit]
  split
  · have noted : Carries k [] room { room with interactions := room.interactions.put j state } := by
      refine ⟨⟨⟨[], (List.append_nil _).symm, by simp⟩, fun known => ?_, rfl, rfl⟩, rfl⟩
      rwa [Table.get?_put_other _ _ other.symm]
    have guarded : serve [k] [.guard (pressOf kind user customId values (some j))] = false := by simp [pressOf, other]
    have own : Owns k (some j) [.guard (pressOf kind user customId values (some j))] := fun its => by simp [other] at its
    exact ((dispatch_carries _ own).none guarded).after noted
  · exact .refl room

/-! ## Turns -/

/-- A frame that works for no step goes on with what is below it. -/
theorem resume_carries (room : Room) {frame : Frame} (aside : frame.isAside = true) (frames : List Frame) (outcome : Outcome) :
    Carries k frames room (room.resume frame frames outcome) := by
  cases frame with
  | pass => exact room.finish_carries frames _
  | yield a | fail fault => cases outcome <;> exact room.finish_carries frames _
  | fetch command id =>
    cases outcome with
    | ok a => exact room.relay_carries frames (owns_none k _)
    | error fault => exact room.finish_carries frames _
  | deliver p origin =>
    cases outcome with
    | error fault => exact room.finish_carries frames _
    | ok a =>
      cases a with
      | message h => exact (finish_carries _ frames _).after (room.goLive_carries p origin h)
      | nothing | flag b | value v | sent m held => exact room.finish_carries frames _
  | expire p =>
    cases outcome with
    | ok a => exact room.finish_carries frames _
    | error fault =>
      rw [resume]
      split
      · exact (finish_carries _ frames _).after (room.record_carries rfl rfl)
      · exact room.finish_carries frames _
  | guard | notice | caller => cases aside

/-- A turn of frames that do not serve step `k`. -/
theorem resume_tends (room : Room) {frame : Frame} {frames : List Frame} (other : serve [k] (frame :: frames) = false)
    (outcome : Outcome) : Tends k [] room (room.resume frame frames outcome) := by
  rw [serve_cons, Bool.or_eq_false_iff] at other
  obtain ⟨notIts, other⟩ := other
  have finished : ∀ (r : Room) (outcome : Outcome), Tends k [] r (r.finish frames outcome) := fun r outcome =>
    ((r.finish_carries frames outcome).none other).toTends
  cases frame with
  | caller j paginator =>
    have other : j ≠ k := by simpa using notIts
    exact ⟨⟨[], (List.append_nil _).symm, by simp⟩, id, rfl, by simp [settledOf, resume, other]⟩
  | notice press =>
    cases outcome with
    | ok a => exact finished _ _
    | error fault => exact (finished _ _).after (room.record_tends rfl)
  | guard press =>
    cases outcome with
    | ok a => exact finished _ _
    | error fault =>
      have logged := room.record_tends (k := k) (e := .log (.pressFailed press.customId press.user fault)) rfl
      have longer : serve [k] (.notice press :: frames) = false := Bool.or_eq_false_iff.2 ⟨notIts, other⟩
      have own : Owns k press.interaction (.notice press :: frames) := fun its =>
        absurd (notIts.symm.trans its) Bool.false_ne_true
      rw [resume, apologize]
      split
      · split
        · exact (finished _ _).after logged
        · exact ((call_carries _ _ own).none longer).toTends.after logged
      · exact (finished _ _).after logged
  | yield | pass | fail | fetch | deliver | expire => exact ((room.resume_carries rfl frames outcome).none other).toTends

/-- What is ready first is taken out. -/
theorem popped_carries {t : Task} {rest : List Task} (ready : room.agenda.ready = t :: rest) (free : t.serves [k] = false) :
    Carries k [] room (room.popped rest) := by
  have hand : (room.popped rest).hand k = room.hand k := by simp [hand, popped, ready, free]
  exact ⟨⟨⟨[], (List.append_nil _).symm, by simp⟩, id, hand, rfl⟩, rfl⟩

theorem fire_carries (room : Room) (limit : Number) : Carries k [] room (room.after (.fire limit)) := by
  rw [after, Timed.fire?]
  split
  · exact .refl room
  next timer rest _ =>
  split
  · have timed : Carries k [] room { room with agenda := { room.agenda with timers := rest }.moveTo timer.due } :=
      .of_eq rfl rfl rfl rfl rfl
    exact (modifyWatchdog_carries _ timer.key fun wd a => wd.resumes_lapse a timer.key).after timed
  · exact .refl room

/-! ## Acts -/

theorem create_carries (room : Room) (source : Source) (overrides : Value) (callback : Option Callback) :
    Carries k [] room (room.create source overrides callback).1 := by
  rw [create]
  simp only
  split
  · exact .of_eq rfl rfl rfl rfl rfl
  · split <;> exact .of_eq rfl rfl rfl rfl rfl

/-- What is held apart from one call. -/
theorem held_eraseIdx {held : List HeldCall} {position : Nat} {h : HeldCall} (found : held[position]? = some h) :
    ∃ before rest, held = before ++ h :: rest ∧ held.eraseIdx position = before ++ rest := by
  obtain ⟨lt, rfl⟩ := List.getElem?_eq_some_iff.1 found
  refine ⟨held.take position, held.drop (position + 1), ?_, List.eraseIdx_eq_take_drop_succ ..⟩
  rw [← List.drop_eq_getElem_cons lt, List.take_append_drop]

/-- A held call that does not serve step `k` is not on hand for it. -/
theorem erased_carries {position : Nat} {h : HeldCall} (found : room.held[position]? = some h) (free : h.serves k = false) :
    Carries k [] room { room with held := room.held.eraseIdx position } := by
  obtain ⟨before, rest, held, erased⟩ := held_eraseIdx found
  have hand : ({ room with held := room.held.eraseIdx position } : Room).hand k = room.hand k := by
    simp only [Room.hand]
    rw [erased, held]
    simp [free]
  exact ⟨⟨⟨[], (List.append_nil _).symm, by simp⟩, id, hand, rfl⟩, rfl⟩

/-- A held call is answered: what goes on with it does so without it. -/
theorem release_carries (k : Nat) {position : Nat} {h : HeldCall} (held : room.held[position]? = some h)
    (failure : Option String) :
    ∃ b, room.release position failure = some b ∧
      Carries k h.frames { room with held := room.held.eraseIdx position } b := by
  rw [release, held, Option.map_some]
  refine ⟨_, rfl, ?_⟩
  cases failure with
  | some message => exact finish_carries _ h.frames _
  | none => exact succeed_carries _ h.call h.frames

theorem after_release {position : Nat} {failure : Option String} {j : Nat} (released : room.release position failure = some b) :
    room.after (.act j (.release position failure)) = b := by
  simp [after, act, released]

theorem withPress_carries {draft : PressDraft} {use : String → Room × Returned} (h : ∀ id, Carries k [] room (use id).1) :
    Carries k [] room (room.withPress draft use).1 := by
  rw [withPress]
  split
  · exact h _
  · exact .refl room

theorem withPaginator_carries {use : Paginator → Room × Returned} (h : ∀ pg, Carries k [] room (use pg).1) :
    Carries k [] room (room.withPaginator p use).1 := by
  rw [withPaginator]
  split
  · exact h _
  · exact .refl room

/-- An act of another step. -/
theorem act_carries (room : Room) {j : Nat} (other : j ≠ k) {a : Act}
    (notRelease : ∀ position failure, a ≠ .release position failure) :
    Carries k [] room (act j a room).1 := by
  have caller : ∀ o, serve [k] [.caller j o] = false := fun o => by simp [other]
  cases a with
  | create source config callback => exact room.create_carries source config callback
  | setIndex p | setCallback p | showPayload p => exact withPaginator_carries fun _ => room.modifyPaginator_carries p _
  | splice p start removed drafts =>
    refine withPaginator_carries fun pg => ?_
    simp only
    split
    · exact .refl room
    · exact room.modifyPaginator_carries p _
  | send p via origin => exact (room.send_carries p via origin _).none (caller _)
  | stop p => exact (room.stop_carries p _).none (caller _)
  | update p => exact (room.update_carries p _).none (caller _)
  | interact p draft => exact withPress_carries fun id => (room.receive_carries (owns_none k _) p).none (caller _)
  | dispatch draft => exact withPress_carries fun id => (room.dispatch_carries (owns_none k _)).none (caller _)
  | emit kind draft state =>
    rw [act]
    split
    · exact withPress_carries fun id => room.emit_carries other kind draft.user id draft.values state
    · exact .refl room
  | wrap kind draft => exact withPress_carries fun _ => .refl room
  | clientRegister session names => exact room.register_carries session names .silent
  | clientUnregister session => exact room.unregister_carries session
  | register | unregister | setFailure | setHolding => exact .of_eq rfl rfl rfl rfl rfl
  | has | author => exact .refl room
  | release position failure => exact absurd rfl (notRelease position failure)

end Room

end Folio
