/-
What an operation of a room does to how things stand, once and for all: `Effect`
lists the few things that it can do, and there is one lemma for each operation
that says it does nothing else. What holds of every run follows from these cases,
without a look at any operation.
-/
import Folio.Proofs.Room.Shifted

namespace Folio.Room

variable {a b c room : Room} {p : Nat} {pg : Paginator} {ds : List (Nat × Origin)} {frames : List Frame}

/-- What an operation can do to how things stand. -/
inductive Effect (ds : List (Nat × Origin)) (a b : Room) : Prop where
  | kept (h : Kept ds a b)
  /-- A paginator is on its way, since its page could be rendered. -/
  | sending {p : Nat} {origin : Origin} {pg : Paginator} {payload : Payload}
      (life : a.standing.life? p = some pg.bare) (going : pg.status ≠ .stopped) (drawn : pg.payload = .ok payload)
      (h : Kept ((p, origin) :: ds) a b)
  /-- A paginator is shown in its message. -/
  | showing {p : Nat} {pg : Paginator} {h : Handle} {payload : Payload} (paginator : b.paginator? p = some pg)
      (message : pg.message = some h) (drawn : pg.payload = .ok payload)
      (shift : Shifted a.standing [(h.id, payload)] ds a b)
  /-- A paginator is over. -/
  | stopping {p : Nat} {pg : Paginator} {h : Handle} (was : a.paginator? p = some pg)
      (message : pg.message = some h) (going : pg.status ≠ .stopped)
      (ended : b.paginator? p = some (Standing.ended pg))
      (shift : Shifted (a.standing.closed p pg) (offEdit pg h) ds a b)
  /-- A handler of the script unregisters itself. -/
  | forgetting {id name session : String} {reaction : Reaction}
      (handler : a.standing.router.handler? id = some (.scripted name session reaction))
      (shift : Shifted { a.standing with router := a.standing.router.unregister session } [] ds a b)

/-- What is kept before an operation makes no difference, if it leaves the
paginators alone. -/
theorem Effect.after (h : Effect ds b c) (k : Kept [] a b) (same : b.paginators = a.paginators) : Effect ds a c := by
  cases h with
  | kept h => exact .kept (k.andThen h)
  | sending life going drawn h =>
    rw [k.standing] at life
    exact .sending life going drawn (k.andThen h)
  | showing paginator message drawn shift =>
    rw [k.standing] at shift
    exact .showing paginator message drawn (shift.after k)
  | stopping was message going ended shift =>
    rw [paginator?, same] at was
    rw [k.standing] at shift
    exact .stopping was message going ended (shift.after k)
  | forgetting handler shift =>
    rw [k.standing] at handler shift
    exact .forgetting handler (shift.after k)

/-! ## Deliveries -/

theorem sendTo_kept (room : Room) (name : String) (payload : Payload) (frames : List Frame) :
    Kept (deliveries frames) room (room.sendTo name payload frames) := by
  rw [sendTo]
  split
  · next c _ =>
    -- The id of the answer is taken once, so the room may be another by the time of the call.
    have call : ∀ (id : Nat) (r : Room), Kept [] room r → Kept (deliveries frames) room
        (if c.isFresh then r.call (.answer name id payload) (.fetch name id :: frames)
          else r.relay (.editAnswer name id payload) frames) := by
      intro id r h
      split
      · exact h.andThen (r.call_kept _ (.fetch name id :: frames) rfl)
      · exact h.andThen (r.relay_kept _ _ rfl)
    split
    next id room' hid =>
    split at hid
    · cases hid
      exact call _ _ (.refl room)
    · cases hid
      exact call _ _ (room.takeId_kept.trans (modifyCommand_kept _ _ _))
  · split
    · exact room.takeId_kept.andThen (relay_kept _ _ _ rfl)
    · exact room.finish_kept _ _
  · exact room.finish_kept _ _

theorem replyTo_kept (room : Room) (name : String) (payload : Payload) (frames : List Frame) :
    Kept (deliveries frames) room (room.replyTo name payload frames) := by
  rw [replyTo]
  split
  · split
    · exact room.sendTo_kept name payload (.pass :: frames)
    · exact room.takeId_kept.andThen (relay_kept _ _ _ rfl)
  · exact room.takeId_kept.andThen (relay_kept _ _ _ rfl)
  · exact room.finish_kept _ _

theorem deliver_kept (room : Room) (via : Via) (origin : Origin) (payload : Payload) (frames : List Frame) :
    Kept (deliveries frames) room (room.deliver via origin payload frames) := by
  cases origin with
  | user user => exact room.takeId_kept.andThen (call_kept _ _ _ rfl)
  | context name =>
    cases via with
    | send => exact room.sendTo_kept name payload frames
    | reply => exact room.replyTo_kept name payload frames

theorem send_effect (room : Room) (p : Nat) (via : Via) (origin : Origin) (frames : List Frame) :
    Effect (deliveries frames) room (room.send p via origin frames) := by
  rw [send]
  split
  · exact .kept (room.finish_kept frames _)
  next pg hp =>
  split
  · exact .kept (room.finish_kept frames _)
  next going =>
  split
  · exact .kept (room.finish_kept frames _)
  have clamped := room.clamp_kept p
  simp only
  split
  · exact .kept (clamped.andThen (finish_kept _ frames _))
  next payload drawn =>
    have life := life?_of_paginator? hp
    have clampedLife : room.standing.life? p = some pg.clamp.bare := life
    exact .sending clampedLife going drawn
      (clamped.andThen (deliver_kept _ via origin payload (.deliver p origin :: frames)))

theorem update_effect (room : Room) (p : Nat) (frames : List Frame) :
    Effect (deliveries frames) room (room.update p frames) := by
  rw [update]
  split
  · exact .kept (room.finish_kept frames _)
  next pg hp =>
  split
  · exact .kept (room.finish_kept frames _)
  next h message =>
  have clamped := room.clamp_kept p
  simp only
  split
  · exact .kept (clamped.andThen (finish_kept _ frames _))
  next payload drawn =>
    have paginator := room.paginator?_modifyPaginator p p Paginator.clamp
    rw [if_pos rfl, hp, Option.map_some] at paginator
    have edited := (clamped.shifted.edit h.id payload).weaken.kept (edit_kept _ h payload (.yield .nothing :: frames))
    have shown : ((room.modifyPaginator p Paginator.clamp).edit h payload (.yield .nothing :: frames)).paginator? p =
        some pg.clamp := by
      rw [paginator?, paginators_edit]
      exact paginator
    exact .showing shown message drawn edited

theorem stop_effect (room : Room) (p : Nat) (frames : List Frame) :
    Effect (deliveries frames) room (room.stop p frames) := by
  rw [stop]
  split
  · exact .kept (room.finish_kept frames _)
  next pg hp =>
  split
  · exact .kept (room.finish_kept frames _)
  next h message =>
  split
  · exact .kept (room.finish_kept frames _)
  next going =>
    obtain ⟨ended, shift⟩ := shutDown_shifted (h := h) hp .asked (.yield .nothing :: frames)
    exact .stopping hp message going ended shift

/-! ### Presses -/

theorem acknowledge_kept (room : Room) (press : Press) (frames : List Frame) :
    Kept (deliveries frames) room (room.acknowledge press frames) := by
  rw [acknowledge]
  split
  · exact room.call_kept _ (.yield .nothing :: frames) rfl
  · exact room.call_kept _ frames rfl

theorem notify_kept (room : Room) (press : Press) (text : String) (frames : List Frame) :
    Kept (deliveries frames) room (room.notify press text frames) := by
  rw [notify]
  split
  · exact room.call_kept _ (.yield .nothing :: frames) rfl
  · exact room.call_kept _ frames rfl

theorem replace_kept (room : Room) (p : Nat) (press : Press) {failed frames : List Frame}
    (same : deliveries failed = deliveries frames) :
    Kept (deliveries frames) room (room.replace p press failed frames) := by
  have clamped := room.clamp_kept p
  rw [replace]
  split
  · exact same ▸ room.finish_kept failed _
  simp only
  split
  · exact same ▸ clamped.andThen (finish_kept _ failed _)
  · split
    · exact clamped.andThen (call_kept _ _ (.yield .nothing :: .yield .nothing :: frames) rfl)
    · exact clamped.andThen (call_kept _ _ (.yield .nothing :: frames) rfl)

theorem runCallback_effect (room : Room) (p : Nat) (callback : Callback) (press : Press) (frames : List Frame) :
    Effect (deliveries frames) room (room.runCallback p callback press frames) := by
  have noted : Kept [] room (room.record (.callback press)) := room.record_kept rfl
  cases callback with
  | give value => exact .kept (noted.andThen (finish_kept _ frames _))
  | fail message => exact .kept (noted.andThen (finish_kept _ frames _))
  | failLater message => exact .kept (noted.andThen (finish_kept _ (.pass :: .pass :: frames) _))
  | defer =>
    exact .kept (noted.andThen (acknowledge_kept _ press (.yield (.value (.text "deferred")) :: .pass :: frames)))
  | stop => exact (stop_effect _ p (.yield (.value (.text "stopped")) :: .pass :: frames)).after noted rfl
  | update => exact (update_effect _ p (.yield (.value (.text "updated")) :: .pass :: frames)).after noted rfl
  | send origin => exact (send_effect _ p .send origin (.pass :: .pass :: frames)).after noted rfl
  | turnTo index =>
    have turned : Kept [] room ((room.record (.callback press)).modifyPaginator p (·.turnTo index)) :=
      noted.trans (modifyPaginator_kept _ p fun _ _ => rfl)
    have same : deliveries (.pass :: .pass :: frames) = deliveries (.pass :: frames) := rfl
    exact .kept (turned.andThen (replace_kept _ p press same))

theorem receive_effect (room : Room) (p : Nat) (press : Press) (frames : List Frame) :
    Effect (deliveries frames) room (room.receive p press frames) := by
  rw [receive]
  split
  · exact .kept (room.finish_kept frames _)
  next pg hp =>
  split
  · have logged := room.log_kept (.stranger pg.session press.user)
    simp only
    split
    · exact .kept (logged.andThen (acknowledge_kept _ press (.pass :: frames)))
    · exact .kept (logged.andThen (notify_kept _ press _ (.pass :: frames)))
  split
  · exact .kept (room.acknowledge_kept press (.pass :: frames))
  have pinged := room.ping_kept pg.watchdog
  simp only
  split
  · exact (runCallback_effect _ p _ press frames).after pinged (room.paginators_ping pg.watchdog)
  next role callback _ =>
    have turned : ∀ (index : Nat) {r : Room}, Kept [] room r →
        Kept [] room (r.modifyPaginator p fun pg => { pg with index }) :=
      fun _ _ kept => kept.trans (modifyPaginator_kept _ p fun _ _ => rfl)
    generalize Paginator.pressed pg.pages.length pg.index _ press.values = moved
    obtain ⟨index, refused⟩ := moved
    cases refused with
    | none => exact .kept ((turned index pinged).andThen (replace_kept _ p press rfl))
    | some value =>
      have logged := pinged.trans (log_kept _ (.badChoice pg.session value))
      exact .kept ((turned index logged).andThen (replace_kept _ p press rfl))

theorem runHandler_effect {id : String} {handler : Handler} (h : room.router.handler? id = some handler)
    (press : Press) (frames : List Frame) :
    Effect (deliveries frames) room (room.runHandler handler press frames) := by
  cases handler with
  | paginator p => exact room.receive_effect p press frames
  | silent => exact .kept (room.finish_kept frames _)
  | scripted name session reaction =>
    have noted : Kept [] room (room.record (.handler name press)) := room.record_kept rfl
    cases reaction with
    | succeed | fail => exact .kept (noted.andThen (finish_kept _ frames _))
    | defer => exact .kept (noted.andThen (acknowledge_kept _ press (.yield .nothing :: frames)))
    | deferAndFail =>
      exact .kept (noted.andThen
        (acknowledge_kept _ press (.fail (.reported (name ++ " failed late")) :: frames)))
    | greet => exact .kept (noted.andThen (notify_kept _ press _ (.yield .nothing :: frames)))
    | unregister =>
      exact .forgetting h ((noted.shifted.rerouted (room.router.unregister session)).weaken.kept
        (finish_kept _ frames _))

theorem dispatch_effect (room : Room) (press : Press) (frames : List Frame) :
    Effect (deliveries frames) room (room.dispatch press frames) := by
  rw [dispatch]
  split
  next handler h => exact runHandler_effect h press (.yield (.flag true) :: frames)
  · split
    · exact .kept (room.acknowledge_kept press (.yield (.flag false) :: frames))
    · exact .kept (room.finish_kept frames _)

theorem emit_effect (room : Room) (k : Nat) (kind : ComponentKind) (user customId : String) (values : List String)
    (state : Interaction) : Effect [] room (room.emit k kind user customId values state) := by
  rw [emit]
  split
  · exact (dispatch_effect _ _ [.guard _]).after (room.aside_kept _ _ _ _ _ _) rfl
  · exact .kept (.refl room)

theorem apologize_kept (room : Room) (press : Press) (fault : Fault) (frames : List Frame) :
    Kept (deliveries frames) room (room.apologize press fault frames) := by
  have logged := room.log_kept (.pressFailed press.customId press.user fault)
  rw [apologize]
  split
  · split
    · exact logged.andThen (finish_kept _ frames _)
    · exact logged.andThen (call_kept _ _ (.notice press :: frames) rfl)
  · exact logged.andThen (finish_kept _ frames _)

end Folio.Room
