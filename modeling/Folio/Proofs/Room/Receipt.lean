/-
Which paginator receives a press. A press reaches a paginator in three ways: a
script hands it over, the router finds it the paginator of its custom id, or it
comes in from the service and is routed. Whichever it is, the paginator receives it
at once (`receives`).
-/
import Folio.Proofs.Room.Outward
import Folio.Proofs.Room.Run

namespace Folio.Room

variable {room : Room} {p : Nat} {press : Press} {m : Move}

/-- The paginator that the router finds for a press. -/
def routed? (room : Room) (press : Press) : Option (Nat × Press) :=
  match room.router.handler? press.customId with
  | some (.paginator p) => some (p, press)
  | _ => none

/-- The paginator that receives a press by a move, and that press. -/
def received? (room : Room) : Move → Option (Nat × Press)
  | .act _ (.interact p draft) =>
    (room.customIdOf? draft.target).map fun id => (p, ⟨draft.user, id, draft.values, none⟩)
  | .act _ (.dispatch draft) =>
    (room.customIdOf? draft.target).bind fun id => room.routed? ⟨draft.user, id, draft.values, none⟩
  | .act k (.emit kind draft _) =>
    if room.client = .service true then
      (room.customIdOf? draft.target).bind fun id =>
        if kind ≠ .other ∧ (parseCustomId? id).isSome then
          room.routed? (pressOf kind draft.user id draft.values (some k))
        else none
    else none
  | _ => none

/-- How a move hands a press to a paginator: from which room, and what goes on
once the paginator is done. -/
inductive Receives (room : Room) (p : Nat) (press : Press) : Move → Room → List Frame → Prop where
  | handed (k : Nat) (draft : PressDraft) : Receives room p press (.act k (.interact p draft)) room [.caller k none]
  | routed (k : Nat) (draft : PressDraft) :
    Receives room p press (.act k (.dispatch draft)) room [.yield (.flag true), .caller k none]
  | emitted (k : Nat) (kind : ComponentKind) (draft : PressDraft) (state : Interaction)
      (interaction : press.interaction = some k) :
    Receives room p press (.act k (.emit kind draft state)) { room with interactions := room.interactions.put k state }
      [.yield (.flag true), .guard press]

theorem routed?_eq_some {press' : Press} (h : room.routed? press' = some (p, press)) :
    press' = press ∧ room.router.handler? press.customId = some (.paginator p) := by
  rw [routed?] at h
  split at h
  next q hq =>
    obtain ⟨rfl, rfl⟩ := Prod.mk.inj (Option.some.inj h)
    exact ⟨rfl, hq⟩
  · cases h

/-- A routed press is received. -/
theorem dispatch_of_handler (room : Room) (h : room.router.handler? press.customId = some (.paginator p)) (frames : List Frame) :
    room.dispatch press frames = room.receive p press (.yield (.flag true) :: frames) := by
  rw [dispatch, h]
  rfl

/-- What is handed to a paginator is received by it. -/
theorem receives (h : room.received? m = some (p, press)) :
    ∃ a frames, Receives room p press m a frames ∧ room.after m = a.receive p press frames := by
  unfold received? at h
  split at h
  next k q draft =>
    obtain ⟨id, hid, eq⟩ := Option.map_eq_some_iff.1 h
    obtain ⟨rfl, rfl⟩ := Prod.mk.inj eq
    refine ⟨_, _, .handed k draft, ?_⟩
    rw [after, act, withPress, hid]
  next k draft =>
    obtain ⟨id, hid, routed⟩ := Option.bind_eq_some_iff.1 h
    obtain ⟨rfl, handler⟩ := routed?_eq_some routed
    refine ⟨_, _, .routed k draft, ?_⟩
    rw [after, act, withPress, hid]
    exact room.dispatch_of_handler handler [.caller k none]
  next k kind draft state =>
    split at h
    next listens =>
      obtain ⟨id, hid, routed⟩ := Option.bind_eq_some_iff.1 h
      split at routed
      next own =>
        obtain ⟨rfl, handler⟩ := routed?_eq_some routed
        refine ⟨_, _, .emitted k kind draft state rfl, ?_⟩
        rw [after, act, if_pos listens, withPress, hid]
        simp only [emit]
        rw [if_pos own]
        exact dispatch_of_handler { room with interactions := room.interactions.put k state } handler _
      · cases routed
    · cases h
  · cases h

namespace Receives

variable {a : Room} {frames : List Frame}

/-- Nothing but the outside is dealt with before the paginator receives the press. -/
theorem outward (h : Receives room p press m a frames) : Outward [] room a := by
  cases h with
  | handed | routed => exact .refl room
  | emitted => exact ⟨rfl, (List.append_nil _).symm⟩

end Receives

/-! ## Presses that no paginator receives -/

/-- Whether an act hands over a press. -/
def Act.isPress : Act → Bool
  | .interact .. | .dispatch _ | .emit .. => true
  | _ => false

/-- From `a` to `b` the outside was dealt with, and perhaps the router, and no page was shown. -/
def Unpaged (a b : Room) : Prop :=
  ∃ r es, Outward es { a with router := r } b ∧ ∀ e ∈ es, e.payload? = none

theorem Outward.unpaged {a b : Room} {es : List Event} (h : Outward es a b) (shows : ∀ e ∈ es, e.payload? = none) :
    Unpaged a b := ⟨a.router, es, h, shows⟩

/-- A handler that is no paginator shows no page. -/
theorem runHandler_unpaged {handler : Handler} (h : ∀ p, handler ≠ .paginator p) (room : Room) (press : Press)
    (frames : List Frame) : Unpaged room (room.runHandler handler press frames) := by
  cases handler with
  | paginator p => exact absurd rfl (h p)
  | silent => exact (room.finish_outward frames (.ok .nothing)).unpaged (by simp)
  | scripted name session reaction =>
    have noted := room.record_outward (.handler name press)
    cases reaction with
    | succeed | fail => exact (noted.andThen (finish_outward _ frames _)).unpaged (by simp [Event.payload?])
    | defer =>
      exact (noted.trans (acknowledge_outward _ press (.yield .nothing :: frames))).unpaged
        (by simp [Event.payload?, Call.payload?])
    | deferAndFail =>
      exact (noted.trans (acknowledge_outward _ press (.fail (.reported (name ++ " failed late")) :: frames))).unpaged
        (by simp [Event.payload?, Call.payload?])
    | greet =>
      exact (noted.trans (notify_outward _ press _ (.yield .nothing :: frames))).unpaged
        (by simp [Event.payload?, Call.payload?])
    | unregister =>
      have forgotten : Outward [.handler name press] { room with router := room.router.unregister session }
          { room.record (.handler name press) with router := room.router.unregister session } := record_outward _ _
      exact ⟨_, _, forgotten.andThen (finish_outward _ frames _), by simp [Event.payload?]⟩

theorem dispatch_unpaged (room : Room) (h : room.routed? press = none) (frames : List Frame) :
    Unpaged room (room.dispatch press frames) := by
  rw [dispatch]
  split
  next handler hh =>
    refine runHandler_unpaged (fun p hp => ?_) room press (.yield (.flag true) :: frames)
    rw [routed?, hh, hp] at h
    cases h
  · split
    · exact (room.acknowledge_outward press (.yield (.flag false) :: frames)).unpaged
        (by simp [Event.payload?, Call.payload?])
    · exact (room.finish_outward frames (.ok (.flag false))).unpaged (by simp)

/-- A press that no paginator receives shows no page. -/
theorem unreceived {k : Nat} {a : Act} (isPress : a.isPress = true) (h : room.received? (.act k a) = none) :
    Unpaged room (room.after (.act k a)) := by
  have unchanged : Unpaged room room := (Outward.refl room).unpaged (by simp)
  cases a with
  | interact p draft =>
    rw [received?, Option.map_eq_none_iff] at h
    rw [after, act, withPress, h]
    exact unchanged
  | dispatch draft =>
    rw [after, act, withPress]
    cases hid : room.customIdOf? draft.target with
    | none => exact unchanged
    | some id =>
      rw [received?, hid, Option.bind_some] at h
      exact room.dispatch_unpaged h [.caller k none]
  | emit kind draft state =>
    rw [after, act]
    split
    next listens =>
      rw [withPress]
      cases hid : room.customIdOf? draft.target with
      | none => exact unchanged
      | some id =>
        simp only [emit]
        split
        next own =>
          rw [received?, if_pos listens, hid, Option.bind_some, if_pos own] at h
          obtain ⟨r, es, outward, shows⟩ :=
            dispatch_unpaged { room with interactions := room.interactions.put k state } h [.guard _]
          have noted : Outward [] { room with router := r }
              { room with interactions := room.interactions.put k state, router := r } :=
            ⟨rfl, (List.append_nil _).symm⟩
          exact ⟨r, es, outward.after noted, shows⟩
        · exact unchanged
    · exact unchanged
  | create | setIndex | setCallback | splice | showPayload | send | stop | update | wrap | register | unregister | has
    | clientRegister | clientUnregister | author | setFailure | setHolding | release => cases isPress

end Folio.Room
