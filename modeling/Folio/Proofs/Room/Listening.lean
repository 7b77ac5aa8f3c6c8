/-
Listening for interactions. Of a use of a control that comes in from the service the
listener makes a task, which is an errand of the step in which it came in. It ends with a
guard, so it goes on until the guard takes its turn, with what came of the routing. A
failure is logged there, once, and the user is told unless the interaction was answered;
then the errand ends with a notice, whose turn is the last one (`Listening`).
-/
import Folio.Proofs.Room.Onward

namespace Folio.Room

variable {room : Room} {k : Nat} {frames : List Frame} {press : Press} {m : Move}

/-! ## Turns of the listener -/

/-- A turn of a frame that works for a step. -/
structure Heard where
  frame : Frame
  outcome : Outcome
  /-- Whether the interaction of the step was replied to or deferred by then. -/
  answered : Bool
  /-- What happened in the turn. -/
  events : List Event

/-- Whether the interaction of step `k` was replied to or deferred. -/
def isAnswered (k : Nat) (room : Room) : Bool := (room.interactions.get? k).any fun i => i.replied || i.deferred

/-- What happens in a move. -/
def events (room : Room) (m : Move) : List Event := (room.after m).journal.drop room.journal.length

/-- The turn that a frame of step `k` takes in a move, if one does. -/
def heard (k : Nat) (room : Room) (m : Move) : List Heard :=
  if room.isTurnOf k m then
    match room.agenda.ready with
    | .resume (frame :: _) outcome :: _ => [⟨frame, outcome, room.isAnswered k, room.events m⟩]
    | _ => []
  else []

/-- The turns that frames of step `k` take in a run. -/
def heardAll (k : Nat) (room : Room) : List Move → List Heard
  | [] => []
  | m :: moves => room.heard k m ++ (room.after m).heardAll k moves

theorem heard_of_not_isTurnOf (aside : room.isTurnOf k m = false) : room.heard k m = [] := by
  rw [heard, aside]
  rfl

theorem heard_turn {frame : Frame} {outcome : Outcome} {rest : List Task} (own : concerns [k] frame.step? = true)
    (ready : room.agenda.ready = .resume (frame :: frames) outcome :: rest) :
    room.heard k .turn = [⟨frame, outcome, room.isAnswered k, room.events .turn⟩] := by
  have its : room.isTurnOf k .turn = true := by
    rw [isTurnOf, ready]
    exact own
  rw [heard, if_pos its, ready]

theorem events_of_journal {es : List Event} (h : (room.after m).journal = room.journal ++ es) : room.events m = es := by
  rw [events, h, List.drop_left]

/-- How far a listener has come with the interaction of step `k`: what turns it took so
far, and what is on hand. -/
inductive Listening (k : Nat) (press : Press) : List Heard → Hand → Prop where
  /-- The press is being routed. -/
  | routing {hand : Hand} (on : Hand.none.Takes k [.guard press] hand) : Listening k press [] hand
  /-- That succeeded, and nothing happened. -/
  | routed (a : Answer) (answered : Bool) : Listening k press [⟨.guard press, .ok a, answered, []⟩] .none
  /-- That failed. It was logged, and there was nothing more to say. -/
  | failed (fault : Fault) : Listening k press
    [⟨.guard press, .error fault, true, [.log (.pressFailed press.customId press.user fault)]⟩] .none
  /-- That failed. It was logged, and the user is being told. -/
  | telling (fault : Fault) {hand : Hand} (on : Hand.none.Takes k [.notice press] hand) : Listening k press
    [⟨.guard press, .error fault, false,
      [.log (.pressFailed press.customId press.user fault), .call (.notify (some k) apology)]⟩] hand
  /-- The user was told. -/
  | told (fault : Fault) (a : Answer) (answered : Bool) : Listening k press
    [⟨.guard press, .error fault, false,
      [.log (.pressFailed press.customId press.user fault), .call (.notify (some k) apology)]⟩,
      ⟨.notice press, .ok a, answered, []⟩] .none
  /-- The user could not be told, and that was logged too. -/
  | untold (fault unable : Fault) (answered : Bool) : Listening k press
    [⟨.guard press, .error fault, false,
      [.log (.pressFailed press.customId press.user fault), .call (.notify (some k) apology)]⟩,
      ⟨.notice press, .error unable, answered, [.log (.noticeFailed unable)]⟩] .none

/-! ### One move -/

/-- If nothing is on hand for a step, a move of another step leaves it at that. -/
theorem hand_none_after (none : room.hand k = .none) (other : m.step? ≠ some k) :
    room.heard k m = [] ∧ (room.after m).hand k = .none := by
  have free := serves_of_hand_none none m
  exact ⟨heard_of_not_isTurnOf (isTurnOf_of_serves free), (room.after_tends other free).hand_eq.trans none⟩

/-- An apology, if an interaction that is known was not answered. -/
theorem apologize_eq (room : Room) {state : Interaction} (its : press.interaction = some k)
    (known : room.interactions.get? k = some state) (fault : Fault) (frames : List Frame) : room.apologize press fault frames =
      if room.isAnswered k then (room.log (.pressFailed press.customId press.user fault)).finish frames (.ok .nothing)
      else (room.log (.pressFailed press.customId press.user fault)).call (.notify (some k) apology)
        (.notice press :: frames) := by
  have found : (room.log (.pressFailed press.customId press.user fault)).interactions.get? k = some state := known
  simp only [apologize, its, Option.bind_some, found, isAnswered, known, Option.any_some]

/-- The turn of the guard. -/
theorem guard_turn {outcome : Outcome} {rest : List Task} (its : press.interaction = some k)
    (known : (room.interactions.get? k).isSome = true) (ready : room.agenda.ready = .resume [.guard press] outcome :: rest)
    (alone : (room.popped rest).hand k = .none) : Listening k press (room.heard k .turn) ((room.after .turn).hand k) := by
  have own : concerns [k] (Frame.guard press).step? = true := by simp [its]
  have turned : room.after .turn = (room.popped rest).resume (.guard press) [] outcome := after_turn ready
  rw [heard_turn own ready]
  cases outcome with
  | ok a =>
    have silent : room.events .turn = [] := events_of_journal (by rw [turned]; exact (List.append_nil _).symm)
    have none : (room.after .turn).hand k = .none := by
      rw [turned]
      exact alone
    rw [silent, none]
    exact .routed a _
  | error fault =>
    obtain ⟨state, known⟩ := Option.isSome_iff_exists.1 known
    have apologized := apologize_eq (room.popped rest) its known fault []
    have turned : room.after .turn = (room.popped rest).apologize press fault [] := turned
    have same : (room.popped rest).isAnswered k = room.isAnswered k := rfl
    rw [same] at apologized
    cases answered : room.isAnswered k with
    | true =>
      rw [answered, if_pos rfl] at apologized
      have logged : room.events .turn = [.log (.pressFailed press.customId press.user fault)] :=
        events_of_journal (by rw [turned, apologized]; rfl)
      have none : (room.after .turn).hand k = .none := by
        rw [turned, apologized]
        exact alone
      rw [logged, none]
      exact .failed fault
    | false =>
      rw [answered, if_neg Bool.false_ne_true] at apologized
      have called := ((room.popped rest).log (.pressFailed press.customId press.user fault)).call_outward
        (.notify (some k) apology) [.notice press]
      have logged : room.events .turn =
          [.log (.pressFailed press.customId press.user fault), .call (.notify (some k) apology)] := by
        refine events_of_journal ?_
        rw [turned, apologized, called.journal]
        exact List.append_assoc ..
      have serves : serve [k] [.notice press] = true := by simp [its]
      have carries : Carries k [.notice press] ((room.popped rest).log (.pressFailed press.customId press.user fault))
          (((room.popped rest).log (.pressFailed press.customId press.user fault)).call (.notify (some k) apology)
            [.notice press]) := call_carries _ _ fun _ => serves
      rw [logged, turned, apologized]
      exact .telling fault (carries.takes serves alone)

/-- The turn of the notice. -/
theorem notice_turn {outcome : Outcome} {rest : List Task} (its : press.interaction = some k)
    (ready : room.agenda.ready = .resume [.notice press] outcome :: rest)
    (alone : (room.popped rest).hand k = .none) (fault : Fault) : Listening k press
      (⟨.guard press, .error fault, false,
        [.log (.pressFailed press.customId press.user fault), .call (.notify (some k) apology)]⟩ :: room.heard k .turn)
      ((room.after .turn).hand k) := by
  have own : concerns [k] (Frame.notice press).step? = true := by simp [its]
  have turned : room.after .turn = (room.popped rest).resume (.notice press) [] outcome := after_turn ready
  rw [heard_turn own ready]
  cases outcome with
  | ok a =>
    have silent : room.events .turn = [] := events_of_journal (by rw [turned]; exact (List.append_nil _).symm)
    have none : (room.after .turn).hand k = .none := by
      rw [turned]
      exact alone
    rw [silent, none]
    exact .told fault a _
  | error unable =>
    have logged : room.events .turn = [.log (.noticeFailed unable)] := events_of_journal (by rw [turned]; rfl)
    have none : (room.after .turn).hand k = .none := by
      rw [turned]
      exact alone
    rw [logged, none]
    exact .untold fault unable _

/-- A listener goes on to listen. Its interaction is known at least until the guard's turn. -/
theorem listening_after {turns : List Heard} (its : press.interaction = some k)
    (known : turns = [] → (room.interactions.get? k).isSome = true) (other : m.step? ≠ some k)
    (h : Listening k press turns (room.hand k)) :
    Listening k press (turns ++ room.heard k m) ((room.after m).hand k) ∧
      (turns ++ room.heard k m = [] → ((room.after m).interactions.get? k).isSome = true) := by
  generalize current : room.hand k = hand at h
  have ended : hand = Hand.none → turns ++ room.heard k m = turns ∧ (room.after m).hand k = hand := by
    rintro rfl
    obtain ⟨silent, none⟩ := hand_none_after current other
    exact ⟨by rw [silent, List.append_nil], none⟩
  cases h with
  | routing on =>
    cases errand_after (by simp [its]) (current ▸ on) other with
    | on goesOn stays aside =>
      rw [heard_of_not_isTurnOf aside]
      exact ⟨.routing goesOn, fun _ => stays (known rfl)⟩
    | turn turn ready alone =>
      subst turn
      refine ⟨guard_turn its (known rfl) ready alone, fun none => ?_⟩
      have own : concerns [k] (Frame.guard press).step? = true := by simp [its]
      rw [heard_turn own ready] at none
      cases none
  | telling fault on =>
    refine ⟨?_, nofun⟩
    cases errand_after (by simp [its]) (current ▸ on) other with
    | on goesOn _ aside =>
      rw [heard_of_not_isTurnOf aside]
      exact .telling fault goesOn
    | turn turn ready alone =>
      subst turn
      exact notice_turn its ready alone fault
  | routed a answered =>
    obtain ⟨same, none⟩ := ended rfl
    rw [same, none]
    exact ⟨.routed a answered, nofun⟩
  | failed fault =>
    obtain ⟨same, none⟩ := ended rfl
    rw [same, none]
    exact ⟨.failed fault, nofun⟩
  | told fault a answered =>
    obtain ⟨same, none⟩ := ended rfl
    rw [same, none]
    exact ⟨.told fault a answered, nofun⟩
  | untold fault unable answered =>
    obtain ⟨same, none⟩ := ended rfl
    rw [same, none]
    exact ⟨.untold fault unable answered, nofun⟩

/-! ## Runs -/

theorem listening_afterAll {turns : List Heard} {moves : List Move} (its : press.interaction = some k)
    (known : turns = [] → (room.interactions.get? k).isSome = true) (others : ∀ m ∈ moves, m.step? ≠ some k)
    (h : Listening k press turns (room.hand k)) :
    Listening k press (turns ++ room.heardAll k moves) ((room.afterAll moves).hand k) := by
  induction moves generalizing room turns with
  | nil => exact (List.append_nil turns).symm ▸ h
  | cons m moves ih =>
    obtain ⟨listening, known⟩ := listening_after its known (others m (by simp)) h
    rw [heardAll, ← List.append_assoc, afterAll_cons]
    exact ih known (fun m' hm => others m' (List.mem_cons_of_mem m hm)) listening

/-- Nothing is on hand for a step before it. -/
theorem IsOpened.hand_none {start : Room} (opened : IsOpened start) {moves : List Move}
    (others : ∀ m ∈ moves, m.step? ≠ some k) : (start.afterAll moves).hand k = .none := by
  have first : start.hand k = .none := by
    obtain ⟨ids, client, environment, contexts⟩ := opened
    rfl
  clear opened
  induction moves generalizing start with
  | nil => exact first
  | cons m moves ih =>
    exact ih (fun m' hm => others m' (List.mem_cons_of_mem m hm)) (hand_none_after first (others m (by simp))).2

/-- An interaction is being routed once it came in. -/
theorem listening_emit {kind : ComponentKind} {customId : String} (user : String) (values : List String) (state : Interaction)
    (none : room.hand k = .none) (control : kind ≠ .other ∧ (parseCustomId? customId).isSome = true) :
    let press := pressOf kind user customId values (some k)
    Listening k press [] ((room.emit k kind user customId values state).hand k) ∧
      ((room.emit k kind user customId values state).interactions.get? k).isSome = true := by
  intro press
  have its : press.interaction = some k := rfl
  have serves : serve [k] [.guard press] = true := by simp [its]
  have carries : Carries k [.guard press] { room with interactions := room.interactions.put k state }
      (room.emit k kind user customId values state) := by
    rw [emit, if_pos control]
    exact dispatch_carries _ fun _ => serves
  exact ⟨.routing (carries.takes serves none), carries.known (by simp)⟩

end Folio.Room
