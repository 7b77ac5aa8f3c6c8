/-
Dispatching. The router is a map of sessions (`Router.mirrors_applyAll`), so a press is
given to the handler of the session whose custom id it has, or to none.

A step that dispatches a press is an errand, and what is done for it ends with two frames:
the first one puts a flag in the place of what the handler came to, and the last one tells
the caller. So the caller is told once, and after the handler: the flag if that succeeded,
and how it failed otherwise (`Dispatching`). A press that nothing is bound to takes the same
way with a deferral in the place of the handler, or it is told to the caller right away.
-/
import Folio.Proofs.Room.Onward
import Folio.Proofs.Router

namespace Folio.Room

variable {room : Room} {k : Nat} {m : Move} {moves : List Move} {flag : Bool}
  {live : Router.Sessions Handler} {outcome : Outcome} {outcomes : List Outcome}

/-! ## Routing -/

/-- A press of what is bound is given to its handler, and `true` stands for what comes of that. -/
theorem dispatch_of_binds (mirrors : room.router.Mirrors live) (press : Press) {g : Handler}
    (bound : live.Binds press.customId g) (frames : List Frame) :
    room.dispatch press frames = room.runHandler g press (.yield (.flag true) :: frames) := by
  have found := mirrors.handler?_eq_some_iff.2 bound
  simp only [dispatch, found]

/-- A press of what is not bound is deferred if it has the custom id of a control, and
`false` stands for what comes of that. -/
theorem dispatch_of_not_binds (mirrors : room.router.Mirrors live) (press : Press)
    (unbound : ¬∃ g, live.Binds press.customId g) (frames : List Frame) : room.dispatch press frames =
      if (parseCustomId? press.customId).isSome then room.acknowledge press (.yield (.flag false) :: frames)
      else room.finish frames (.ok (.flag false)) := by
  have none := mirrors.handler?_eq_none_iff.2 unbound
  simp only [dispatch, none]

/-! ## Telling the caller -/

/-- Whether the caller of step `k` was told of an outcome, and what is on hand until then. -/
inductive Telling (k : Nat) (outcome : Outcome) : List (Nat × Outcome) → Hand → Prop where
  | due : Telling k outcome [] ⟨[], [.resume [.caller k none] outcome]⟩
  | told : Telling k outcome [(k, outcome)] .none

theorem Telling.told_of_hand_none {settled : List (Nat × Outcome)} (h : Telling k outcome settled .none) :
    settled = [(k, outcome)] := by
  cases h
  rfl

/-- A caller that asked for no paginator is told what there is to tell. -/
theorem seen_none (room : Room) (outcome : Outcome) : room.seen none outcome = outcome := by
  cases outcome with
  | error fault => rfl
  | ok a => cases a <;> rfl

/-- The turn of a caller. -/
theorem settledOf_caller (unsettled : room.settledOf k = []) (outcome : Outcome) :
    (room.resume (.caller k none) [] outcome).settledOf k = [(k, outcome)] := by
  have told : (room.resume (.caller k none) [] outcome).settledOf k = room.settledOf k ++ [(k, outcome)] := by
    simp [settledOf, resume, seen_none]
  rw [told, unsettled, List.nil_append]

/-- Until the caller was told, nothing else is done for its step. -/
theorem telling_after (other : m.step? ≠ some k) (h : Telling k outcome (room.settledOf k) (room.hand k)) :
    Telling k outcome ((room.after m).settledOf k) ((room.after m).hand k) := by
  cases serves : room.serves k m with
  | false =>
    have tends := room.after_tends other serves
    rw [tends.settled, tends.hand_eq]
    exact h
  | true =>
    generalize current : room.hand k = hand at h
    generalize before : room.settledOf k = settled at h
    cases h with
    | told => exact absurd (serves.symm.trans (serves_of_hand_none current m)) Bool.noConfusion
    | due =>
      obtain ⟨rest, rfl, ready, alone⟩ := turn_of_serves current serves
      have turned : room.after .turn = (room.popped rest).resume (.caller k none) [] outcome := after_turn ready
      have unsettled : (room.popped rest).settledOf k = [] := before
      have none : ((room.popped rest).resume (.caller k none) [] outcome).hand k = .none := alone
      rw [turned, settledOf_caller unsettled, none]
      exact .told

theorem telling_afterAll (others : ∀ m ∈ moves, m.step? ≠ some k) (h : Telling k outcome (room.settledOf k) (room.hand k)) :
    Telling k outcome ((room.afterAll moves).settledOf k) ((room.afterAll moves).hand k) := by
  induction moves generalizing room with
  | nil => exact h
  | cons m moves ih => exact ih (fun m' hm => others m' (List.mem_cons_of_mem m hm)) (telling_after (others m (by simp)) h)

/-! ## What comes of a press -/

/-- What the press that step `k` dispatched comes to, if it does in a move: the outcome with
which the frame above the caller goes on. -/
def came (k : Nat) (room : Room) : Move → List Outcome
  | .turn =>
    match room.agenda.ready with
    | .resume [_, .caller j _] outcome :: _ => if j = k then [outcome] else []
    | _ => []
  | _ => []

/-- What it comes to in a run. -/
def cameAll (k : Nat) (room : Room) : List Move → List Outcome
  | [] => []
  | m :: moves => room.came k m ++ (room.after m).cameAll k moves

/-- Nothing comes of the press while more or fewer frames are left. -/
theorem came_eq_nil (more : m = .turn → ∀ frames outcome rest, room.agenda.ready = .resume frames outcome :: rest →
    serve [k] frames = true → frames.length ≠ 2) : room.came k m = [] := by
  cases m with
  | act | fire | moveTo => rfl
  | turn =>
    rw [came]
    split
    next frame j paginator outcome rest ready =>
      refine if_neg fun own => ?_
      exact more rfl _ outcome rest ready (by simp [own]) rfl
    · rfl

/-- How far a step that dispatched a press has come: what came of the press, what the caller
was told, and what is on hand. -/
inductive Dispatching (k : Nat) (flag : Bool) : List Outcome → List (Nat × Outcome) → Hand → Prop where
  /-- The handler is at it. -/
  | handling {hand : Hand} (on : Hand.none.Takes k [.yield (.flag flag), .caller k none] hand) :
    Dispatching k flag [] [] hand
  /-- It is done, which is for the caller to know. -/
  | handled (outcome : Outcome) {settled : List (Nat × Outcome)} {hand : Hand}
    (telling : Telling k (outcome.map fun _ => .flag flag) settled hand) : Dispatching k flag [outcome] settled hand

theorem Dispatching.told_of_hand_none {settled : List (Nat × Outcome)} (h : Dispatching k flag outcomes settled .none) :
    ∃ outcome, outcomes = [outcome] ∧ settled = [(k, outcome.map fun _ => .flag flag)] := by
  cases h with
  | handling on =>
    obtain ⟨pre, -, ⟨c, all⟩ | ⟨outcome, all⟩⟩ := on.of_none <;> cases all
  | handled outcome telling => exact ⟨outcome, rfl, telling.told_of_hand_none⟩

theorem dispatching_after (other : m.step? ≠ some k) (h : Dispatching k flag outcomes (room.settledOf k) (room.hand k)) :
    Dispatching k flag (outcomes ++ room.came k m) ((room.after m).settledOf k) ((room.after m).hand k) := by
  generalize current : room.hand k = hand at h
  generalize before : room.settledOf k = settled at h
  cases h with
  | handling on =>
    have own : serve [k] [.yield (.flag flag), .caller k none] = true := by simp
    cases errand_after own (current ▸ on) other with
    | on goesOn _ _ settled above =>
      have nothing : room.came k m = [] := came_eq_nil fun turn frames outcome rest ready its =>
        Nat.ne_of_gt (above turn frames outcome rest ready its)
      rw [nothing, settled, before]
      exact .handling goesOn
    | @turn outcome rest turn ready alone =>
      subst turn
      have turned : room.after .turn = (room.popped rest).finish [.caller k none] (outcome.map fun _ => .flag flag) :=
        (after_turn ready).trans (resume_yield ..)
      have came : room.came k .turn = [outcome] := by
        rw [came, ready]
        exact if_pos rfl
      have unsettled : (room.after .turn).settledOf k = [] := by
        rw [turned]
        exact before
      rw [came, unsettled, turned, hand_finish alone (by simp)]
      exact .handled outcome .due
  | handled outcome telling =>
    have nothing : room.came k m = [] := by
      refine came_eq_nil fun turn frames outcome' rest ready its => ?_
      subst turn
      have serves : room.serves k .turn = true := by
        rw [Room.serves, ready]
        exact its
      cases telling with
      | told => exact absurd (serves.symm.trans (serves_of_hand_none current .turn)) Bool.noConfusion
      | due =>
        obtain ⟨rest', -, ready', -⟩ := turn_of_serves current serves
        obtain ⟨rfl, -⟩ := Task.resume.inj (List.cons.inj (ready.symm.trans ready')).1
        simp
    rw [nothing, List.append_nil]
    exact .handled outcome (telling_after other (current ▸ before ▸ telling))

theorem dispatching_afterAll (others : ∀ m ∈ moves, m.step? ≠ some k)
    (h : Dispatching k flag outcomes (room.settledOf k) (room.hand k)) :
    Dispatching k flag (outcomes ++ room.cameAll k moves) ((room.afterAll moves).settledOf k) ((room.afterAll moves).hand k) := by
  induction moves generalizing room outcomes with
  | nil =>
    rw [cameAll, List.append_nil]
    exact h
  | cons m moves ih =>
    rw [cameAll, ← List.append_assoc, afterAll_cons]
    exact ih (fun m' hm => others m' (List.mem_cons_of_mem m hm)) (dispatching_after (others m (by simp)) h)

/-! ## The router as a map of sessions -/

theorem after_dispatch {draft : PressDraft} {id : String} (target : room.customIdOf? draft.target = some id) :
    room.after (.act k (.dispatch draft)) = room.dispatch ⟨draft.user, id, draft.values, none⟩ [.caller k none] := by
  rw [after, act, withPress, target]

section

variable (idle : room.hand k = .none) (unsettled : room.settledOf k = [])

include idle unsettled

/-- A press of a step for which nothing was done before is being handled. -/
theorem dispatching_of_carries {b : Room} (carries : Carries k [.yield (.flag flag), .caller k none] room b) :
    Dispatching k flag [] (b.settledOf k) (b.hand k) := by
  rw [carries.settled, unsettled]
  exact .handling (carries.takes (by simp) idle)

variable (mirrors : room.router.Mirrors live) (press : Press)

include mirrors

theorem dispatching_bound (plain : press.interaction = none) {g : Handler} (bound : live.Binds press.customId g) :
    let dispatched := room.dispatch press [.caller k none]
    dispatched = room.runHandler g press [.yield (.flag true), .caller k none] ∧
      Dispatching k true [] (dispatched.settledOf k) (dispatched.hand k) := by
  have run := dispatch_of_binds mirrors press bound [.caller k none]
  have own : Owns k press.interaction [.yield (.flag true), .caller k none] := plain ▸ owns_none k _
  have carries := room.runHandler_carries own g
  rw [← run] at carries
  exact ⟨run, dispatching_of_carries idle unsettled carries⟩

variable (unbound : ¬∃ g, live.Binds press.customId g)

include unbound

theorem dispatching_deferred (plain : press.interaction = none) (read : (parseCustomId? press.customId).isSome = true) :
    let dispatched := room.dispatch press [.caller k none]
    dispatched = room.acknowledge press [.yield (.flag false), .caller k none] ∧
      dispatched.journal = room.journal ++ [.call (.acknowledge none)] ∧
      Dispatching k false [] (dispatched.settledOf k) (dispatched.hand k) := by
  have deferred := dispatch_of_not_binds mirrors press unbound [.caller k none]
  rw [if_pos read] at deferred
  have own : Owns k press.interaction [.yield (.flag false), .caller k none] := plain ▸ owns_none k _
  have carries := room.acknowledge_carries own
  have journal := (room.acknowledge_outward press [.yield (.flag false), .caller k none]).journal
  rw [← deferred] at carries journal
  rw [plain] at journal
  exact ⟨deferred, journal, dispatching_of_carries idle unsettled carries⟩

theorem telling_refused (unread : parseCustomId? press.customId = none) :
    (room.dispatch press [.caller k none]).journal = room.journal ∧
      Telling k (.ok (.flag false)) ((room.dispatch press [.caller k none]).settledOf k)
        ((room.dispatch press [.caller k none]).hand k) := by
  have refused : room.dispatch press [.caller k none] = room.finish [.caller k none] (.ok (.flag false)) := by
    rw [dispatch_of_not_binds mirrors press unbound, unread]
    rfl
  have unsettled : (room.finish [.caller k none] (.ok (.flag false))).settledOf k = [] := unsettled
  rw [refused, unsettled, hand_finish idle (by simp)]
  exact ⟨(room.finish_outward _ _).journal.trans (List.append_nil _), .due⟩

end

/-- **The router is a map of sessions, and presses are dispatched by it.** Sessions were
registered, with any ids and any lists of roles, and unregistered, in any order; `live` is
the map to which the same was done. The size of the router is the number of its sessions, and
a custom id is bound exactly if it is a live session, a bar and one of the roles of that
session. In step `k`, for which nothing was done before, a press is dispatched, and any
moves of other steps come after.

If a handler is bound to the custom id, that handler is run and nothing else. The caller is
told once: `true` if the handler succeeded, and how it failed otherwise. If none is, no
handler is run. The custom id of a control is deferred in place, and the caller is told once:
`false` if the deferral succeeded, and how it failed otherwise. Any other custom id leads to
no call, and the caller is told `false`. When nothing is left to do, the caller was told. -/
theorem router_refines_sessions (room : Room) (k : Nat) (draft : PressDraft) (changes : List (Router.Change Handler))
    (moves : List Move) {id : String} (made : room.router = changes.foldl Router.apply .empty)
    (target : room.customIdOf? draft.target = some id) (idle : room.hand k = .none) (unsettled : room.settledOf k = [])
    (others : ∀ m ∈ moves, m.step? ≠ some k) :
    let live : Router.Sessions Handler := changes.foldl Router.Sessions.apply .empty
    let press : Press := ⟨draft.user, id, draft.values, none⟩
    let dispatched := room.after (.act k (.dispatch draft))
    let later := dispatched.afterAll moves
    (room.router.size = {session | (live session).isSome = true}.encard ∧
      (room.router.has id = true ↔ ∃ g, live.Binds id g)) ∧
    (∀ g, live.Binds id g →
      dispatched = room.runHandler g press [.yield (.flag true), .caller k none] ∧
      Dispatching k true (dispatched.cameAll k moves) (later.settledOf k) (later.hand k)) ∧
    ((¬∃ g, live.Binds id g) → (parseCustomId? id).isSome = true →
      dispatched = room.acknowledge press [.yield (.flag false), .caller k none] ∧
      dispatched.journal = room.journal ++ [.call (.acknowledge none)] ∧
      Dispatching k false (dispatched.cameAll k moves) (later.settledOf k) (later.hand k)) ∧
    ((¬∃ g, live.Binds id g) → parseCustomId? id = none →
      dispatched.journal = room.journal ∧ Telling k (.ok (.flag false)) (later.settledOf k) (later.hand k)) ∧
    (later.held = [] → later.agenda.ready = [] → ∃ outcome, later.settledOf k = [(k, outcome)]) := by
  intro live press dispatched later
  have mirrors : room.router.Mirrors live := made ▸ Router.mirrors_applyAll changes
  have routed : dispatched = room.dispatch press [.caller k none] := after_dispatch target
  have bound : ∀ g, live.Binds id g →
      dispatched = room.runHandler g press [.yield (.flag true), .caller k none] ∧
      Dispatching k true (dispatched.cameAll k moves) (later.settledOf k) (later.hand k) := by
    intro g its
    obtain ⟨run, dispatching⟩ := dispatching_bound idle unsettled mirrors press rfl its
    rw [← routed] at run dispatching
    exact ⟨run, dispatching_afterAll others dispatching⟩
  have deferred : (¬∃ g, live.Binds id g) → (parseCustomId? id).isSome = true →
      dispatched = room.acknowledge press [.yield (.flag false), .caller k none] ∧
      dispatched.journal = room.journal ++ [.call (.acknowledge none)] ∧
      Dispatching k false (dispatched.cameAll k moves) (later.settledOf k) (later.hand k) := by
    intro unbound read
    obtain ⟨deferred, journal, dispatching⟩ := dispatching_deferred idle unsettled mirrors press unbound rfl read
    rw [← routed] at deferred journal dispatching
    exact ⟨deferred, journal, dispatching_afterAll others dispatching⟩
  have refused : (¬∃ g, live.Binds id g) → parseCustomId? id = none →
      dispatched.journal = room.journal ∧ Telling k (.ok (.flag false)) (later.settledOf k) (later.hand k) := by
    intro unbound unread
    obtain ⟨journal, telling⟩ := telling_refused idle unsettled mirrors press unbound unread
    rw [← routed] at journal telling
    exact ⟨journal, telling_afterAll others telling⟩
  refine ⟨⟨mirrors.size_eq, mirrors.has_iff⟩, bound, deferred, refused, fun held ready => ?_⟩
  have none : later.hand k = .none := by
    rw [hand, held, ready]
    rfl
  by_cases some : ∃ g, live.Binds id g
  · obtain ⟨g, its⟩ := some
    obtain ⟨outcome, -, told⟩ := (none ▸ (bound g its).2).told_of_hand_none
    exact ⟨_, told⟩
  cases read : parseCustomId? id with
  | none => exact ⟨_, (none ▸ (refused some read).2).told_of_hand_none⟩
  | some parts =>
    obtain ⟨outcome, -, told⟩ := (none ▸ (deferred some (by rw [read]; rfl)).2.2).told_of_hand_none
    exact ⟨_, told⟩

/-- Two sessions are registered of which one looks like a custom id of the other. That other
one is gone when its neighbour's control is used. -/
theorem router_refines_sessions_neighbours :
    let changes : List (Router.Change Handler) := [.register "a" [.next, .back, .next] (.scripted "first" "a" .fail),
      .register "a|next" [.next] (.scripted "second" "a|next" .succeed), .unregister "a"]
    let live : Router.Sessions Handler := changes.foldl Router.Sessions.apply .empty
    let room : Room := (opened .plain [] []).afterAll [.act 0 (.register "a" ["next", "back", "next"] "first" .fail),
      .act 1 (.register "a|next" ["next"] "second" .succeed), .act 2 (.unregister "a")]
    let moves : List Move := [.turn, .turn]
    let dispatched := room.after (.act 3 (.dispatch ⟨"ada", .id "a|next|next", []⟩))
    let later := dispatched.afterAll moves
    room.router.size = {session | (live session).isSome = true}.encard ∧
      Dispatching 3 true (dispatched.cameAll 3 moves) (later.settledOf 3) (later.hand 3) ∧
      ∃ outcome, later.settledOf 3 = [(3, outcome)] := by
  intro changes live room moves dispatched later
  have bound : live.Binds "a|next|next" (.scripted "second" "a|next" .succeed) :=
    ⟨"a|next", [.next], by decide +kernel, .next, by decide, by decide +kernel⟩
  have others : ∀ m ∈ moves, m.step? ≠ some 3 := by simp [moves, Move.step?]
  obtain ⟨⟨size, -⟩, run, -, -, told⟩ :=
    router_refines_sessions room 3 ⟨"ada", .id "a|next|next", []⟩ changes moves rfl rfl rfl rfl others
  exact ⟨size, (run _ bound).2, told (by rfl) (by rfl)⟩

/-- A press that nothing is bound to is not always answered with `false`: the deferral may fail. -/
theorem not_always_answered_false :
    ¬∀ (room : Room) (k : Nat) (draft : PressDraft) (id : String) (changes : List (Router.Change Handler)) (moves : List Move),
      room.router = changes.foldl Router.apply .empty → room.customIdOf? draft.target = some id →
      room.hand k = .none → room.settledOf k = [] → (∀ m ∈ moves, m.step? ≠ some k) →
      (¬∃ g, Router.Sessions.Binds (changes.foldl Router.Sessions.apply .empty) id g) →
      ∀ told ∈ ((room.after (.act k (.dispatch draft))).afterAll moves).settledOf k, told = (k, .ok (.flag false)) := by
  intro claim
  let room : Room := { opened .plain [] [] with failures := [("deferInPlace", "down")] }
  let moves : List Move := [.turn, .turn]
  have refused : (((room.after (.act 1 (.dispatch ⟨"ada", .id "s|next", []⟩))).afterAll moves).settledOf 1).any
      (fun told => !told.2.isOk) = true := by decide +kernel
  obtain ⟨told, mem, failed⟩ := List.any_eq_true.1 refused
  have answered := claim room 1 ⟨"ada", .id "s|next", []⟩ "s|next" [] moves rfl rfl rfl rfl (by simp [moves, Move.step?])
    (by rintro ⟨g, session, roles, live, -⟩; cases live) told mem
  rw [answered] at failed
  cases failed

end Folio.Room
