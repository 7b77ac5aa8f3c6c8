/-
Where presses go. A paginator tells in two places whether it is live, its status
and its mark that it is registered, and the router tells it a third time. They
agree in every room that is reached (`Standing.Routed`): the router binds the
names of all roles in the session of each live paginator to that paginator, and
nothing else.

Sessions do not collide because each is drawn from the supply only once, and the
bindings of two sessions do not because a custom id names only one session. The
router must be left to the paginators; a script that registers handlers of its
own may take over any session.
-/
import Folio.Proofs.Rendering
import Folio.Proofs.Room.Step
import Folio.Proofs.Router

namespace Folio

namespace Standing

variable {s s' : Standing} {p : Nat} {pg pg' : Paginator}

/-- What the router ought to say of a session: the names of its live paginator,
and how to reach it. -/
def Binds (s : Standing) (session : String) (e : List String × Handler) : Prop :=
  ∃ p pg, s.life? p = some pg ∧ pg.status = .active ∧ pg.session = session ∧
    e = (Role.all.map Role.name, .paginator p)

/-- The router knows the live paginators, and they know that it does. -/
structure Routed (s : Standing) : Prop where
  drawn : ∀ {p pg}, s.life? p = some pg → ∃ n, n ≤ s.sessions ∧ pg.session = s.ids.id n
  distinct : ∀ {p q pg pg'}, s.life? p = some pg → s.life? q = some pg' → pg.session = pg'.session → p = q
  registered : ∀ {p pg}, s.life? p = some pg → (pg.registered = true ↔ pg.status = .active)
  router : ∃ live, s.router.Holds live ∧ ∀ session e, live session = some e ↔ s.Binds session e

namespace Routed

theorem dozed (h : s.Routed) (w : Option Nat) : (s.dozed w).Routed := by
  obtain ⟨drawn, distinct, registered, router⟩ := h
  cases w <;> exact ⟨drawn, distinct, registered, router⟩

/-- A new paginator has a session of its own, which is bound to nothing. -/
theorem born (h : s.Routed) {n : Nat} {o : Option Paginator} (later : s.sessions ≤ n) (new : s.Newborn n o) :
    (s.born n o).Routed := by
  have fresh : ∀ {q pg pg'}, o = some pg → s.life? q = some pg' → pg.session ≠ pg'.session := by
    rintro q pg pg' ho life eq
    obtain ⟨hn, config, rfl⟩ := new pg ho
    obtain ⟨m, hm, hs⟩ := h.drawn life
    have same := s.ids.distinct (eq.trans hs)
    omega
  have cases : ∀ {q pg}, (s.born n o).life? q = some pg →
      q = s.lives.length ∧ o = some pg ∨ s.life? q = some pg := by
    intro q pg life
    rw [life?_born] at life
    split at life
    next hq => exact .inl ⟨hq, life⟩
    · exact .inr life
  refine ⟨fun life => ?_, fun life life' eq => ?_, fun life => ?_, ?_⟩
  · rcases cases life with ⟨-, ho⟩ | life
    · obtain ⟨-, config, rfl⟩ := new _ ho
      exact ⟨n, Nat.le_refl n, rfl⟩
    · obtain ⟨m, hm, hs⟩ := h.drawn life
      exact ⟨m, Nat.le_trans hm later, hs⟩
  · rcases cases life with ⟨hp, ho⟩ | life
    · rcases cases life' with ⟨hq, -⟩ | life'
      · rw [hp, hq]
      · exact absurd eq (fresh ho life')
    · rcases cases life' with ⟨-, ho⟩ | life'
      · exact absurd eq.symm (fresh ho life)
      · exact h.distinct life life' eq
  · rcases cases life with ⟨-, ho⟩ | life
    · obtain ⟨-, config, rfl⟩ := new _ ho
      simp [Paginator.create]
    · exact h.registered life
  · obtain ⟨live, holds, binds⟩ := h.router
    refine ⟨live, holds, fun session e => (binds session e).trans ⟨?_, ?_⟩⟩
    · rintro ⟨p, pg, life, active, rest⟩
      exact ⟨p, pg, life?_born_of_life? life n o, active, rest⟩
    · rintro ⟨p, pg, life, active, rest⟩
      rcases cases life with ⟨-, ho⟩ | life
      · obtain ⟨-, config, rfl⟩ := new _ ho
        cases active
      · exact ⟨p, pg, life, active, rest⟩

/-- One paginator changes its status, and the router follows. -/
theorem turned (h : s.Routed) (ids : s'.ids = s.ids) (sessions : s'.sessions = s.sessions)
    (life : s.life? p = some pg) (life' : ∀ q, s'.life? q = if q = p then some pg' else s.life? q)
    (session : pg'.session = pg.session) (registered : pg'.registered = true ↔ pg'.status = .active)
    (router : ∀ live, s.router.Holds live → (∀ session e, live session = some e ↔ s.Binds session e) →
      s'.router.Holds (Function.update live pg.session
        (if pg'.status = .active then some (Role.all.map Role.name, .paginator p) else none))) :
    s'.Routed := by
  have cases : ∀ {q r}, s'.life? q = some r → q = p ∧ r = pg' ∨ q ≠ p ∧ s.life? q = some r := by
    intro q r hq
    rw [life'] at hq
    split at hq
    next hqp => exact .inl ⟨hqp, (Option.some.inj hq).symm⟩
    next hqp => exact .inr ⟨hqp, hq⟩
  have self : s'.life? p = some pg' := by rw [life', if_pos rfl]
  have other : ∀ {q}, q ≠ p → s'.life? q = s.life? q := fun hq => by rw [life', if_neg hq]
  -- Each paginator keeps its session.
  have old : ∀ {q r}, s'.life? q = some r → ∃ r', s.life? q = some r' ∧ r'.session = r.session := by
    intro q r hq
    rcases cases hq with ⟨rfl, rfl⟩ | ⟨-, hq⟩
    · exact ⟨pg, life, session.symm⟩
    · exact ⟨r, hq, rfl⟩
  refine ⟨fun hq => ?_, fun hq hr eq => ?_, fun hq => ?_, ?_⟩
  · obtain ⟨r', hr', hs⟩ := old hq
    rw [ids, sessions, ← hs]
    exact h.drawn hr'
  · obtain ⟨q', hq', hqs⟩ := old hq
    obtain ⟨r', hr', hrs⟩ := old hr
    exact h.distinct hq' hr' (hqs.trans (eq.trans hrs.symm))
  · rcases cases hq with ⟨-, rfl⟩ | ⟨-, hq⟩
    · exact registered
    · exact h.registered hq
  · obtain ⟨live, holds, binds⟩ := h.router
    refine ⟨_, router live holds binds, fun session' e => ?_⟩
    by_cases hs : session' = pg.session
    · subst hs
      rw [Function.update_self]
      constructor
      · intro he
        split at he
        next active => exact ⟨p, pg', self, active, session, (Option.some.inj he).symm⟩
        · cases he
      · rintro ⟨q, r, hq, active, hsr, rfl⟩
        obtain ⟨r', hr', hs'⟩ := old hq
        obtain rfl := h.distinct hr' life (hs'.trans hsr)
        rw [self] at hq
        rw [Option.some.inj hq, if_pos active]
    · rw [Function.update_of_ne hs, binds]
      constructor
      · rintro ⟨q, r, hq, active, rfl, he⟩
        have hqp : q ≠ p := by
          rintro rfl
          rw [life] at hq
          exact hs (by rw [Option.some.inj hq])
        exact ⟨q, r, (other hqp).trans hq, active, rfl, he⟩
      · rintro ⟨q, r, hq, active, rfl, he⟩
        rcases cases hq with ⟨-, rfl⟩ | ⟨-, hq⟩
        · exact absurd session hs
        · exact ⟨q, r, hq, active, rfl, he⟩

theorem closed (h : s.Routed) (life : s.life? p = some pg) : (s.closed p pg).Routed := by
  refine h.turned (dozed_ids _) (dozed_sessions _) life (life?_closed life) rfl (by simp [ended]) fun live holds _ => ?_
  rw [if_neg (by simp [ended])]
  exact holds.unregister pg.session

theorem live (h : s.Routed) (life : s.life? p = some pg) (author : Option String) (handle : Handle) :
    (s.live p pg author handle).Routed := by
  refine h.turned (dozed_ids _) (dozed_sessions _) life (life?_live life author handle) rfl (by simp [begun, alive])
    fun live holds binds => ?_
  rw [if_pos (by rfl)]
  by_cases hr : pg.registered = true
  · -- What is registered is bound as it ought to be, so there is nothing to update.
    have bound := (binds pg.session _).2 ⟨p, pg, life, (h.registered life).1 hr, rfl, rfl⟩
    rw [Function.update_eq_self_iff.2 bound.symm, Standing.live, if_pos hr]
    exact holds
  · rw [Standing.live, if_neg hr]
    exact holds.register pg.session (.paginator p) Role.names_isBarFree

/-- The router binds paginators only. -/
theorem handler_eq (h : s.Routed) {id : String} {handler : Handler} (hh : s.router.handler? id = some handler) :
    ∃ p, handler = .paginator p := by
  obtain ⟨live, holds, binds⟩ := h.router
  obtain ⟨session, e, he, rfl, -⟩ := (holds.handlers id handler).1 hh
  obtain ⟨p, pg, -, -, -, rfl⟩ := (binds session e).1 he
  exact ⟨p, rfl⟩

end Routed

end Standing

namespace Room

variable {room : Room} {p : Nat} {pg : Paginator}

theorem opened_routed (ids : SessionIds) (client : Client) (environment : Environment)
    (contexts : Table String Context) : (openedWith ids client environment contexts).standing.Routed := by
  refine ⟨fun life => ?_, fun life => ?_, fun life => ?_, fun _ => none, Router.empty_holds, fun session e => ?_⟩
  · cases life
  · cases life
  · cases life
  · constructor
    · intro h
      cases h
    · rintro ⟨p, pg, life, -⟩
      cases life

theorem after_routed (room : Room) (m : Move) (spare : m.sparesRouter = true) (h : room.standing.Routed) :
    (room.after m).standing.Routed := by
  cases room.step_after m with
  | same same => exact same ▸ h
  | born later new born => exact born ▸ h.born later new
  | live _ life live => exact live ▸ h.live life _ _
  | closed life _ closed => exact closed ▸ h.closed life
  | dozed _ dozed => exact dozed ▸ h.dozed _
  | rerouted foreign _ =>
    -- The router binds no handler of the script, and the move leaves it alone.
    rcases foreign with own | ⟨id, name, session, reaction, handler⟩
    · rw [spare] at own
      cases own
    · obtain ⟨p, hp⟩ := h.handler_eq handler
      cases hp

theorem Reached.routed (h : Reached room) : room.standing.Routed := h.holds opened_routed after_routed

/-- What the custom id of a role is bound to in the session of a paginator. -/
theorem handler?_customId (routed : room.standing.Routed) (hp : room.paginator? p = some pg) (role : Role) :
    room.router.handler? (customId pg.session role) =
      if pg.status = .active then some (.paginator p) else none := by
  obtain ⟨live, holds, binds⟩ := routed.router
  have life := life?_of_paginator? hp
  have bound : room.router.handler? (boundId pg.session role.name) = _ :=
    holds.handler?_boundId pg.session role.name_isBarFree
  have known : role.name ∈ Role.all.map Role.name := List.mem_map_of_mem role.mem_all
  have eq : live pg.session =
      if pg.status = .active then some (Role.all.map Role.name, .paginator p) else none := by
    ext e
    rw [binds]
    constructor
    · rintro ⟨q, r, hq, active, hs, rfl⟩
      obtain rfl := routed.distinct hq life hs
      rw [life] at hq
      have same : pg.status = r.status := by rw [← Option.some.inj hq]; rfl
      rw [if_pos (same.trans active)]
    · intro he
      split at he
      next active => exact ⟨p, pg.bare, life, active, rfl, (Option.some.inj he).symm⟩
      · cases he
  rw [customId, bound, eq]
  split
  · rw [Option.bind_some, if_pos known]
  · rfl

/-- The session of a paginator that is active. -/
def liveSession? (o : Option Paginator) : Option String :=
  (o.filter fun pg => pg.status = .active).map (·.session)

theorem liveSession?_eq_some {o : Option Paginator} {session : String} :
    liveSession? o = some session ↔ ∃ pg, o = some pg ∧ pg.status = .active ∧ pg.session = session := by
  cases o with
  | none => simp [liveSession?]
  | some pg => simp [liveSession?, Option.filter_some]

theorem length_liveSessions (paginators : List (Option Paginator)) :
    (paginators.filterMap liveSession?).length = paginators.countP fun o => o.any (·.status = .active) := by
  rw [List.length_filterMap_eq_countP]
  congr 1
  funext o
  cases o <;> simp [liveSession?, Option.isSome_filter]

theorem mem_liveSessions_iff {session : String} :
    session ∈ room.paginators.filterMap liveSession? ↔ ∃ e, room.standing.Binds session e := by
  rw [List.mem_filterMap]
  constructor
  · rintro ⟨o, ho, hs⟩
    obtain ⟨pg, rfl, active, rfl⟩ := liveSession?_eq_some.1 hs
    obtain ⟨q, hq⟩ := List.getElem?_of_mem ho
    have life : room.standing.life? q = some pg.bare :=
      life?_of_paginator? (by rw [paginator?, hq, Option.join_some])
    exact ⟨_, q, pg.bare, life, active, rfl, rfl⟩
  · rintro ⟨e, q, r, life, active, rfl, -⟩
    obtain ⟨pg, hq, rfl⟩ := exists_of_life? life
    rw [paginator?, Option.join_eq_some_iff] at hq
    exact ⟨some pg, List.mem_of_getElem? hq, liveSession?_eq_some.2 ⟨pg, rfl, active, rfl⟩⟩

/-- There are as many sessions as active paginators. -/
theorem Reached.size_router (h : Reached room) :
    room.router.size = room.paginators.countP fun o => o.any (·.status = .active) := by
  have routed := h.routed
  obtain ⟨live, holds, binds⟩ := routed.router
  have nodup : (room.paginators.filterMap liveSession?).Nodup := by
    rw [List.Nodup, List.pairwise_filterMap, List.pairwise_iff_getElem]
    intro i j hi hj hij session hs session' hs' eq
    obtain ⟨pg, ho, -, rfl⟩ := liveSession?_eq_some.1 hs
    obtain ⟨pg', ho', -, rfl⟩ := liveSession?_eq_some.1 hs'
    have life : room.standing.life? i = some pg.bare :=
      life?_of_paginator? (by rw [paginator?, List.getElem?_eq_getElem hi, ho, Option.join_some])
    have life' : room.standing.life? j = some pg'.bare :=
      life?_of_paginator? (by rw [paginator?, List.getElem?_eq_getElem hj, ho', Option.join_some])
    have same := routed.distinct life life' eq
    omega
  have perm : (room.paginators.filterMap liveSession?).Perm room.standing.router.sessions.keys := by
    rw [List.perm_ext_iff_of_nodup nodup holds.distinct]
    intro session
    rw [mem_liveSessions_iff, holds.mem_sessions_iff]
    exact exists_congr fun e => (binds session e).symm
  rw [← length_liveSessions, perm.length_eq, Table.length_keys]
  rfl

/-- A press of any control that a live paginator ever rendered is received by it,
with the role of that control. -/
theorem Reached.dispatch_rendered (h : Reached room) (hp : room.paginator? p = some pg) (active : pg.status = .active)
    {l : Layout} {off : Bool} {rows : ComponentRows} (session : l.session = pg.session)
    (rendered : l.render off = .ok rows) {k : Component} (hk : k ∈ rows.flatten) :
    ∃ cs c, l.controls off = .ok cs ∧ c ∈ cs ∧ Component.ofControl c = .ok k ∧
      ∀ press frames, press.customId = k.customId →
        parseCustomId? press.customId = some (pg.session, c.role) ∧
        room.dispatch press frames = room.receive p press (.yield (.flag true) :: frames) := by
  obtain ⟨cs, hcs, c, hc, hck⟩ := Layout.mem_render rendered hk
  refine ⟨cs, c, hcs, hc, hck, fun press frames id => ?_⟩
  have own : press.customId = customId pg.session c.role := by
    rw [id, Component.customId_ofControl hck, Layout.customId_controls hcs hc, session]
  have named : pg.session ≠ "" := by
    obtain ⟨n, -, hn⟩ := h.routed.drawn (life?_of_paginator? hp)
    have hs : pg.session = room.standing.ids.id n := hn
    rw [hs]
    exact room.standing.ids.nonempty n
  have bound := handler?_customId h.routed hp c.role
  rw [if_pos active, ← own] at bound
  refine ⟨?_, ?_⟩
  · rw [own, parseCustomId?_customId named]
  · rw [dispatch, bound]
    rfl

/-- **Routing agrees with life.** In every room that is reached, a paginator is
active exactly if the custom ids of all roles in its session lead to it, and none
of them is bound if it is not; there are as many sessions as active paginators;
and a press of a rendered control is received by its own paginator, in the role
of that control. -/
theorem Reached.routing_agrees (h : Reached room) :
    (∀ p pg, room.paginator? p = some pg →
      (pg.status = .active ↔ ∀ role, room.router.handler? (customId pg.session role) = some (.paginator p)) ∧
      (pg.status ≠ .active → ∀ role, room.router.handler? (customId pg.session role) = none)) ∧
    room.router.size = room.paginators.countP (fun o => o.any (·.status = .active)) ∧
    (∀ p pg, room.paginator? p = some pg → pg.status = .active →
      ∀ (l : Layout) (off : Bool) (rows : ComponentRows), l.session = pg.session → l.render off = .ok rows →
        ∀ k ∈ rows.flatten, ∃ cs c, l.controls off = .ok cs ∧ c ∈ cs ∧ Component.ofControl c = .ok k ∧
          ∀ press frames, press.customId = k.customId →
            parseCustomId? press.customId = some (pg.session, c.role) ∧
            room.dispatch press frames = room.receive p press (.yield (.flag true) :: frames)) := by
  refine ⟨fun p pg hp => ⟨⟨fun active role => ?_, fun bound => ?_⟩, fun idle role => ?_⟩, h.size_router,
    fun p pg hp active l off rows session rendered k hk => h.dispatch_rendered hp active session rendered hk⟩
  · rw [handler?_customId h.routed hp, if_pos active]
  · have first := bound .first
    rw [handler?_customId h.routed hp] at first
    split at first
    next active => exact active
    · cases first
  · rw [handler?_customId h.routed hp, if_neg idle]

/-- The room of a paginator that was created and sent. -/
theorem routing_agrees_sent :
    let moves : List Move := [.act 0 (.create (.pages [.text "hello" "" "" ""]) (.record []) none),
      .act 1 (.send 0 .send (.user "ada")), .turn]
    let room := (opened .plain [] []).afterAll moves
    Reached room ∧ room.router.size = 1 ∧
      ∀ role, room.router.handler? (customId (sessionId 1) role) = some (.paginator 0) := by
  intro moves room
  have reached : Reached room := ⟨.numbered, .plain, [], [], moves, by decide, rfl⟩
  have agrees := reached.routing_agrees
  have sent : (room.paginator? 0).map (fun pg => (pg.status, pg.session)) = some (.active, sessionId 1) := by
    decide +kernel
  obtain ⟨pg, hp, hs⟩ := Option.map_eq_some_iff.1 sent
  obtain ⟨active, session⟩ := Prod.mk.inj hs
  refine ⟨reached, ?_, fun role => ?_⟩
  · rw [agrees.2.1]
    decide +kernel
  · rw [← session]
    exact (agrees.1 0 pg hp).1.1 active role

end Room

end Folio
