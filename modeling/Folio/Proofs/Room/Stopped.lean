/-
What is over, and for how long. A paginator that is stopped can become active
again in one way only: a delivery that was under way when it stopped completes.
`goLive` does not look at the status again. So a paginator stays stopped exactly
until that happens, and for good if no delivery of it is waited for, since one
that is stopped is not sent any more.
-/
import Folio.Proofs.Room.Routing
import Mathlib.Data.List.Induction

namespace Folio.Room

variable {room : Room} {p : Nat} {pg : Paginator} {m : Move}

/-- A paginator is stopped, and the router knows nothing of its session. -/
def Over (room : Room) (p : Nat) : Prop :=
  ∃ pg, room.paginator? p = some pg ∧ pg.status = .stopped ∧ room.router.sessions.get? pg.session = none ∧
    ∀ role, room.router.handler? (customId pg.session role) = none

/-! ## Runs -/

/-- Where the router is as it ought to be, a paginator is over as soon as it is stopped. -/
theorem over_of_routed (routed : room.standing.Routed) (hp : room.paginator? p = some pg)
    (stopped : pg.status = .stopped) : Over room p := by
  obtain ⟨live, holds, binds⟩ := routed.router
  have life := life?_of_paginator? hp
  have idle : live pg.session = none := by
    rw [Option.eq_none_iff_forall_not_mem]
    intro e he
    obtain ⟨q, r, hq, active, hs, -⟩ := (binds pg.session e).1 he
    obtain rfl := routed.distinct hq life hs
    rw [life] at hq
    have same : pg.status = r.status := by rw [← Option.some.inj hq]; rfl
    rw [stopped, active] at same
    cases same
  refine ⟨pg, hp, stopped, ?_, fun role => ?_⟩
  · have known : room.router.sessions.get? pg.session = _ := holds.sessions pg.session
    rw [known, idle, Option.map_none]
  · rw [handler?_customId routed hp, if_neg (by simp [stopped])]

theorem Over.life (h : Over room p) : ∃ pg, room.standing.life? p = some pg ∧ pg.status = .stopped := by
  obtain ⟨pg, hp, stopped, -⟩ := h
  exact ⟨pg.bare, life?_of_paginator? hp, stopped⟩

theorem Reached.over_of_life (h : Reached room) (life : room.standing.life? p = some pg)
    (stopped : pg.status = .stopped) : Over room p := by
  obtain ⟨pg', hp, rfl⟩ := exists_of_life? life
  exact over_of_routed h.routed hp stopped

/-- Without a delivery that completes, what is over stays over. -/
theorem Over.move (h : Over room p) (reached : Reached room) (spare : m.sparesRouter = true)
    (quiet : ¬Delivers room m p) : Over (room.after m) p := by
  obtain ⟨pg, life, stopped⟩ := h.life
  rcases stopped_after m life stopped with ⟨pg', life', stopped'⟩ | delivers
  · exact (reached.move spare).over_of_life life' stopped'
  · exact absurd delivers quiet

theorem Over.not_delivered (h : Over room p) (delivers : Delivers room m p) : ¬Over (room.after m) p := by
  obtain ⟨pg, life, -⟩ := h.life
  obtain ⟨pg', life', active⟩ := active_after delivers life
  intro isOver
  obtain ⟨pg'', life'', stopped⟩ := isOver.life
  rw [life', Option.some.injEq] at life''
  rw [life'', stopped] at active
  cases active

/-- What is over stays over throughout a run exactly if no delivery completes in it. -/
theorem Reached.over_throughout_iff (h : Reached room) (isOver : Over room p) {moves : List Move}
    (spare : ∀ m ∈ moves, m.sparesRouter = true) :
    (∀ ms, ms <+: moves → Over (room.afterAll ms) p) ↔
      ∀ ms m, ms ++ [m] <+: moves → ¬Delivers (room.afterAll ms) m p := by
  have step : ∀ (ms : List Move) (m : Move), room.afterAll (ms ++ [m]) = (room.afterAll ms).after m :=
    fun ms m => afterAll_append room ms [m]
  constructor
  · intro throughout ms m hm delivers
    have before := throughout ms ((List.prefix_append ms [m]).trans hm)
    have after := throughout (ms ++ [m]) hm
    rw [step] at after
    exact before.not_delivered delivers after
  · intro quiet ms
    induction ms using List.reverseRecOn with
    | nil => exact fun _ => isOver
    | append_singleton ms m ih =>
      intro hm
      have before := (List.prefix_append ms [m]).trans hm
      have reached : Reached (room.afterAll ms) := h.afterAll fun m' hm' => spare m' (before.subset hm')
      rw [step]
      exact (ih before).move reached (spare m (hm.subset (by simp))) (quiet ms m hm)

/-- No delivery of a paginator that is over is waited for: so it stays. -/
theorem Over.quiet_move (h : Over room p) (quiet : ∀ origin, (p, origin) ∉ room.pending) (m : Move) :
    ∀ origin, (p, origin) ∉ (room.after m).pending := by
  intro origin hd
  obtain ⟨pg, life, stopped⟩ := h.life
  rcases pending_after room m hd with old | ⟨pg', payload, life', going, -⟩
  · exact quiet origin old
  · rw [life, Option.some.injEq] at life'
    rw [life'] at stopped
    exact going stopped

theorem Reached.over_for_good (h : Reached room) (isOver : Over room p)
    (quiet : ∀ origin, (p, origin) ∉ room.pending) {moves : List Move}
    (spare : ∀ m ∈ moves, m.sparesRouter = true) : Over (room.afterAll moves) p := by
  induction moves generalizing room with
  | nil => exact isOver
  | cons m moves ih =>
    have next : Over (room.after m) p := isOver.move h (spare m (by simp)) fun delivers => by
      obtain ⟨origin, hd⟩ := delivers.pending
      exact quiet origin hd
    have spare' : ∀ m' ∈ moves, m'.sparesRouter = true := fun m' hm => spare m' (List.mem_cons_of_mem m hm)
    exact ih (h.move (spare m (by simp))) next (isOver.quiet_move quiet m) spare'

/-- **What is stopped stays stopped until a delivery completes.** From any room
that is reached, and however it goes on: a stopped paginator stays stopped, and
its session unbound, exactly if no delivery of it completes; and that holds for
good if none is waited for. -/
theorem Reached.stopped_until_delivered (h : Reached room) (hp : room.paginator? p = some pg)
    (stopped : pg.status = .stopped) {moves : List Move} (spare : ∀ m ∈ moves, m.sparesRouter = true) :
    ((∀ ms, ms <+: moves → Over (room.afterAll ms) p) ↔
      ∀ ms m, ms ++ [m] <+: moves → ¬Delivers (room.afterAll ms) m p) ∧
    ((∀ origin, (p, origin) ∉ room.pending) → Over (room.afterAll moves) p) :=
  have isOver := over_of_routed h.routed hp stopped
  ⟨h.over_throughout_iff isOver spare, fun quiet => h.over_for_good isOver quiet spare⟩

/-- A paginator that was sent, stopped, and not sent again. -/
theorem stopped_until_delivered_sent :
    let moves : List Move := [.act 0 (.create (.pages [.text "hello" "" "" ""]) (.record []) none),
      .act 1 (.send 0 .send (.user "ada")), .turn, .act 2 (.stop 0), .turn, .turn]
    let room := (opened .plain [] []).afterAll moves
    Over (room.afterAll [.act 3 (.send 0 .send (.user "ada")), .turn, .act 4 (.update 0), .turn]) 0 := by
  intro moves room
  have reached : Reached room := ⟨.numbered, .plain, [], [], moves, by decide, rfl⟩
  have status : (room.paginator? 0).map (·.status) = some .stopped := by decide +kernel
  obtain ⟨pg, hp, stopped⟩ := Option.map_eq_some_iff.1 status
  have quiet : room.pending = [] := by decide +kernel
  refine (reached.stopped_until_delivered hp stopped (by decide)).2 fun origin => ?_
  rw [quiet]
  exact List.not_mem_nil

/-- A delivery that was under way when its paginator stopped brings it back. -/
theorem not_stopped_for_good : ¬∀ (room : Room) (p : Nat) (pg : Paginator), Reached room →
    room.paginator? p = some pg → pg.status = .stopped → ∀ moves : List Move,
      (∀ m ∈ moves, m.sparesRouter = true) → Over (room.afterAll moves) p := by
  intro claim
  let moves : List Move := [.act 0 (.create (.pages [.text "hello" "" "" ""]) (.record []) none),
    .act 1 (.send 0 .send (.user "ada")), .turn, .act 2 (.setHolding true), .act 3 (.send 0 .send (.user "ada")),
    .act 4 (.setHolding false), .act 5 (.stop 0)]
  let room := (opened .plain [] []).afterAll moves
  have reached : Reached room := ⟨.numbered, .plain, [], [], moves, by decide, rfl⟩
  have status : (room.paginator? 0).map (·.status) = some .stopped := by decide +kernel
  obtain ⟨pg, hp, stopped⟩ := Option.map_eq_some_iff.1 status
  obtain ⟨pg', hp', stopped', -⟩ := claim room 0 pg reached hp stopped
    [.act 6 (.release 0 none), .turn, .turn, .turn, .turn, .turn] (by decide)
  have active : ((room.afterAll [.act 6 (.release 0 none), .turn, .turn, .turn, .turn, .turn]).paginator? 0).map
      (·.status) = some .active := by decide +kernel
  rw [hp', Option.map_some, stopped'] at active
  cases active

end Folio.Room
