/-
Timers that are pending. A timer is started and called off deep inside a signal, by
watchdogs that are replaced, stopped, pinged or run out, and a watchdog that is called
off keeps its loop until that has a turn. What ties the two ends together is `Manned`:
a watchdog that is running is that of a live paginator. So no timer is left over at
any time, and where nothing is ready each paginator that has to have one has one
(`one_timer_each`).
-/
import Folio.Proofs.Room.Deadline
import Folio.Proofs.Room.Delivered

namespace Folio

namespace Standing

variable {s : Standing} {p q w : Nat} {pg : Paginator}

/-- Every watchdog that is running is the one of a live paginator. -/
def Manned (s : Standing) : Prop :=
  ∀ {w p}, s.guards[w]? = some (p, true) → ∃ pg, s.life? p = some pg ∧ pg.status = .active ∧ pg.watchdog = some w

/-- A watchdog that still runs when another is called off was running before. -/
theorem guards_of_dozed {o : Option Nat} (h : (s.dozed o).guards[w]? = some (q, true)) :
    o ≠ some w ∧ s.guards[w]? = some (q, true) := by
  cases o with
  | none => exact ⟨by simp, h⟩
  | some v =>
    have other : v ≠ w := by
      rintro rfl
      rw [dozed, List.getElem?_modify] at h
      cases hv : s.guards[v]? with
      | none => simp [hv] at h
      | some e => simp [hv] at h
    exact ⟨fun e => other (Option.some.inj e), (s.getElem?_dozed other) ▸ h⟩

namespace Manned

/-- Who still has a running watchdog when that of `p` is called off is another. -/
theorem other (h : s.Manned) (life : s.life? p = some pg) (runs : (s.dozed pg.watchdog).guards[w]? = some (q, true)) :
    q ≠ p ∧ ∃ pg', s.life? q = some pg' ∧ pg'.status = .active ∧ pg'.watchdog = some w := by
  obtain ⟨own, before⟩ := guards_of_dozed runs
  obtain ⟨pg', life', active, current⟩ := h before
  refine ⟨?_, pg', life', active, current⟩
  rintro rfl
  obtain rfl := Option.some.inj (life.symm.trans life')
  exact own current

theorem born (h : s.Manned) (n : Nat) (o : Option Paginator) : (s.born n o).Manned := by
  intro w q runs
  obtain ⟨pg, life, active, current⟩ := h runs
  exact ⟨pg, life?_born_of_life? life n o, active, current⟩

theorem closed (h : s.Manned) (life : s.life? p = some pg) : (s.closed p pg).Manned := by
  intro w q runs
  obtain ⟨other, pg', life', active, current⟩ := h.other life runs
  refine ⟨pg', ?_, active, current⟩
  rw [life?_closed life, if_neg other]
  exact life'

theorem live (h : s.Manned) (life : s.life? p = some pg) (author : Option String) (handle : Handle) :
    (s.live p pg author handle).Manned := by
  intro w q runs
  have grown : (s.live p pg author handle).guards =
      (s.dozed pg.watchdog).guards ++ if 0 < pg.config.idleTimeoutSeconds then [(p, true)] else [] := rfl
  rw [grown, List.getElem?_append] at runs
  split at runs
  · obtain ⟨other, pg', life', active, current⟩ := h.other life runs
    refine ⟨pg', ?_, active, current⟩
    rw [life?_live life, if_neg other]
    exact life'
  next later =>
    split at runs
    next pos =>
      obtain ⟨hlt, eq⟩ := List.getElem?_eq_some_iff.1 runs
      have first : w = s.guards.length := by
        rw [dozed_length] at later hlt
        have one : w - s.guards.length < 1 := hlt
        omega
      subst first
      obtain rfl : p = q := by simpa using congrArg Prod.fst eq
      refine ⟨begun s.guards.length author handle pg, ?_, rfl, if_pos pos⟩
      rw [life?_live life, if_pos rfl]
    · cases runs

theorem dozed (h : s.Manned) (v : Nat) : (s.dozed (some v)).Manned := by
  intro w q runs
  obtain ⟨-, before⟩ := guards_of_dozed runs
  obtain ⟨pg, life, active, current⟩ := h before
  exact ⟨pg, (life?_dozed (some v) q).trans life, active, current⟩

end Manned

end Standing

namespace Room

variable {room start : Room} {p w : Nat} {pg : Paginator} {d : Delivery}

theorem after_manned (room : Room) (m : Move) (h : room.standing.Manned) : (room.after m).standing.Manned := by
  cases room.step_after m with
  | same same => exact same ▸ h
  | born _ _ born => exact born ▸ h.born _ _
  | live _ life live => exact live ▸ h.live life _ _
  | closed life _ closed => exact closed ▸ h.closed life
  | dozed _ dozed => exact dozed ▸ h.dozed _
  | rerouted _ rerouted =>
    rw [rerouted]
    intro w p runs
    exact h runs

/-- In every run the watchdogs are in order, and those that run are manned. -/
theorem IsOpened.orderly (opened : IsOpened start) (moves : List Move) :
    (start.afterAll moves).Orderly ∧ (start.afterAll moves).standing.Manned := by
  refine opened.holds (P := fun room => room.Orderly ∧ room.standing.Manned) (fun ids client environment contexts => ?_)
    (fun room m h => ⟨h.1.after m, room.after_manned m h.2⟩) moves
  refine ⟨opened_orderly ids client environment contexts, fun runs => ?_⟩
  cases runs

/-! ## Pending timers -/

/-- The keys of the timers that are pending: the numbers of watchdogs. -/
def timerKeys (room : Room) : List Nat := room.agenda.timers.map Timer.key

theorem count_timerKeys (room : Room) (w : Nat) : room.timerKeys.count w = (room.agenda.dues w).length := by
  rw [timerKeys, List.count, List.countP_map, Agenda.dues, List.length_map, ← List.countP_eq_length_filter]
  rfl

/-- A watchdog has one timer at most. -/
theorem Orderly.nodup_timerKeys (h : Orderly room) : room.timerKeys.Nodup := by
  refine List.nodup_iff_count_le_one.2 fun w => ?_
  rw [count_timerKeys]
  cases hw : room.watchers[w]? with
  | none => simp [(h.wound.spare hw).1]
  | some watcher =>
    obtain ⟨x, ⟨watchdog, -, -, -, stands⟩, -⟩ := h.wound.staged hw
    generalize x.stage = stage at stands
    cases stands with
    | asleep dues | woken dues | finished dues => simp [dues]

/-- A timer that is pending is that of a live paginator's watchdog. -/
theorem Orderly.timed (h : Orderly room) (manned : room.standing.Manned) (mem : w ∈ room.timerKeys) :
    ∃ p pg, room.standing.life? p = some pg ∧ pg.status = .active ∧ pg.watchdog = some w := by
  have pos : 0 < (room.agenda.dues w).length := count_timerKeys room w ▸ List.count_pos_iff.2 mem
  cases hw : room.watchers[w]? with
  | none => simp [(h.wound.spare hw).1] at pos
  | some watcher =>
    obtain ⟨x, known, -⟩ := h.wound.staged hw
    have guards := known.guards
    obtain ⟨watchdog, -, -, runs, stands⟩ := known
    generalize x.stage = stage at stands
    cases stands with
    | asleep _ _ _ running =>
      rw [← runs, running] at guards
      exact ⟨x.owner, manned guards⟩
    | woken dues | finished dues => simp [dues] at pos

/-- Where nothing is ready, a live paginator's watchdog has a timer. -/
theorem Orderly.mem_timerKeys (h : Orderly room) (quiet : room.agenda.ready = []) (life : room.standing.life? p = some pg)
    (active : pg.status = .active) (current : pg.watchdog = some w) : w ∈ room.timerKeys := by
  obtain ⟨x, known, -⟩ := h.staged life current
  obtain ⟨due, asleep⟩ := h.asleep quiet life active current known
  obtain ⟨watchdog, -, -, -, stands⟩ := known
  rw [asleep] at stands
  cases stands with
  | asleep dues =>
    refine List.count_pos_iff.1 ?_
    simp [count_timerKeys, dues]

/-- Whether a paginator is live and its author may not be idle for ever. -/
def expects (room : Room) (p : Nat) : Bool :=
  (room.paginator? p).any fun pg => decide (pg.status = .active ∧ 0 < pg.config.idleTimeoutSeconds)

theorem expects_iff : room.expects p = true ↔
    ∃ pg, room.standing.life? p = some pg ∧ pg.status = .active ∧ 0 < pg.config.idleTimeoutSeconds := by
  rw [expects, Option.any_eq_true]
  constructor
  · rintro ⟨pg, hp, live⟩
    obtain ⟨active, pos⟩ := of_decide_eq_true live
    exact ⟨pg.bare, life?_of_paginator? hp, active, pos⟩
  · rintro ⟨pg, life, active, pos⟩
    obtain ⟨pg', hp, rfl⟩ := exists_of_life? life
    exact ⟨pg', hp, decide_eq_true ⟨active, pos⟩⟩

/-- A live paginator whose author may not be idle for ever has the watchdog of its last delivery. -/
theorem watchdog_of_expects (opened : IsOpened start) (moves : List Move) (h : (start.afterAll moves).expects p = true) :
    ∃ pg d, (start.afterAll moves).standing.life? p = some pg ∧ pg.status = .active ∧
      start.lastDelivery? p moves = some d ∧ pg.watchdog = some d.watchdog := by
  obtain ⟨pg, life, active, pos⟩ := expects_iff.1 h
  have watched := ((opened.orderly moves).1.minded life active).2 pos
  have bears := bears_afterAll opened moves p
  rw [life] at bears
  have current := bears.watchdog rfl
  cases last : start.lastDelivery? p moves with
  | none =>
    rw [last] at current
    rw [current] at watched
    cases watched
  | some d =>
    rw [last, Option.bind_some, if_pos pos] at current
    exact ⟨pg, d, life, active, rfl, current⟩

/-- A watchdog has one owner. -/
theorem owner_unique (watched : room.standing.Watched) {q : Nat} {pg' : Paginator} (life : room.standing.life? p = some pg)
    (current : pg.watchdog = some w) (life' : room.standing.life? q = some pg') (current' : pg'.watchdog = some w) :
    p = q := by
  obtain ⟨running, guards, -⟩ := watched.guarded life current
  obtain ⟨running', guards', -⟩ := watched.guarded life' current'
  exact (Prod.mk.inj (Option.some.inj (guards.symm.trans guards'))).1

/-- The watchdog of a live paginator watches over it, and is running. -/
theorem watcher_of_life (watched : room.standing.Watched) (life : room.standing.life? p = some pg) (active : pg.status = .active)
    (current : pg.watchdog = some w) :
    ∃ watcher, room.watchers[w]? = some watcher ∧ watcher.owner = p ∧ watcher.watchdog.running = true := by
  obtain ⟨running, guards, runs⟩ := watched.guarded life current
  rw [standing, List.getElem?_map] at guards
  obtain ⟨watcher, hw, eq⟩ := Option.map_eq_some_iff.1 guards
  obtain ⟨owner, same⟩ := Prod.mk.inj eq
  exact ⟨watcher, hw, owner, same.trans (runs active)⟩

/-- **No timer is left over, and none is missing.** In every run, each live paginator
whose author may not be idle for ever is watched over by the watchdog of the delivery
of it that completed last. At any time, each timer that is pending is that of such a
watchdog, and no watchdog has two; where nothing is ready, each of them has one. -/
theorem one_timer_each {moves : List Move} (opened : IsOpened start) (run : start.afterAll moves = room) :
    (∀ p, room.expects p = true → ∃ pg d watcher, room.paginator? p = some pg ∧ start.lastDelivery? p moves = some d ∧
      pg.watchdog = some d.watchdog ∧ room.watchers[d.watchdog]? = some watcher ∧ watcher.owner = p ∧
      watcher.watchdog.running = true) ∧
    (room.timerKeys.Nodup ∧ ∀ w ∈ room.timerKeys, ∃ p d, room.expects p = true ∧
      start.lastDelivery? p moves = some d ∧ d.watchdog = w) ∧
    (room.agenda.ready = [] → (room.timerKeys.map some).Perm
      (((List.range room.paginators.length).filter room.expects).map fun p =>
        (start.lastDelivery? p moves).map (·.watchdog))) := by
  subst run
  obtain ⟨orderly, manned⟩ := opened.orderly moves
  have belongs : ∀ w ∈ (start.afterAll moves).timerKeys, ∃ p d, (start.afterAll moves).expects p = true ∧
      start.lastDelivery? p moves = some d ∧ d.watchdog = w := by
    intro w mem
    obtain ⟨p, pg, life, active, current⟩ := orderly.timed manned mem
    have pos := (orderly.minded life active).1 (by rw [current]; rfl)
    have expects := expects_iff.2 ⟨pg, life, active, pos⟩
    obtain ⟨pg', d, life', -, last, watchdog⟩ := watchdog_of_expects opened moves expects
    obtain rfl := Option.some.inj (life.symm.trans life')
    exact ⟨p, d, expects, last, Option.some.inj (watchdog.symm.trans current)⟩
  refine ⟨fun p expects => ?_, ⟨orderly.nodup_timerKeys, belongs⟩, fun quiet => ?_⟩
  · obtain ⟨pg, d, life, active, last, current⟩ := watchdog_of_expects opened moves expects
    obtain ⟨watcher, known⟩ := watcher_of_life orderly.watched life active current
    obtain ⟨pg', hp, rfl⟩ := exists_of_life? life
    exact ⟨pg', d, watcher, hp, last, current, known⟩
  · have distinct : (((List.range (start.afterAll moves).paginators.length).filter (start.afterAll moves).expects).map
        fun p => (start.lastDelivery? p moves).map (·.watchdog)).Nodup := by
      refine List.Nodup.map_on (fun p hp q hq same => ?_) (List.nodup_range.filter _)
      obtain ⟨pg, d, life, -, last, current⟩ := watchdog_of_expects opened moves (List.mem_filter.1 hp).2
      obtain ⟨pg', d', life', -, last', current'⟩ := watchdog_of_expects opened moves (List.mem_filter.1 hq).2
      rw [last, last', Option.map_some, Option.map_some, Option.some.injEq] at same
      exact owner_unique orderly.watched life (same ▸ current) life' current'
    refine (List.perm_ext_iff_of_nodup (orderly.nodup_timerKeys.map (Option.some_injective _)) distinct).2 fun o => ?_
    simp only [List.mem_map, List.mem_filter, List.mem_range]
    constructor
    · rintro ⟨w, mem, rfl⟩
      obtain ⟨p, d, expects, last, rfl⟩ := belongs w mem
      obtain ⟨pg, hp, -⟩ := (Option.any_eq_true _ _).1 expects
      have there := List.getElem?_eq_some_iff.1 (Option.join_eq_some_iff.1 hp)
      refine ⟨p, ⟨there.1, expects⟩, ?_⟩
      rw [last, Option.map_some]
    · rintro ⟨p, ⟨-, expects⟩, rfl⟩
      obtain ⟨pg, d, life, active, last, current⟩ := watchdog_of_expects opened moves expects
      refine ⟨d.watchdog, orderly.mem_timerKeys quiet life active current, ?_⟩
      rw [last, Option.map_some]

/-- One paginator is sent again, and another is stopped, as a timer goes off: one timer is left. -/
theorem one_timer_each_resent :
    let create : Act := .create (.pages [.text "hello" "" "" ""]) (.record [("idleTimeoutSeconds", .number 5)]) none
    let moves : List Move := [.act 0 create, .act 1 create, .act 2 (.send 0 .send (.user "ada")),
      .act 3 (.send 1 .reply (.user "bob")), .turn, .turn, .turn, .turn, .act 4 (.send 0 .send (.user "cyd")), .fire 5000,
      .act 5 (.stop 1), .turn, .turn, .turn, .turn, .turn, .turn, .turn]
    let room := (openedWith .numbered .plain [] []).afterAll moves
    room.agenda.ready = [] ∧ (room.timerKeys.map some).Perm [some 2] := by
  intro create moves room
  have state : room.agenda.ready.isEmpty = true ∧ ((List.range room.paginators.length).filter room.expects).map (fun p =>
      ((openedWith .numbered .plain [] []).lastDelivery? p moves).map (·.watchdog)) = [some 2] := by decide +kernel
  obtain ⟨quiet, due⟩ := state
  have quiet : room.agenda.ready = [] := List.isEmpty_iff.1 quiet
  have run : (openedWith .numbered .plain [] []).afterAll moves = room := rfl
  have each := (one_timer_each (.opened _ _ _ _) run).2.2 quiet
  rw [due] at each
  exact ⟨quiet, each⟩

end Room

end Folio
