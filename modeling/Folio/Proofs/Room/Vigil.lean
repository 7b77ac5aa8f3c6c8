/-
The watch over one paginator, from one move to the next. A live paginator that may
not be idle for ever has a watchdog of its own; `Vigil` lists what a move can do to
the two of them, and `Minds.vigil` says that there is nothing else. Whatever the other
paginators do, it is none of the six.
-/
import Folio.Proofs.Room.Watched
import Folio.Proofs.Room.Wound

namespace Folio.Room

variable {a b room : Room} {p q w : Nat} {pg : Paginator} {m : Move} {x : Watch} {goes : Nat → Number → Prop}

/-! ## Watchdogs of others -/

theorem At.guards (h : At room w x) : room.standing.guards[w]? = some (x.owner, x.running) := by
  obtain ⟨watchdog, hw, -, running, -⟩ := h
  exact running ▸ guards_getElem? hw

theorem At.running_of_active (h : At room w x) (watched : room.standing.Watched) (life : room.standing.life? p = some pg)
    (current : pg.watchdog = some w) (active : pg.status = .active) : x.owner = p ∧ x.running = true := by
  obtain ⟨running, guards, runs⟩ := watched.guarded life current
  rw [h.guards] at guards
  obtain ⟨rfl, rfl⟩ := Prod.mk.inj (Option.some.inj guards)
  exact ⟨rfl, runs active⟩

/-- The watchdog of one paginator is not that of another. -/
theorem At.other (h : At room w x) (watched : room.standing.Watched) {pg' : Paginator}
    (life : room.standing.life? q = some pg') (other : q ≠ x.owner) : pg'.watchdog ≠ some w := by
  intro current
  obtain ⟨running, guards, -⟩ := watched.guarded life current
  rw [h.guards] at guards
  exact other (Prod.mk.inj (Option.some.inj guards)).1.symm

theorem At.ping_other (h : At room w x) (wound : Wound goes room) {o : Option Nat} (other : o ≠ some w) :
    At (room.ping o) w x := by
  cases o with
  | none => exact h
  | some v =>
    cases hv : room.watchers[v]? with
    | none =>
      rw [Room.ping, modifyWatchdog, hv]
      exact h
    | some watcher =>
      obtain ⟨y, known, -⟩ := wound.staged hv
      exact known.ping.2.at (fun e => other (congrArg some e.symm)) h

theorem At.callOff_other (h : At room w x) (wound : Wound goes room) {o : Option Nat} (other : o ≠ some w) :
    At (room.callOff o) w x := by
  cases o with
  | none => exact h
  | some v =>
    cases hv : room.watchers[v]? with
    | none =>
      rw [Room.callOff, modifyWatchdog, hv]
      exact h
    | some watcher =>
      obtain ⟨y, known, -⟩ := wound.staged hv
      exact known.callOff.2.at (fun e => other (congrArg some e.symm)) h

theorem At.watchOver_other (h : At room w x) (wound : Wound goes room) (p : Nat) (seconds : Rat) :
    At (room.watchOver p seconds) w x := by
  by_cases pos : 0 < seconds
  · obtain ⟨-, touches⟩ := room.watchOver_at p pos (wound.spare (List.getElem?_eq_none (Nat.le_refl _)))
    obtain ⟨watchdog, hw, -⟩ := id h
    exact touches.at (Nat.ne_of_lt (List.getElem?_eq_some_iff.1 hw).1) h
  · rw [watchOver, if_neg pos]
    exact (Aside.modifyPaginator room p _).still.at h

/-! ## The watch -/

/-- A live paginator is asked to stop: by an act, or by a press of its author. -/
def Asks (room : Room) (m : Move) (p : Nat) : Prop :=
  (∃ k, m = .act k (.stop p)) ∨ ∃ press pg, room.received? m = some (p, press) ∧ room.paginator? p = some pg ∧
    pg.author = some press.user ∧ pg.status = .active ∧ press.role = some .callback ∧ pg.callback = some .stop

/-- What a move can do to a live paginator and its watchdog. -/
inductive Vigil (room : Room) (m : Move) (p w : Nat) (pg : Paginator) (x : Watch) (b : Room) : Prop where
  | same (life : b.standing.life? p = some pg) (known : At b w x)
  | pinged {press : Press} (received : room.received? m = some (p, press)) (author : pg.author = some press.user)
      (life : b.standing.life? p = some pg) (known : At b w { x with stage := x.stage.rung })
  | asked (asks : Asks room m p) (life : b.standing.life? p = some (Standing.ended pg))
  | begun (delivers : Delivers room m p)
  /-- The watchdog waits anew. -/
  | renewed {rest : List Task} (turn : m = .turn) (ready : room.agenda.ready = .woken w true :: rest)
      (stage : x.stage = .woken true) (life : b.standing.life? p = some pg) (known : At b w (x.wentOn room.agenda.now true))
  /-- The wait of the watchdog ran out, and that is the end. -/
  | timedOut {rest : List Task} (turn : m = .turn) (ready : room.agenda.ready = .woken w false :: rest)
      (stage : x.stage = .woken false) (life : b.standing.life? p = some (Standing.ended pg))
  /-- The timer of the watchdog goes off. -/
  | lapsed {limit : Number} {t : Timer Nat} {rest : List (Timer Nat)} (fire : m = .fire limit)
      (timers : room.agenda.timers = t :: rest) (own : t.key = w) (stage : x.stage = .asleep t.due)
      (life : b.standing.life? p = some pg) (known : At b w { x with stage := .woken false })
      (now : b.agenda.now = (room.fired t rest).agenda.now)

/-- A live paginator and its watchdog. -/
structure Minds (room : Room) (p w : Nat) (pg : Paginator) (x : Watch) : Prop where
  watched : room.standing.Watched
  wound : Wound room.goes room
  life : room.standing.life? p = some pg
  active : pg.status = .active
  current : pg.watchdog = some w
  known : At room w x

namespace Minds

variable {pg' : Paginator} {press : Press} {rest : List Task} (h : Minds room p w pg x)

include h

theorem owner : x.owner = p := (h.known.running_of_active h.watched h.life h.current h.active).1

theorem running : x.running = true := (h.known.running_of_active h.watched h.life h.current h.active).2

theorem bare (was : room.paginator? p = some pg') : pg'.bare = pg :=
  Option.some.inj ((life?_of_paginator? was).symm.trans h.life)

theorem author (was : room.paginator? p = some pg') : pg'.author = pg.author := by
  rw [← h.bare was]
  rfl

theorem watchdog (was : room.paginator? p = some pg') : pg'.watchdog = some w := by
  rw [← h.current, ← h.bare was]
  rfl

/-- What another paginator has is not `w`. -/
theorem others (was : room.paginator? q = some pg') (other : q ≠ p) : pg'.watchdog ≠ some w := by
  have elsewhere := h.known.other h.watched (life?_of_paginator? was) (h.owner ▸ other)
  exact elsewhere

/-- The end of another paginator is not that of `p`. -/
theorem closed (was : room.paginator? q = some pg') :
    (room.standing.closed q pg').life? p = if q = p then some (Standing.ended pg) else some pg := by
  have ended : (room.standing.closed q pg').life? p =
      if p = q then some (Standing.ended pg'.bare) else room.standing.life? p :=
    Standing.life?_closed (life?_of_paginator? was) p
  by_cases hq : q = p
  · subst hq
    rw [if_pos rfl, h.bare was] at ended
    rw [if_pos rfl]
    exact ended
  · rw [if_neg fun e => hq e.symm, h.life] at ended
    rw [if_neg hq]
    exact ended

/-! One lemma for each way in which a move tells time. -/

theorem ofPinged (received : room.received? m = some (q, press)) (was : room.paginator? q = some pg')
    (author : pg'.author = some press.user) (before : Calm room a) (calm : Calm (a.ping pg'.watchdog) b) :
    Vigil room m p w pg x b := by
  have came : At a w x := before.at h.known
  have kept : (a.ping pg'.watchdog).standing = a.standing := (a.ping_kept pg'.watchdog).standing
  have lives : b.standing.life? p = some pg := calm.lives (kept ▸ before.lives h.life)
  by_cases hq : q = p
  · subst hq
    rw [h.watchdog was] at calm
    exact .pinged received ((h.author was).symm.trans author) lives (calm.at came.ping.1)
  · exact .same lives (calm.at (came.ping_other (h.wound.still before.toStill).wound (h.others was hq)))

theorem ofStopped (was : room.paginator? q = some pg')
    (asked : (∃ k, m = .act k (.stop q)) ∧ a = room ∨ ∃ press r, room.received? m = some (q, press) ∧
      pg'.author = some press.user ∧ pg'.status = .active ∧ press.role = some .callback ∧ pg'.callback = some .stop ∧
      Calm room r ∧ a = r.ping pg'.watchdog)
    (still : Still (a.callOff pg'.watchdog) b) (standing : b.standing = room.standing.closed q pg') :
    Vigil room m p w pg x b := by
  have lives := h.closed was
  rw [← standing] at lives
  by_cases hq : q = p
  · subst hq
    rw [if_pos rfl] at lives
    refine .asked ?_ lives
    rcases asked with ⟨stop, -⟩ | ⟨press, r, received, author, active, role, callback, -, -⟩
    · exact .inl stop
    · exact .inr ⟨press, pg', received, was, author, active, role, callback⟩
  · rw [if_neg hq] at lives
    have came : At a w x ∧ Wound room.goes a := by
      rcases asked with ⟨-, rfl⟩ | ⟨press, r, -, -, -, -, -, before, rfl⟩
      · exact ⟨h.known, h.wound⟩
      · have came := (h.wound.still before.toStill).wound
        exact ⟨(before.at h.known).ping_other came (h.others was hq), (came.ping _).wound⟩
    exact .same lives (still.at (came.1.callOff_other came.2 (h.others was hq)))

theorem ofStarted {origin : Origin} {handle : Handle} (delivers : Delivers room m q) (was : room.paginator? q = some pg')
    (before : Still room a) (still : Still ((a.callOff pg'.watchdog).watchOver q pg'.config.idleTimeoutSeconds) b)
    (standing : b.standing = room.standing.live q pg' (room.authorOf? origin) handle) : Vigil room m p w pg x b := by
  by_cases hq : q = p
  · exact .begun (hq ▸ delivers)
  · have lives := Standing.life?_live (life?_of_paginator? was) (room.authorOf? origin) handle p
    rw [if_neg fun e => hq e.symm, h.life] at lives
    have began : b.standing.life? p = some pg := standing ▸ lives
    have came := h.wound.still before
    have ended := came.wound.callOff pg'.watchdog
    have others := (before.at h.known).callOff_other came.wound (h.others was hq)
    exact .same began (still.at (others.watchOver_other ended.wound q _))

/-- Another watchdog goes on. -/
theorem goneOn_other {v : Nat} {pinged : Bool} (ready : room.agenda.ready = .woken v pinged :: rest) (other : v ≠ w) :
    At ((room.popped rest).goneOn v pinged) w x := by
  cases hw : room.watchers[v]? with
  | none =>
    have wakes := (wakes_popped ready).1
    rw [(h.wound.spare hw).2] at wakes
    cases wakes
  | some watcher =>
    obtain ⟨y, known, -⟩ := h.wound.staged hw
    obtain ⟨-, -, touches⟩ := known.goneOn ready
    exact touches.at (fun e => other e.symm) h.known

theorem ofWoken {v : Nat} {pinged : Bool} (turn : m = .turn) (ready : room.agenda.ready = .woken v pinged :: rest)
    (spares : pinged = false → ∀ q pg', ¬RanOut room v q pg') (calm : Calm ((room.popped rest).goneOn v pinged) b) :
    Vigil room m p w pg x b := by
  have popped : (room.popped rest).standing.life? p = some pg := h.life
  have lives : b.standing.life? p = some pg := by
    refine calm.lives ?_
    rw [standing_goneOn]
    exact popped
  by_cases hv : v = w
  · subst hv
    obtain ⟨stage, known, -⟩ := h.known.goneOn ready
    cases pinged with
    | true => exact .renewed turn ready stage lives (calm.at known)
    | false =>
      -- The wait of a live paginator's watchdog would have run out.
      obtain ⟨pg', was, rfl⟩ := exists_of_life? h.life
      obtain ⟨watchdog, hw, -, runs, -⟩ := id h.known
      have sent : pg'.bare.message.isSome = true := (h.watched.held h.life).2 (by rw [h.active]; decide)
      exact absurd ⟨⟨_, hw, h.owner, runs.trans h.running⟩, was, sent, h.current, h.active⟩ (spares rfl p pg')
  · exact .same lives (calm.at (h.goneOn_other ready hv))

theorem ofExpired {v : Nat} (turn : m = .turn) (ready : room.agenda.ready = .woken v false :: rest)
    (ranOut : RanOut room v q pg') (still : Still ((room.popped rest).goneOn v false) b)
    (standing : b.standing = room.standing.closed q pg') : Vigil room m p w pg x b := by
  have lives := h.closed ranOut.was
  rw [← standing] at lives
  by_cases hq : q = p
  · subst hq
    rw [if_pos rfl] at lives
    obtain rfl : v = w := Option.some.inj (ranOut.current.symm.trans (h.watchdog ranOut.was))
    exact .timedOut turn ready (h.known.goneOn ready).1 lives
  · rw [if_neg hq] at lives
    have other : v ≠ w := fun e => h.others ranOut.was hq (e ▸ ranOut.current)
    exact .same lives (still.at (h.goneOn_other ready other))

theorem ofLapsed {limit : Number} {t : Timer Nat} {rest : List (Timer Nat)} (fire : m = .fire limit)
    (timers : room.agenda.timers = t :: rest)
    (eq : b = (room.fired t rest).modifyWatchdog t.key (Watchdog.lapse .woken t.key)) : Vigil room m p w pg x b := by
  have lives : b.standing.life? p = some pg := by
    rw [eq, (modifyWatchdog_kept _ t.key (Watchdog.lapse .woken t.key) fun wd a => wd.lapse_spec a t.key).standing]
    exact h.life
  have winds := h.wound.lapse timers
  rw [← eq] at winds
  by_cases hv : t.key = w
  · subst hv
    obtain ⟨stage, known, -⟩ := h.known.lapse timers
    exact .lapsed fire timers rfl stage lives (eq ▸ known) winds.now
  · cases hw : room.watchers[t.key]? with
    | none =>
      have dues := (h.wound.spare hw).1
      rw [Agenda.dues, timers, List.filter_cons_of_pos (by simp)] at dues
      cases dues
    | some watcher =>
      obtain ⟨y, known, -⟩ := h.wound.staged hw
      obtain ⟨-, -, touches⟩ := known.lapse timers
      have elsewhere := (fired_elsewhere timers).trans touches.toElsewhere
      exact .same lives (eq ▸ elsewhere.at (fun e => hv e.symm) h.known)

theorem vigil (m : Move) : Vigil room m p w pg x (room.after m) := by
  cases room.tick_after m with
  | calm calm => exact .same (calm.lives h.life) (calm.at h.known)
  | pinged received was author active before calm => exact h.ofPinged received was author before calm
  | stopped was asked still standing => exact h.ofStopped was asked still standing
  | started delivers was before still standing => exact h.ofStarted delivers was before still standing
  | woken turn ready spares calm => exact h.ofWoken turn ready spares calm
  | expired turn ready ranOut still standing => exact h.ofExpired turn ready ranOut still standing
  | lapsed fire timers eq => exact h.ofLapsed fire timers eq
  | @moved time move eq =>
    obtain ⟨watchdog, hw, interval, running, stands⟩ := h.known
    exact .same (eq ▸ h.life) (eq ▸ ⟨watchdog, hw, interval, running, stands.of_eq rfl rfl⟩)

end Minds

end Folio.Room
