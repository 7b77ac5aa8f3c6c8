/-
Time in a room. It is told by the clock, the timers, the watchdogs, and the tasks of
those whose wait is over; nearly all that a room does leaves them as they are
(`Still`), and most of it the paginators' lives as well (`Calm`). `Tick` has one case
for each way in which a move does more, and `tick_after` says that there is no other.
-/
import Folio.Proofs.Room.Receipt
import Folio.Proofs.Room.Step
import Folio.Proofs.Watchdog

namespace Folio

/-- The wait that a task is the end of, and how it ended. -/
def Task.woken? : Task → Option (Nat × Bool)
  | .woken w pinged => some (w, pinged)
  | .resume .. => none

namespace Room

variable {a b c room : Room} {p w : Nat} {pg : Paginator} {press : Press} {m : Move} {frames : List Frame}
  {es : List Event}

/-- What tells time is the same. -/
structure Still (a b : Room) : Prop where
  watchers : b.watchers = a.watchers
  now : b.agenda.now = a.agenda.now
  timers : b.agenda.timers = a.agenda.timers
  woken : b.agenda.ready.filter Task.isWoken = a.agenda.ready.filter Task.isWoken

theorem Still.refl (room : Room) : Still room room := ⟨rfl, rfl, rfl, rfl⟩

theorem Still.trans (h : Still a b) (h' : Still b c) : Still a c :=
  ⟨h'.watchers.trans h.watchers, h'.now.trans h.now, h'.timers.trans h.timers, h'.woken.trans h.woken⟩

theorem Outward.still (h : Outward es a b) : Still a b := ⟨h.watchers, h.now, h.timers, h.woken⟩

/-- What tells time is the same, and whoever has a life goes on with it. -/
structure Calm (a b : Room) : Prop extends Still a b where
  lives : ∀ {q pg}, a.standing.life? q = some pg → b.standing.life? q = some pg

theorem Calm.refl (room : Room) : Calm room room := ⟨.refl room, id⟩

theorem Calm.trans (h : Calm a b) (h' : Calm b c) : Calm a c := ⟨h.toStill.trans h'.toStill, fun life => h'.lives (h.lives life)⟩

theorem Still.calm (h : Still a b) (lives : b.standing.lives = a.standing.lives) : Calm a b :=
  ⟨h, fun {q pg} life => by rw [Standing.life?, lives]; exact life⟩

theorem Outward.calm (h : Outward es a b) : Calm a b := by
  refine h.still.calm ?_
  rw [standing, h.paginators]
  rfl

theorem Unpaged.calm (h : Unpaged a b) : Calm a b := by
  obtain ⟨r, es, outward, -⟩ := h
  have rerouted : Calm a { a with router := r } := ⟨⟨rfl, rfl, rfl, rfl⟩, id⟩
  exact rerouted.trans outward.calm

/-! ## What has no part in time -/

/-- From `a` to `b` only the paginators, the router, the interactions and the journal changed. -/
def Aside (a b : Room) : Prop :=
  ∃ paginators router interactions journal, b = { a with paginators, router, interactions, journal }

namespace Aside

theorem refl (room : Room) : Aside room room := ⟨_, _, _, _, rfl⟩

theorem trans (h : Aside a b) (h' : Aside b c) : Aside a c := by
  obtain ⟨_, _, _, _, rfl⟩ := h
  obtain ⟨ps, r, is, j, rfl⟩ := h'
  exact ⟨ps, r, is, j, rfl⟩

theorem still (h : Aside a b) : Still a b := by
  obtain ⟨_, _, _, _, rfl⟩ := h
  exact ⟨rfl, rfl, rfl, rfl⟩

theorem modifyPaginator (room : Room) (p : Nat) (f : Paginator → Paginator) : Aside room (room.modifyPaginator p f) :=
  ⟨_, _, _, _, rfl⟩

theorem record (room : Room) (e : Event) : Aside room (room.record e) := ⟨_, _, _, _, rfl⟩

theorem register (room : Room) (session : String) (names : List String) (handler : Handler) :
    Aside room (room.register session names handler) := by
  rw [Room.register]
  split
  · exact ⟨_, _, _, _, rfl⟩
  · exact ⟨_, _, _, _, rfl⟩

theorem unregister (room : Room) (session : String) : Aside room (Room.unregister room session) := by
  rw [Room.unregister]
  split
  · exact ⟨_, _, _, _, rfl⟩
  · exact ⟨_, _, _, _, rfl⟩

theorem modifyWatchdog (h : Aside a b) (w : Nat)
    (f : Watchdog Nat → Agenda Nat Task → Watchdog Nat × Agenda Nat Task) :
    Aside (a.modifyWatchdog w f) (b.modifyWatchdog w f) := by
  obtain ⟨ps, r, is, j, rfl⟩ := h
  simp only [Room.modifyWatchdog]
  cases a.watchers[w]? with
  | none => exact ⟨ps, r, is, j, rfl⟩
  | some watcher => exact ⟨ps, r, is, j, rfl⟩

theorem callOff (h : Aside a b) (w : Option Nat) : Aside (a.callOff w) (b.callOff w) := by
  cases w with
  | none => exact h
  | some w => exact h.modifyWatchdog w (Watchdog.stop .woken)

theorem watchOver (h : Aside a b) (p : Nat) (seconds : Rat) : Aside (a.watchOver p seconds) (b.watchOver p seconds) := by
  obtain ⟨ps, r, is, j, rfl⟩ := h
  simp only [Room.watchOver]
  split
  · exact ⟨_, r, is, j, rfl⟩
  · exact ⟨_, r, is, j, rfl⟩

end Aside

/-- A paginator that is over has its watchdog called off, and nothing else of it tells time. -/
theorem shutDown_still {h : Handle} (hp : room.paginator? p = some pg) (reason : StopReason) (frames : List Frame) :
    Still (room.callOff pg.watchdog) (room.shutDown p h reason frames) := by
  have stopped := (Aside.modifyPaginator room p fun pg => { pg with status := .stopped }).callOff pg.watchdog
  have forgotten := stopped.trans (.unregister _ pg.session)
  have retired : Aside (room.callOff pg.watchdog) (room.retire p pg reason) :=
    (forgotten.trans (.modifyPaginator _ p _)).trans (.record _ _)
  rw [shutDown_eq hp]
  split
  · exact retired.still.trans (finish_outward _ frames _).still
  · exact retired.still.trans (edit_outward _ h _ (.yield .nothing :: frames)).still

theorem goLive_still (hp : room.paginator? p = some pg) (origin : Origin) (h : Handle) :
    Still ((room.callOff pg.watchdog).watchOver p pg.config.idleTimeoutSeconds) (room.goLive p origin h) := by
  have watched : ∀ {r : Room}, Aside room r → Still ((room.callOff pg.watchdog).watchOver p pg.config.idleTimeoutSeconds)
      (((r.callOff pg.watchdog).watchOver p pg.config.idleTimeoutSeconds).log
        (.sent pg.session pg.pages.length pg.config.idleTimeoutSeconds)) := fun aside =>
    (((aside.callOff pg.watchdog).watchOver p pg.config.idleTimeoutSeconds).trans (.record _ _)).still
  rw [goLive, hp]
  simp only
  split
  · exact watched (.modifyPaginator room p _)
  · exact watched (((Aside.modifyPaginator room p _).trans (.register _ _ _ _)).trans (.modifyPaginator _ p _))

/-! ## What is calm -/

theorem modifyPaginator_calm (room : Room) (p : Nat) {f : Paginator → Paginator}
    (h : ∀ pg, room.paginator? p = some pg → (f pg).bare = pg.bare) : Calm room (room.modifyPaginator p f) := by
  refine (Aside.modifyPaginator room p f).still.calm ?_
  rw [(room.modifyPaginator_kept p h).standing]

theorem SendsOut.calm {via : Via} {origin : Origin} {payload : Payload} (h : SendsOut via origin payload frames a b) :
    Calm a b := by
  rcases h.outward with silent | ⟨call, -, sent⟩
  · exact silent.calm
  · exact sent.calm

theorem finish_calm (room : Room) (frames : List Frame) (outcome : Outcome) : Calm room (room.finish frames outcome) :=
  (room.finish_outward frames outcome).calm

theorem clamp_calm (room : Room) (p : Nat) : Calm room (room.modifyPaginator p Paginator.clamp) :=
  room.modifyPaginator_calm p fun _ _ => rfl

theorem send_calm (room : Room) (p : Nat) (via : Via) (origin : Origin) (frames : List Frame) :
    Calm room (room.send p via origin frames) := by
  rw [send]
  split
  · exact room.finish_calm frames _
  split
  · exact room.finish_calm frames _
  split
  · exact room.finish_calm frames _
  refine (room.clamp_calm p).trans ?_
  split
  · exact finish_calm _ frames _
  · exact (deliver_sendsOut _ via origin _ (.deliver p origin :: frames)).calm

theorem update_calm (room : Room) (p : Nat) (frames : List Frame) : Calm room (room.update p frames) := by
  rw [update]
  split
  · exact room.finish_calm frames _
  split
  · exact room.finish_calm frames _
  next h _ =>
  refine (room.clamp_calm p).trans ?_
  split
  · exact finish_calm _ frames _
  · exact (edit_outward _ h _ (.yield .nothing :: frames)).calm

theorem replace_calm (room : Room) (p : Nat) (press : Press) (failed frames : List Frame) :
    Calm room (room.replace p press failed frames) := by
  rw [replace]
  split
  · exact room.finish_calm failed _
  refine (room.clamp_calm p).trans ?_
  split
  · exact finish_calm _ failed _
  · exact (call_outward _ _ _).calm

theorem acknowledge_calm (room : Room) (press : Press) (frames : List Frame) : Calm room (room.acknowledge press frames) :=
  (room.acknowledge_outward press frames).calm

/-! ## Stopping -/

theorem stop_calm (room : Room) (p : Nat) (frames : List Frame)
    (h : ∀ pg, room.paginator? p = some pg → pg.message.isSome = true → pg.status = .stopped) :
    Calm room (room.stop p frames) := by
  rw [stop]
  split
  · exact room.finish_calm frames _
  next pg hp =>
  split
  · exact room.finish_calm frames _
  next message =>
  rw [if_pos (h pg hp (by rw [message]; rfl))]
  exact room.finish_calm frames _

/-- A paginator that is stopped has its watchdog called off. -/
theorem stop_still (room : Room) (hp : room.paginator? p = some pg) (message : pg.message.isSome = true) (going : pg.status ≠ .stopped)
    (frames : List Frame) :
    Still (room.callOff pg.watchdog) (room.stop p frames) ∧
      (room.stop p frames).standing = room.standing.closed p pg := by
  obtain ⟨h, message⟩ := Option.isSome_iff_exists.1 message
  have stops : room.stop p frames = room.shutDown p h .asked (.yield .nothing :: frames) := by
    rw [stop, hp]
    simp only [message]
    rw [if_neg going]
  rw [stops]
  exact ⟨shutDown_still hp .asked _, (shutDown_shifted hp .asked _).2.standing⟩

/-! ## Presses -/

/-- The callback of a paginator is calm unless it stops a paginator that is not stopped. -/
theorem runCallback_calm (room : Room) (p : Nat) {callback : Callback} (press : Press) (frames : List Frame)
    (h : callback = .stop → ∀ pg, room.paginator? p = some pg → pg.message.isSome = true → pg.status = .stopped) :
    Calm room (room.runCallback p callback press frames) := by
  have noted : Calm room (room.record (.callback press)) := (room.record_outward _).calm
  cases callback with
  | give value => exact noted.trans (finish_calm _ frames _)
  | fail message => exact noted.trans (finish_calm _ frames _)
  | failLater message => exact noted.trans (finish_calm _ (.pass :: .pass :: frames) _)
  | defer => exact noted.trans (acknowledge_calm _ press (.yield (.value (.text "deferred")) :: .pass :: frames))
  | stop => exact noted.trans (stop_calm _ p (.yield (.value (.text "stopped")) :: .pass :: frames) (h rfl))
  | update => exact noted.trans (update_calm _ p (.yield (.value (.text "updated")) :: .pass :: frames))
  | send origin => exact noted.trans (send_calm _ p .send origin (.pass :: .pass :: frames))
  | turnTo index =>
    have turned := noted.trans (modifyPaginator_calm _ p (f := (·.turnTo index)) fun _ _ => rfl)
    exact turned.trans (replace_calm _ p press (.pass :: .pass :: frames) (.pass :: frames))

/-- A press of someone else, or of a paginator that is not live, is calm. -/
theorem receive_calm (room : Room) (p : Nat) (press : Press) (frames : List Frame)
    (h : ∀ pg, room.paginator? p = some pg → pg.author = some press.user → pg.status ≠ .active) :
    Calm room (room.receive p press frames) := by
  rw [receive]
  split
  · exact room.finish_calm frames _
  next pg hp =>
  split
  · have logged := (room.log_outward (.stranger pg.session press.user)).calm
    simp only
    split
    · exact logged.trans (acknowledge_calm _ press (.pass :: frames))
    · exact logged.trans (notify_outward _ press _ (.pass :: frames)).calm
  next author =>
  rw [if_pos (h pg hp (Decidable.not_not.1 author))]
  exact room.acknowledge_calm press (.pass :: frames)

/-- A press of the author of a live paginator pings its watchdog, and may stop it by the callback. -/
theorem receive_own (hp : room.paginator? p = some pg) (author : pg.author = some press.user)
    (active : pg.status = .active) (frames : List Frame) :
    Calm (room.ping pg.watchdog) (room.receive p press frames) ∨
      (press.role = some .callback ∧ pg.callback = some .stop) ∧
        Still ((room.ping pg.watchdog).callOff pg.watchdog) (room.receive p press frames) ∧
        (room.receive p press frames).standing = room.standing.closed p pg := by
  have hp' : (room.ping pg.watchdog).paginator? p = some pg := by
    rw [paginator?, paginators_ping]
    exact hp
  rw [receive, hp]
  simp only [author, ne_eq, not_true_eq_false, if_false, active]
  split
  next callback role own =>
    by_cases stops : callback = .stop ∧ pg.message.isSome = true
    · obtain ⟨rfl, message⟩ := stops
      have noted : Aside (room.ping pg.watchdog) ((room.ping pg.watchdog).record (.callback press)) := .record _ _
      obtain ⟨still, standing⟩ := stop_still ((room.ping pg.watchdog).record (.callback press)) hp' message
        (by simp [active]) (.yield (.value (.text "stopped")) :: .pass :: frames)
      have same := (room.ping_kept pg.watchdog).standing
      have closed : ((room.ping pg.watchdog).record (.callback press)).standing = room.standing := same
      rw [closed] at standing
      exact .inr ⟨⟨role, own⟩, (noted.callOff pg.watchdog).still.trans still, standing⟩
    · refine .inl (runCallback_calm _ p press frames fun hs pg' hpg' message => ?_)
      obtain rfl := Option.some.inj (hp'.symm.trans hpg')
      exact absurd ⟨hs, message⟩ stops
  · refine .inl ?_
    generalize Paginator.pressed pg.pages.length pg.index _ press.values = moved
    obtain ⟨index, refused⟩ := moved
    have turned : ∀ {r : Room}, Calm (room.ping pg.watchdog) r → Calm (room.ping pg.watchdog)
        ((r.modifyPaginator p fun pg => { pg with index }).replace p press frames frames) := fun calm =>
      (calm.trans (modifyPaginator_calm _ p (f := fun pg => { pg with index }) fun _ _ => rfl)).trans (replace_calm _ p press frames frames)
    cases refused with
    | none => exact turned (.refl _)
    | some value => exact turned (log_outward _ _).calm

/-! ## Turns -/

theorem resume_calm (room : Room) (frame : Frame) (frames : List Frame) {outcome : Outcome}
    (h : ∀ p origin h, frame = .deliver p origin → outcome ≠ .ok (.message h)) :
    Calm room (room.resume frame frames outcome) := by
  have finished : ∀ o, Calm room (room.finish frames o) := fun o => room.finish_calm frames o
  cases frame with
  | pass => exact finished outcome
  | caller step paginator => exact ⟨⟨rfl, rfl, rfl, rfl⟩, id⟩
  | yield a | fail fault => cases outcome <;> exact finished _
  | fetch command id =>
    cases outcome with
    | error fault => exact finished _
    | ok a => exact (room.relay_outward (.fetchAnswer command id) frames).calm
  | deliver p origin =>
    cases outcome with
    | error fault => exact finished _
    | ok a =>
      cases a with
      | message m => exact absurd rfl (h p origin m rfl)
      | nothing | flag b | value v | sent m held => exact finished _
  | expire p =>
    cases outcome with
    | ok a => exact finished _
    | error fault =>
      rw [resume]
      split
      · exact (room.log_outward _).calm.trans (finish_calm _ frames _)
      · exact finished _
  | guard press =>
    cases outcome with
    | ok a => exact finished _
    | error fault =>
      obtain ⟨es, outward, -⟩ := room.apologize_outward press fault frames
      exact outward.calm
  | notice press =>
    cases outcome with
    | ok a => exact finished _
    | error fault => exact (room.log_outward _).calm.trans (finish_calm _ frames _)

/-! ### Watchdogs that go on -/

theorem modifyWatchdog_eq {watcher : Watcher} (hw : room.watchers[w]? = some watcher)
    (f : Watchdog Nat → Agenda Nat Task → Watchdog Nat × Agenda Nat Task) :
    room.modifyWatchdog w f = { room with
      watchers := room.watchers.set w { watcher with watchdog := (f watcher.watchdog room.agenda).1 },
      agenda := (f watcher.watchdog room.agenda).2 } := by
  rw [modifyWatchdog, hw]

/-- To call off a watchdog that does not run does nothing. -/
theorem callOff_idle {watcher : Watcher} (hw : room.watchers[w]? = some watcher) (idle : watcher.watchdog.running = false) :
    room.callOff (some w) = room := by
  have stays : watcher.watchdog.stop .woken room.agenda = (watcher.watchdog, room.agenda) := by
    rw [Watchdog.stop, idle]
    rfl
  obtain ⟨hlt, rfl⟩ := List.getElem?_eq_some_iff.1 hw
  have same : room.watchers.set w ⟨room.watchers[w].owner, room.watchers[w].watchdog⟩ = room.watchers :=
    List.set_getElem_self hlt
  rw [callOff, modifyWatchdog_eq hw, stays]
  simp only [same]

/-- A wait ran out whose watchdog runs and is that of its owner, who is live. -/
structure RanOut (room : Room) (w p : Nat) (pg : Paginator) : Prop where
  runs : ∃ watcher, room.watchers[w]? = some watcher ∧ watcher.owner = p ∧ watcher.watchdog.running = true
  was : room.paginator? p = some pg
  sent : pg.message.isSome = true
  current : pg.watchdog = some w
  active : pg.status = .active

theorem wake_ranOut (room : Room) (h : RanOut room w p pg) :
    Still (room.goneOn w false) (room.wake w false) ∧ (room.wake w false).standing = room.standing.closed p pg := by
  obtain ⟨⟨watcher, hw, rfl, running⟩, was, sent, current, active⟩ := h
  obtain ⟨handle, message⟩ := Option.isSome_iff_exists.1 sent
  refine ⟨?_, (wake_shifted hw running was message current active).2.standing⟩
  have ended : ((watcher.watchdog.resume .woken w false room.agenda).1).running = false := by
    rw [(watcher.watchdog.resume_spec room.agenda w false).2.1, Bool.and_false]
  have gone : ((room.goneOn w false).log (.idle pg.session)).watchers[w]? = some
      ⟨watcher.owner, (watcher.watchdog.resume .woken w false room.agenda).1⟩ := by
    obtain ⟨hlt, rfl⟩ := List.getElem?_eq_some_iff.1 hw
    simp [log, record, goneOn, modifyWatchdog, hlt]
  have hp : ((room.goneOn w false).log (.idle pg.session)).paginator? watcher.owner = some pg :=
    (room.paginator?_goneOn w false watcher.owner).trans was
  -- The watchdog that is called off has just ended.
  have still := shutDown_still (h := handle) hp .timedOut [.yield .nothing, .yield .nothing, .expire watcher.owner]
  rw [current, callOff_idle gone ended] at still
  rw [wake_eq_shutDown hw running was message current active]
  exact (log_outward _ _).still.trans still

theorem wake_of_not_ranOut (room : Room) {pinged : Bool} (h : pinged = false → ∀ p pg, ¬RanOut room w p pg) :
    room.wake w pinged = room.goneOn w pinged := by
  by_cases runs : ∃ watcher, room.watchers[w]? = some watcher ∧ pinged = false ∧ watcher.watchdog.running = true
  · obtain ⟨watcher, hw, rfl, running⟩ := runs
    refine wake_eq_spared hw running fun pg hp sent current => ?_
    exact h rfl watcher.owner pg ⟨⟨watcher, hw, rfl, running⟩, hp, sent, current.1, current.2⟩
  · refine room.wake_eq_goneOn w fun watcher hw hpinged => ?_
    cases running : watcher.watchdog.running with
    | false => rfl
    | true => exact absurd ⟨watcher, hw, hpinged, running⟩ runs

/-! ## Moves -/

/-- The room when the first timer is taken out, at its time. -/
def fired (room : Room) (t : Timer Nat) (rest : List (Timer Nat)) : Room :=
  { room with agenda := { room.agenda with timers := rest }.moveTo t.due }

/-- What a move can do to what tells time, and to the lives. -/
inductive Tick (room : Room) (m : Move) (b : Room) : Prop where
  | calm (h : Calm room b)
  /-- A press of the author of a live paginator is a sign of life. -/
  | pinged {p : Nat} {press : Press} {pg : Paginator} {a : Room} (received : room.received? m = some (p, press))
      (was : room.paginator? p = some pg) (author : pg.author = some press.user) (active : pg.status = .active)
      (before : Calm room a) (h : Calm (a.ping pg.watchdog) b)
  /-- A paginator is asked to stop, by a press of its author perhaps. -/
  | stopped {p : Nat} {pg : Paginator} {a : Room} (was : room.paginator? p = some pg)
      (asked : (∃ k, m = .act k (.stop p)) ∧ a = room ∨ ∃ press r, room.received? m = some (p, press) ∧
        pg.author = some press.user ∧ pg.status = .active ∧ press.role = some .callback ∧ pg.callback = some .stop ∧
        Calm room r ∧ a = r.ping pg.watchdog)
      (h : Still (a.callOff pg.watchdog) b) (standing : b.standing = room.standing.closed p pg)
  | started {p : Nat} {pg : Paginator} {origin : Origin} {handle : Handle} {a : Room} (delivers : Delivers room m p)
      (was : room.paginator? p = some pg) (before : Still room a)
      (h : Still ((a.callOff pg.watchdog).watchOver p pg.config.idleTimeoutSeconds) b)
      (standing : b.standing = room.standing.live p pg (room.authorOf? origin) handle)
  /-- A watchdog goes on after a wait. -/
  | woken {w : Nat} {pinged : Bool} {rest : List Task} (turn : m = .turn) (ready : room.agenda.ready = .woken w pinged :: rest)
      (spares : pinged = false → ∀ p pg, ¬RanOut room w p pg)
      (h : Calm ((room.popped rest).goneOn w pinged) b)
  /-- The author of a paginator was idle. -/
  | expired {w p : Nat} {pg : Paginator} {rest : List Task} (turn : m = .turn)
      (ready : room.agenda.ready = .woken w false :: rest) (ranOut : RanOut room w p pg)
      (h : Still ((room.popped rest).goneOn w false) b) (standing : b.standing = room.standing.closed p pg)
  | lapsed {limit : Number} {t : Timer Nat} {rest : List (Timer Nat)} (fire : m = .fire limit)
      (timers : room.agenda.timers = t :: rest)
      (h : b = (room.fired t rest).modifyWatchdog t.key (Watchdog.lapse .woken t.key))
  | moved {time : Number} (move : m = .moveTo time) (h : b = { room with agenda := room.agenda.moveTo time })

/-- A press that a paginator receives. -/
theorem received_tick (received : room.received? m = some (p, press)) : Tick room m (room.after m) := by
  obtain ⟨a, frames, receives, eq⟩ := receives received
  have before := receives.outward.calm
  have standing : a.standing = room.standing := by
    cases receives <;> rfl
  rw [eq]
  by_cases own : ∃ pg, a.paginator? p = some pg ∧ pg.author = some press.user ∧ pg.status = .active
  · obtain ⟨pg, hp, author, active⟩ := own
    have was : room.paginator? p = some pg := (receives.outward.paginator? p).symm.trans hp
    rcases receive_own hp author active frames with calm | ⟨⟨role, own⟩, still, closed⟩
    · exact .pinged received was author active before calm
    · exact .stopped was (.inr ⟨press, a, received, author, active, role, own, before, rfl⟩) still (closed.trans (by rw [standing]))
  · exact .calm (before.trans (receive_calm a p press frames fun pg hp author active => own ⟨pg, hp, author, active⟩))

theorem turn_tick (room : Room) : Tick room .turn (room.after .turn) := by
  cases ready : room.agenda.ready with
  | nil =>
    rw [after_turn_nil ready]
    exact .calm (.refl room)
  | cons t rest =>
    rw [after_turn ready]
    cases t with
    | woken w pinged =>
      by_cases ranOut : pinged = false ∧ ∃ p pg, RanOut room w p pg
      · obtain ⟨rfl, p, pg, ranOut⟩ := ranOut
        obtain ⟨still, standing⟩ := (room.popped rest).wake_ranOut
          ⟨ranOut.runs, ranOut.was, ranOut.sent, ranOut.current, ranOut.active⟩
        exact .expired rfl ready ranOut still standing
      · have spares : pinged = false → ∀ p pg, ¬RanOut room w p pg := fun hp p pg h => ranOut ⟨hp, p, pg, h⟩
        refine .woken rfl ready spares ?_
        rw [run, (room.popped rest).wake_of_not_ranOut fun hp p pg h =>
          spares hp p pg ⟨h.runs, h.was, h.sent, h.current, h.active⟩]
        exact .refl _
    | resume frames outcome =>
      have popped : Calm room (room.popped rest) := by
        refine ⟨⟨rfl, rfl, rfl, ?_⟩, id⟩
        rw [ready]
        rfl
      cases frames with
      | nil => exact .calm popped
      | cons frame frames =>
        by_cases live : ∃ p origin h, frame = .deliver p origin ∧ outcome = .ok (.message h)
        · obtain ⟨p, origin, h, rfl, rfl⟩ := live
          have delivers : Delivers room .turn p := ⟨rfl, origin, h, frames, rest, ready⟩
          have finished := ((room.popped rest).goLive p origin h).finish_calm frames (.ok (.message h))
          cases hp : room.paginator? p with
          | none =>
            have stays : (room.popped rest).goLive p origin h = room.popped rest := by
              have hp' : (room.popped rest).paginator? p = none := hp
              rw [goLive, hp']
            rw [stays] at finished
            refine .calm (popped.trans ?_)
            rw [run, resume, stays]
            exact finished
          | some pg =>
            have hp' : (room.popped rest).paginator? p = some pg := hp
            have standing := (after_turn_shifted ready hp).standing
            rw [after_turn ready] at standing
            exact .started delivers hp popped.toStill ((goLive_still hp' origin h).trans finished.toStill) standing
        · refine .calm (popped.trans (resume_calm _ frame frames fun p origin h hf ho => ?_))
          exact live ⟨p, origin, h, hf, ho⟩

theorem fire_tick (room : Room) (limit : Number) : Tick room (.fire limit) (room.after (.fire limit)) := by
  rw [after, Timed.fire?]
  split
  · exact .calm (.refl room)
  next t rest timers =>
  split
  · exact .lapsed rfl timers rfl
  · exact .calm (.refl room)

theorem withPaginator_calm {use : Paginator → Room × Returned}
    (h : ∀ pg, room.paginator? p = some pg → Calm room (use pg).1) : Calm room (room.withPaginator p use).1 := by
  rw [withPaginator]
  split
  next pg hp => exact h pg hp
  · exact .refl room

theorem create_calm (room : Room) (source : Source) (overrides : Value) (callback : Option Callback) :
    Calm room (room.create source overrides callback).1 := by
  have add : ∀ (n : Nat) (o : Option Paginator), Calm room { room with paginators := room.paginators ++ [o], sessions := n } := by
    intro n o
    refine ⟨⟨rfl, rfl, rfl, rfl⟩, fun {q pg} life => ?_⟩
    have grown := Standing.life?_born_of_life? life n (o.map Paginator.bare)
    rw [Standing.life?, standing, List.map_append]
    exact grown
  rw [create]
  simp only
  split
  · exact add _ none
  split
  · exact add _ none
  · exact add _ (some _)

theorem release_calm {position : Nat} {failure : Option String} (h : room.release position failure = some b) :
    Calm room b := by
  rw [release, Option.map_eq_some_iff] at h
  obtain ⟨call, -, h⟩ := h
  have erased : Calm room { room with held := room.held.eraseIdx position } := ⟨⟨rfl, rfl, rfl, rfl⟩, id⟩
  split at h
  · exact h ▸ erased.trans (finish_calm _ call.frames _)
  · exact h ▸ erased.trans (succeed_outward _ call.call call.frames).calm

theorem press_tick {k : Nat} {act : Act} (isPress : act.isPress = true) :
    Tick room (.act k act) (room.after (.act k act)) := by
  cases received : room.received? (.act k act) with
  | none => exact .calm (unreceived isPress received).calm
  | some press => exact received_tick received

theorem act_tick (room : Room) (k : Nat) (a : Act) : Tick room (.act k a) (room.after (.act k a)) := by
  cases a with
  | create source overrides callback => exact .calm (room.create_calm source overrides callback)
  | setIndex p index =>
    refine .calm (withPaginator_calm fun pg hp => room.modifyPaginator_calm p fun old ho => ?_)
    obtain rfl := Option.some.inj (hp.symm.trans ho)
    rfl
  | setCallback p callback => exact .calm (withPaginator_calm fun _ _ => room.modifyPaginator_calm p fun _ _ => rfl)
  | splice p start removed drafts =>
    refine .calm (withPaginator_calm fun pg hp => ?_)
    simp only
    split
    · exact .refl room
    · refine room.modifyPaginator_calm p fun old ho => ?_
      obtain rfl := Option.some.inj (hp.symm.trans ho)
      rfl
  | showPayload p => exact .calm (withPaginator_calm fun _ _ => room.clamp_calm p)
  | send p via origin => exact .calm (room.send_calm p via origin [.caller k (some p)])
  | stop p =>
    by_cases going : ∃ pg, room.paginator? p = some pg ∧ pg.message.isSome = true ∧ pg.status ≠ .stopped
    · obtain ⟨pg, hp, sent, going⟩ := going
      obtain ⟨still, standing⟩ := room.stop_still hp sent going [.caller k none]
      exact .stopped hp (.inl ⟨⟨k, rfl⟩, rfl⟩) still standing
    · refine .calm (room.stop_calm p [.caller k none] fun pg hp sent => ?_)
      exact Decidable.not_not.1 fun h => going ⟨pg, hp, sent, h⟩
  | update p => exact .calm (room.update_calm p [.caller k none])
  | interact _ _ | dispatch _ | emit _ _ _ => exact press_tick rfl
  | wrap kind draft =>
    rw [after, act, withPress]
    split <;> exact .calm (.refl room)
  | register session names name reaction | unregister session => exact .calm ⟨⟨rfl, rfl, rfl, rfl⟩, id⟩
  | clientRegister session names =>
    refine .calm ((Aside.register room session names .silent).still.calm ?_)
    rw [Room.register]
    split <;> rfl
  | clientUnregister session =>
    refine .calm ((Aside.unregister room session).still.calm ?_)
    rw [Room.unregister]
    split <;> rfl
  | has customId | author origin => exact .calm (.refl room)
  | setFailure call message | setHolding on => exact .calm ⟨⟨rfl, rfl, rfl, rfl⟩, id⟩
  | release position failure =>
    rw [after, act]
    split
    next h => exact .calm (release_calm h)
    · exact .calm (.refl room)

/-- **What a move can do to what tells time.** -/
theorem tick_after (room : Room) (m : Move) : Tick room m (room.after m) := by
  cases m with
  | act k a => exact room.act_tick k a
  | turn => exact room.turn_tick
  | fire limit => exact room.fire_tick limit
  | moveTo time => exact .moved rfl rfl

end Room

end Folio
