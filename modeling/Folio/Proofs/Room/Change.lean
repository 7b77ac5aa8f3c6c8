/-
What a move does to how things stand. `Change` has one case for each way in which
it can matter, and `change_after` says that there is no other: an operation runs,
a paginator is created or goes live, a watchdog ends without an owner to stop, or
the script itself turns to the router.
-/
import Folio.Proofs.Room.Effect

namespace Folio.Room

variable {a b c room : Room} {p w : Nat} {pg : Paginator} {m : Move} {frames : List Frame}

/-! ## Watchdogs -/

/-- The room once a watchdog went on after a wait, apart from its owner. -/
def goneOn (room : Room) (w : Nat) (pinged : Bool) : Room :=
  room.modifyWatchdog w fun wd a => ((wd.resume .woken w pinged a).1, (wd.resume .woken w pinged a).2.1)

theorem standing_goneOn (room : Room) (w : Nat) (pinged : Bool) :
    (room.goneOn w pinged).standing =
      { room.standing with guards := room.standing.guards.modify w fun e => (e.1, e.2 && pinged) } :=
  room.standing_modifyWatchdog w _ (· && pinged) fun wd a => (wd.resume_spec a w pinged).2.1

theorem goneOn_shifted (room : Room) (w : Nat) (pinged : Bool) :
    Shifted (room.goneOn w pinged).standing [] [] room (room.goneOn w pinged) := by
  have hp : (room.goneOn w pinged).pending = room.pending :=
    room.pending_modifyWatchdog w _ fun wd a => (wd.resume_spec a w pinged).2.2
  have same : (room.goneOn w pinged).client = room.client ∧ (room.goneOn w pinged).edits = room.edits := by
    rw [goneOn, modifyWatchdog]
    split <;> exact ⟨rfl, rfl⟩
  exact ⟨same.1, rfl, same.2.trans (List.append_nil _).symm, fun d hd => .inl (hp ▸ hd)⟩

theorem paginator?_goneOn (room : Room) (w : Nat) (pinged : Bool) (q : Nat) :
    (room.goneOn w pinged).paginator? q = room.paginator? q := by
  rw [goneOn, paginator?, paginators_modifyWatchdog, paginator?]

variable {watcher : Watcher}

theorem guards_getElem? (hw : room.watchers[w]? = some watcher) :
    room.standing.guards[w]? = some (watcher.owner, watcher.watchdog.running) := by
  rw [standing, List.getElem?_map, hw, Option.map_some]

/-- A wait that ran out, of a watchdog that was running. -/
theorem wake_eq_expire (hw : room.watchers[w]? = some watcher) (running : watcher.watchdog.running = true) :
    room.wake w false = (room.goneOn w false).expire w := by
  have idle := ((watcher.watchdog.resume_spec room.agenda w false).1).2 ⟨rfl, running⟩
  simp only [wake, goneOn, modifyWatchdog, hw, idle]

/-- After any other wait the watchdog just goes on. -/
theorem wake_eq_goneOn (room : Room) (w : Nat) {pinged : Bool}
    (h : ∀ watcher, room.watchers[w]? = some watcher → pinged = false → watcher.watchdog.running = false) :
    room.wake w pinged = room.goneOn w pinged := by
  cases hw : room.watchers[w]? with
  | none => simp only [wake, goneOn, modifyWatchdog, hw]
  | some watcher =>
    have spec := watcher.watchdog.resume_spec room.agenda w pinged
    have notIdle : (watcher.watchdog.resume .woken w pinged room.agenda).2.2 ≠ .idle := by
      intro idle
      obtain ⟨hp, running⟩ := spec.1.1 idle
      rw [h watcher hw hp] at running
      cases running
    simp only [wake, goneOn, modifyWatchdog, hw]
    split
    · rfl
    · rfl
    · next idle => exact absurd idle notIdle

/-- Any other wait that is over changes nothing. -/
theorem wake_kept (room : Room) (w : Nat) {pinged : Bool}
    (h : ∀ watcher, room.watchers[w]? = some watcher → pinged = false → watcher.watchdog.running = false) :
    Kept [] room (room.wake w pinged) := by
  have guards : room.standing.guards.modify w (fun e => (e.1, e.2 && pinged)) = room.standing.guards := by
    apply List.ext_getElem?
    intro v
    rw [List.getElem?_modify]
    by_cases hv : w = v
    · subst hv
      cases hw : room.watchers[w]? with
      | none => simp [standing, List.getElem?_map, hw]
      | some watcher =>
        rw [guards_getElem? hw]
        cases pinged with
        | true => simp
        | false => simp [h watcher hw rfl]
    · simp [hv]
  have shift := room.goneOn_shifted w pinged
  rw [standing_goneOn, guards] at shift
  rw [room.wake_eq_goneOn w h]
  exact ⟨shift.client, shift.standing, shift.edits_eq, shift.pending⟩

theorem standing_ranOut (room : Room) (w : Nat) :
    (room.goneOn w false).standing = room.standing.dozed (some w) := by
  simp only [standing_goneOn, Bool.and_false]
  rfl

theorem watchers_ranOut (hw : room.watchers[w]? = some watcher) :
    ∃ watchdog, (room.goneOn w false).watchers[w]? = some ⟨watcher.owner, watchdog⟩ := by
  obtain ⟨hlt, rfl⟩ := List.getElem?_eq_some_iff.1 hw
  simp [goneOn, modifyWatchdog, hlt]

/-- What is done when a wait ran out and the watchdog is still its owner's. -/
theorem wake_eq_shutDown {h : Handle} (hw : room.watchers[w]? = some watcher) (running : watcher.watchdog.running = true)
    (hp : room.paginator? watcher.owner = some pg) (message : pg.message = some h) (current : pg.watchdog = some w)
    (active : pg.status = .active) :
    room.wake w false = ((room.goneOn w false).log (.idle pg.session)).shutDown watcher.owner h .timedOut
      [.yield .nothing, .yield .nothing, .expire watcher.owner] := by
  obtain ⟨watchdog, hw'⟩ := watchers_ranOut hw
  rw [wake_eq_expire hw running, expire]
  simp only [hw', paginator?_goneOn, hp, message]
  rw [if_pos ⟨current, active⟩]

/-- A wait that ran out ends the owner, if the watchdog is still its own. -/
theorem wake_shifted {h : Handle} (hw : room.watchers[w]? = some watcher) (running : watcher.watchdog.running = true)
    (hp : room.paginator? watcher.owner = some pg) (message : pg.message = some h) (current : pg.watchdog = some w)
    (active : pg.status = .active) :
    (room.wake w false).paginator? watcher.owner = some (Standing.ended pg) ∧
      Shifted (room.standing.closed watcher.owner pg) (offEdit pg h) [] room (room.wake w false) := by
  have hp' : ((room.goneOn w false).log (.idle pg.session)).paginator? watcher.owner = some pg :=
    (room.paginator?_goneOn w false watcher.owner).trans hp
  obtain ⟨ended, shift⟩ := shutDown_shifted (h := h) hp' .timedOut [.yield .nothing, .yield .nothing,
    .expire watcher.owner]
  have ranOut := (room.goneOn_shifted w false).log (.idle pg.session)
  have closed : ((room.goneOn w false).log (.idle pg.session)).standing.closed watcher.owner pg =
      room.standing.closed watcher.owner pg := by
    rw [ranOut.standing, standing_ranOut, Standing.closed, current, Standing.dozed_dozed, Standing.dozed_router,
      Standing.closed, current]
  rw [wake_eq_shutDown hw running hp message current active]
  exact ⟨ended, closed ▸ ranOut.trans shift⟩

/-- The watchdog just goes on if the owner has another one or is not live. -/
theorem wake_eq_spared (hw : room.watchers[w]? = some watcher) (running : watcher.watchdog.running = true)
    (h : ∀ pg, room.paginator? watcher.owner = some pg → pg.message.isSome = true →
      ¬(pg.watchdog = some w ∧ pg.status = .active)) : room.wake w false = room.goneOn w false := by
  obtain ⟨watchdog, hw'⟩ := watchers_ranOut hw
  rw [wake_eq_expire hw running, expire]
  simp only [hw', paginator?_goneOn]
  split
  · rfl
  next pg hp =>
  split
  · rfl
  next hm =>
  exact if_neg (h pg hp (by rw [hm]; rfl))

/-- A wait that ran out ends the watchdog alone, if the owner has another one or
is not live. -/
theorem wake_spares (hw : room.watchers[w]? = some watcher) (running : watcher.watchdog.running = true)
    (h : ∀ pg, room.paginator? watcher.owner = some pg → pg.message.isSome = true →
      ¬(pg.watchdog = some w ∧ pg.status = .active)) :
    Shifted (room.standing.dozed (some w)) [] [] room (room.wake w false) := by
  rw [wake_eq_spared hw running h, ← standing_ranOut]
  exact room.goneOn_shifted w false

/-- The owner of a watchdog is left alone when the wait runs out. -/
def Spared (s : Standing) (w : Nat) : Prop :=
  ∀ p r pg, s.guards[w]? = some (p, r) → s.life? p = some pg → pg.message.isSome = true →
    ¬(pg.watchdog = some w ∧ pg.status = .active)

theorem wake_effect (room : Room) (w : Nat) (pinged : Bool) :
    Effect [] room (room.wake w pinged) ∨
      Spared room.standing w ∧ Shifted (room.standing.dozed (some w)) [] [] room (room.wake w pinged) := by
  by_cases ranOut : ∃ watcher, room.watchers[w]? = some watcher ∧ pinged = false ∧ watcher.watchdog.running = true
  · obtain ⟨watcher, hw, rfl, running⟩ := ranOut
    by_cases idle : ∃ pg h, room.paginator? watcher.owner = some pg ∧ pg.message = some h ∧
        pg.watchdog = some w ∧ pg.status = .active
    · obtain ⟨pg, h, hp, message, current, active⟩ := idle
      obtain ⟨ended, shift⟩ := wake_shifted hw running hp message current active
      exact .inl (.stopping hp message (by simp [active]) ended shift)
    · have spared : ∀ pg, room.paginator? watcher.owner = some pg → pg.message.isSome = true →
          ¬(pg.watchdog = some w ∧ pg.status = .active) := by
        rintro pg hp message ⟨current, active⟩
        obtain ⟨h, message⟩ := Option.isSome_iff_exists.1 message
        exact idle ⟨pg, h, hp, message, current, active⟩
      refine .inr ⟨fun p r pg hg life message => ?_, wake_spares hw running spared⟩
      obtain ⟨rfl, -⟩ := Prod.mk.inj (Option.some.inj ((guards_getElem? hw).symm.trans hg))
      obtain ⟨pg', hp, rfl⟩ := exists_of_life? life
      exact spared pg' hp message
  · refine .inl (.kept (room.wake_kept w fun watcher hw hpinged => ?_))
    cases running : watcher.watchdog.running with
    | false => rfl
    | true => exact absurd ⟨watcher, hw, hpinged, running⟩ ranOut

/-! ## Moves -/

/-- What a move can do to how things stand. -/
inductive Change (a : Room) (m : Move) (b : Room) : Prop where
  | effect (h : Effect [] a b)
  /-- A paginator is created, or a number is taken by none. -/
  | created {n : Nat} {o : Option Paginator} (later : a.sessions ≤ n)
      (new : a.standing.Newborn n o) (shift : Shifted (a.standing.born n o) [] [] a b)
  /-- A delivery that was waited for is complete. -/
  | live {p : Nat} {origin : Origin} {h : Handle} {frames : List Frame} {rest : List Task} {pg : Paginator}
      (turn : m = .turn) (ready : a.agenda.ready = .resume (.deliver p origin :: frames) (.ok (.message h)) :: rest)
      (life : a.standing.life? p = some pg)
      (shift : Shifted (a.standing.live p pg (a.authorOf? origin) h) [] [] a b)
  /-- A watchdog ends by itself. -/
  | dozing {w : Nat} (spared : Spared a.standing w) (shift : Shifted (a.standing.dozed (some w)) [] [] a b)
  | rerouted {r : Router Handler} (own : m.sparesRouter = false)
      (shift : Shifted { a.standing with router := r } [] [] a b)

theorem Change.ofKept {m : Move} (h : Kept [] a b) : Change a m b := .effect (.kept h)

/-- The room when what is ready first is taken out. -/
def popped (room : Room) (rest : List Task) : Room := { room with agenda := { room.agenda with ready := rest } }

theorem after_turn {t : Task} {rest : List Task} (ready : room.agenda.ready = t :: rest) :
    room.after .turn = run t (room.popped rest) := by
  have hr : (Timed.agenda room).ready = t :: rest := ready
  rw [after, Timed.turn, hr]
  rfl

/-- If nothing is ready, a turn does nothing. -/
theorem after_turn_nil (ready : room.agenda.ready = []) : room.after .turn = room := by
  have hr : (Timed.agenda room).ready = [] := ready
  rw [after, Timed.turn, hr]

theorem popped_kept {t : Task} {rest : List Task} (ready : room.agenda.ready = t :: rest) :
    Kept [] room (room.popped rest) := by
  refine ⟨rfl, rfl, rfl, fun d hd => .inl ?_⟩
  simp only [pending, popped, Agenda.deliveries, ready, List.flatMap_cons, List.mem_append] at hd ⊢
  rcases hd with hd | hd
  · exact .inl hd
  · exact .inr (.inr hd)

theorem mem_pending_ready {t : Task} {rest : List Task} (ready : room.agenda.ready = t :: rest)
    {d : Nat × Origin} (hd : d ∈ t.deliveries) : d ∈ room.pending := by
  simp only [pending, Agenda.deliveries, ready, List.flatMap_cons, List.mem_append]
  exact .inr (.inl hd)

theorem resume_kept (room : Room) (frame : Frame) (frames : List Frame) {outcome : Outcome}
    (h : ∀ p origin h, frame = .deliver p origin → outcome ≠ .ok (.message h)) :
    Kept (deliveries frames) room (room.resume frame frames outcome) := by
  have finished : ∀ o, Kept (deliveries frames) room (room.finish frames o) := fun o => room.finish_kept frames o
  cases frame with
  | pass => exact finished outcome
  | caller step paginator => exact (room.aside_kept _ _ _ _ _ _).weaken
  | yield a | fail fault => cases outcome <;> exact finished _
  | fetch command id =>
    cases outcome with
    | error fault => exact finished _
    | ok a => exact room.relay_kept _ frames rfl
  | deliver p origin =>
    cases outcome with
    | error fault => exact finished _
    | ok a =>
      cases a with
      | message m => exact absurd rfl (h p origin m rfl)
      | nothing | flag b | value v | sent m held => exact finished _
  | expire p =>
    cases outcome with
    | ok a => exact finished _
    | error fault =>
      rw [resume]
      split
      · exact (room.log_kept _).andThen (finish_kept _ frames _)
      · exact finished _
  | guard press =>
    cases outcome with
    | ok a => exact finished _
    | error fault => exact room.apologize_kept press fault frames
  | notice press =>
    cases outcome with
    | ok a => exact finished _
    | error fault => exact (room.log_kept _).andThen (finish_kept _ frames _)

/-- The delivery of a paginator is complete when its turn comes. -/
theorem after_turn_shifted {origin : Origin} {h : Handle} {rest : List Task}
    (ready : room.agenda.ready = .resume (.deliver p origin :: frames) (.ok (.message h)) :: rest)
    (hp : room.paginator? p = some pg) :
    Shifted (room.standing.live p pg (room.authorOf? origin) h) [] [] room (room.after .turn) := by
  have hp' : (room.popped rest).paginator? p = some pg := hp
  have live := (goLive_shifted hp' origin h).after (popped_kept ready)
  have turned : room.after .turn = ((room.popped rest).goLive p origin h).finish frames (.ok (.message h)) :=
    after_turn ready
  have waited : ∀ d ∈ deliveries frames, d ∈ room.pending := fun d hd =>
    mem_pending_ready ready (d := d) (by simp [Task.deliveries, hd])
  rw [turned]
  exact (live.weaken.kept (finish_kept _ frames _)).absorb waited

theorem turn_change (room : Room) : Change room .turn (room.after .turn) := by
  cases ready : room.agenda.ready with
  | nil =>
    rw [after_turn_nil ready]
    exact .ofKept (.refl room)
  | cons t rest =>
    have popped := popped_kept ready
    have turned := after_turn ready
    cases t with
    | woken w pinged =>
      rw [turned]
      rcases (room.popped rest).wake_effect w pinged with effect | ⟨spared, shift⟩
      · exact .effect (effect.after popped rfl)
      · exact .dozing (w := w) spared (shift.after popped)
    | resume frames outcome =>
      cases frames with
      | nil => exact .ofKept (turned ▸ popped)
      | cons frame frames =>
        have waited : ∀ d ∈ deliveries frames, d ∈ room.pending := fun d hd =>
          mem_pending_ready ready (d := d) (by simp [Task.deliveries, hd])
        by_cases live : ∃ p origin h, frame = .deliver p origin ∧ outcome = .ok (.message h)
        · obtain ⟨p, origin, h, rfl, rfl⟩ := live
          cases hp : room.paginator? p with
          | none =>
            have stays : (room.popped rest).goLive p origin h = room.popped rest := by
              have hp' : (room.popped rest).paginator? p = none := hp
              rw [goLive, hp']
            have finished : room.after .turn = (room.popped rest).finish frames (.ok (.message h)) := by
              rw [turned, run, resume, stays]
            rw [finished]
            exact .ofKept ((popped.andThen (finish_kept _ frames _)).absorb waited)
          | some pg =>
            have shift := after_turn_shifted ready hp
            have live : Shifted (room.standing.live p pg.bare (room.authorOf? origin) h) [] [] room
                (room.after .turn) := shift
            exact .live rfl ready (life?_of_paginator? hp) live
        · have kept : Kept (deliveries frames) (room.popped rest) (room.after .turn) := by
            rw [turned]
            refine resume_kept _ frame frames fun p origin h hf ho => ?_
            exact live ⟨p, origin, h, hf, ho⟩
          exact .ofKept ((popped.andThen kept).absorb waited)

theorem fire_kept (room : Room) (limit : Number) : Kept [] room (room.after (.fire limit)) := by
  rw [after, Timed.fire?]
  split
  · exact .refl room
  next timer rest _ =>
  split
  · have timed : Kept [] room { room with agenda := { room.agenda with timers := rest }.moveTo timer.due } :=
      ⟨rfl, rfl, rfl, fun _ h => .inl h⟩
    exact timed.trans (modifyWatchdog_kept _ timer.key (Watchdog.lapse .woken timer.key) fun wd a =>
      wd.lapse_spec a timer.key)
  · exact .refl room

theorem create_change (room : Room) (m : Move) (source : Source) (overrides : Value) (callback : Option Callback) :
    Change room m (room.create source overrides callback).1 := by
  -- Whatever is created, its number is the next one.
  have add : ∀ (n : Nat) (o : Option Paginator), Shifted (room.standing.born n (o.map Paginator.bare)) [] [] room
      { room with paginators := room.paginators ++ [o], sessions := n } := by
    intro n o
    refine ⟨rfl, ?_, (List.append_nil _).symm, fun _ h => .inl h⟩
    simp only [standing, Standing.born, List.map_append, List.map_singleton]
  rw [create]
  simp only
  split
  · exact .created (n := room.sessions) (o := none) (Nat.le_refl _) (Standing.newborn_none _) (add _ none)
  next pages _ =>
  split
  · exact .created (n := room.sessions + 1) (o := none) (Nat.le_succ _) (Standing.newborn_none _) (add _ none)
  next config _ =>
    refine .created (n := room.sessions + 1) (Nat.le_succ _) ?_ (add _ (some _))
    rintro pg ⟨⟩
    exact ⟨rfl, config, rfl⟩

theorem release_kept {position : Nat} {failure : Option String} (h : room.release position failure = some b) :
    Kept [] room b := by
  rw [release, Option.map_eq_some_iff] at h
  obtain ⟨call, hc, h⟩ := h
  have waited : ∀ d ∈ deliveries call.frames, d ∈ room.pending := fun d hd =>
    List.mem_append_left _ (List.mem_flatMap.2 ⟨call, List.mem_of_getElem? hc, hd⟩)
  have erased : Kept [] room { room with held := room.held.eraseIdx position } := by
    refine ⟨rfl, rfl, rfl, fun d hd => .inl ?_⟩
    simp only [pending, List.mem_append, List.mem_flatMap] at hd ⊢
    rcases hd with ⟨call, hc, hd⟩ | hd
    · exact .inl ⟨call, List.mem_of_mem_eraseIdx hc, hd⟩
    · exact .inr hd
  split at h
  · exact h ▸ (erased.andThen (finish_kept _ call.frames _)).absorb waited
  · exact h ▸ (erased.andThen (succeed_kept _ call.call call.frames)).absorb waited

theorem withPress_change {m : Move} {draft : PressDraft} {use : String → Room × Returned}
    (h : ∀ id, Change room m (use id).1) : Change room m (room.withPress draft use).1 := by
  rw [withPress]
  split
  · exact h _
  · exact .ofKept (.refl room)

theorem withPaginator_change {m : Move} {use : Paginator → Room × Returned}
    (h : ∀ pg, room.paginator? p = some pg → Change room m (use pg).1) :
    Change room m (room.withPaginator p use).1 := by
  rw [withPaginator]
  split
  next pg hp => exact h pg hp
  · exact .ofKept (.refl room)

/-- A paginator may turn its pages, or have others. -/
theorem replaced_change {m : Move} (hp : room.paginator? p = some pg) {pg' : Paginator} (h : pg'.bare = pg.bare) :
    Change room m (room.modifyPaginator p fun _ => pg') := by
  refine .ofKept (room.modifyPaginator_kept p fun old ho => ?_)
  rw [h, Option.some.inj (hp.symm.trans ho)]

theorem act_change (room : Room) (k : Nat) (a : Act) : Change room (.act k a) (act k a room).1 := by
  cases a with
  | create source config callback => exact room.create_change _ source config callback
  | setIndex p index => exact withPaginator_change fun pg hp => replaced_change hp rfl
  | setCallback p callback =>
    exact withPaginator_change fun _ _ => .ofKept (room.modifyPaginator_kept p fun _ _ => rfl)
  | splice p start removed drafts =>
    refine withPaginator_change fun pg hp => ?_
    simp only
    split
    · exact .ofKept (.refl room)
    · exact replaced_change hp rfl
  | showPayload p => exact withPaginator_change fun _ _ => .ofKept (room.clamp_kept p)
  | send p via origin => exact .effect (room.send_effect p via origin [.caller k (some p)])
  | stop p => exact .effect (room.stop_effect p [.caller k none])
  | update p => exact .effect (room.update_effect p [.caller k none])
  | interact p draft => exact withPress_change fun id => .effect (room.receive_effect p _ [.caller k none])
  | dispatch draft => exact withPress_change fun id => .effect (room.dispatch_effect _ [.caller k none])
  | emit kind draft state =>
    rw [act]
    split
    · exact withPress_change fun id => .effect (room.emit_effect k kind draft.user id draft.values state)
    · exact .ofKept (.refl room)
  | wrap kind draft => exact withPress_change fun _ => .ofKept (.refl room)
  | register session names name reaction =>
    exact .rerouted (r := room.router.register session names (.scripted name session reaction)) rfl
      ((Kept.refl room).shifted.rerouted _)
  | unregister session =>
    exact .rerouted (r := room.router.unregister session) rfl ((Kept.refl room).shifted.rerouted _)
  | clientRegister session names =>
    exact .rerouted (r := room.router.register session names .silent) rfl
      ((Kept.refl room).shifted.register session names .silent)
  | clientUnregister session =>
    exact .rerouted (r := room.router.unregister session) rfl ((Kept.refl room).shifted.unregister session)
  | has customId | author origin => exact .ofKept (.refl room)
  | setFailure call message | setHolding on => exact .ofKept (room.aside_kept _ _ _ _ _ _)
  | release position failure =>
    rw [act]
    split
    next h => exact .ofKept (release_kept h)
    · exact .ofKept (.refl room)

/-- **What a move can do to how things stand.** -/
theorem change_after (room : Room) (m : Move) : Change room m (room.after m) := by
  cases m with
  | act k a => exact room.act_change k a
  | turn => exact room.turn_change
  | fire limit => exact .ofKept (room.fire_kept limit)
  | moveTo time => exact .ofKept ⟨rfl, rfl, rfl, fun _ h => .inl h⟩

end Folio.Room
